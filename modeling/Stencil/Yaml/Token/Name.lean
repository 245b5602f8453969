import Stencil.Text.Utf8
import Stencil.Yaml.Token.Basic

/-!
# Names, Tags and Directives

The tokens that do not hold values.

## Main definitions

* `scanAnchor`: A name after an ampersand or an asterisk.
* `scanTag`: A tag.
* `scanDirective`: A line that starts with a percent sign.
-/

namespace Stencil

namespace Yaml

/-- The character can stand in a name. -/
def isNameChar (c : Char) : Bool :=
  c.isAlphanum || c == '-' || c == '_'

/-- The character can stand in the address that a tag is. -/
def isAddressChar (c : Char) : Bool :=
  c.isAlphanum || "-;/?:@&=+$,_.!~*'()[]%".toList.contains c

/-- The value of a hexadecimal digit. -/
def hexValue? (c : Char) : Option Nat :=
  if c.isDigit then some (c.toNat - 48)
  else if 'a' ≤ c && c ≤ 'f' then some (c.toNat - 87)
  else if 'A' ≤ c && c ≤ 'F' then some (c.toNat - 55)
  else none

/-- The value of a number of hexadecimal digits ahead. -/
def hexAhead (c : Cursor) (count : Nat) : Except Fault Nat :=
  let digits := c.rest.take count
  if digits.length == count && digits.all fun d => (hexValue? d).isSome then
    .ok (digits.foldl (fun n d => 16 * n + (hexValue? d).getD 0) 0)
  else noToken

/-- A name after an ampersand or an asterisk. -/
def scanAnchor (c : Cursor) : Except Fault (String × Cursor) :=
  let (name, after) := c.next.span isNameChar
  if name.isEmpty then noToken
  else if isWhite after.peek || "?:,]\x7d%@\x60".toList.contains after.peek then
    .ok (String.ofList name, after)
  else noToken

/-- The handle of a tag, with the exclamation marks. -/
def scanHandle (c : Cursor) : Except Fault (String × Cursor) :=
  if c.peek != '!' then noToken
  else if c.peek 1 == ' ' then .ok ("!", c.next)
  else
    let (name, after) := c.next.span isNameChar
    if after.peek == '!' then .ok (String.ofList ('!' :: name ++ ['!']), after.next)
    else noToken

/-- The bytes written with percent signs ahead; the count bounds them. -/
def scanEscapes : Nat → Cursor → Except Fault (List UInt8 × Cursor)
  | 0, c => .ok ([], c)
  | n + 1, c =>
    if c.peek == '%' then do
      let byte ← hexAhead c.next 2
      let (more, after) ← scanEscapes n (c.advance 3)
      return (UInt8.ofNat byte :: more, after)
    else .ok ([], c)

/-- The address that a tag is; the count bounds its pieces. -/
def scanAddress : Nat → Cursor → Except Fault (List Char × Cursor)
  | 0, c => .ok ([], c)
  | n + 1, c =>
    let (run, after) := c.span fun ch => isAddressChar ch && ch != '%'
    if after.peek == '%' then do
      let (bytes, after) ← scanEscapes (after.rest.length + 1) after
      match Text.Utf8.decode ⟨bytes.toArray⟩ with
      | .error _ => noToken
      | .ok s =>
        let (more, after) ← scanAddress n after
        return (run ++ s.toList ++ more, after)
    else .ok (run, after)

/-- The address that a tag is, which is not empty. -/
def scanSuffix (c : Cursor) : Except Fault (String × Cursor) := do
  let (cs, after) ← scanAddress (c.rest.length + 1) c
  if after.index == c.index then noToken else return (String.ofList cs, after)

/-- A token after which a gap has to come. -/
def beforeGap {α : Type} (found : α × Cursor) : Except Fault (α × Cursor) :=
  if isGap found.2.peek then .ok found else noToken

/-- A tag. -/
def scanTag (c : Cursor) : Except Fault (Token × Cursor) :=
  let first := c.peek 1
  if first == '<' then do
    let (suffix, after) ← scanSuffix (c.advance 2)
    if after.peek == '>' then beforeGap (.tag none suffix, after.next) else noToken
  else if isWhite first then beforeGap (.tag none "!", c.next)
  else do
    let word := c.next.rest.takeWhile fun ch => !isGap ch
    let (handle, after) ← if word.contains '!' then scanHandle c else .ok ("!", c.next)
    let (suffix, after) ← scanSuffix after
    beforeGap (.tag (some handle) suffix, after)

/-- The place after spaces. -/
def skipSpaces (c : Cursor) : Cursor :=
  c.skip (· == ' ')

/-- The end of a line that may only hold a comment any more. -/
def scanRestOfLine (c : Cursor) : Except Fault Cursor :=
  let after := (skipSpaces c).skipComment
  if isLineEnd after.peek then .ok after.lineBreak.2 else noToken

/-- A number of a version. -/
def scanNumber (c : Cursor) : Except Fault (Nat × Cursor) :=
  let (digits, after) := c.span Char.isDigit
  if digits.isEmpty then noToken
  else .ok (digits.foldl (fun n d => 10 * n + (d.toNat - 48)) 0, after)

/-- The value of a version directive. -/
def scanVersion (c : Cursor) : Except Fault (Token × Cursor) := do
  let (major, after) ← scanNumber (skipSpaces c)
  if after.peek != '.' then noToken
  else
    let (minor, after) ← scanNumber after.next
    beforeGap (.version major minor, after)

/-- The value of a tag directive. -/
def scanHandleDirective (c : Cursor) : Except Fault (Token × Cursor) := do
  let (handle, after) ← scanHandle (skipSpaces c)
  if after.peek != ' ' then noToken
  else
    let (lead, after) ← scanSuffix (skipSpaces after)
    beforeGap (.handle handle lead, after)

/-- A line that starts with a percent sign. -/
def scanDirective (c : Cursor) : Except Fault (Token × Cursor) := do
  let (name, after) := c.next.span isNameChar
  if name.isEmpty || !isGap after.peek then noToken
  else
    let (token, after) ←
      if name == "YAML".toList then scanVersion after
      else if name == "TAG".toList then scanHandleDirective after
      else .ok (.directive, after.skip fun ch => !isLineEnd ch)
    return (token, ← scanRestOfLine after)

end Yaml

end Stencil
