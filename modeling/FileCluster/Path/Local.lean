import FileCluster.Path.Basic

/-!
Where a path lies on a local disk.

A path is mapped below a local root by appending its components, a slash before each one unless
what stands before is empty or ends in a slash already. A root is a text; roots that are not UTF-8
are left out.
-/

namespace FileCluster.Path

/-- Appends one component to a local path. -/
def appendLocal (base component : String) : String :=
  if base = "" ∨ base.toList.getLast? = some '/' then base ++ component
  else base ++ "/" ++ component

/-- The local path of a path below a root. -/
def toLocal (root : String) (p : Path) : String := p.components.foldl appendLocal root

end FileCluster.Path
