import FileCluster.Naming.Registry
import FileCluster.Naming.Tree

/-!
Taking a server's files into the tree.

A server advertises the files that it holds. A file goes into the tree unless it clashes with what
is there: a node at its path, unless that is a file of the same server, something below its path,
or a file above it. Directories missing above an accepted file are made and put down to the server.
The clashing files are handed back.
-/

namespace FileCluster.Tree

/-- Whether a file advertised by a server cannot have its path. -/
def clashes (t : Tree Owner) (o : Owner) (p : Path) : Bool :=
  match t.get? p with
  | some (.file owner) => owner ≠ o
  | some (.directory _) => true
  | none => t.hasDescendants p || p.ancestors.any t.isFile

/-- Puts a file of a server into the tree, with the directories above it. -/
def addFile (t : Tree Owner) (o : Owner) (p : Path) : Tree Owner :=
  (p.ancestors.foldl (fun t a => t.insertIfAbsent a (.directory (some o))) t).insert p (.file o)

/-- Takes in advertised files one after the other. The root is passed over. The second part holds
the files that clash, the last one first, before those already found. -/
def mergeInto (t : Tree Owner) (o : Owner) (clashing : List Path) :
    List Path → Tree Owner × List Path
  | [] => (t, clashing)
  | p :: rest =>
    if p.isRoot then mergeInto t o clashing rest
    else if t.clashes o p then mergeInto t o (p :: clashing) rest
    else mergeInto (t.addFile o p) o clashing rest

/-- Takes in the files that a server advertises; the second part holds those that clash. -/
def merge (t : Tree Owner) (o : Owner) (paths : List Path) : Tree Owner × List Path :=
  let (t, clashing) := t.mergeInto o [] paths
  (t, clashing.reverse)

end FileCluster.Tree
