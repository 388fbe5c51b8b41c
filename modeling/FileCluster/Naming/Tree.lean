import FileCluster.NameSet
import FileCluster.Path.Basic
import FileCluster.Sorted

/-!
The directory tree of the naming server.

The tree is a list of nodes in path order. A directory need not have a node of its own: a path with
a node below it is a directory all the same. Because everything below a path comes directly after
it in path order, whatever is asked about a prefix is answered by one contiguous run of nodes.
-/

namespace FileCluster

/-- An entry of the tree. A file belongs to an owner; a directory may be put down to the owner
whose files it was made for. -/
inductive Node (ω : Type) where
  | file (owner : ω)
  | directory (owner : Option ω)
  deriving DecidableEq, Repr

namespace Node

variable {ω : Type}

/-- Whether a node is a file. -/
def isFile : Node ω → Bool
  | .file _ => true
  | .directory _ => false

/-- Whether a node is a directory. -/
def isDirectory (n : Node ω) : Bool := !n.isFile

/-- The owner recorded on a node. -/
def owner? : Node ω → Option ω
  | .file o => some o
  | .directory o => o

end Node

/-- Nodes in path order. -/
structure Tree (ω : Type) where
  nodes : List (Path × Node ω)
  increasing : Sorted.Increasing nodes

namespace Tree

variable {ω : Type}

/-- The tree without nodes. -/
def empty : Tree ω := ⟨[], Sorted.Increasing.nil⟩

instance : Inhabited (Tree ω) := ⟨empty⟩

/-- The number of nodes. -/
def size (t : Tree ω) : Nat := t.nodes.length

/-- The node at a path. -/
def get? (t : Tree ω) (p : Path) : Option (Node ω) := Sorted.lookup p t.nodes

/-- Whether there is a file at a path. -/
def isFile (t : Tree ω) (p : Path) : Bool := (t.get? p).any Node.isFile

/-! ## Runs of nodes -/

/-- The nodes strictly below a path, in path order: the run of nodes after the path that it is a
prefix of. -/
def descendants (t : Tree ω) (p : Path) : List (Path × Node ω) :=
  (t.nodes.dropWhile fun e => decide (e.1 < p) || e.1 == p).takeWhile fun e => e.1.startsWith p

/-- Whether there is a node strictly below a path. -/
def hasDescendants (t : Tree ω) (p : Path) : Bool := !(t.descendants p).isEmpty

/-- What a path is: a directory, a file, or nothing. -/
def isDirectory? (t : Tree ω) (p : Path) : Option Bool :=
  if p.isRoot then some true
  else
    match t.get? p with
    | some n => some n.isDirectory
    | none => if t.hasDescendants p then some true else none

/-- Whether a path is there, with or without a node of its own. -/
def contains (t : Tree ω) (p : Path) : Bool := (t.isDirectory? p).isSome

/-- The names of the entries directly inside a directory. -/
def children (t : Tree ω) (p : Path) : NameSet :=
  NameSet.ofList ((t.descendants p).filterMap fun e => e.1.componentAfter? p)

/-! ## Changes -/

/-- Puts a node at a path, in place of the one that is there. -/
def insert (t : Tree ω) (p : Path) (n : Node ω) : Tree ω :=
  ⟨Sorted.insert p n t.nodes,
    t.increasing.insert (fun _ _ _ => Path.lt_trans) (fun _ _ => Path.lt_of_not_lt) p n⟩

/-- Puts a node at a path that has none. -/
def insertIfAbsent (t : Tree ω) (p : Path) (n : Node ω) : Tree ω :=
  if (t.get? p).isSome then t else t.insert p n

/-- The nodes at a path and below it. -/
def subtree (t : Tree ω) (p : Path) : List (Path × Node ω) :=
  (t.nodes.dropWhile fun e => e.1 < p).takeWhile fun e => e.1.startsWith p

/-- The nodes neither at a path nor below it. -/
def outside (t : Tree ω) (p : Path) : List (Path × Node ω) :=
  (t.nodes.takeWhile fun e => e.1 < p) ++
    (t.nodes.dropWhile fun e => e.1 < p).dropWhile fun e => e.1.startsWith p

theorem outside_sublist (t : Tree ω) (p : Path) : (t.outside p).Sublist t.nodes := by
  have h : (t.nodes.takeWhile fun e => decide (e.1 < p)) ++
      (t.nodes.dropWhile fun e => decide (e.1 < p)) = t.nodes := List.takeWhile_append_dropWhile
  have sub := List.Sublist.append
    (List.Sublist.refl (t.nodes.takeWhile fun e => decide (e.1 < p)))
    (List.dropWhile_sublist (l := t.nodes.dropWhile fun e => decide (e.1 < p))
      fun e => e.1.startsWith p)
  rw [h] at sub
  exact sub

/-- The tree without a path and all below it. -/
def removeSubtree (t : Tree ω) (p : Path) : Tree ω :=
  ⟨t.outside p, t.increasing.sublist (t.outside_sublist p)⟩

end Tree

end FileCluster
