import FileCluster.Sorted
import FileCluster.Text.Lossy

/-!
The local file system as a value.

A disk is a tree of named entries. Names are bytes, because a local name need not be text. A place
on the disk is given by the names that lead to it from the top, links not among them; `Disk.get?`
and `Disk.put` read and change what is there. Every file has one name: hard links are left out, and
so are owners, permissions, times and the space that is left.
-/

namespace FileCluster

/-- The name of a local entry. -/
abbrev Name := List UInt8

/-- What stands under a name. -/
inductive Entry where
  /-- a regular file -/
  | file (content : ByteArray)
  /-- a symbolic link -/
  | link (target : List UInt8)
  /-- a device or something else that is neither file, link nor directory -/
  | special
  /-- a directory, its entries in name order -/
  | directory (entries : List (Name × Entry))
  deriving Inhabited

/-- The names that lead to a place from the top. -/
abbrev Place := List Name

namespace Entry

/-- The directory without entries. -/
def emptyDirectory : Entry := .directory []

/-- Whether an entry is a directory. -/
def isDirectory : Entry → Bool
  | .directory _ => true
  | _ => false

/-- Whether an entry is a regular file. -/
def isFile : Entry → Bool
  | .file _ => true
  | _ => false

/-- What stands at a place below an entry. -/
def get? : Entry → Place → Option Entry
  | e, [] => some e
  | .directory entries, n :: rest =>
    match Sorted.lookup n entries with
    | some e => e.get? rest
    | none => none
  | _, _ :: _ => none

/-- Puts an entry at a place, or takes away what is there. The directory that holds the place has
to be there; if it is not, nothing changes. -/
def put (x : Option Entry) : Entry → Place → Entry
  | .directory entries, [n] =>
    match x with
    | some e => .directory (Sorted.insert n e entries)
    | none => .directory (Sorted.erase n entries)
  | .directory entries, n :: rest =>
    match Sorted.lookup n entries with
    | some e => .directory (Sorted.insert n (put x e rest) entries)
    | none => .directory entries
  | e, _ => e

end Entry

/-- A local file system: the entries of its top directory. -/
structure Disk where
  entries : List (Name × Entry)
  deriving Inhabited

namespace Disk

/-- The disk without entries. -/
def empty : Disk := ⟨[]⟩

/-- The top directory. -/
def top (d : Disk) : Entry := .directory d.entries

/-- What stands at a place. -/
def get? (d : Disk) (place : Place) : Option Entry := d.top.get? place

/-- Puts an entry at a place, or takes away what is there. -/
def put (d : Disk) (place : Place) (x : Option Entry) : Disk :=
  match Entry.put x d.top place with
  | .directory entries => ⟨entries⟩
  | _ => d

end Disk

end FileCluster
