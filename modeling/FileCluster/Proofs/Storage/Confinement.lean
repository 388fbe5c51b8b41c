import FileCluster.Cluster.Basic
import FileCluster.Proofs.Disk.Confined

/-!
What remote calls to a storage server can reach.

A storage server looks up only the local paths of paths below its root, the root's own local path
and those above it, and it makes, removes and writes only what such a path leads to. The names of a
path are no steps to another place, and no path above the root's misses anything but what was taken
away below the root; so whatever the calls, all that they change stays below the root. Main
statement: after any calls of any methods with any arguments, the disk is as it was but below the
root, and the root is there (`dispatchAll_confined`).
-/

namespace FileCluster

open Disk

variable {d d' : Disk} {root : String} {R : Place} {p : Path}

namespace Storage

/-! ## Local paths above the root -/

/-- The names before a slash are the first names of a local path. -/
theorem pathNames_before_slash {s : String} {cs more : List Char}
    (h : s.toList = cs ++ '/' :: more) :
    pathNames (Text.encode (String.ofList cs)) <+: pathNames (Text.encode s) := by
  have hs : s = String.ofList cs ++ "/" ++ String.ofList more := by
    rw [← String.ofList_toList (s := s), h, List.append_cons, String.ofList_append,
      String.ofList_append]
  have hslash : Text.encode "/" = [0x2f] := rfl
  rw [hs, Text.encode_append, Text.encode_append, hslash, List.append_assoc, List.singleton_append,
    pathNames_slash]
  exact List.prefix_append _ _

/-- What is left before a slash is looked for begins with the slash. -/
theorem dropWhile_to_slash {cs : List Char} (h : cs.dropWhile (· ≠ '/') ≠ []) :
    ∃ more, cs.dropWhile (· ≠ '/') = '/' :: more := by
  induction cs with
  | nil => exact absurd rfl h
  | cons c cs ih =>
    by_cases hc : c = '/'
    · exact ⟨cs, by simp [hc]⟩
    · have hdrop : (c :: cs).dropWhile (· ≠ '/') = cs.dropWhile (· ≠ '/') :=
        List.dropWhile_cons_of_pos (by simpa using hc)
      rw [hdrop] at h ⊢
      exact ih h

/-- What stands before a slash, and before the slashes before it, is followed by one. -/
theorem exists_before_slashes {cs rest : List Char} (h : '/' :: rest <:+ cs.reverse) :
    ∃ more, cs = (('/' :: rest).dropWhile (· = '/')).reverse ++ '/' :: more := by
  rw [List.dropWhile_cons_of_pos (by simp)]
  induction rest with
  | nil =>
    obtain ⟨front, hfront⟩ := h
    exact ⟨front.reverse, by rw [← List.reverse_reverse cs, ← hfront]; simp⟩
  | cons c rest ih =>
    by_cases hc : c = '/'
    · subst hc
      rw [List.dropWhile_cons_of_pos (by simp)]
      exact ih ((List.suffix_cons _ _).trans h)
    · rw [List.dropWhile_cons_of_neg (by simpa using hc)]
      obtain ⟨front, hfront⟩ := h
      exact ⟨front.reverse, by rw [← List.reverse_reverse cs, ← hfront]; simp⟩

/-- The local path above a local path has the first of its names. -/
theorem pathNames_localParent {s above : String} (h : localParent? s = some above) :
    pathNames (Text.encode above) <+: pathNames (Text.encode s) := by
  unfold localParent? at h
  dsimp only at h
  split at h
  · cases h
  split at h
  · cases h
    exact List.nil_prefix
  next hrest =>
    split at h
    · cases h
      exact List.nil_prefix
    · cases h
      obtain ⟨rest, hslash⟩ := dropWhile_to_slash (mt List.isEmpty_iff.mpr hrest)
      have hsuffix : '/' :: rest <:+ s.toList.reverse :=
        hslash ▸ (List.dropWhile_suffix _).trans (List.dropWhile_suffix _)
      obtain ⟨more, hmore⟩ := exists_before_slashes hsuffix
      rw [hslash]
      exact pathNames_before_slash hmore

theorem pathNames_of_mem_localParents {fuel : Nat} {s s' : String} (h : s' ∈ localParents fuel s) :
    pathNames (Text.encode s') <+: pathNames (Text.encode s) := by
  induction fuel generalizing s with
  | zero => cases h
  | succ fuel ih =>
    rw [localParents] at h
    split at h
    · cases h
    · split at h
      · exact List.mem_singleton.mp h ▸ List.prefix_refl _
      · rename_i above habove
        rcases List.mem_cons.mp h with rfl | h
        · exact List.prefix_refl _
        · exact (ih h).trans (pathNames_localParent habove)

/-- Of the directories that are made for a path, none is missing but below the root. -/
theorem missesBelow_directoriesAbove (h : d.Encloses root R) (p : Path) :
    ∀ s ∈ directoriesAbove root p, ∀ d', Confined d d' R → MissesBelow R (d'.resolveNew s) := by
  intro s hs d' hc
  unfold directoriesAbove at hs
  rcases List.mem_append.mp hs with hs | hs
  · obtain ⟨a, ha, rfl⟩ := List.mem_map.mp hs
    have hne := Path.ne_root_of_mem_ancestors (List.mem_reverse.mp ha)
    rw [resolveNew_toLocal root d' hne]
    exact (hc.leadsBelow_toLocal h hne false).misses
  · exact hc.missesBelow_of_prefix h (pathNames_of_mem_localParents hs)

/-! ## Requests and commands -/

theorem create_confined (h : d.Encloses root R) (hc : Confined d d' R) (p : Path) :
    Confined d (create root d' p).2 R := by
  have habove := Confined.createDirectories _ (missesBelow_directoriesAbove h p) hc
  unfold create
  split
  · exact hc
  next hroot =>
    split
    next hdirs =>
      rw [hdirs] at habove
      exact habove
    next d₁ hdirs =>
      rw [hdirs] at habove
      have hp : p ≠ .root := fun he => hroot (Path.isRoot_iff.mpr he)
      split
      next hmade =>
        exact habove.putNew (habove.leadsBelow_toLocal h hp false).misses (fun _ _ => rfl)
          (fun _ he => by cases he) hmade
      · exact habove
      · exact habove

theorem pruneAll_confined (h : d.Encloses root R) (ps : List Path) (hps : ∀ p ∈ ps, p ≠ .root) :
    ∀ {d' : Disk}, Confined d d' R → Confined d (pruneAll root d' ps) R := by
  induction ps with
  | nil => exact id
  | cons p ps ih =>
    intro d' hc
    obtain ⟨hp, hps⟩ := List.forall_mem_cons.mp hps
    rw [pruneAll]
    split
    · split
      next hremoved =>
        exact ih hps (hc.removeDirectory (hc.leadsBelow_toLocal h hp false) hremoved)
      · exact hc
    · exact hc

theorem delete_confined (h : d.Encloses root R) (hc : Confined d d' R) (p : Path) :
    Confined d (delete root d' p).2 R := by
  have hancestors : ∀ a ∈ p.ancestors.reverse, a ≠ .root :=
    fun _ ha => Path.ne_root_of_mem_ancestors (List.mem_reverse.mp ha)
  unfold delete
  split
  · exact hc
  next hroot =>
    have hp : p ≠ .root := fun he => hroot (Path.isRoot_iff.mpr he)
    split
    · exact hc
    · exact hc
    · split
      next hremoved =>
        exact pruneAll_confined h _ hancestors
          (hc.remove (hc.leadsBelow_toLocal h hp false) hremoved)
      · exact hc

theorem write_confined (h : d.Encloses root R) (hc : Confined d d' R) (p : Path) (offset : UInt64)
    (data : ByteArray) : Confined d (write root d' p offset data).2 R := by
  unfold write
  split
  · exact hc
  next hcontent =>
    have hp : p ≠ .root := by
      rintro rfl
      cases hcontent
    split
    next hwritten => exact hc.writeFile (hc.leadsBelow_toLocal h hp true) hwritten
    · exact hc

theorem answer_confined (h : d.Encloses root R) (hc : Confined d d' R) (r : StorageRequest) :
    Confined d (answer root d' r).2 R := by
  cases r with
  | size p => exact hc
  | read p offset length => exact hc
  | write p offset data => exact write_confined h hc p offset data

theorem obey_confined (h : d.Encloses root R) (hc : Confined d d' R) (r : CommandRequest) :
    Confined d (obey root d' r).2 R := by
  cases r with
  | create p => exact create_confined h hc p
  | delete p => exact delete_confined h hc p

end Storage

/-- A server that removes paths removes nothing but what is below its root. -/
theorem StorageServer.removeAll_confined (h : d.Encloses root R) (ps : List Path) :
    ∀ {d' : Disk}, Confined d d' R → Confined d (removeAll root d' ps) R := by
  induction ps with
  | nil => exact id
  | cons p ps ih => exact fun hc => ih (Storage.delete_confined h hc p)

/-! ## Calls -/

/-- What every request leaves true, dispatching a call leaves true, whatever the call. -/
theorem Interface.dispatch_invariant {I : Interface} {σ : Type} {P : σ → Prop}
    {implementation : I.Implementation (StateM σ)}
    (h : ∀ r s, P s → P ((implementation r).run s).2) (name : String) (args : List Json) {s : σ}
    (hs : P s) : P ((I.dispatch implementation name args).run s).2 := by
  unfold dispatch
  split
  · exact hs
  · exact h _ s hs

namespace Cluster

/-- A call to one of the two services of a storage server: any method, any arguments. -/
inductive StorageCall where
  /-- about the data of files -/
  | data (method : String) (args : List Json)
  /-- a command -/
  | command (method : String) (args : List Json)

/-- Dispatches a call to the storage server with a root. -/
def dispatchAt (root : String) : StorageCall → StateM Cluster Interface.Dispatched
  | .data method args => storageInterface.dispatch (storageOf root) method args
  | .command method args => commandInterface.dispatch (commandOf root) method args

/-- The cluster after calls in turn. -/
def dispatchAll (root : String) (c : Cluster) (calls : List StorageCall) : Cluster :=
  calls.foldl (fun c call => ((dispatchAt root call).run c).2) c

/-- Nothing of a cluster has changed but its disk, and that only below a place. -/
structure ConfinedTo (c c' : Cluster) (R : Place) : Prop where
  disk : Confined c.disk c'.disk R
  rest : c' = { c with disk := c'.disk }

variable {c c' : Cluster}

/-- One call changes nothing but what is below the root. -/
theorem dispatchAt_confined (h : c.disk.Encloses root R) (hc : c.ConfinedTo c' R)
    (call : StorageCall) : c.ConfinedTo ((dispatchAt root call).run c').2 R := by
  have hdisk : ∀ (s : Cluster) (d : Disk), c.ConfinedTo s R → Confined c.disk d R →
      c.ConfinedTo { s with disk := d } R := by
    rintro s d ⟨-, hrest⟩ hd
    refine ⟨hd, ?_⟩
    rw [hrest]
  cases call with
  | data method args =>
    refine Interface.dispatch_invariant (P := fun s => c.ConfinedTo s R) (fun r s hs => ?_) method
      args hc
    exact hdisk s (Storage.answer root s.disk r).2 hs (Storage.answer_confined h hs.disk r)
  | command method args =>
    refine Interface.dispatch_invariant (P := fun s => c.ConfinedTo s R) (fun r s hs => ?_) method
      args hc
    exact hdisk s (Storage.obey root s.disk r).2 hs (Storage.obey_confined h hs.disk r)

theorem dispatchAll_confinedTo (h : c.disk.Encloses root R) (calls : List StorageCall) :
    ∀ {c' : Cluster}, c.ConfinedTo c' R → c.ConfinedTo (dispatchAll root c' calls) R := by
  induction calls with
  | nil => exact id
  | cons call calls ih => exact fun hc => ih (dispatchAt_confined h hc call)

/-- Whatever is called at a storage server whose root is a directory without links below it: every
file and every directory that is not below the root stays as it was, the root stays a directory
without links below it, and nothing but the disk changes. The root's local path still leads to a
directory then, unless it passed through places below the root itself. -/
theorem dispatchAll_confined (hleads : c.disk.Leads root R) (hlinks : c.disk.NoLinks R)
    (calls : List StorageCall) :
    (∀ q, ¬Beneath R q → (c.dispatchAll root calls).disk.look q = c.disk.look q) ∧
    (c.dispatchAll root calls).disk.look R = some .emptyDirectory ∧
    (c.dispatchAll root calls).disk.NoLinks R ∧
    c.dispatchAll root calls = { c with disk := (c.dispatchAll root calls).disk } ∧
    (c.disk.Anchored (Beneath R) root R →
      (c.dispatchAll root calls).disk.isDirectory root = true) := by
  have hencloses : c.disk.Encloses root R := ⟨hleads, hlinks⟩
  have hafter := dispatchAll_confinedTo hencloses calls ⟨.refl hlinks, rfl⟩
  exact ⟨hafter.disk.outside, hafter.disk.look_root hencloses, hafter.disk.noLinks, hafter.rest,
    fun hanchored => (hanchored _ hafter.disk.outside).isDirectory⟩

/-- A machine with a root that holds a file, and a file beside the root. -/
def besideRoot : Cluster :=
  .ofDisk ⟨[([0x61], .directory [([0x78], .file .empty)]), ([0x62], .file ⟨#[0x2a]⟩)]⟩

/-- Calls that make a file, try to remove the one beside the root, and remove the one below it. -/
def boldCalls : List StorageCall :=
  [.command "create" [.string "/y/z"], .command "delete" [.string "/../b"],
    .data "write" [.string "/y/z", .ofUInt64 0, .array [.ofUInt64 7]], .data "format" [],
    .command "delete" [.string "/x"]]

/-- The calls do what they can below the root, and the file beside it stays. -/
theorem dispatchAll_confined_besideRoot :
    besideRoot.disk.Leads "/a" [[0x61]] ∧ besideRoot.disk.NoLinks [[0x61]] ∧
    besideRoot.disk.Anchored (Beneath [[0x61]]) "/a" [[0x61]] ∧
    (besideRoot.dispatchAll "/a" boldCalls).disk.look [[0x62]] = some (.file ⟨#[0x2a]⟩) ∧
    (besideRoot.dispatchAll "/a" boldCalls).disk.isDirectory "/a" = true ∧
    (((besideRoot.dispatchAll "/a" boldCalls).disk.look [[0x61], [0x78]]).isNone &&
      ((besideRoot.dispatchAll "/a" boldCalls).disk.isFile "/a/y/z")) = true := by
  have hlinks : besideRoot.disk.NoLinks [[0x61]] := by
    rintro _ t ⟨n, rest, rfl⟩ hl
    have hget : (Entry.directory [([0x78], .file .empty)]).get? (n :: rest) = some (.link t) :=
      (look_eq_some_iff rfl).mp hl
    rw [Entry.get?_directory_cons, Sorted.lookup] at hget
    split at hget
    · cases rest <;> cases hget
    · cases hget
  have hanchored : besideRoot.disk.Anchored (Beneath [[0x61]]) "/a" [[0x61]] := by
    let a : Path := ⟨["a"], fun c hc => List.mem_singleton.mp hc ▸
      ⟨by decide, by decide, by decide, by decide⟩⟩
    exact .of_toLocal (r := a) ⟨by decide, by decide, by decide⟩ rfl (not_beneath_self _)
  obtain ⟨houtside, -, -, -, hroot⟩ := dispatchAll_confined hanchored.leads hlinks boldCalls
  refine ⟨hanchored.leads, hlinks, hanchored, ?_, hroot hanchored, by decide +kernel⟩
  rw [houtside]
  · rfl
  · rintro ⟨n, rest, he⟩
    cases he

end Cluster

end FileCluster
