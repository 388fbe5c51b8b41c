import FileCluster.Proofs.Storage.Delete
import FileCluster.Proofs.Storage.Existing

/-!
What the commands of a storage service answer, and what a failed one leaves behind.

Making a file that fails makes no file and takes nothing away, but directories that were made on the
way stay (`create_failed`): those above the path whose names are not too long, if nothing but
directories is in the way. Removing says whether there was anything to remove, unless there is a file
above the path; then it fails, although nothing is there (`delete_answers`).
-/

namespace FileCluster.Storage

open Disk

variable {d : Disk} {root : String} {R : Place} {p : Path}

/-! ## Failing to make a file -/

/-- When making a file fails, what is left is what making the directories above it left. -/
theorem create_of_error {cause : StorageError} (h : (create root d p).1 = .error cause) :
    p ≠ .root ∧ (create root d p).2 = prepared root d p := by
  unfold create at h ⊢
  unfold prepared
  split at h
  · cases h
  next hroot =>
    rw [if_neg hroot]
    refine ⟨fun he => hroot (Path.isRoot_iff.mpr he), ?_⟩
    split at h
    next hdirs => rw [hdirs]
    next d₁ hdirs =>
      rw [hdirs]
      dsimp only at h ⊢
      split at h
      · cases h
      · cases h
      · rfl

/-- When making a file fails, nothing is taken away and nothing but directories is added. Below a
root that is a directory without links these are the directories above the path that were missing, as
far as no name is too long; if there is a file among them, or the local path of one is refused as a
whole, nothing is changed at all. -/
theorem create_failed {cause : StorageError} (h : (create root d p).1 = .error cause) :
    d.PartOf (create root d p).2 ∧
    (∀ q e, (create root d p).2.look q = some e → d.look q = some e ∨ e = .emptyDirectory) ∧
    ∀ R, d.Encloses root R →
      (Open root d R p → MadeAbove d (create root d p).2 R p) ∧
      (¬Open root d R p → (create root d p).2 = d) := by
  obtain ⟨hp, hleft⟩ := create_of_error h
  rw [hleft]
  unfold prepared
  refine ⟨.createDirectories _ d, fun q e => look_createDirectories _ d, fun R hd => ⟨?_, ?_⟩⟩
  · intro hopen
    exact (createDirectories_open hd p hp hopen).above
  · intro hclosed
    obtain ⟨cause, hmade⟩ := createDirectories_not_open hd hp hclosed
    rw [hmade]

/-- A path with a NUL byte in its last component, below a directory that is not there. -/
def nulPath : Path := ((Path.parse "/b/a/\x00").toOption).getD .root

theorem encloses_deepFile : deepFile.Encloses "/r" [[0x72]] := ⟨⟨_, rfl⟩, noLinks_deepFile⟩

theorem open_nulPath : Open "/r" deepFile [[0x72]] nulPath := by
  constructor
  · have hall : ∀ a ∈ nulPath.ancestors,
        (deepFile.look ([[0x72]] ++ a.names)).all (·.isDirectory) = true := by decide +kernel
    refine clear_iff.mpr fun a ha hfile => ?_
    obtain ⟨e, he, hleaf⟩ := hfile
    have hdir := hall a ha
    rw [he] at hdir
    exact absurd hdir (by simp [hleaf])
  · intro a ha
    have hall : ∀ a ∈ nulPath.ancestors, 0 ∉ Text.encode (a.toLocal "/r") ∧
        (Text.encode (a.toLocal "/r")).length ≤ maxPath := by decide +kernel
    exact ⟨(hall a ha).1, (hall a ha).2⟩

theorem create_nulPath : ∃ cause, (create "/r" deepFile nulPath).1 = .error cause :=
  exists_error_of_toOption (by decide +kernel)

/-- The directory `a` was not there; it is made although the file in it cannot be, and the file
beside `b` is left. -/
theorem create_failed_nulPath : ∃ cause, (create "/r" deepFile nulPath).1 = .error cause ∧
    deepFile.look [[0x72], [0x62], [0x61]] = none ∧
    (create "/r" deepFile nulPath).2.look [[0x72], [0x62], [0x61]] = some .emptyDirectory ∧
    (create "/r" deepFile nulPath).2.look [[0x72], [0x6b]] = some (.file ⟨#[0x2a]⟩) := by
  obtain ⟨cause, hfails⟩ := create_nulPath
  obtain ⟨hpart, -, hbelow⟩ := create_failed hfails
  have hmade := (hbelow _ encloses_deepFile).1 open_nulPath
  have hbeside : deepFile.look [[0x72], [0x6b]] = some (.file ⟨#[0x2a]⟩) := rfl
  have habove := hmade.above (nulPath.take 2) (by decide +kernel)
    (by unfold Path.Short; decide +kernel)
  have hplace : [[0x72]] ++ (nulPath.take 2).names = [[0x72], [0x62], [0x61]] := by decide +kernel
  rw [hplace] at habove
  exact ⟨cause, hfails, rfl, habove, hpart _ _ hbeside⟩

/-- The disk need not be as it was when making a file has failed. -/
theorem create_leaves_directory :
    ¬∀ (root : String) (d : Disk) (p : Path) (R : Place) (cause : StorageError),
      d.Encloses root R → (create root d p).1 = .error cause → (create root d p).2 = d := by
  intro h
  obtain ⟨cause, hfails⟩ := create_nulPath
  have hsame := h "/r" deepFile nulPath [[0x72]] cause encloses_deepFile hfails
  have hmade : ((create "/r" deepFile nulPath).2.look [[0x72], [0x62], [0x61]]).isSome = true := by
    decide +kernel
  rw [hsame] at hmade
  cases hmade

/-! ## What removing answers -/

theorem delete_of_found (hp : p ≠ .root) {q : Place} {e : Entry}
    (h : d.resolve false (p.toLocal root) = .ok (.found q e)) : (delete root d p).1 = .ok true := by
  unfold delete entry remove
  rw [Path.isRoot_eq_false_iff.mpr hp, h]
  rfl

theorem delete_of_gone (hp : p ≠ .root) (h : Gone (d.resolve false (p.toLocal root))) :
    (delete root d p).1 = .ok false := by
  unfold delete
  rw [Path.isRoot_eq_false_iff.mpr hp, entry_eq_noSuchFile_iff.mpr h]
  rfl

theorem delete_of_error (hp : p ≠ .root) {cause : IoError} (hcause : cause ≠ .noSuchFile)
    (h : d.resolve false (p.toLocal root) = .error cause) :
    (delete root d p).1 = .error (.ofIo cause) := by
  unfold delete entry
  rw [Path.isRoot_eq_false_iff.mpr hp, h]
  cases cause with
  | noSuchFile => exact absurd rfl hcause
  | _ => rfl

/-- Below a root that is a directory without links, removing answers whether there was anything,
unless a file stands above the path. -/
theorem delete_of_fits (h : d.Encloses root R) (hp : p ≠ .root) (hfits : p.Fits root) :
    (Clear d R p → (delete root d p).1 = .ok (d.look (R ++ p.names)).isSome) ∧
      (¬Clear d R p → (delete root d p).1 = .error (.ofIo .notADirectory)) := by
  have hdescent := h.resolve_descent hp hfits.whole false
  generalize hr : d.resolve false (p.toLocal root) = t at hdescent
  have hclear := hdescent.clear
  have hblocked : t = .error .notADirectory → ¬Clear d R p := fun he => (he ▸ hdescent).not_clear
  have hgone : Gone t → (delete root d p).1 = .ok (d.look (R ++ p.names)).isSome := by
    intro hgone
    rw [hdescent.look_eq_none hgone]
    exact delete_of_gone hp (hr ▸ hgone)
  generalize hns : p.names = ns at hdescent hgone
  cases hdescent with
  | found hget _ =>
    refine ⟨fun _ => ?_, fun hno => absurd (hclear nofun nofun) hno⟩
    rw [delete_of_found hp hr, look_of_get? hget]
    rfl
  | missing =>
    exact ⟨fun _ => hgone (.inr ⟨_, _, rfl⟩), fun hno => absurd (hclear nofun nofun) hno⟩
  | nothing => exact ⟨fun _ => hgone (.inl rfl), fun hno => absurd (hclear nofun nofun) hno⟩
  | blocked =>
    exact ⟨fun hc => absurd hc (hblocked rfl), fun _ => delete_of_error hp nofun hr⟩
  | @tooLong dir rest n _ hlong =>
    have := hfits.component n (by rw [hns]; simp)
    omega

/-- Removing a path whose local path the file system does not refuse answers whether the path is not
the root and something stands there, below a root that is a directory without links, unless a file
stands above the path: then it fails, since there is no directory. Below a root that is not there it
answers that there was nothing. -/
theorem delete_answers (hfits : p.Fits root) :
    (∀ R, d.Encloses root R →
      ((∀ a ∈ p.ancestors, ¬IsFileAt d R a) →
        (delete root d p).1 = .ok (!p.isRoot && (d.look (R ++ p.names)).isSome)) ∧
      ((∃ a ∈ p.ancestors, IsFileAt d R a) →
        (delete root d p).1 = .error (.ofIo .notADirectory))) ∧
    (root ≠ "" → d.entry true root = .error .noSuchFile → (delete root d p).1 = .ok false) := by
  by_cases hp : p = .root
  · subst hp
    refine ⟨fun R _ => ⟨fun _ => rfl, fun habove => ?_⟩, fun _ _ => rfl⟩
    obtain ⟨a, ha, -⟩ := habove
    cases ha
  refine ⟨fun R h => ?_, fun hne hroot => ?_⟩
  · rw [← clear_iff, ← not_clear_iff, Path.isRoot_eq_false_iff.mpr hp]
    exact delete_of_fits h hp hfits
  · exact delete_of_gone hp (.inl (resolve_beyond_nothing hne hroot hp hfits.whole false))

/-- Removing the deep file answers that it was there. -/
theorem delete_answers_deepFile : deepPath.Fits "/r" ∧
    (∀ a ∈ deepPath.ancestors, ¬IsFileAt deepFile [[0x72]] a) ∧
    (delete "/r" deepFile deepPath).1 = .ok true := by
  have hfits : deepPath.Fits "/r" := ⟨by decide +kernel, by decide +kernel, by decide +kernel⟩
  have hthere : deepFile.look ([[0x72]] ++ deepPath.names) = some (.file .empty) := rfl
  have hclear : ∀ a ∈ deepPath.ancestors, ¬IsFileAt deepFile [[0x72]] a := by
    intro a ha hfile
    obtain ⟨e, he, hleaf⟩ := hfile
    rw [look_above_path hthere ha] at he
    cases he
    cases hleaf
  have hanswer := ((delete_answers hfits).1 _ encloses_deepFile).1 hclear
  rw [hthere] at hanswer
  exact ⟨hfits, hclear, hanswer⟩

/-- A path below the file beside the directory `b`. -/
def blockedPath : Path := ((Path.parse "/k/x").toOption).getD .root

/-- Removing may fail although nothing is there: a file stands above the path. -/
theorem delete_fails_below_file :
    ¬∀ (root : String) (d : Disk) (p : Path) (R : Place), d.Encloses root R → p.Fits root →
      (delete root d p).1 = .ok (!p.isRoot && (d.look (R ++ p.names)).isSome) := by
  intro h
  have hfits : blockedPath.Fits "/r" := ⟨by decide +kernel, by decide +kernel, by decide +kernel⟩
  have hanswer := h "/r" deepFile blockedPath [[0x72]] encloses_deepFile hfits
  have hfails : (delete "/r" deepFile blockedPath).1.toOption = none := by decide +kernel
  rw [hanswer] at hfails
  cases hfails

end FileCluster.Storage
