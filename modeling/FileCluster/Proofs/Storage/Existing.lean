import FileCluster.Proofs.Disk.Parts
import FileCluster.Proofs.Storage.Create

/-!
Making a file where something may be already.

A storage service that is told to make a file does not say what stands there if there is something:
it may be a file that can be used, or a directory that cannot. After `create` there is a regular file
at a path unless something else stood there once the directories above had been made
(`isFile_of_create`); and where the root is a directory, that is when something else stood there from
the beginning (`isObstructed_prepared`). All of this holds of any disk, with links and with any names.
-/

namespace FileCluster

open Disk

variable {d d' : Disk} {root : String} {R : Place} {p a : Path}

/-- Whether something stands at a local path, be it a link, that is no regular file and does not lead
to one. -/
def Disk.isObstructed (d : Disk) (path : String) : Bool :=
  (d.entry false path).isOk && !d.isFile path

/-! ## What stands at a path -/

/-- The causes for which looking for what stands at a path fails. -/
def IoError.isOfLookup : IoError → Bool
  | .noSuchFile | .notADirectory | .nameTooLong | .tooManyLinks | .nulInName => true
  | _ => false

theorem Disk.isOfLookup_of_walk {follow : Bool} {onLink : Place → List Name → Except IoError Target}
    (hlink : ∀ place xs cause, onLink place xs = .error cause → cause.isOfLookup = true)
    {place : Place} {xs : List Name} {cause : IoError}
    (h : walk d follow onLink place xs = .error cause) : cause.isOfLookup = true := by
  induction xs generalizing place with
  | nil =>
    rw [walk] at h
    split at h
    · cases h
    · cases h
      rfl
  | cons step xs ih =>
    cases (PartOf.refl d).firstStep place step with
    | on next _ hstep _ =>
      rw [hstep] at h
      exact ih h
    | link target base _ hstep _ =>
      rw [hstep] at h
      split at h
      · cases h
      · exact hlink _ _ _ h
    | leaf e hstep _ =>
      rw [hstep] at h
      split at h
      · cases h
      · cases h
        rfl
    | missing _ _ hstep =>
      rw [hstep] at h
      split at h
      · cases h
      · cases h
        rfl
    | tooLong hstep =>
      rw [hstep] at h
      cases h
      rfl

/-- Looking for what stands at a path fails only for what is not there or cannot be reached. -/
theorem Disk.isOfLookup_of_resolve {follow : Bool} {path : String} {cause : IoError}
    (h : d.resolve follow path = .error cause) : cause.isOfLookup = true := by
  have hwalk : ∀ links place xs cause, walkLinks d follow links place xs = .error cause →
      cause.isOfLookup = true := by
    refine walkLinks_induction (Q := fun onLink => ∀ place xs cause,
      onLink place xs = .error cause → cause.isOfLookup = true) ?_ ?_
    · intro place xs cause h
      cases h
      rfl
    · intro onLink hlink place xs cause h
      exact isOfLookup_of_walk hlink h
  unfold resolve lookUp at h
  dsimp only at h
  split at h
  · cases h
    rfl
  split at h
  · cases h
    rfl
  split at h
  · cases h
    rfl
  · exact hwalk _ _ _ _ h

theorem Disk.resolve_ne_fileExists {follow : Bool} (path : String) :
    d.resolve follow path ≠ .error .fileExists :=
  fun h => nomatch isOfLookup_of_resolve h

theorem Disk.entry_isOk_iff {follow : Bool} {path : String} :
    (d.entry follow path).isOk = true ↔ ∃ q e, d.resolve follow path = .ok (.found q e) := by
  unfold entry
  constructor
  · intro h
    split at h
    next q e hr => exact ⟨q, e, hr⟩
    · cases h
    · cases h
  · rintro ⟨q, e, hr⟩
    rw [hr]
    rfl

theorem Disk.isObstructed_of_found {path : String}
    (h : ∃ q e, d.resolve false path = .ok (.found q e)) :
    d.isObstructed path = !d.isFile path := by
  unfold isObstructed
  rw [entry_isOk_iff.mpr h, Bool.true_and]

theorem Disk.isObstructed_of_free {path : String}
    (h : ∀ q e, d.resolve false path ≠ .ok (.found q e)) : d.isObstructed path = false := by
  unfold isObstructed
  rw [Bool.and_eq_false_iff, ← Bool.not_eq_true, entry_isOk_iff]
  left
  rintro ⟨q, e, hr⟩
  exact h q e hr

/-- A directory that has just been made. -/
structure Disk.NewDirectory (d : Disk) (path : String) (R : Place) : Prop where
  leads : d.Leads path R
  empty : ∀ n rest, d.look (R ++ n :: rest) = none

theorem createDirectory_new (hne : a ≠ .root) (h : d.createDirectory (a.toLocal root) = .ok d') :
    ∃ R, d'.NewDirectory (a.toLocal root) R := by
  unfold createDirectory at h
  rw [resolveNew_toLocal root d hne] at h
  obtain ⟨R, e, hr, hbare, hempty⟩ := lookUp_putNew h (fun _ _ => rfl) nofun true
  cases e with
  | directory entries => exact ⟨R, ⟨entries, hr⟩, hempty⟩
  | _ => cases hbare

/-- In a directory that has just been made nothing is found. -/
theorem Disk.NewDirectory.not_found (h : d.NewDirectory (a.toLocal root) R)
    (ha : p.parent? = some a) (follow : Bool) (q : Place) (e : Entry) :
    d.resolve follow (p.toLocal root) ≠ .ok (.found q e) := by
  intro hr
  obtain ⟨c, hc⟩ := Path.parent?_eq_some ha
  -- the path lies below that of the directory as its last component does
  let last : Path := ⟨[c], fun x hx => p.valid x (by rw [hc]; exact List.mem_append_right _ hx)⟩
  have hlocal : p.toLocal root = last.toLocal (a.toLocal root) := toLocal_child root hc
  have hne : last ≠ .root := fun he => by cases congrArg Path.components he
  have hlinks : d.NoLinks R := by
    rintro _ t ⟨n, rest, rfl⟩ hl
    rw [h.empty] at hl
    cases hl
  rw [hlocal] at hr
  obtain ⟨rfl, hget⟩ := h.leads.place_of_resolve hne hlinks hr
  have hlook := look_of_get? hget
  have hnone : d.look (R ++ last.names) = none := h.empty _ _
  rw [hnone] at hlook
  cases hlook

/-! ## Making directories -/

namespace Storage

/-- When the directories above a path have been made below a root that is there, nothing had to be
made, or the last one that was made is the parent of the path. -/
theorem createDirectories_cases (hroot : d.isDirectory root = true) (p : Path) :
    ∀ {d' : Disk}, p ≠ .root → d.createDirectories (directoriesAbove root p) = (.ok (), d') →
      d' = d ∨ ∃ a R, p.parent? = some a ∧ d'.NewDirectory (a.toLocal root) R := by
  induction p using Path.induction_parent with
  | hroot => exact fun h => absurd rfl h
  | hchild p a ha ih =>
    intro d' _ h
    by_cases hne : a = .root
    · subst hne
      obtain ⟨R, hleads⟩ := exists_leads hroot
      obtain ⟨q, e, hr⟩ := hleads.resolveNew_root
      obtain ⟨above, hlist⟩ := directoriesAbove_of_root ha hleads.ne_empty
      rw [hlist, createDirectories_there hr hroot] at h
      cases h
      exact .inl rfl
    · rw [directoriesAbove_of_parent root ha hne, Disk.createDirectories] at h
      split at h
      next hmade =>
        cases h
        obtain ⟨R, hnew⟩ := createDirectory_new hne hmade
        exact .inr ⟨a, R, ha, hnew⟩
      next hnone =>
        split at h
        · cases h
        next d₁ habove =>
          split at h
          next hmade =>
            cases h
            obtain ⟨R, hnew⟩ := createDirectory_new hne hmade
            exact .inr ⟨a, R, ha, hnew⟩
          next hfails =>
            -- there is a directory although it could not be made
            split at h
            next hdir =>
              cases h
              obtain ⟨q, e, hr⟩ := found_of_isDirectory hdir
              rcases ih hne habove with rfl | ⟨b, R, hb, hnew⟩
              · unfold createDirectory putNew at hnone
                rw [hr] at hnone
                cases hnone
              · exact absurd ((resolveNew_toLocal root _ hne).symm.trans hr)
                  (hnew.not_found hb false q e)
            next => cases h
      next =>
        split at h
        · cases h
          exact .inl rfl
        · cases h

/-- The disk when the directories above a path have been made. -/
def prepared (root : String) (d : Disk) (p : Path) : Disk :=
  (d.createDirectories (directoriesAbove root p)).2

/-- What stands at a path when the directories above it have been made stood there before. -/
theorem isObstructed_prepared (hroot : d.isDirectory root = true) (hp : p ≠ .root)
    (h : (d.createDirectories (directoriesAbove root p)).1 = .ok ()) :
    (prepared root d p).isObstructed (p.toLocal root) = d.isObstructed (p.toLocal root) := by
  rcases createDirectories_cases hroot p hp (Prod.ext h rfl) with hsame | ⟨a, R, ha, hnew⟩
  · exact congrArg (·.isObstructed (p.toLocal root)) hsame
  · have hfree : ∀ q e, (prepared root d p).resolve false (p.toLocal root) ≠ .ok (.found q e) :=
      hnew.not_found ha false
    rw [isObstructed_of_free hfree, isObstructed_of_free fun q e hr => ?_]
    obtain ⟨e', he', -⟩ := (PartOf.createDirectories (directoriesAbove root p) d).resolve hr
    exact hfree q e' he'

/-! ## Making a file -/

/-- The size of a file can be had exactly where there is a regular file. -/
theorem isOk_size (hp : p ≠ .root) : (size root d p).isOk = d.isFile (p.toLocal root) := by
  unfold size content Disk.isFile
  rw [Path.isRoot_eq_false_iff.mpr hp]
  cases d.entry true (p.toLocal root) with
  | error e => rfl
  | ok e => cases e <;> rfl

theorem found_of_fileExists {path : String} (h : d.createFile path = .error .fileExists) :
    ∃ q e, d.resolve false path = .ok (.found q e) := by
  unfold createFile createNew putNew at h
  split at h
  · cases h
  next q e hr => exact ⟨q, e, hr⟩
  next hr =>
    cases h
    exact absurd hr (resolve_ne_fileExists path)

theorem not_found_of_createFile {path : String} (h : d.createFile path = .ok d') (q : Place)
    (e : Entry) : d.resolve false path ≠ .ok (.found q e) := by
  intro hr
  unfold createFile createNew putNew at h
  rw [hr] at h
  cases h

theorem isFile_createFile {path : String} (h : d.createFile path = .ok d') :
    d'.isFile path = true := by
  obtain ⟨q, e, hr, hbare, -⟩ := lookUp_putNew h (fun _ _ => rfl) nofun true
  unfold Disk.isFile entry resolve
  rw [hr]
  cases e with
  | file content => rfl
  | _ => cases hbare

/-- After a file has been made or something was there already, there is a regular file at the path
unless something else stood there when the directories above had been made. -/
theorem isFile_of_create {made : Bool} (hp : p ≠ .root) (h : create root d p = (.ok made, d')) :
    (d.createDirectories (directoriesAbove root p)).1 = .ok () ∧
      d'.isFile (p.toLocal root) = !(prepared root d p).isObstructed (p.toLocal root) := by
  unfold create at h
  rw [Path.isRoot_eq_false_iff.mpr hp] at h
  simp only [Bool.false_eq_true, if_false] at h
  unfold prepared
  split at h
  · cases h
  next d₁ hdirs =>
    rw [hdirs]
    refine ⟨rfl, ?_⟩
    split at h
    next hmade =>
      cases h
      rw [isFile_createFile hmade, isObstructed_of_free (not_found_of_createFile hmade)]
      rfl
    next hthere =>
      cases h
      rw [isObstructed_of_found (found_of_fileExists hthere), Bool.not_not]
    · cases h

end Storage

end FileCluster
