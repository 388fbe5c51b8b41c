import FileCluster.Proofs.Disk.Parts

/-!
Disks that differ in the contents of regular files only.

Where a path leads depends on the directories and links that it passes, not on what regular files
hold (`SameForm.resolve`). So a change of contents leaves every root where it is, and every path
leads to the place that it led to before.
-/

namespace FileCluster

/-- An entry without what it holds. -/
def Entry.form : Entry → Entry
  | .file _ => .file ByteArray.empty
  | .directory _ => .emptyDirectory
  | e => e

namespace Disk

variable {d d' : Disk} {follow : Bool} {place q : Place}

/-- At every place stands the same kind of thing, with the same target if it is a link. -/
def SameForm (d d' : Disk) : Prop := ∀ q, (d.get? q).map Entry.form = (d'.get? q).map Entry.form

namespace SameForm

theorem refl (d : Disk) : d.SameForm d := fun _ => rfl

theorem symm (h : d.SameForm d') : d'.SameForm d := fun q => (h q).symm

theorem trans {d'' : Disk} (h : d.SameForm d') (h' : d'.SameForm d'') : d.SameForm d'' :=
  fun q => (h q).trans (h' q)

theorem form_bare (e : Entry) : e.bare.form = e.form := by cases e <;> rfl

/-- A change of what some regular files hold. -/
theorem of_look (h : ∀ q, d'.look q = d.look q ∨
    ∃ old new, d.look q = some (.file old) ∧ d'.look q = some (.file new)) : d.SameForm d' := by
  have hform : ∀ (d : Disk) q, (d.get? q).map Entry.form = (d.look q).map Entry.form := by
    intro d q
    unfold look
    rw [Option.map_map]
    exact congrArg (Option.map · (d.get? q)) (funext form_bare).symm
  intro q
  rw [hform, hform]
  rcases h q with hkept | ⟨old, new, hold, hnew⟩
  · rw [hkept]
  · rw [hold, hnew]
    rfl

/-! ## What stands at a place -/

theorem exists_get? (h : d.SameForm d') {e : Entry} (hq : d.get? q = some e) :
    ∃ e', d'.get? q = some e' ∧ e'.form = e.form := by
  have hform := h q
  rw [hq] at hform
  exact Option.map_eq_some_iff.mp hform.symm

theorem get?_directory (h : d.SameForm d') {entries : List (Name × Entry)}
    (hq : d.get? q = some (.directory entries)) :
    ∃ entries', d'.get? q = some (.directory entries') := by
  obtain ⟨e', hq', hform⟩ := h.exists_get? hq
  cases e' with
  | directory entries' => exact ⟨entries', hq'⟩
  | _ => cases hform

theorem get?_file (h : d.SameForm d') {c : ByteArray} (hq : d.get? q = some (.file c)) :
    ∃ c', d'.get? q = some (.file c') := by
  obtain ⟨e', hq', hform⟩ := h.exists_get? hq
  cases e' with
  | file c' => exact ⟨c', hq'⟩
  | _ => cases hform

theorem get?_link (h : d.SameForm d') {target : List UInt8}
    (hq : d.get? q = some (.link target)) : d'.get? q = some (.link target) := by
  obtain ⟨e', hq', hform⟩ := h.exists_get? hq
  cases e' with
  | link target' =>
    cases hform
    exact hq'
  | _ => cases hform

theorem get?_special (h : d.SameForm d') (hq : d.get? q = some .special) :
    d'.get? q = some .special := by
  obtain ⟨e', hq', hform⟩ := h.exists_get? hq
  cases e' with
  | special => exact hq'
  | _ => cases hform

theorem noLinks (h : d.SameForm d') (hlinks : d.NoLinks place) : d'.NoLinks place := by
  intro q t hq hl
  exact hlinks q t hq ((look_eq_some_iff rfl).mpr (h.symm.get?_link ((look_eq_some_iff rfl).mp hl)))

/-! ## Where a path leads -/

theorem walk (hsame : d.SameForm d')
    {onLink onLink' : Place → List Name → Except IoError Target}
    (hlink : ∀ place xs q e, onLink place xs = .ok (.found q e) →
      ∃ e', onLink' place xs = .ok (.found q e'))
    {xs : List Name} {e : Entry}
    (h : walk d follow onLink place xs = .ok (.found q e)) :
    ∃ e', Disk.walk d' follow onLink' place xs = .ok (.found q e') := by
  induction xs generalizing place with
  | nil =>
    rw [Disk.walk] at h ⊢
    cases hget : d.get? place with
    | none =>
      rw [hget] at h
      cases h
    | some x =>
      rw [hget] at h
      cases h
      obtain ⟨e', hget', -⟩ := hsame.exists_get? hget
      exact ⟨e', by rw [hget']⟩
  | cons step xs ih =>
    rw [Disk.walk] at h ⊢
    by_cases hdot : step = [0x2e]
    · rw [if_pos hdot] at h ⊢
      exact ih h
    by_cases hup : step = [0x2e, 0x2e]
    · rw [if_neg hdot, if_pos hup] at h ⊢
      exact ih h
    by_cases hlen : maxName < step.length
    · rw [if_neg hdot, if_neg hup, if_pos hlen] at h
      cases h
    rw [if_neg hdot, if_neg hup, if_neg hlen] at h ⊢
    cases hget : d.get? (place ++ [step]) with
    | none =>
      rw [hget] at h
      dsimp only at h
      split at h <;> cases h
    | some x =>
      rw [hget] at h
      cases x with
      | directory entries =>
        obtain ⟨entries', hget'⟩ := hsame.get?_directory hget
        rw [hget']
        exact ih h
      | link target =>
        rw [hsame.get?_link hget]
        dsimp only at h ⊢
        by_cases hend : (xs.isEmpty && !follow) = true
        · rw [if_pos hend] at h ⊢
          cases h
          exact ⟨_, rfl⟩
        · rw [if_neg hend] at h ⊢
          exact hlink _ _ _ _ h
      | file c =>
        obtain ⟨c', hget'⟩ := hsame.get?_file hget
        rw [hget']
        dsimp only at h ⊢
        split at h
        · rename_i hend
          cases h
          exact ⟨_, if_pos hend⟩
        · cases h
      | special =>
        rw [hsame.get?_special hget]
        exact ⟨e, h⟩

theorem walkLinks (hsame : d.SameForm d') {links : Nat} {xs : List Name} {e : Entry}
    (h : walkLinks d follow links place xs = .ok (.found q e)) :
    ∃ e', Disk.walkLinks d' follow links place xs = .ok (.found q e') := by
  refine walkLinks_relation (Q := fun onLink onLink' => ∀ place xs q e,
    onLink place xs = .ok (.found q e) → ∃ e', onLink' place xs = .ok (.found q e'))
      ?_ ?_ links place xs q e h
  · intro place xs q e h
    cases h
  · intro onLink onLink' hlink place xs q e h
    exact hsame.walk hlink h

/-- A path leads to the same place, and to the same kind of thing there. -/
theorem resolve (hsame : d.SameForm d') {path : String} {e : Entry}
    (h : d.resolve follow path = .ok (.found q e)) :
    ∃ e', d'.resolve follow path = .ok (.found q e') ∧ e'.form = e.form := by
  have hresolve : ∃ e', d'.resolve follow path = .ok (.found q e') := by
    obtain ⟨cause, hcause⟩ | hwalk := resolve_cases path
    · rw [hcause] at h
      cases h
    · rw [hwalk] at h ⊢
      exact hsame.walkLinks h
  obtain ⟨e', he'⟩ := hresolve
  have hform := hsame q
  rw [get?_of_resolve h, get?_of_resolve he'] at hform
  exact ⟨e', he', (Option.some.inj hform).symm⟩

theorem leads (hsame : d.SameForm d') {root : String} {R : Place} (h : d.Leads root R) :
    d'.Leads root R := by
  obtain ⟨entries, h⟩ := h
  obtain ⟨e', he', hform⟩ := hsame.resolve h
  cases e' with
  | directory entries' => exact ⟨entries', he'⟩
  | _ => cases hform

end SameForm

/-! ## Changing what a file holds -/

theorem SameForm.put_file {old : ByteArray} (hget : d.get? place = some (.file old))
    (new : ByteArray) : d.SameForm (d.put place (some (.file new))) := by
  refine .of_look fun q => ?_
  rw [look_put_file hget]
  by_cases hq : q = place
  · rw [if_pos hq, hq]
    exact .inr ⟨old, new, look_of_get? hget, rfl⟩
  · rw [if_neg hq]
    exact .inl rfl

end Disk

end FileCluster
