import FileCluster.Proofs.Disk.Confined
import FileCluster.Proofs.Storage.Losses

/-!
The loop that removes empty directories above a path.

The loop goes up from the parent of a path. It stops at the root and at the first directory that is
not empty, cannot be read or cannot be removed (`pruneRound`). On every disk and for every path it
ends, and does what `pruneAbove` does (`exists_rounds`).

What it takes away are directories that hold nothing but what lies above the path (`Emptied`), the
nearest first. It takes away all of them as long as the local path of the root leads to the root
(`Rounds.cleared`). A root like `/a/b/..` may go through a directory that is taken away; then it
leads nowhere, and the loop stops there.
-/

namespace FileCluster

open Disk

/-- Nothing stands on a part where nothing stands on the whole. -/
theorem Disk.PartOf.look_eq_none {d d' : Disk} (h : d.PartOf d') {q : Place}
    (hnone : d'.look q = none) : d.look q = none := by
  cases hq : d.look q with
  | none => rfl
  | some e => exact (h q e hq).symm.trans hnone

namespace Storage

variable {d d₁ d' whole : Disk} {root : String} {R : Place} {p a b c : Path}

/-! ## Rounds -/

/-- One round of the loop, at a directory if there is one: what the disk and the directory are in
the next round, unless the loop stops. -/
def pruneRound (root : String) (d : Disk) : Option Path → Option (Disk × Option Path)
  | none => none
  | some a =>
    if a.isRoot then none
    else
      match d.readDirectory (a.toLocal root) with
      | .ok [] =>
        match d.removeDirectory (a.toLocal root) with
        | .ok d => some (d, a.parent?)
        | .error _ => none
      | _ => none

/-- The loop goes so many rounds, from a disk and a directory, and stops with a disk. -/
inductive Rounds (root : String) : Nat → Disk → Option Path → Disk → Prop
  | stop {d : Disk} {current : Option Path} (h : pruneRound root d current = none) :
      Rounds root 0 d current d
  | round {d d₁ d' : Disk} {current next : Option Path} {n : Nat}
      (h : pruneRound root d current = some (d₁, next)) (rest : Rounds root n d₁ next d') :
      Rounds root (n + 1) d current d'

theorem pruneRound_eq_some {next : Option Path}
    (h : pruneRound root d (some a) = some (d₁, next)) :
    a ≠ .root ∧ d.readDirectory (a.toLocal root) = .ok [] ∧
      d.removeDirectory (a.toLocal root) = .ok d₁ ∧ next = a.parent? := by
  rw [pruneRound] at h
  split at h
  · cases h
  next hroot =>
    split at h
    next hread =>
      split at h
      next hremove =>
        cases h
        exact ⟨fun he => hroot (Path.isRoot_iff.mpr he), hread, hremove, rfl⟩
      next => cases h
    next => cases h

/-- Pruning above a path goes one round and on from the parent, unless the loop stops. -/
theorem pruneAbove_eq (ha : p.parent? = some a) :
    pruneAbove root d p =
      ((pruneRound root d (some a)).map fun after => pruneAbove root after.1 a).getD d := by
  unfold pruneAbove
  rw [Path.ancestors_of_parent ha, pruneRound]
  by_cases hroot : a = .root
  · rw [if_pos hroot, if_pos (Path.isRoot_iff.mpr hroot)]
    rfl
  · rw [if_neg hroot, if_neg (mt Path.isRoot_iff.mp hroot), List.reverse_append,
      List.reverse_singleton, List.singleton_append, pruneAll]
    cases d.readDirectory (a.toLocal root) with
    | error cause => rfl
    | ok entries =>
      cases entries with
      | nil =>
        dsimp only
        cases d.removeDirectory (a.toLocal root) <;> rfl
      | cons entry entries => rfl

/-- Whatever is there, the loop ends: it goes at most one round for each directory above the
path. -/
theorem exists_rounds (root : String) (p : Path) :
    ∀ d, ∃ n ≤ p.ancestors.length, Rounds root n d p.parent? (pruneAbove root d p) := by
  induction p using Path.induction_parent with
  | hroot => exact fun d => ⟨0, Nat.zero_le _, .stop rfl⟩
  | hchild p a ha ih =>
    intro d
    rw [ha]
    cases h : pruneRound root d (some a) with
    | none =>
      rw [pruneAbove_eq ha, h]
      exact ⟨0, Nat.zero_le _, .stop h⟩
    | some after =>
      obtain ⟨d₁, next⟩ := after
      obtain ⟨hroot, -, -, rfl⟩ := pruneRound_eq_some h
      obtain ⟨n, hn, hrounds⟩ := ih d₁
      have hlength : p.ancestors.length = a.ancestors.length + 1 := by
        rw [Path.ancestors_of_child ha hroot, List.length_append, List.length_singleton]
      rw [pruneAbove_eq ha, h]
      exact ⟨n + 1, by omega, .round h hrounds⟩

/-! ## What one round does -/

/-- On a part of a disk whose root is enclosed, the local path of a path leads to its place, if
anywhere. -/
theorem place_of_part (h : whole.Encloses root R) (hpart : d.PartOf whole) (ha : a ≠ .root)
    {follow : Bool} {q : Place} {e : Entry}
    (hr : d.resolve follow (a.toLocal root) = .ok (.found q e)) : q = R ++ a.names := by
  obtain ⟨e', he', -⟩ := hpart.resolve hr
  exact (h.leads.place_of_resolve ha h.noLinks he').1

/-- A round takes away an empty directory. -/
theorem look_pruneRound (h : whole.Encloses root R) (hpart : d.PartOf whole)
    {next : Option Path} (hround : pruneRound root d (some a) = some (d₁, next)) :
    d.get? (R ++ a.names) = some (.directory []) ∧
      ∀ q, d₁.look q = if R ++ a.names <+: q then none else d.look q := by
  obtain ⟨hroot, -, hremove, -⟩ := pruneRound_eq_some hround
  unfold removeDirectory at hremove
  split at hremove
  case h_1 hfound =>
    cases hremove
    have hget := get?_of_resolve hfound
    rw [place_of_part h hpart hroot hfound] at hget ⊢
    exact ⟨hget, look_removeAt hroot (look_ne_none (look_of_get? hget))⟩
  all_goals cases hremove

/-- Where the root leads to its place the loop goes on past an empty directory. -/
theorem not_empty_of_stop (hleads : d.Leads root R) (ha : a ≠ .root) (hfits : a.Fits root)
    (hstop : pruneRound root d (some a) = none) :
    d.get? (R ++ a.names) ≠ some (.directory []) := by
  intro hget
  have hread : d.readDirectory (a.toLocal root) = .ok [] := by
    unfold readDirectory entry
    rw [hleads.resolve_found ha hfits hget nofun true]
  have hremove : d.removeDirectory (a.toLocal root) = .ok (d.put (R ++ a.names) none) := by
    unfold removeDirectory
    rw [hleads.resolve_found ha hfits hget nofun false]
  rw [pruneRound, if_neg (mt Path.isRoot_iff.mp ha), hread] at hstop
  dsimp only at hstop
  rw [hremove] at hstop
  cases hstop

/-! ## Emptied directories -/

/-- Below a directory there is nothing but what lies above a path, the path itself and what lies
below the path. -/
def Emptied (d : Disk) (R : Place) (p a : Path) : Prop :=
  ∀ q, Beneath (R ++ a.names) q → d.look q ≠ none →
    q <+: R ++ p.names ∨ R ++ p.names <+: q

/-- Taking away a place above a path changes nothing about which directories are emptied, if nothing
else is at the place and below it. -/
theorem emptied_iff (hap : a.names <+: p.names)
    (hlook : ∀ q, d₁.look q = if R ++ a.names <+: q then none else d.look q)
    (hnothing : ∀ q, R ++ a.names <+: q → d.look q ≠ none →
      q <+: R ++ p.names ∨ R ++ p.names <+: q) :
    Emptied d₁ R a b ↔ Emptied d R p b := by
  have happ : R ++ a.names <+: R ++ p.names := (List.prefix_append_right_inj R).mpr hap
  refine forall₂_congr fun q _ => ?_
  rw [hlook]
  by_cases hq : R ++ a.names <+: q
  · rw [if_pos hq]
    exact iff_of_true (fun hne => absurd rfl hne) (hnothing q hq)
  · rw [if_neg hq, or_iff_left hq]
    refine imp_congr_right fun _ => ⟨fun h => .inl (h.trans happ), ?_⟩
    rintro (h | h)
    · exact (List.prefix_or_prefix_of_prefix h happ).resolve_right hq
    · exact absurd (happ.trans h) hq

/-- What pruning above a path leaves of a disk: all but emptied directories above the path, and none
of those if the root's local path leads to the root in the end. -/
structure Cleared (root : String) (d d' : Disk) (R : Place) (p : Path) : Prop where
  part : d'.PartOf d
  kept : ∀ q, (∀ a ∈ p.ancestors, Emptied d R p a → q ≠ R ++ a.names) → d'.look q = d.look q
  gone : d'.Leads root R → ∀ a ∈ p.ancestors, Emptied d R p a → d'.look (R ++ a.names) = none

/-- There is nothing at a path's place, but the directory above is there. -/
structure Vacant (d : Disk) (R : Place) (p : Path) : Prop where
  free : d.look (R ++ p.names) = none
  directory : ∀ a, p.parent? = some a → d.look (R ++ a.names) = some .emptyDirectory

/-- Nothing is left where a place has been taken away, and the directory above stays. -/
theorem Vacant.of_removed (hthere : d.look (R ++ a.names) ≠ none)
    (hlook : ∀ q, d₁.look q = if R ++ a.names <+: q then none else d.look q) : Vacant d₁ R a where
  free := by rw [hlook, if_pos (List.prefix_refl _)]
  directory b hb := by
    obtain ⟨n, hn⟩ := Path.names_of_parent hb
    obtain ⟨e, he⟩ := Option.ne_none_iff_exists'.mp hthere
    rw [hlook, if_neg]
    · rw [hn, ← List.append_assoc] at he
      exact look_above he
    · intro hpre
      have hlen := hpre.length_le
      rw [hn] at hlen
      simp only [List.length_append, List.length_singleton] at hlen
      omega

/-- If the directory above a path is not empty, none above the path has been emptied. -/
theorem Vacant.not_emptied (h : Vacant d R p) (hparent : p.parent? = some b)
    (hfull : d.get? (R ++ b.names) ≠ some (.directory [])) (ha : a.names <+: b.names) :
    ¬Emptied d R p a := by
  intro hemptied
  obtain ⟨entries, hget⟩ := look_eq_directory_iff.mp (h.directory b hparent)
  obtain ⟨x, hx⟩ : ∃ x, d.look (R ++ b.names ++ [x]) ≠ none := by
    refine Classical.byContradiction fun hno => hfull ?_
    have hnil := (entries_eq_nil_iff hget).mpr fun x =>
      Classical.byContradiction fun hx => hno ⟨x, hx⟩
    rw [hget, hnil]
  obtain ⟨n, hn⟩ := Path.names_of_parent hparent
  have hbeneath : Beneath (R ++ a.names) (R ++ b.names ++ [x]) := by
    obtain ⟨rest, hrest⟩ := ha
    obtain ⟨m, rest', hcons⟩ := List.exists_cons_of_ne_nil (List.concat_ne_nil x rest)
    exact ⟨m, rest', by rw [← hrest, ← hcons]; simp⟩
  -- what is in the directory would be at the place of the path itself
  have hlen : (R ++ b.names ++ [x]).length = (R ++ p.names).length := by simp [hn]
  have hsame : R ++ b.names ++ [x] = R ++ p.names := by
    rcases hemptied _ hbeneath hx with hpre | hpre
    · exact hpre.eq_of_length hlen
    · exact (hpre.eq_of_length hlen.symm).symm
  exact hx (hsame ▸ h.free)

/-- Where the loop stops nothing was left to be taken away, if the root leads to its place. -/
theorem Cleared.of_stop (hvacant : Vacant d R p) (hfits : p.Fits root)
    (hstop : pruneRound root d p.parent? = none) : Cleared root d d R p := by
  refine ⟨.refl d, fun _ _ => rfl, fun hleads a ha hemptied => ?_⟩
  obtain ⟨-, hpre, hap⟩ := Path.mem_ancestors.mp ha
  have hproot : p ≠ .root := by
    rintro rfl
    cases ha
  obtain ⟨b, hb⟩ := Path.exists_parent hproot
  have hab : a.components <+: b.components := (Path.prefix_parent_iff hb).mpr ⟨hpre, hap⟩
  have hbroot : b ≠ .root := by
    rintro rfl
    exact Path.ne_root_of_mem_ancestors ha (Path.ext (List.prefix_nil.mp hab))
  obtain ⟨x, hx⟩ := Path.parent?_eq_some hb
  rw [hb] at hstop
  have hfull := not_empty_of_stop hleads hbroot (hfits.above ⟨[x], hx.symm⟩) hstop
  exact absurd hemptied (hvacant.not_emptied hb hfull (Path.names_isPrefix_iff.mpr hab))

/-- When the empty directory above a path has been taken away, what is left to be taken away is what
is emptied above that directory. -/
theorem Cleared.of_round (ha : p.parent? = some a) (hroot : a ≠ .root)
    (hget : d.get? (R ++ a.names) = some (.directory []))
    (hlook : ∀ q, d₁.look q = if R ++ a.names <+: q then none else d.look q)
    (h : Cleared root d₁ d' R a) : Cleared root d d' R p := by
  obtain ⟨x, hx⟩ := Path.names_of_parent ha
  have hap : a.names <+: p.names := ⟨[x], hx.symm⟩
  have hmem := Path.ancestors_of_child ha hroot
  have hbelow : ∀ n rest, d.look (R ++ a.names ++ n :: rest) = none := fun n rest =>
    Classical.byContradiction fun hne => look_first hne ((entries_eq_nil_iff hget).mp rfl n)
  have hiff : ∀ b : Path, Emptied d₁ R a b ↔ Emptied d R p b := by
    refine fun b => emptied_iff hap hlook fun q hq hne => .inl ?_
    obtain ⟨rest, rfl⟩ := hq
    cases rest with
    | nil => rwa [List.append_nil, List.prefix_append_right_inj]
    | cons n rest => exact absurd (hbelow n rest) hne
  refine ⟨fun q e hq => ?_, fun q hq => ?_, fun hleads b hb hemptied => ?_⟩
  · have hq₁ := h.part q e hq
    rw [hlook] at hq₁
    split at hq₁
    · cases hq₁
    · exact hq₁
  · have hqa : q ≠ R ++ a.names := hq a (by simp [hmem]) fun q hq hne => by
      obtain ⟨n, rest, rfl⟩ := hq
      exact absurd (hbelow n rest) hne
    rw [h.kept q fun b hb hemptied => hq b (by simp [hmem, hb]) ((hiff b).mp hemptied), hlook]
    split
    next hpre =>
      obtain ⟨rest, rfl⟩ := hpre
      cases rest with
      | nil => exact absurd (List.append_nil _) hqa
      | cons n rest => exact (hbelow n rest).symm
    next => rfl
  · rw [hmem, List.mem_append, List.mem_singleton] at hb
    rcases hb with hb | rfl
    · exact h.gone hleads b hb ((hiff b).mpr hemptied)
    · exact h.part.look_eq_none (by rw [hlook, if_pos (List.prefix_refl _)])

/-- What the loop does above a path at whose place there is nothing. -/
theorem Rounds.cleared (h : whole.Encloses root R) {n : Nat} {current : Option Path}
    (hrounds : Rounds root n d current d') :
    ∀ p : Path, current = p.parent? → d.PartOf whole → p.Fits root → Vacant d R p →
      Cleared root d d' R p := by
  induction hrounds with
  | stop hstop =>
    rintro p rfl - hfits hvacant
    exact .of_stop hvacant hfits hstop
  | @round d d₁ d' current next n hround _ ih =>
    rintro p rfl hpart hfits -
    cases ha : p.parent? with
    | none =>
      rw [ha] at hround
      cases hround
    | some a =>
      rw [ha] at hround
      obtain ⟨hroot, -, -, rfl⟩ := pruneRound_eq_some hround
      obtain ⟨hget, hlook⟩ := look_pruneRound h hpart hround
      obtain ⟨x, hx⟩ := Path.parent?_eq_some ha
      have hpart₁ : d₁.PartOf whole := by
        intro q e hq
        rw [hlook] at hq
        split at hq
        · cases hq
        · exact hpart q e hq
      have hvacant := Vacant.of_removed (look_ne_none (look_of_get? hget)) hlook
      exact .of_round ha hroot hget hlook (ih a rfl hpart₁ (hfits.above ⟨[x], hx.symm⟩) hvacant)

/-- What pruning above a path does, at whose place there is nothing. -/
theorem pruneAbove_cleared (h : whole.Encloses root R) (hpart : d.PartOf whole)
    (hfits : p.Fits root) (hvacant : Vacant d R p) : Cleared root d (pruneAbove root d p) R p := by
  obtain ⟨n, -, hrounds⟩ := exists_rounds root p d
  exact hrounds.cleared h p rfl hpart hfits hvacant

end Storage

end FileCluster
