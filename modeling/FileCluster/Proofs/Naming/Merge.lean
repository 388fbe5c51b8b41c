import FileCluster.Proofs.Naming.Sound

/-!
What comes of the files that a server advertises.

A file that clashes goes on clashing whatever else is taken in, and one that was taken in stays; so
when all have been looked at, the files handed back are those that clash with the tree at the end
(`mergeInto_clashing`). This holds of every tree and of every list of files (`merge_outcome`).

Where no file of the list lies above another one, taking in one makes no difference to another. Then
whether a file clashes can be told from the tree as it was (`clashes_mergeInto`), and the order of
the list does not matter (`merge_perm`). The files of a disk are such a list (`Unnested`).
-/

namespace FileCluster

/-- No path of a list lies above another one. -/
def Apart (ps : List Path) : Prop :=
  ∀ p ∈ ps, ∀ q ∈ ps, p.components <+: q.components → p = q

instance (ps : List Path) : Decidable (Apart ps) := inferInstanceAs (Decidable (∀ p ∈ ps, _))

/-- No path of a list lies above another one, and the root is not among them. -/
structure Unnested (ps : List Path) : Prop where
  notRoot : ∀ p ∈ ps, p ≠ .root
  apart : ∀ p ∈ ps, ∀ q ∈ ps, p.components <+: q.components → p = q

namespace Tree

/-- Every node of one tree is a node of another one. -/
def PartOf {ω : Type} (t t' : Tree ω) : Prop := ∀ q n, t.get? q = some n → t'.get? q = some n

theorem PartOf.trans {ω : Type} {t t₁ t₂ : Tree ω} (h : t.PartOf t₁) (h' : t₁.PartOf t₂) :
    t.PartOf t₂ := fun q n hq => h' q n (h q n hq)

/-- Nothing lies below what the tree says is a file. -/
def FilesAreLeaves {ω : Type} (t : Tree ω) : Prop :=
  ∀ p q n, t.isDirectory? p = some false → t.get? q = some n → p.components <+: q.components → q = p

/-- The files are the file nodes but the root's: the root is a directory whatever its node says. -/
theorem isDirectory?_eq_false_iff {ω : Type} {t : Tree ω} {p : Path} :
    t.isDirectory? p = some false ↔ p ≠ .root ∧ ∃ o, t.get? p = some (.file o) := by
  unfold isDirectory?
  by_cases hroot : p.isRoot = true
  · rw [if_pos hroot]
    exact iff_of_false nofun fun h => h.1 (Path.isRoot_iff.mp hroot)
  · have hne : p ≠ .root := fun he => hroot (Path.isRoot_iff.mpr he)
    rw [if_neg hroot, and_iff_right hne]
    cases hget : t.get? p with
    | none =>
      dsimp only
      split <;> exact iff_of_false nofun nofun
    | some n => cases n <;> simp [Node.isDirectory, Node.isFile]

variable {t t' : Tree Owner} {o o' : Owner} {p q : Path} {n : Node Owner}

/-! ## Clashes -/

/-- The tree has something at a path or below it, or a file above it. -/
def Occupied (t : Tree Owner) (p : Path) : Prop :=
  (∃ q n, t.get? q = some n ∧ p.components <+: q.components) ∨
    ∃ a ∈ p.ancestors, ∃ o, t.get? a = some (.file o)

theorem Occupied.mono (h : t.Occupied p) (hpart : t.PartOf t') : t'.Occupied p := by
  rcases h with ⟨q, n, hq, hpre⟩ | ⟨a, ha, o, ho⟩
  · exact .inl ⟨q, n, hpart q n hq, hpre⟩
  · exact .inr ⟨a, ha, o, hpart a _ ho⟩

/-- A file clashes where the tree is occupied by anything but the file itself. -/
theorem clashes_iff : t.clashes o p = true ↔ t.get? p ≠ some (.file o) ∧ t.Occupied p := by
  unfold clashes
  cases hget : t.get? p with
  | some n =>
    have hoccupied : t.Occupied p := .inl ⟨p, n, hget, List.prefix_refl _⟩
    rw [and_iff_left hoccupied]
    cases n <;> simp
  | none =>
    rw [and_iff_right nofun, Bool.or_eq_true, hasDescendants_iff, List.any_eq_true]
    refine or_congr ⟨?_, ?_⟩ (exists_congr fun a => and_congr_right fun _ => isFile_iff)
    · rintro ⟨q, n, hq, hpre, -⟩
      exact ⟨q, n, hq, hpre⟩
    · rintro ⟨q, n, hq, hpre⟩
      exact ⟨q, n, hq, hpre, fun he => by rw [he, hget] at hq; cases hq⟩

theorem clashes_eq_false_iff :
    t.clashes o p = false ↔ (t.Occupied p → t.get? p = some (.file o)) := by
  rw [← Bool.not_eq_true, clashes_iff, not_and', ne_eq, Decidable.not_not]

theorem clashes_of_file (h : t.get? p = some (.file o)) : t.clashes o p = false :=
  clashes_eq_false_iff.mpr fun _ => h

/-! ## Taking in one file -/

/-- Taking in a file that does not clash leaves every node as it was. -/
theorem partOf_addFile (hc : t.clashes o p = false) : t.PartOf (t.addFile o p) := by
  intro q n h
  rw [get?_addFile]
  split
  next hq =>
    subst hq
    exact (clashes_eq_false_iff.mp hc (.inl ⟨q, n, h, List.prefix_refl _⟩)).symm.trans h
  next =>
    split
    · rw [h]
      rfl
    · exact h

theorem file_addFile_self (t : Tree Owner) (o : Owner) (p : Path) :
    (t.addFile o p).get? p = some (.file o) := by
  rw [get?_addFile, if_pos rfl]

/-- Taking in a file that does not clash makes it a file of the server and no other path a file. -/
theorem file_addFile_iff (hc : t.clashes o p = false) :
    (t.addFile o p).get? q = some (.file o') ↔
      t.get? q = some (.file o') ∨ o' = o ∧ q = p := by
  have hadded := file_addFile_self t o p
  constructor
  · intro h
    by_cases hqp : q = p
    · rw [hqp, hadded] at h
      cases h
      exact .inr ⟨rfl, hqp⟩
    · rw [get?_addFile, if_neg hqp] at h
      split at h
      · cases hget : t.get? q with
        | none =>
          rw [hget] at h
          cases h
        | some n =>
          rw [hget] at h
          exact .inl h
      · exact .inl h
  · rintro (h | ⟨rfl, rfl⟩)
    · exact partOf_addFile hc q _ h
    · exact hadded

/-- What clashes goes on clashing when another file is taken in. -/
theorem clashes_addFile_of_clashes (hc : t.clashes o p = false) (h : t.clashes o q = true) :
    (t.addFile o p).clashes o q = true := by
  obtain ⟨hfile, hoccupied⟩ := clashes_iff.mp h
  refine clashes_iff.mpr ⟨fun hq => ?_, hoccupied.mono (partOf_addFile hc)⟩
  rcases (file_addFile_iff hc).mp hq with hold | ⟨-, rfl⟩
  · exact hfile hold
  · rw [h] at hc
    cases hc

/-- Taking in a file makes no difference to one that lies neither above nor below it. -/
theorem clashes_addFile (hc : t.clashes o p = false) (hpq : p.components <+: q.components → p = q)
    (hqp : q.components <+: p.components → q = p) :
    (t.addFile o p).clashes o q = t.clashes o q := by
  rw [Bool.eq_iff_iff]
  refine ⟨fun h => ?_, clashes_addFile_of_clashes hc⟩
  obtain ⟨hfile, hoccupied⟩ := clashes_iff.mp h
  have hne : q ≠ p := by
    rintro rfl
    exact hfile (file_addFile_self t o q)
  refine clashes_iff.mpr ⟨fun hq => hfile (partOf_addFile hc q _ hq), ?_⟩
  rcases hoccupied with ⟨x, n, hx, hpre⟩ | ⟨a, ha, o', ho'⟩
  · -- what is new lies at or above the file, so it is not below the other path
    have hxp : x ≠ p := fun hxp => hne (hqp (hxp ▸ hpre))
    have hxa : x ∉ p.ancestors := fun hm => hne (hqp (hpre.trans (Path.mem_ancestors.mp hm).2.1))
    rw [get?_addFile, if_neg hxp, if_neg hxa] at hx
    exact .inl ⟨x, n, hx, hpre⟩
  · obtain ⟨-, hpre, -⟩ := Path.mem_ancestors.mp ha
    rcases (file_addFile_iff hc).mp ho' with hold | ⟨-, rfl⟩
    · exact .inr ⟨a, ha, o', hold⟩
    · exact absurd (hpq hpre).symm hne

/-- Where the files are leaves, no file but itself lies above a file that does not clash. -/
theorem FilesAreLeaves.eq_of_above (h : t.FilesAreLeaves) (hc : t.clashes o p = false)
    (hq : q ≠ .root) (hfile : t.get? q = some (.file o')) (hpre : q.components <+: p.components) :
    q = p := by
  by_cases hqp : q = p
  · exact hqp
  · have hanc : q ∈ p.ancestors := Path.mem_ancestors.mpr ⟨fun he => hq (Path.ext he), hpre, hqp⟩
    have hown := clashes_eq_false_iff.mp hc (.inr ⟨q, hanc, o', hfile⟩)
    exact (h q p _ (isDirectory?_eq_false_iff.mpr ⟨hq, o', hfile⟩) hown hpre).symm

/-- Where the files are leaves, they still are when one that does not clash has been taken in. -/
theorem FilesAreLeaves.addFile (h : t.FilesAreLeaves) (hc : t.clashes o p = false) :
    (t.addFile o p).FilesAreLeaves := by
  intro x y n hx hy hpre
  obtain ⟨hxroot, o', hfile⟩ := isDirectory?_eq_false_iff.mp hx
  rw [get?_addFile] at hy
  rcases (file_addFile_iff hc).mp hfile with hold | ⟨-, rfl⟩
  · have habove := h.eq_of_above hc hxroot hold
    split at hy
    next hyp =>
      subst hyp
      exact (habove hpre).symm
    next =>
      split at hy
      next hanc =>
        obtain ⟨-, hyp, hne⟩ := Path.mem_ancestors.mp hanc
        have hxp := habove (hpre.trans hyp)
        exact absurd (Path.eq_of_prefix hyp (hxp ▸ hpre)) hne
      next => exact h x y n (isDirectory?_eq_false_iff.mpr ⟨hxroot, o', hold⟩) hy hpre
  · split at hy
    next hyx => exact hyx
    next =>
      split at hy
      next hanc =>
        obtain ⟨-, hyx, -⟩ := Path.mem_ancestors.mp hanc
        exact Path.eq_of_prefix hyx hpre
      next =>
        have hown := clashes_eq_false_iff.mp hc (.inl ⟨y, n, hy, hpre⟩)
        exact h x y n (isDirectory?_eq_false_iff.mpr ⟨hxroot, o, hown⟩) hy hpre

/-! ## Taking in a list of files -/

variable {ps qs : List Path}

/-- Taking in files leaves every node as it was. -/
theorem partOf_mergeInto (t : Tree Owner) (o : Owner) (ps clashing : List Path) :
    t.PartOf (t.mergeInto o clashing ps).1 :=
  mergeInto_invariant (I := t.PartOf) (fun _ _ h _ _ hc => h.trans (partOf_addFile hc))
    (fun _ _ h => h) clashing

/-- What clashes goes on clashing when files are taken in. -/
theorem clashes_mergeInto_of_clashes (h : t.clashes o q = true) (ps clashing : List Path) :
    (t.mergeInto o clashing ps).1.clashes o q = true :=
  mergeInto_invariant (I := fun t => t.clashes o q = true)
    (fun _ _ h _ _ hc => clashes_addFile_of_clashes hc h) h clashing

/-- In the end a file of the list clashes, or all that came of taking it in is there. -/
theorem mergeInto_cases (t : Tree Owner) (o : Owner) (clashing : List Path) (hp : p ∈ ps)
    (hroot : p ≠ .root) :
    (t.mergeInto o clashing ps).1.clashes o p = true ∨
      ∃ t₁ : Tree Owner, t₁.clashes o p = false ∧
        (t₁.addFile o p).PartOf (t.mergeInto o clashing ps).1 := by
  induction ps generalizing t clashing with
  | nil => cases hp
  | cons p' ps ih =>
    rw [mergeInto]
    rcases List.mem_cons.mp hp with rfl | hp
    · rw [if_neg (mt Path.isRoot_iff.mp hroot)]
      by_cases hc : t.clashes o p = true
      · rw [if_pos hc]
        exact .inl (clashes_mergeInto_of_clashes hc ps _)
      · rw [if_neg hc]
        exact .inr ⟨t, Bool.eq_false_iff.mpr hc, partOf_mergeInto _ o ps clashing⟩
    · split
      · exact ih t clashing hp
      · split
        · exact ih t _ hp
        · exact ih _ clashing hp

/-- The files of the list that do not clash in the end are those that were taken in. -/
theorem file_mergeInto_iff_clashes (t : Tree Owner) (clashing : List Path) (hp : p ∈ ps)
    (hroot : p ≠ .root) :
    (t.mergeInto o clashing ps).1.get? p = some (.file o) ↔
      (t.mergeInto o clashing ps).1.clashes o p = false := by
  refine ⟨clashes_of_file, fun hfree => ?_⟩
  rcases mergeInto_cases t o clashing hp hroot with hc | ⟨t₁, hc, hpart⟩
  · rw [hfree] at hc
    cases hc
  · exact hpart p _ (file_addFile_self t₁ o p)

/-- Above a file that was taken in there are nodes. -/
theorem above_mergeInto (t : Tree Owner) (clashing : List Path) (hp : p ∈ ps) (hroot : p ≠ .root)
    (h : (t.mergeInto o clashing ps).1.get? p = some (.file o)) (ha : q ∈ p.ancestors) :
    (t.mergeInto o clashing ps).1.get? q ≠ none := by
  rcases mergeInto_cases t o clashing hp hroot with hc | ⟨t₁, -, hpart⟩
  · rw [clashes_of_file h] at hc
    cases hc
  · have hnode : (t₁.addFile o p).get? q = some ((t₁.get? q).getD (.directory (some o))) := by
      rw [get?_addFile, if_neg (Path.mem_ancestors.mp ha).2.2, if_pos ha]
    rw [hpart q _ hnode]
    exact nofun

/-- The files handed back are those that clash with the tree at the end. -/
theorem mergeInto_clashing (t : Tree Owner) (o : Owner) (ps clashing : List Path) :
    (t.mergeInto o clashing ps).2 =
      (ps.filter fun p => !p.isRoot && (t.mergeInto o clashing ps).1.clashes o p).reverse ++
        clashing := by
  induction ps generalizing t clashing with
  | nil => rfl
  | cons p ps ih =>
    rw [mergeInto]
    by_cases hroot : p.isRoot = true
    · rw [if_pos hroot, ih, List.filter_cons_of_neg (by simp [hroot])]
    rw [if_neg hroot]
    by_cases hc : t.clashes o p = true
    · have hstill := clashes_mergeInto_of_clashes hc ps (p :: clashing)
      rw [if_pos hc, ih, List.filter_cons_of_pos (by simp [hroot, hstill]), List.reverse_cons,
        List.append_assoc]
      rfl
    · have hfile := partOf_mergeInto _ o ps clashing p _ (file_addFile_self t o p)
      rw [if_neg hc, ih, List.filter_cons_of_neg (by simp [clashes_of_file hfile])]

/-- A node made by taking in files: one of the files, or a directory above one that is there. -/
def MadeFor (t : Tree Owner) (o : Owner) (ps : List Path) (q : Path) (n : Node Owner) : Prop :=
  (n = .file o ∧ q ∈ ps ∧ q ≠ .root) ∨
    n = .directory (some o) ∧
      ∃ p ∈ ps, p ≠ .root ∧ t.get? p = some (.file o) ∧ q ∈ p.ancestors

theorem MadeFor.ne_root (h : t.MadeFor o ps q n) : q ≠ .root := by
  rcases h with ⟨-, -, hroot⟩ | ⟨-, p, -, -, -, ha⟩
  · exact hroot
  · exact Path.ne_root_of_mem_ancestors ha

theorem MadeFor.mono (h : t.MadeFor o ps q n) (hpart : t.PartOf t') : t'.MadeFor o ps q n :=
  h.imp_right fun ⟨hn, p, hp, hroot, hfile, ha⟩ => ⟨hn, p, hp, hroot, hpart p _ hfile, ha⟩

/-- A node that was not there was made by taking in the files. -/
theorem madeFor_mergeInto (clashing : List Path) (hnone : t.get? q = none)
    (h : (t.mergeInto o clashing ps).1.get? q = some n) :
    (t.mergeInto o clashing ps).1.MadeFor o ps q n := by
  revert h
  refine mergeInto_invariant (I := fun t' => t'.get? q = some n → t'.MadeFor o ps q n)
    (fun t' p ih hp hroot hc h => ?_) (fun h => ?_) clashing
  · have hold := fun h => (ih h).mono (partOf_addFile hc)
    rw [get?_addFile] at h
    split at h
    next hqp =>
      cases h
      exact .inl ⟨rfl, hqp ▸ hp, hqp ▸ hroot⟩
    next =>
      split at h
      next hanc =>
        cases hget : t'.get? q with
        | some n' =>
          rw [hget] at h
          exact hold (hget.trans h)
        | none =>
          rw [hget] at h
          cases h
          exact .inr ⟨rfl, p, hp, hroot, file_addFile_self t' o p, hanc⟩
      next => exact hold h
  · rw [hnone] at h
    cases h

/-- Where the files are leaves, they still are when files have been taken in. -/
theorem FilesAreLeaves.mergeInto (h : t.FilesAreLeaves) (o : Owner) (ps clashing : List Path) :
    (t.mergeInto o clashing ps).1.FilesAreLeaves :=
  mergeInto_invariant (fun _ _ h _ _ hc => h.addFile hc) h clashing

/-! ## Taking in what a server advertises -/

/-- What comes of taking in files: the tree `t'`, and the list `back` of those handed back. -/
structure MergeOutcome (t : Tree Owner) (o : Owner) (ps : List Path) (t' : Tree Owner)
    (back : List Path) : Prop where
  kept : t.PartOf t'
  /-- a new node is a file that was accepted, or a directory above one, put down to the owner -/
  added : ∀ q n, t.get? q = none → t'.get? q = some n →
    (n = .file o ∧ q ∈ ps ∧ q ≠ .root ∧ q ∉ back) ∨
      n = .directory (some o) ∧ ∃ p ∈ ps, p ≠ .root ∧ p ∉ back ∧ q ∈ p.ancestors
  /-- every occurrence of a file that is none in the end is handed back, and nothing else -/
  handedBack : back = ps.filter fun p => decide (p ≠ .root ∧ t'.get? p ≠ some (.file o))
  sublist : back.Sublist ps
  length_le : back.length ≤ ps.length
  split : ∀ p ∈ ps, p ≠ .root → (p ∈ back ↔ t'.get? p ≠ some (.file o))
  /-- if the root had a node it has the same one, and it is given none -/
  root : t'.get? .root = t.get? .root
  leaves : t.FilesAreLeaves → t'.FilesAreLeaves

/-- The files handed back are those that clash in the end, in the order of the list. -/
theorem merge_eq_filter (t : Tree Owner) (o : Owner) (ps : List Path) :
    (t.merge o ps).2 = ps.filter fun p => !p.isRoot && (t.merge o ps).1.clashes o p := by
  have hmerge : (t.merge o ps).2 = (t.mergeInto o [] ps).2.reverse := rfl
  rw [hmerge, mergeInto_clashing, List.append_nil, List.reverse_reverse]
  rfl

/-- The files handed back are those that are no files of the server in the end. -/
theorem merge_handedBack (t : Tree Owner) (o : Owner) (ps : List Path) :
    (t.merge o ps).2 =
      ps.filter fun p => decide (p ≠ .root ∧ (t.merge o ps).1.get? p ≠ some (.file o)) := by
  rw [merge_eq_filter]
  refine List.filter_congr fun p hp => ?_
  rw [Bool.eq_iff_iff, Bool.and_eq_true, Bool.not_eq_true', Path.isRoot_eq_false_iff,
    decide_eq_true_iff]
  refine and_congr_right fun hroot => ?_
  rw [ne_eq, show (t.merge o ps).1 = (t.mergeInto o [] ps).1 from rfl,
    file_mergeInto_iff_clashes t [] hp hroot, Bool.not_eq_false]

/-- Whatever the tree and whatever files are advertised: every node is kept, nothing is added but
the accepted files and directories above them, and the list is split exactly. -/
theorem merge_outcome (t : Tree Owner) (o : Owner) (ps : List Path) :
    MergeOutcome t o ps (t.merge o ps).1 (t.merge o ps).2 := by
  have hback := merge_handedBack t o ps
  have hsplit : ∀ p ∈ ps, p ≠ .root →
      (p ∈ (t.merge o ps).2 ↔ (t.merge o ps).1.get? p ≠ some (.file o)) := by
    intro p hp hroot
    rw [hback, List.mem_filter, decide_eq_true_iff, and_iff_right hp, and_iff_right hroot]
  have hsublist : (t.merge o ps).2.Sublist ps := by
    rw [hback]
    exact List.filter_sublist
  refine ⟨partOf_mergeInto t o ps [], fun q n hnone hq => ?_, hback, hsublist, hsublist.length_le,
    hsplit, ?_, fun h => h.mergeInto o ps []⟩
  · rcases madeFor_mergeInto [] hnone hq with ⟨rfl, hmem, hroot⟩ | ⟨rfl, p, hp, hroot, hfile, ha⟩
    · exact .inl ⟨rfl, hmem, hroot, fun hback => (hsplit q hmem hroot).mp hback hq⟩
    · exact .inr ⟨rfl, p, hp, hroot, fun hback => (hsplit p hp hroot).mp hback hfile, ha⟩
  · cases hroot : t.get? .root with
    | some n => exact partOf_mergeInto t o ps [] .root n hroot
    | none =>
      refine Option.eq_none_iff_forall_ne_some.mpr fun n hn => ?_
      exact (madeFor_mergeInto [] hroot hn).ne_root rfl

/-! ## Files that lie apart -/

/-- Where the files lie apart, taking them in makes no difference to what clashes. -/
theorem clashes_mergeInto (t : Tree Owner) (o : Owner) (hps : Apart ps) (clashing : List Path)
    (hq : q ∈ ps) : (t.mergeInto o clashing ps).1.clashes o q = t.clashes o q :=
  mergeInto_invariant (I := fun t' => t'.clashes o q = t.clashes o q)
    (fun _ p h hp _ hc => (clashes_addFile hc (hps p hp q hq) (hps q hq p hp)).trans h) rfl clashing

/-- The files handed back are those that clash with the tree as it was. -/
theorem merge_clashing_of_apart (t : Tree Owner) (o : Owner) (hps : Apart ps) :
    (t.merge o ps).2 = ps.filter fun p => !p.isRoot && t.clashes o p := by
  rw [merge_eq_filter]
  exact List.filter_congr fun p hp => congrArg _ (clashes_mergeInto t o hps [] hp)

/-- A file of the list is a file of the server then if it does not clash with the tree as it was. -/
theorem file_merge_iff_clashes (t : Tree Owner) (o : Owner) (hps : Apart ps) (hp : p ∈ ps)
    (hroot : p ≠ .root) :
    (t.merge o ps).1.get? p = some (.file o) ↔ t.clashes o p = false := by
  rw [← clashes_mergeInto t o hps [] hp]
  exact file_mergeInto_iff_clashes t [] hp hroot

/-- The nodes of the tree are those it had, the files that do not clash with it, and what was
missing above these. -/
theorem get?_merge_iff (t : Tree Owner) (o : Owner) (hps : Apart ps) :
    (t.merge o ps).1.get? q = some n ↔ t.get? q = some n ∨ t.get? q = none ∧
      ((n = .file o ∧ q ∈ ps ∧ q ≠ .root ∧ t.clashes o q = false) ∨
        n = .directory (some o) ∧
          ∃ p ∈ ps, p ≠ .root ∧ t.clashes o p = false ∧ q ∈ p.ancestors) := by
  constructor
  · intro h
    cases hget : t.get? q with
    | some n' => exact .inl ((partOf_mergeInto t o ps [] q n' hget).symm.trans h)
    | none =>
      refine .inr ⟨rfl, ?_⟩
      rcases madeFor_mergeInto [] hget h with ⟨rfl, hq, hroot⟩ | ⟨rfl, p, hp, hroot, hfile, ha⟩
      · exact .inl ⟨rfl, hq, hroot, (file_merge_iff_clashes t o hps hq hroot).mp h⟩
      · exact .inr ⟨rfl, p, hp, hroot, (file_merge_iff_clashes t o hps hp hroot).mp hfile, ha⟩
  · rintro (h | ⟨hnone, ⟨rfl, hq, hroot, hc⟩ | ⟨rfl, p, hp, hroot, hc, ha⟩⟩)
    · exact partOf_mergeInto t o ps [] q n h
    · exact (file_merge_iff_clashes t o hps hq hroot).mpr hc
    · have hfile := (file_merge_iff_clashes t o hps hp hroot).mpr hc
      obtain ⟨m, hm⟩ := Option.ne_none_iff_exists'.mp (above_mergeInto t [] hp hroot hfile ha)
      -- a directory that is in the list as well would lie above the file
      rcases madeFor_mergeInto [] hnone hm with ⟨rfl, hq, -⟩ | ⟨rfl, -⟩
      · obtain ⟨-, hpre, hne⟩ := Path.mem_ancestors.mp ha
        exact absurd (hps q hq p hp hpre) hne
      · exact hm

/-- Where the files lie apart, the order in which they are advertised makes no difference to the
tree nor to which are handed back: those that clash with the tree as it was. The root is passed
over. -/
theorem merge_perm (t : Tree Owner) (o : Owner) (hperm : ps.Perm qs) (hps : Apart ps) :
    (t.merge o ps).1 = (t.merge o qs).1 ∧ (t.merge o ps).2.Perm (t.merge o qs).2 ∧
      ∀ p, p ∈ (t.merge o ps).2 ↔ p ∈ ps ∧ p ≠ .root ∧ t.clashes o p = true := by
  have hqs : Apart qs := fun p hp q hq => hps p (hperm.mem_iff.mpr hp) q (hperm.mem_iff.mpr hq)
  refine ⟨ext_get? fun q => Option.ext fun n => ?_, ?_, fun p => ?_⟩
  · rw [get?_merge_iff t o hps, get?_merge_iff t o hqs]
    simp only [hperm.mem_iff]
  · rw [merge_clashing_of_apart t o hps, merge_clashing_of_apart t o hqs]
    exact hperm.filter _
  · rw [merge_clashing_of_apart t o hps, List.mem_filter, Bool.and_eq_true, Bool.not_eq_true',
      Path.isRoot_eq_false_iff]

/-- Two files of one directory, and one beside it. -/
def sharedPrefix : List Path := ["/a/b", "/a/c", "/d"].filterMap fun s => (Path.parse s).toOption

/-- The server with the files. -/
def newcomer : Owner := ⟨⟨"127.0.0.1", 7000⟩, ⟨"127.0.0.1", 7001⟩⟩

/-- A tree in which another server has the last of the files. -/
def lastTaken : Tree Owner :=
  (Tree.empty.merge ⟨⟨"127.0.0.1", 7100⟩, ⟨"127.0.0.1", 7101⟩⟩ (sharedPrefix.drop 2)).1

/-- Advertised in either order, the two files that share a prefix are taken in, and the other one is
handed back. -/
theorem merge_perm_sharedPrefix :
    sharedPrefix.Perm sharedPrefix.reverse ∧ Apart sharedPrefix ∧
      (lastTaken.merge newcomer sharedPrefix).1 =
        (lastTaken.merge newcomer sharedPrefix.reverse).1 ∧
      (lastTaken.merge newcomer sharedPrefix).2 = sharedPrefix.drop 2 := by
  have hperm : sharedPrefix.Perm sharedPrefix.reverse := (List.reverse_perm _).symm
  have hapart : Apart sharedPrefix := by decide +kernel
  exact ⟨hperm, hapart, (merge_perm lastTaken newcomer hperm hapart).1, by decide +kernel⟩

/-- The root clashes with a tree that has a node, but it is not handed back. -/
theorem root_not_handedBack :
    ¬∀ (t : Tree Owner) (o : Owner) (ps qs : List Path), ps.Perm qs → Apart ps →
      (t.merge o ps).1 = (t.merge o qs).1 ∧ (t.merge o ps).2.Perm (t.merge o qs).2 ∧
        ∀ p, p ∈ (t.merge o ps).2 ↔ p ∈ ps ∧ t.clashes o p = true := by
  intro h
  have hapart : Apart [.root] := by decide +kernel
  have hclash : lastTaken.clashes newcomer .root = true := by decide +kernel
  obtain ⟨-, -, hback⟩ := h lastTaken newcomer [.root] [.root] (.refl _) hapart
  cases (hback .root).mpr ⟨List.mem_singleton_self _, hclash⟩

/-! ## The files of a disk -/

/-- The files handed back to a server are those that clash with the tree as it was. -/
theorem merge_clashing (t : Tree Owner) (o : Owner) (hps : Unnested ps) :
    (t.merge o ps).2 = ps.filter (t.clashes o) := by
  rw [merge_clashing_of_apart t o hps.apart]
  refine List.filter_congr fun p hp => ?_
  rw [Path.isRoot_eq_false_iff.mpr (hps.notRoot p hp)]
  rfl

/-- The files of the tree after a server's have been taken in. -/
theorem file_merge_iff (t : Tree Owner) (o : Owner) (hps : Unnested ps) :
    (t.merge o ps).1.get? q = some (.file o') ↔
      t.get? q = some (.file o') ∨ o' = o ∧ q ∈ ps ∧ t.clashes o q = false := by
  constructor
  · intro h
    rcases (get?_merge_iff t o hps.apart).mp h with hold | ⟨-, ⟨he, hq, -, hc⟩ | ⟨he, -⟩⟩
    · exact .inl hold
    · cases he
      exact .inr ⟨rfl, hq, hc⟩
    · cases he
  · rintro (hold | ⟨rfl, hq, hc⟩)
    · exact partOf_mergeInto t o ps [] q _ hold
    · exact (file_merge_iff_clashes t o' hps.apart hq (hps.notRoot q hq)).mpr hc

/-- A file that is handed back had its place taken. -/
theorem occupied_of_mem_merge (hps : Unnested ps) (hq : q ∈ (t.merge o ps).2) :
    q ∈ ps ∧ t.Occupied q := by
  rw [merge_clashing t o hps, List.mem_filter] at hq
  exact ⟨hq.1, (clashes_iff.mp hq.2).2⟩

end Tree

end FileCluster
