import FileCluster.Path.Basic

/-!
Prefixes of paths and the order of paths.

A prefix of a path is never after it, and whatever lies between a path and one below it is below
it too (`prefix_of_between`). So everything below a path stands in one run, directly after it. The
directories above a path are its strict prefixes but the root (`mem_ancestors`).
-/

namespace FileCluster

/-! ## Lists in lexicographic order -/

theorem Lexicographic.lt_of_isPrefix {l m : List String} (h : l <+: m) (hne : l ≠ m) : l < m := by
  obtain ⟨t, rfl⟩ := h
  induction l with
  | nil =>
    cases t with
    | nil => exact absurd rfl hne
    | cons a t => exact List.nil_lt_cons a t
  | cons a l ih =>
    refine List.cons_lt_cons_iff.mpr (Or.inr ⟨rfl, ih fun he => hne ?_⟩)
    rw [List.cons_append, ← he]

/-- A list between another one and an extension of it extends it too. -/
theorem Lexicographic.prefix_of_between {l m n : List String} (hlm : ¬m < l) (hmn : ¬n < m)
    (h : l <+: n) : l <+: m := by
  induction l generalizing m n with
  | nil => exact List.nil_prefix
  | cons a l ih =>
    obtain ⟨t, rfl⟩ := h
    cases m with
    | nil => exact absurd (List.nil_lt_cons a l) hlm
    | cons b m =>
      rw [List.cons_lt_cons_iff, not_or] at hlm
      rw [List.cons_append, List.cons_lt_cons_iff, not_or] at hmn
      have hab : a = b := String.le_antisymm hlm.1 hmn.1
      subst hab
      refine List.cons_prefix_cons.mpr ⟨rfl, ih ?_ ?_ (List.prefix_append l t)⟩
      · exact fun hlt => hlm.2 ⟨rfl, hlt⟩
      · exact fun hlt => hmn.2 ⟨rfl, hlt⟩

namespace Path

/-! ## Prefixes -/

theorem startsWith_iff {p q : Path} : p.startsWith q = true ↔ q.components <+: p.components :=
  List.isPrefixOf_iff_prefix

theorem isRoot_iff {p : Path} : p.isRoot = true ↔ p = root := by
  rw [isRoot, List.isEmpty_iff, ext_iff]
  rfl

theorem isRoot_eq_false_iff {p : Path} : p.isRoot = false ↔ p ≠ root := by
  rw [← Bool.not_eq_true, isRoot_iff]

/-- Paths that are prefixes of one another are the same. -/
theorem eq_of_prefix {p q : Path} (h : p.components <+: q.components)
    (h' : q.components <+: p.components) : p = q :=
  ext (h.eq_of_length (Nat.le_antisymm h.length_le h'.length_le))

/-- A strict prefix comes first. -/
theorem lt_of_isPrefix {p q : Path} (h : p.components <+: q.components) (hne : p ≠ q) : p < q :=
  Lexicographic.lt_of_isPrefix h fun he => hne (ext he)

theorem not_lt_of_isPrefix {p q : Path} (h : p.components <+: q.components) : ¬q < p := by
  intro hlt
  by_cases hne : p = q
  · exact lt_irrefl p (hne ▸ hlt)
  · exact lt_irrefl p (lt_trans (lt_of_isPrefix h hne) hlt)

/-- Whatever lies between a path and one below it is below it. -/
theorem prefix_of_between {p q r : Path} (hpq : ¬q < p) (hqr : ¬r < q)
    (h : p.components <+: r.components) : p.components <+: q.components :=
  Lexicographic.prefix_of_between hpq hqr h

/-! ## The directories above a path -/

theorem mem_ancestors {a p : Path} :
    a ∈ p.ancestors ↔ a.components ≠ [] ∧ a.components <+: p.components ∧ a ≠ p := by
  unfold ancestors
  rw [List.mem_map]
  constructor
  · rintro ⟨n, hn, rfl⟩
    rw [List.mem_range] at hn
    unfold depth at hn
    refine ⟨?_, List.take_prefix _ _, fun he => ?_⟩
    · intro h
      have := congrArg List.length h
      simp only [take, List.length_take, List.length_nil] at this
      omega
    · have := congrArg (fun q => q.components.length) he
      simp only [take, List.length_take] at this
      omega
  · rintro ⟨hne, hpre, hap⟩
    have hlen := hpre.length_le
    have hpos := List.length_pos_iff.mpr hne
    have hlt : a.components.length < p.components.length := by
      refine Nat.lt_of_le_of_ne hlen fun he => hap (ext (hpre.eq_of_length he))
    refine ⟨a.components.length - 1, ?_, ext ?_⟩
    · rw [List.mem_range]
      unfold depth
      omega
    · have hn : a.components.length - 1 + 1 = a.components.length := by omega
      simp only [take, hn]
      exact (List.prefix_iff_eq_take.mp hpre).symm

theorem ne_root_of_mem_ancestors {a p : Path} (h : a ∈ p.ancestors) : a ≠ .root := by
  rintro rfl
  exact (mem_ancestors.mp h).1 rfl

theorem parent?_eq_some {p a : Path} (h : p.parent? = some a) :
    ∃ c, p.components = a.components ++ [c] := by
  unfold parent? at h
  split at h
  · cases h
  · rename_i hroot
    have hne : p.components ≠ [] := fun he => hroot (isRoot_iff.mpr (ext he))
    refine ⟨p.components.getLast hne, ?_⟩
    rw [← Option.some.inj h]
    simp only [take, depth, ← List.dropLast_eq_take]
    exact (List.dropLast_concat_getLast hne).symm

theorem exists_parent {p : Path} (h : p ≠ root) : ∃ a, p.parent? = some a := by
  rw [parent?, isRoot_eq_false_iff.mpr h]
  exact ⟨_, rfl⟩

/-- A strict prefix of a path is a prefix of its parent. -/
theorem prefix_parent_iff {p a q : Path} (h : p.parent? = some a) :
    q.components <+: a.components ↔ q.components <+: p.components ∧ q ≠ p := by
  obtain ⟨c, hc⟩ := parent?_eq_some h
  rw [hc, List.prefix_concat_iff]
  constructor
  · intro hq
    refine ⟨Or.inr hq, fun he => ?_⟩
    have := hq.length_le
    rw [he, hc, List.length_append, List.length_singleton] at this
    omega
  · rintro ⟨hq | hq, hne⟩
    · exact absurd (ext (hq.trans hc.symm)) hne
    · exact hq

theorem eq_of_parent {p a : Path} (h : p.parent? = some a) : p.take a.depth = a := by
  obtain ⟨c, hc⟩ := parent?_eq_some h
  refine ext ?_
  simp [take, depth, hc]

/-- The directories above a path are its parent and those above the parent. -/
theorem ancestors_of_parent {p a : Path} (h : p.parent? = some a) :
    p.ancestors = if a = root then [] else a.ancestors ++ [a] := by
  obtain ⟨c, hc⟩ := parent?_eq_some h
  have hdepth : p.depth = a.depth + 1 := by simp [depth, hc]
  unfold ancestors
  rw [hdepth, Nat.add_sub_cancel]
  split
  · rename_i ha
    subst ha
    rfl
  · rename_i ha
    have hpos : 0 < a.depth := List.length_pos_iff.mpr fun he => ha (ext he)
    obtain ⟨n, hn⟩ : ∃ n, a.depth = n + 1 := ⟨a.depth - 1, by omega⟩
    have hlast : p.take (n + 1) = a := hn ▸ eq_of_parent h
    have hinit : (List.range n).map (fun n => p.take (n + 1)) =
        (List.range n).map fun n => a.take (n + 1) := by
      refine List.map_congr_left fun m hm => ext ?_
      rw [List.mem_range] at hm
      unfold depth at hn
      simp only [take, hc]
      exact List.take_append_of_le_length (by omega)
    rw [hn, List.range_succ, List.map_append, hinit, List.map_singleton, hlast,
      Nat.add_sub_cancel]

theorem ancestors_of_root {p : Path} (h : p.parent? = some root) : p.ancestors = [] := by
  rw [ancestors_of_parent h, if_pos rfl]

theorem ancestors_of_child {p a : Path} (h : p.parent? = some a) (hne : a ≠ root) :
    p.ancestors = a.ancestors ++ [a] := by
  rw [ancestors_of_parent h, if_neg hne]

theorem parent_mem_ancestors {p a : Path} (h : p.parent? = some a) (hne : a ≠ root) :
    a ∈ p.ancestors := by
  rw [ancestors_of_child h hne]
  exact List.mem_append_right _ (List.mem_singleton_self a)

/-- What lies above a path is a prefix of its parent. -/
theorem prefix_parent_of_mem {p a q : Path} (h : p.parent? = some a) (hq : q ∈ p.ancestors) :
    q.components <+: a.components :=
  (prefix_parent_iff h).mpr (mem_ancestors.mp hq).2

/-- What holds of the root and goes from a parent to its children holds of every path. -/
theorem induction_parent {P : Path → Prop} (hroot : P root)
    (hchild : ∀ p a, p.parent? = some a → P a → P p) (p : Path) : P p := by
  generalize hn : p.depth = n
  induction n generalizing p with
  | zero =>
    have hp : p = root := ext (List.length_eq_zero_iff.mp hn)
    exact hp ▸ hroot
  | succ n ih =>
    have hp : p ≠ root := by
      rintro rfl
      cases hn
    obtain ⟨a, ha⟩ := exists_parent hp
    obtain ⟨c, hc⟩ := parent?_eq_some ha
    refine hchild p a ha (ih a ?_)
    rw [depth, hc, List.length_append, List.length_singleton] at hn
    exact Nat.succ.inj hn

/-! ## The paths below a path -/

/-- A child has the components of its parent and one more. -/
theorem child_eq_ok_iff {p q : Path} {c : String} :
    p.child c = .ok q ↔ q.components = p.components ++ [c] := by
  unfold child
  constructor
  · intro h
    split at h
    · cases h
    · split at h
      · cases h
      · cases h
        rfl
  · intro h
    have hc := q.valid c (by rw [h]; exact List.mem_append_right _ (List.mem_singleton_self c))
    have hok : ¬(c = "" ∨ '/' ∈ c.toList ∨ ':' ∈ c.toList) := by
      rintro (he | he | he)
      · exact hc.nonempty he
      · exact hc.noSeparator he
      · exact hc.noReserved he
    rw [dif_neg hok, dif_neg hc.notRelative]
    exact congrArg Except.ok (ext h.symm)

/-- Below a path: at an extension of it. -/
def IsBelow (q p : Path) : Prop := p.components <+: q.components ∧ q ≠ p

instance (q p : Path) : Decidable (q.IsBelow p) := inferInstanceAs (Decidable (_ ∧ _))

end Path

end FileCluster
