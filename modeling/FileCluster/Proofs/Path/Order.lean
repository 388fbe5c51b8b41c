import FileCluster.Proofs.Path.Prefix
import FileCluster.Proofs.Text.Order

/-!
The order of paths.

Paths are compared component by component, and components as their bytes are (`lt_iff_bytes_lt`).
This is a strict total order, and what `Path.compare` tells. Everything below a path stands in one
run directly after it: nothing that is not below the path comes between the path and something below
it (`startsWith_of_between`), and what comes after the path without being below it comes after all
that is (`lt_of_startsWith`). The written forms are in another order.
-/

namespace FileCluster.Path

variable {p q r : Path}

/-- A path is not after another one if comparing them says so. -/
instance : LE Path := ⟨fun p q => (p.compare q).isLE = true⟩

instance : DecidableLE Path := fun p q => inferInstanceAs (Decidable ((p.compare q).isLE = true))

/-! ## A strict total order -/

theorem lt_asymm (h : p < q) : ¬q < p := fun h' => lt_irrefl p (lt_trans h h')

theorem lt_trichotomy (p q : Path) : p < q ∨ p = q ∨ q < p := by
  by_cases hlt : p < q
  · exact .inl hlt
  · by_cases heq : p = q
    · exact .inr (.inl heq)
    · exact .inr (.inr (lt_of_not_lt heq hlt))

theorem compare_eq_lt_iff : p.compare q = .lt ↔ p < q := by
  unfold compare
  split
  · exact iff_of_true rfl (by assumption)
  · split <;> exact iff_of_false nofun (by assumption)

theorem compare_eq_eq_iff : p.compare q = .eq ↔ p = q := by
  unfold compare
  split
  · rename_i hlt
    exact iff_of_false nofun fun heq => lt_irrefl p (heq.symm ▸ hlt)
  · split
    · exact iff_of_true rfl (by assumption)
    · exact iff_of_false nofun (by assumption)

theorem compare_eq_gt_iff : p.compare q = .gt ↔ q < p := by
  unfold compare
  split
  · rename_i hlt
    exact iff_of_false nofun (lt_asymm hlt)
  · rename_i hlt
    split
    · rename_i heq
      exact iff_of_false nofun (heq ▸ lt_irrefl p)
    · rename_i hne
      exact iff_of_true rfl (lt_of_not_lt hne hlt)

theorem le_iff_not_lt : p ≤ q ↔ ¬q < p := by
  rw [← compare_eq_gt_iff]
  show (p.compare q).isLE = true ↔ _
  cases p.compare q <;> simp [Ordering.isLE]

theorem le_iff_lt_or_eq : p ≤ q ↔ p < q ∨ p = q := by
  rw [le_iff_not_lt]
  constructor
  · intro h
    rcases lt_trichotomy p q with hlt | heq | hgt
    · exact .inl hlt
    · exact .inr heq
    · exact absurd hgt h
  · rintro (hlt | rfl)
    · exact lt_asymm hlt
    · exact lt_irrefl p

/-- Paths are ordered as the lists of the bytes of their components are. -/
theorem lt_iff_bytes_lt :
    p < q ↔ p.components.map Text.encode < q.components.map Text.encode := by
  have mono : ∀ {p q : Path}, p < q →
      p.components.map Text.encode < q.components.map Text.encode := fun h =>
    List.map_lt (fun _ _ => Text.encode_lt_encode) h
  refine ⟨mono, fun h => ?_⟩
  rcases lt_trichotomy p q with hlt | rfl | hgt
  · exact hlt
  · exact absurd h (List.lt_irrefl _)
  · exact absurd h (List.lt_asymm (mono hgt))

/-! ## Paths below a path -/

theorem lt_of_isBelow (h : q.IsBelow p) : p < q := lt_of_isPrefix h.1 h.2.symm

/-- What stands between a path and something below it is below it. -/
theorem startsWith_of_between (hpq : p ≤ q) (hqr : q ≤ r) (h : r.startsWith p = true) :
    q.startsWith p = true :=
  startsWith_iff.mpr
    (prefix_of_between (le_iff_not_lt.mp hpq) (le_iff_not_lt.mp hqr) (startsWith_iff.mp h))

/-- What comes after a path and is not below it comes after all that is. -/
theorem lt_of_startsWith (hpq : p ≤ q) (hq : q.startsWith p = false) (hr : r.startsWith p = true) :
    r < q := by
  refine Decidable.byContradiction fun hrq => ?_
  rw [startsWith_of_between hpq (le_iff_not_lt.mpr hrq) hr] at hq
  cases hq

/-- The order of paths: components by their bytes, the first difference deciding; strict and total,
and what comparing two paths tells; with all that is below a path in one run directly after it. -/
theorem prefix_scan :
    (∀ p q : Path, p < q ↔ p.components.map Text.encode < q.components.map Text.encode) ∧
    (∀ p q : Path, (p.compare q = .lt ↔ p < q) ∧ (p.compare q = .eq ↔ p = q) ∧
      (p.compare q = .gt ↔ q < p) ∧ (p ≤ q ↔ p < q ∨ p = q)) ∧
    (∀ p : Path, ¬p < p) ∧
    (∀ p q r : Path, p < q → q < r → p < r) ∧
    (∀ p q : Path, p < q ∨ p = q ∨ q < p) ∧
    (∀ p q : Path, q.IsBelow p → p < q) ∧
    (∀ p q r : Path, p ≤ q → q ≤ r → r.startsWith p = true → q.startsWith p = true) ∧
    ∀ p q : Path, p ≤ q → q.startsWith p = false → ∀ r : Path, r.startsWith p = true → r < q := by
  refine ⟨fun p q => lt_iff_bytes_lt, ?_, lt_irrefl, fun p q r => lt_trans, lt_trichotomy,
    fun p q => lt_of_isBelow, fun p q r => startsWith_of_between, ?_⟩
  · intro p q
    exact ⟨compare_eq_lt_iff, compare_eq_eq_iff, compare_eq_gt_iff, le_iff_lt_or_eq⟩
  · intro p q hpq hq r hr
    exact lt_of_startsWith hpq hq hr

/-- The path `/a`. -/
def pathA : Path :=
  ⟨["a"], List.forall_mem_singleton.mpr ⟨by decide, by decide, by decide, by decide⟩⟩

/-- The path `/a!`, which is beside `/a`. -/
def besideA : Path :=
  ⟨["a!"], List.forall_mem_singleton.mpr ⟨by decide, by decide, by decide, by decide⟩⟩

/-- The path `/a/b`. -/
def belowA : Path :=
  ⟨["a", "b"], List.forall_mem_cons.mpr ⟨⟨by decide, by decide, by decide, by decide⟩,
    List.forall_mem_singleton.mpr ⟨by decide, by decide, by decide, by decide⟩⟩⟩

/-- `/a!` comes after `/a` and is not below it, so it comes after `/a/b`. The written forms stand in
the other order, an exclamation mark being before a separator. -/
theorem prefix_scan_besideA :
    pathA ≤ besideA ∧ besideA.startsWith pathA = false ∧ belowA.startsWith pathA = true ∧
      belowA < besideA ∧ besideA.text < belowA.text := by
  have hle : pathA ≤ besideA := by decide
  have hbeside : besideA.startsWith pathA = false := by decide
  have hbelow : belowA.startsWith pathA = true := by decide
  obtain ⟨-, -, -, -, -, -, -, hafter⟩ := prefix_scan
  exact ⟨hle, hbeside, hbelow, hafter pathA besideA hle hbeside belowA hbelow, by decide⟩

end FileCluster.Path
