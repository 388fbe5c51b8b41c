/-!
Finite sets of names.

A set is the list of its names in strictly increasing order, so that two sets with the same names
are the same and a listing comes out sorted. `mem_ofList` says what the set of a list holds.
-/

namespace FileCluster

/-- A set of names, in increasing order. -/
structure NameSet where
  names : List String
  increasing : names.Pairwise (· < ·)

namespace NameSet

theorem ext {s t : NameSet} (h : s.names = t.names) : s = t := by
  cases s; cases t; cases h; rfl

instance : DecidableEq NameSet := fun s t =>
  decidable_of_iff (s.names = t.names) ⟨ext, fun h => h ▸ rfl⟩

/-- The set without names. -/
def empty : NameSet := ⟨[], List.Pairwise.nil⟩

instance : Inhabited NameSet := ⟨empty⟩

instance : Membership String NameSet := ⟨fun s n => n ∈ s.names⟩

/-- Adds a name to a list in increasing order. -/
def insertInto (name : String) : List String → List String
  | [] => [name]
  | n :: rest =>
    if name = n then n :: rest
    else if name < n then name :: n :: rest
    else n :: insertInto name rest

theorem mem_insertInto {name n : String} {l : List String} :
    n ∈ insertInto name l ↔ n = name ∨ n ∈ l := by
  induction l with
  | nil => simp [insertInto]
  | cons m rest ih =>
    simp only [insertInto]
    split
    · rename_i he; subst he; simp
    · split
      · simp
      · simp only [List.mem_cons, ih]
        constructor
        · rintro (h | h | h)
          · exact .inr (.inl h)
          · exact .inl h
          · exact .inr (.inr h)
        · rintro (h | h | h)
          · exact .inr (.inl h)
          · exact .inl h
          · exact .inr (.inr h)

theorem lt_of_not_lt {a b : String} (hne : a ≠ b) (h : ¬a < b) : b < a := by
  apply Decidable.byContradiction
  intro h'
  exact hne (String.le_antisymm h' h)

theorem increasing_insertInto {l : List String} (h : l.Pairwise (· < ·)) (name : String) :
    (insertInto name l).Pairwise (· < ·) := by
  induction l with
  | nil => simp [insertInto]
  | cons m rest ih =>
    obtain ⟨head, tail⟩ := List.pairwise_cons.1 h
    simp only [insertInto]
    split
    · exact h
    · split
      · rename_i hlt
        refine List.pairwise_cons.2 ⟨fun a ha => ?_, h⟩
        rcases List.mem_cons.1 ha with rfl | ha
        · exact hlt
        · exact String.lt_trans hlt (head a ha)
      · rename_i hne hlt
        refine List.pairwise_cons.2 ⟨fun a ha => ?_, ih tail⟩
        rcases mem_insertInto.1 ha with rfl | ha
        · exact lt_of_not_lt hne hlt
        · exact head a ha

/-- The set with one more name. -/
def insert (s : NameSet) (name : String) : NameSet :=
  ⟨insertInto name s.names, increasing_insertInto s.increasing name⟩

/-- The set of the names in a list. -/
def ofList (names : List String) : NameSet := names.foldl insert empty

theorem mem_insert {s : NameSet} {name n : String} : n ∈ s.insert name ↔ n = name ∨ n ∈ s :=
  mem_insertInto

/-- The set of a list has the names of the list. -/
theorem mem_ofList {names : List String} {n : String} : n ∈ ofList names ↔ n ∈ names := by
  have general : ∀ (names : List String) (s : NameSet),
      n ∈ names.foldl insert s ↔ n ∈ names ∨ n ∈ s := by
    intro names
    induction names with
    | nil => intro s; simp
    | cons m rest ih =>
      intro s
      simp only [List.foldl_cons, ih, mem_insert, List.mem_cons]
      constructor
      · rintro (h | h | h)
        · exact .inl (.inr h)
        · exact .inl (.inl h)
        · exact .inr h
      · rintro ((h | h) | h)
        · exact .inr (.inl h)
        · exact .inl h
        · exact .inr (.inr h)
  have none_empty : n ∉ empty := List.not_mem_nil
  simp [ofList, general, none_empty]

/-- Two sets with the same names are the same. -/
theorem ext_mem {s t : NameSet} (h : ∀ n, n ∈ s ↔ n ∈ t) : s = t := by
  have nodup : ∀ u : NameSet, u.names.Nodup := by
    intro u
    refine u.increasing.imp fun {a b} hab he => ?_
    exact String.lt_irrefl b (he ▸ hab)
  refine ext (List.Perm.eq_of_pairwise (fun a b _ _ hab hba => ?_) s.increasing t.increasing ?_)
  · exact absurd (String.lt_trans hab hba) (String.lt_irrefl a)
  · exact (List.perm_ext_iff_of_nodup (nodup s) (nodup t)).mpr h

end NameSet

end FileCluster
