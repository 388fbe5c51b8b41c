/-!
Lists of keyed values in increasing key order.

A map is kept as a list of pairs with strictly increasing keys (`Sorted.Increasing`). `insert` adds
or replaces a value in one pass and `erase` drops one; both say what they do to `lookup`, and both
keep the order. The laws of `lookup` after `insert` need no hypothesis on the list.
-/

namespace FileCluster.Sorted

variable {κ α : Type}

/-- The keys increase strictly along the list. -/
def Increasing [LT κ] (l : List (κ × α)) : Prop :=
  l.Pairwise fun a b => a.1 < b.1

/-- The first value stored under a key. -/
def lookup [DecidableEq κ] (k : κ) : List (κ × α) → Option α
  | [] => none
  | (k', x) :: rest => if k = k' then some x else lookup k rest

/-- Stores a value under a key, in place of the value already there. -/
def insert [LT κ] [DecidableLT κ] [DecidableEq κ] (k : κ) (x : α) : List (κ × α) → List (κ × α)
  | [] => [(k, x)]
  | (k', y) :: rest =>
    if k = k' then (k, x) :: rest
    else if k < k' then (k, x) :: (k', y) :: rest
    else (k', y) :: insert k x rest

/-- Drops what is stored under a key. -/
def erase [DecidableEq κ] (k : κ) (l : List (κ × α)) : List (κ × α) :=
  l.filter fun e => e.1 ≠ k

/-- Builds a map from pairs, a later pair taking the place of an earlier one of its key. -/
def ofList [LT κ] [DecidableLT κ] [DecidableEq κ] (l : List (κ × α)) : List (κ × α) :=
  l.foldl (fun acc e => insert e.1 e.2 acc) []

theorem mem_of_lookup [DecidableEq κ] {k : κ} {x : α} {l : List (κ × α)}
    (h : lookup k l = some x) : (k, x) ∈ l := by
  induction l with
  | nil => cases h
  | cons e rest ih =>
    obtain ⟨k', y⟩ := e
    rw [lookup] at h
    split at h
    · rename_i he
      rw [he, ← Option.some.inj h]
      exact List.mem_cons_self
    · exact List.mem_cons_of_mem _ (ih h)

theorem lookup_insert_self [LT κ] [DecidableLT κ] [DecidableEq κ] (k : κ) (x : α)
    (l : List (κ × α)) : lookup k (insert k x l) = some x := by
  induction l with
  | nil => simp [insert, lookup]
  | cons e rest ih =>
    simp only [insert]
    split
    · simp [lookup]
    · split
      · simp [lookup]
      · simp [lookup, *]

theorem lookup_insert_ne [LT κ] [DecidableLT κ] [DecidableEq κ] {k k' : κ} (h : k' ≠ k) (x : α)
    (l : List (κ × α)) : lookup k' (insert k x l) = lookup k' l := by
  induction l with
  | nil => simp [insert, lookup, h]
  | cons e rest ih =>
    simp only [insert]
    split
    · rename_i he
      simp [lookup, h, ← he]
    · split
      · simp [lookup, h]
      · simp [lookup, ih]

theorem lookup_erase_self [DecidableEq κ] (k : κ) (l : List (κ × α)) :
    lookup k (erase k l) = none := by
  induction l with
  | nil => rfl
  | cons e rest ih =>
    by_cases h : e.1 = k
    · simpa [erase, h] using ih
    · have h' : k ≠ e.1 := fun he => h he.symm
      have : erase k (e :: rest) = e :: erase k rest := by simp [erase, h]
      simp [this, lookup, h', ih]

theorem lookup_erase_ne [DecidableEq κ] {k k' : κ} (h : k' ≠ k) (l : List (κ × α)) :
    lookup k' (erase k l) = lookup k' l := by
  induction l with
  | nil => rfl
  | cons e rest ih =>
    by_cases he : e.1 = k
    · have : erase k (e :: rest) = erase k rest := by simp [erase, he]
      have hk : k' ≠ e.1 := he ▸ h
      simp [this, lookup, hk, ih]
    · have : erase k (e :: rest) = e :: erase k rest := by simp [erase, he]
      simp [this, lookup, ih]

theorem Increasing.nil [LT κ] : Increasing ([] : List (κ × α)) := List.Pairwise.nil

theorem mem_insert [LT κ] [DecidableLT κ] [DecidableEq κ] {k : κ} {x : α} {e : κ × α}
    {l : List (κ × α)} (h : e ∈ insert k x l) : e = (k, x) ∨ e ∈ l := by
  induction l with
  | nil => simpa [insert] using h
  | cons e' rest ih =>
    simp only [insert] at h
    split at h
    · rcases List.mem_cons.1 h with h | h
      · exact .inl h
      · exact .inr (List.mem_cons_of_mem _ h)
    · split at h
      · rcases List.mem_cons.1 h with h | h
        · exact .inl h
        · exact .inr h
      · rcases List.mem_cons.1 h with h | h
        · exact .inr (h ▸ List.mem_cons_self ..)
        · exact (ih h).imp_right (List.mem_cons_of_mem _)

/-- Erasing keeps the order. -/
theorem Increasing.erase [LT κ] [DecidableEq κ] {l : List (κ × α)} (h : Increasing l) (k : κ) :
    Increasing (erase k l) :=
  h.sublist List.filter_sublist

/-- Inserting keeps the order, for keys in a total strict order. -/
theorem Increasing.insert [LT κ] [DecidableLT κ] [DecidableEq κ]
    (trans : ∀ a b c : κ, a < b → b < c → a < c) (total : ∀ a b : κ, a ≠ b → ¬a < b → b < a)
    {l : List (κ × α)} (h : Increasing l) (k : κ) (x : α) : Increasing (insert k x l) := by
  induction l with
  | nil => simp [Sorted.insert, Increasing]
  | cons e rest ih =>
    obtain ⟨head, tail⟩ := List.pairwise_cons.1 h
    simp only [Sorted.insert]
    split
    · rename_i he
      exact List.pairwise_cons.2 ⟨fun a ha => he ▸ head a ha, tail⟩
    · split
      · rename_i hlt
        refine List.pairwise_cons.2 ⟨fun a ha => ?_, h⟩
        rcases List.mem_cons.1 ha with rfl | ha
        · exact hlt
        · exact trans _ _ _ hlt (head a ha)
      · rename_i hne hlt
        refine List.pairwise_cons.2 ⟨fun a ha => ?_, ih tail⟩
        rcases mem_insert ha with rfl | ha
        · exact total _ _ hne hlt
        · exact head a ha

end FileCluster.Sorted
