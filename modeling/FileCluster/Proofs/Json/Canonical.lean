import FileCluster.NameSet
import FileCluster.Proofs.Json.Reading

/-!
Canonical JSON values.

`Json.canonical` gives a canonical value and leaves canonical values alone, so reading a text twice
over gives nothing new. A record whose members are all known, each once, reads as its canonical
form (`read?_record`).
-/

namespace FileCluster.Json

/-! ## Canonical forms -/

theorem canonicalItems_eq (done items : List Json) :
    canonicalItems done items = done.reverse ++ items.map canonical := by
  induction items generalizing done with
  | nil => simp [canonicalItems]
  | cons v items ih =>
    rw [canonicalItems, ih]
    simp

theorem canonical_array (items : List Json) :
    (Json.array items).canonical = .array (items.map canonical) := by
  rw [canonical, canonicalItems_eq]
  rfl

theorem membersCanonical_iff {members : List (String × Json)} :
    MembersCanonical members ↔ ∀ m ∈ members, m.2.IsCanonical := by
  induction members with
  | nil => simp [MembersCanonical]
  | cons m members ih => simp [MembersCanonical, ih]

theorem allCanonical_iff {items : List Json} :
    AllCanonical items ↔ ∀ v ∈ items, v.IsCanonical := by
  induction items with
  | nil => simp [AllCanonical]
  | cons v items ih => simp [AllCanonical, ih]

theorem increasing_insert {members : List (String × Json)} (h : Sorted.Increasing members)
    (k : String) (v : Json) : Sorted.Increasing (Sorted.insert k v members) :=
  h.insert (fun _ _ _ => String.lt_trans) (fun _ _ => NameSet.lt_of_not_lt) k v

/-- Storing a canonical value under a key keeps an object canonical. -/
theorem isCanonical_insert {members : List (String × Json)} {v : Json}
    (h : (object members).IsCanonical) (hv : v.IsCanonical) (k : String) :
    (object (Sorted.insert k v members)).IsCanonical := by
  rw [IsCanonical, membersCanonical_iff] at h ⊢
  refine ⟨increasing_insert h.1 k v, fun m hm => ?_⟩
  rcases Sorted.mem_insert hm with rfl | hm
  · exact hv
  · exact h.2 m hm

theorem isCanonical_empty : (object []).IsCanonical := by
  rw [IsCanonical]
  exact ⟨Sorted.Increasing.nil, trivial⟩

mutual

/-- The canonical form is canonical. -/
theorem isCanonical_canonical (v : Json) : v.canonical.IsCanonical := by
  match v with
  | .null | .bool _ | .number _ | .string _ => simp [canonical, IsCanonical]
  | .array items =>
    rw [canonical, IsCanonical]
    exact allCanonical_canonicalItems [] items (by simp [AllCanonical])
  | .object members =>
    rw [canonical]
    exact canonicalMembers_canonical [] members isCanonical_empty

theorem allCanonical_canonicalItems (done items : List Json) (h : AllCanonical done) :
    AllCanonical (canonicalItems done items) := by
  match items with
  | [] =>
    rw [canonicalItems, allCanonical_iff]
    exact fun v hv => allCanonical_iff.mp h v (List.mem_reverse.mp hv)
  | v :: rest =>
    rw [canonicalItems]
    refine allCanonical_canonicalItems _ rest ?_
    rw [AllCanonical]
    exact ⟨isCanonical_canonical v, h⟩

theorem canonicalMembers_canonical (done members : List (String × Json))
    (h : (object done).IsCanonical) : (object (canonicalMembers done members)).IsCanonical := by
  match members with
  | [] =>
    rw [canonicalMembers]
    exact h
  | (k, v) :: rest =>
    rw [canonicalMembers]
    exact canonicalMembers_canonical _ rest (isCanonical_insert h (isCanonical_canonical v) k)

end

/-- A member with the greatest key comes last. -/
theorem insert_last {members : List (String × Json)} {k : String} (v : Json)
    (h : ∀ m ∈ members, m.1 < k) : Sorted.insert k v members = members ++ [(k, v)] := by
  induction members with
  | nil => rfl
  | cons m members ih =>
    obtain ⟨k', v'⟩ := m
    obtain ⟨hm, hmembers⟩ := List.forall_mem_cons.mp h
    have hne : k ≠ k' := fun he => String.lt_irrefl k' (he ▸ hm)
    have hnot : ¬k < k' := fun hlt => String.lt_irrefl k (String.lt_trans hlt hm)
    rw [Sorted.insert, if_neg hne, if_neg hnot, ih hmembers]
    rfl

/-- A member with the least key comes first. -/
theorem insert_first {k k' : String} (h : k < k') (v v' : Json) (members : List (String × Json)) :
    Sorted.insert k v ((k', v') :: members) = (k, v) :: (k', v') :: members := by
  have hne : k ≠ k' := fun he => String.lt_irrefl k' (he ▸ h)
  rw [Sorted.insert, if_neg hne, if_pos h]

mutual

/-- A canonical value is its own canonical form. -/
theorem canonical_eq_self {v : Json} (h : v.IsCanonical) : v.canonical = v := by
  match v with
  | .null | .bool _ | .number _ | .string _ => simp [canonical]
  | .array items =>
    rw [IsCanonical] at h
    rw [canonical, canonicalItems_eq_self h]
    rfl
  | .object members =>
    rw [IsCanonical] at h
    rw [canonical, canonicalMembers_eq_self h.2 (List.nil_append members ▸ h.1)]
    rfl

theorem canonicalItems_eq_self {items : List Json} (h : AllCanonical items) (done : List Json) :
    canonicalItems done items = done.reverse ++ items := by
  match items with
  | [] => simp [canonicalItems]
  | v :: rest =>
    rw [AllCanonical] at h
    rw [canonicalItems, canonical_eq_self h.1, canonicalItems_eq_self h.2]
    simp

theorem canonicalMembers_eq_self {members : List (String × Json)} (h : MembersCanonical members)
    {done : List (String × Json)} (hinc : Sorted.Increasing (done ++ members)) :
    canonicalMembers done members = done ++ members := by
  match members with
  | [] => simp [canonicalMembers]
  | (k, v) :: rest =>
    rw [MembersCanonical] at h
    have hlast : ∀ m ∈ done, m.1 < k :=
      fun m hm => (List.pairwise_append.mp hinc).2.2 m hm (k, v) List.mem_cons_self
    have hrest : Sorted.Increasing ((done ++ [(k, v)]) ++ rest) := by
      rw [List.append_assoc]
      exact hinc
    rw [canonicalMembers, canonical_eq_self h.1, insert_last v hlast,
      canonicalMembers_eq_self h.2 hrest, List.append_assoc]
    rfl

end

theorem canonical_canonical (v : Json) : v.canonical.canonical = v.canonical :=
  canonical_eq_self (isCanonical_canonical v)

/-! ## Values read from text -/

mutual

/-- The value of an outline is canonical. -/
theorem Outline.isCanonical_of_value? {depth : Nat} {o : Outline} {v : Json}
    (h : o.value? depth = some v) : v.IsCanonical := by
  match o, depth with
  | .null, _ | .bool _, _ =>
    rw [Outline.value?] at h
    cases h
    trivial
  | .number n, _ =>
    rw [Outline.value?] at h
    obtain ⟨_, -, rfl⟩ := Option.map_eq_some_iff.mp h
    trivial
  | .string s, _ =>
    rw [Outline.value?] at h
    obtain ⟨_, -, rfl⟩ := Option.map_eq_some_iff.mp h
    trivial
  | .array _, 0 | .object _, 0 =>
    rw [Outline.value?] at h
    exact nomatch h
  | .array items, depth + 1 =>
    rw [Outline.value?] at h
    obtain ⟨vs, hvs, rfl⟩ := Option.map_eq_some_iff.mp h
    rw [IsCanonical]
    exact Outline.allCanonical_of_items? hvs trivial
  | .object members, depth + 1 =>
    rw [Outline.value?] at h
    obtain ⟨done, hdone, rfl⟩ := Option.map_eq_some_iff.mp h
    exact Outline.isCanonical_of_members? hdone isCanonical_empty

theorem Outline.allCanonical_of_items? {depth : Nat} {items : List Outline} {done vs : List Json}
    (h : Outline.items? depth done items = some vs) (hdone : AllCanonical done) :
    AllCanonical vs := by
  match items with
  | [] =>
    rw [Outline.items?] at h
    cases h
    exact allCanonical_iff.mpr fun v hv => allCanonical_iff.mp hdone v (List.mem_reverse.mp hv)
  | o :: rest =>
    rw [Outline.items?] at h
    split at h
    · exact nomatch h
    · rename_i v hv
      refine Outline.allCanonical_of_items? h ?_
      rw [AllCanonical]
      exact ⟨Outline.isCanonical_of_value? hv, hdone⟩

theorem Outline.isCanonical_of_members? {depth : Nat} {members : List (Option String × Outline)}
    {done all : List (String × Json)} (h : Outline.members? depth done members = some all)
    (hdone : (Json.object done).IsCanonical) : (Json.object all).IsCanonical := by
  match members with
  | [] =>
    rw [Outline.members?] at h
    cases h
    exact hdone
  | (k, o) :: rest =>
    unfold Outline.members? at h
    split at h
    · rename_i k v hv
      exact Outline.isCanonical_of_members? h
        (isCanonical_insert hdone (Outline.isCanonical_of_value? hv) k)
    · exact nomatch h

end

theorem isCanonical_of_recordMembers? {fields : List String} {depth : Nat}
    {members : List (Option String × Outline)} {done all : List (String × Json)}
    (h : recordMembers? fields depth done members = some all) (hdone : (object done).IsCanonical) :
    (object all).IsCanonical := by
  induction members generalizing done with
  | nil =>
    rw [recordMembers?] at h
    cases h
    exact hdone
  | cons m members ih =>
    obtain ⟨k, o⟩ := m
    cases k with
    | none => exact nomatch h
    | some k =>
      rw [recordMembers?] at h
      split at h
      · split at h
        · exact nomatch h
        · split at h
          · exact nomatch h
          · rename_i v hv
            exact ih h (isCanonical_insert hdone (Outline.isCanonical_of_value? hv) k)
      · exact ih h hdone

/-- An object made of canonical values is canonical. -/
theorem isCanonical_ofList {members : List (String × Json)} (h : ∀ m ∈ members, m.2.IsCanonical) :
    (object (Sorted.ofList members)).IsCanonical := by
  unfold Sorted.ofList
  generalize hdone : ([] : List (String × Json)) = done
  have hcanonical : (object done).IsCanonical := hdone ▸ isCanonical_empty
  clear hdone
  induction members generalizing done with
  | nil => exact hcanonical
  | cons m members ih =>
    obtain ⟨hm, hmembers⟩ := List.forall_mem_cons.mp h
    exact ih hmembers _ (isCanonical_insert hcanonical hm m.1)

theorem Form.isCanonical_of_read? {form : Form} {depth : Nat} {o : Outline} {v : Json}
    (h : form.read? depth o = some v) : v.IsCanonical := by
  unfold Form.read? at h
  split at h
  · obtain ⟨all, hall, rfl⟩ := Option.map_eq_some_iff.mp h
    exact isCanonical_of_recordMembers? hall isCanonical_empty
  · obtain ⟨vs, hvs, rfl⟩ := Option.map_eq_some_iff.mp h
    have hvs : AllCanonical vs := Outline.allCanonical_of_items? hvs trivial
    split
    · exact isCanonical_ofList fun m hm => allCanonical_iff.mp hvs m.2 (List.of_mem_zip hm).2
    · rw [IsCanonical]
      exact hvs
  · exact Outline.isCanonical_of_value? h

/-- A value read from text is canonical, whatever shape was expected. -/
theorem isCanonical_of_read? {shape : Shape} {bytes : List UInt8} {v : Json}
    (h : read? shape bytes = some v) : v.IsCanonical := by
  unfold read? at h
  split at h
  · exact nomatch h
  · split at h
    · exact nomatch h
    · unfold Shape.read? at h
      split at h
      · exact Form.isCanonical_of_read? h
      · split at h
        · rename_i k _ _
          obtain ⟨w, hw, rfl⟩ := Option.map_eq_some_iff.mp h
          exact isCanonical_insert isCanonical_empty (Form.isCanonical_of_read? hw) k
        · exact nomatch h
        · exact Outline.isCanonical_of_value? h

/-! ## Plain values -/

theorem plainItems_iff {levels : Nat} {items : List Json} :
    PlainItems levels items ↔ ∀ v ∈ items, v.Plain levels := by
  induction items with
  | nil => simp [PlainItems]
  | cons v items ih => simp [PlainItems, ih]

theorem plainMembers_iff {levels : Nat} {members : List (String × Json)} :
    PlainMembers levels members ↔ ∀ m ∈ members, m.2.Plain levels := by
  induction members with
  | nil => simp [PlainMembers]
  | cons m members ih => simp [PlainMembers, ih]

mutual

/-- The canonical form of a plain value is plain. -/
theorem Plain.canonical {levels : Nat} {v : Json} (h : v.Plain levels) :
    v.canonical.Plain levels := by
  match v with
  | .null | .bool _ | .number _ | .string _ =>
    rw [Json.canonical]
    · exact h
    all_goals simp
  | .array items =>
    rw [Plain] at h
    rw [Json.canonical, Plain]
    exact ⟨h.1, PlainItems.canonical h.2 (by simp [PlainItems])⟩
  | .object members =>
    rw [Plain] at h
    rw [Json.canonical, Plain]
    exact ⟨h.1, PlainMembers.canonical h.2 (by simp [PlainMembers])⟩

theorem PlainItems.canonical {levels : Nat} {items done : List Json} (h : PlainItems levels items)
    (hdone : PlainItems levels done) : PlainItems levels (canonicalItems done items) := by
  match items with
  | [] =>
    rw [canonicalItems, plainItems_iff]
    exact fun v hv => plainItems_iff.mp hdone v (List.mem_reverse.mp hv)
  | v :: rest =>
    rw [PlainItems] at h
    rw [canonicalItems]
    refine PlainItems.canonical h.2 ?_
    rw [PlainItems]
    exact ⟨h.1.canonical, hdone⟩

theorem PlainMembers.canonical {levels : Nat} {members done : List (String × Json)}
    (h : PlainMembers levels members) (hdone : PlainMembers levels done) :
    PlainMembers levels (canonicalMembers done members) := by
  match members with
  | [] =>
    rw [canonicalMembers]
    exact hdone
  | (k, v) :: rest =>
    rw [PlainMembers] at h
    rw [canonicalMembers]
    refine PlainMembers.canonical h.2 (plainMembers_iff.mpr fun m hm => ?_)
    rcases Sorted.mem_insert hm with rfl | hm
    · exact h.1.canonical
    · exact plainMembers_iff.mp hdone m hm

end

mutual

theorem Plain.mono {levels more : Nat} (hle : levels ≤ more) {v : Json} (h : v.Plain levels) :
    v.Plain more := by
  match v with
  | .null | .bool _ | .string _ => simp [Plain]
  | .number (.int n hn) => simp [Plain]
  | .number (.float x) =>
    rw [Plain] at h
    exact h.elim
  | .array items =>
    rw [Plain] at h ⊢
    exact ⟨by omega, PlainItems.mono (by omega) h.2⟩
  | .object members =>
    rw [Plain] at h ⊢
    exact ⟨by omega, PlainMembers.mono (by omega) h.2⟩

theorem PlainItems.mono {levels more : Nat} (hle : levels ≤ more) {items : List Json}
    (h : PlainItems levels items) : PlainItems more items := by
  match items with
  | [] => simp [PlainItems]
  | v :: rest =>
    rw [PlainItems] at h ⊢
    exact ⟨h.1.mono hle, h.2.mono hle⟩

theorem PlainMembers.mono {levels more : Nat} (hle : levels ≤ more)
    {members : List (String × Json)} (h : PlainMembers levels members) :
    PlainMembers more members := by
  match members with
  | [] => simp [PlainMembers]
  | (k, v) :: rest =>
    rw [PlainMembers] at h ⊢
    exact ⟨h.1.mono hle, h.2.mono hle⟩

end

/-! ## Records -/

theorem recordMembers?_outlines {fields : List String} {levels : Nat}
    {members : List (String × Json)} (h : PlainMembers levels members)
    (hknown : ∀ m ∈ members, m.1 ∈ fields) (hdistinct : (members.map Prod.fst).Nodup)
    {done : List (String × Json)} (hnew : ∀ m ∈ members, Sorted.lookup m.1 done = none) :
    recordMembers? fields levels done (memberOutlines members) =
      some (canonicalMembers done members) := by
  induction members generalizing done with
  | nil => rw [memberOutlines, recordMembers?, canonicalMembers]
  | cons m members ih =>
    obtain ⟨k, v⟩ := m
    rw [PlainMembers] at h
    obtain ⟨hk, hknown⟩ := List.forall_mem_cons.mp hknown
    obtain ⟨hkdone, hnew⟩ := List.forall_mem_cons.mp hnew
    rw [List.map_cons, List.nodup_cons] at hdistinct
    have hfree : ¬(Sorted.lookup k done).isSome = true := by simp [hkdone]
    rw [memberOutlines, recordMembers?, if_pos hk, if_neg hfree, Outline.value?_outline h.1,
      canonicalMembers]
    refine ih h.2 hknown hdistinct.2 fun m hm => ?_
    have hne : m.1 ≠ k := fun he => hdistinct.1 (List.mem_map.mpr ⟨m, hm, he⟩)
    rw [Sorted.lookup_insert_ne hne]
    exact hnew m hm

/-- A record with known members, each once, reads as its canonical form. -/
theorem read?_record {fields : List String} {members : List (String × Json)}
    (h : (Json.object members).Plain maxDepth) (hknown : ∀ m ∈ members, m.1 ∈ fields)
    (hdistinct : (members.map Prod.fst).Nodup) :
    read? (.plain (.record fields)) (written (.object members)) =
      some (Json.object members).canonical := by
  rw [read?_written h, canonical]
  have hread : Shape.read? (.plain (.record fields)) (Json.object members).outline =
      (recordMembers? fields (maxDepth - 1) [] (memberOutlines members)).map .object := by
    rw [outline]
    rfl
  rw [Plain] at h
  rw [hread, recordMembers?_outlines h.2 hknown hdistinct fun _ _ => rfl]
  rfl

end FileCluster.Json
