import FileCluster.Proofs.Naming.Catalog

/-!
A flat tree and a nested one that hold the same.

They do when every walk below the root finds an item where there is a node, and a file of the same
server where that node is a file (`Tree.Flattens`). Each question about a path then has one answer
in both, and each change of the naming service keeps the two alike.
-/

namespace FileCluster

/-- The flat tree and the nested one hold the same. -/
structure Tree.Flattens (t : Tree Owner) (top : Item) : Prop where
  folder : ∃ items, top = .folder items
  agree : ∀ p : Path, p ≠ .root →
    (top.at? p.components).map Item.holder? = (t.get? p).map Node.holder?
  valid : ∀ cs, (top.at? cs).isSome → ∀ c ∈ cs, Path.IsComponent c
  ordered : top.Ordered

namespace Tree.Flattens

variable {t t' : Tree Owner} {top : Item} {p q : Path} {o : Owner}

/-! ## What one side says of the other -/

theorem at?_root (h : t.Flattens top) :
    ∃ items, top.at? Path.root.components = some (.folder items) := by
  obtain ⟨items, rfl⟩ := h.folder
  exact ⟨items, rfl⟩

theorem isSome_iff (h : t.Flattens top) (hroot : p ≠ .root) :
    (top.at? p.components).isSome = (t.get? p).isSome := by
  rw [← Option.isSome_map (f := Item.holder?), h.agree p hroot, Option.isSome_map]

theorem file_iff (h : t.Flattens top) (hroot : p ≠ .root) :
    top.at? p.components = some (.file o) ↔ t.get? p = some (.file o) := by
  have hagree := h.agree p hroot
  cases hi : top.at? p.components with
  | none =>
    rw [hi] at hagree
    cases hn : t.get? p with
    | none => simp
    | some n => rw [hn] at hagree; cases hagree
  | some i =>
    rw [hi] at hagree
    cases hn : t.get? p with
    | none => rw [hn] at hagree; cases hagree
    | some n =>
      rw [hn] at hagree
      cases i <;> cases n <;> simp_all [Item.holder?, Node.holder?]

theorem folder_iff (h : t.Flattens top) (hroot : p ≠ .root) :
    (∃ items, top.at? p.components = some (.folder items)) ↔
      ∃ o, t.get? p = some (.directory o) := by
  have hagree := h.agree p hroot
  cases hi : top.at? p.components with
  | none =>
    rw [hi] at hagree
    cases hn : t.get? p with
    | none => simp
    | some n => rw [hn] at hagree; cases hagree
  | some i =>
    rw [hi] at hagree
    cases hn : t.get? p with
    | none => rw [hn] at hagree; cases hagree
    | some n =>
      rw [hn] at hagree
      cases i <;> cases n <;> simp_all [Item.holder?, Node.holder?]

/-- A path is in a sound tree what its item says. -/
theorem isDirectory?_eq (h : t.Flattens top) (hs : t.Sound) (p : Path) :
    t.isDirectory? p = (top.at? p.components).map fun i => i.holder?.isNone := by
  rw [hs.isDirectory?_eq]
  by_cases hroot : p = .root
  · obtain ⟨items, hitems⟩ := h.at?_root
    rw [hroot, hitems]
    rfl
  · have hnot : ¬p.isRoot = true := fun he => hroot (Path.isRoot_iff.mp he)
    have hagree := congrArg (Option.map Option.isNone) (h.agree p hroot)
    rw [Option.map_map, Option.map_map] at hagree
    rw [if_neg hnot]
    refine Eq.trans ?_ hagree.symm
    congr 1
    funext n
    cases n <;> rfl

theorem contains_eq (h : t.Flattens top) (hs : t.Sound) (p : Path) :
    t.contains p = (top.at? p.components).isSome := by
  unfold contains
  rw [h.isDirectory?_eq hs, Option.isSome_map]

/-- A directory has an entry of a name exactly when there is a node at or below the path that the
name makes. -/
theorem children_eq (h : t.Flattens top) {items : List (String × Item)}
    (hp : top.at? p.components = some (.folder items)) :
    t.children p = .ofList (items.map Prod.fst) := by
  refine NameSet.ext_mem fun c => ?_
  have hentry : c ∈ items.map Prod.fst ↔ (top.at? (p.components ++ [c])).isSome := by
    rw [Item.at?_append, hp, Option.bind_some, Item.at?_folder]
    cases hl : Sorted.lookup c items with
    | none =>
      have hno := Sorted.lookup_eq_none_iff.mp hl
      simp only [Option.bind_none, Option.isSome_none, Bool.false_eq_true, iff_false]
      intro hmem
      obtain ⟨e, he, hec⟩ := List.mem_map.mp hmem
      exact hno e he hec
    | some i =>
      have hmem := List.mem_map_of_mem (f := Prod.fst) (Sorted.mem_of_lookup hl)
      simp only [Option.bind_some, Item.at?_nil, Option.isSome_some, iff_true]
      exact hmem
  rw [mem_children, NameSet.mem_ofList, hentry]
  constructor
  · rintro ⟨q, n, hq, rest, hrest⟩
    have hroot : q ≠ .root := by
      rintro rfl
      have := congrArg List.length hrest
      simp [Path.root] at this
    have hsome := h.isSome_iff hroot
    rw [hq, ← hrest, Item.at?_append] at hsome
    cases hat : top.at? (p.components ++ [c]) with
    | none => rw [hat] at hsome; cases hsome
    | some i => rfl
  · intro hsome
    have hroot : (⟨p.components ++ [c], h.valid _ hsome⟩ : Path) ≠ .root := by
      intro he
      have := congrArg (fun q : Path => q.components.length) he
      simp [Path.root] at this
    rw [h.isSome_iff (p := ⟨p.components ++ [c], h.valid _ hsome⟩) hroot] at hsome
    obtain ⟨n, hn⟩ := Option.isSome_iff_exists.mp hsome
    exact ⟨_, n, hn, List.prefix_refl _⟩

/-! ## Room for a file -/

theorem clearTo_iff (h : t.Flattens top) :
    top.ClearTo p.components ↔ ∀ a ∈ p.ancestors, ∀ o, t.get? a ≠ some (.file o) := by
  constructor
  · intro hclear a ha o hfile
    obtain ⟨hne, hpre, hap⟩ := Path.mem_ancestors.mp ha
    refine hclear a.components hpre (fun he => hap (Path.ext he)) o ?_
    exact (h.file_iff fun he => hne (congrArg Path.components he)).mpr hfile
  · intro habove ds hpre hne o hds
    cases ds with
    | nil =>
      obtain ⟨items, rfl⟩ := h.folder
      cases hds
    | cons d ds =>
      have hvalid : ∀ c ∈ d :: ds, Path.IsComponent c := fun c hc => p.valid c (hpre.subset hc)
      have hroot : (⟨d :: ds, hvalid⟩ : Path) ≠ .root := fun he => by cases he
      refine habove ⟨d :: ds, hvalid⟩ (Path.mem_ancestors.mpr ⟨by simp, hpre, ?_⟩) o ?_
      · exact fun he => hne (he ▸ rfl)
      · exact (h.file_iff hroot).mp hds

theorem hasRoom_eq (h : t.Flattens top) (hs : t.Sound) (hroot : p ≠ .root) :
    top.hasRoom o p.components = !t.clashes o p := by
  have hnone : top.at? p.components = none ↔ t.get? p = none := by
    rw [← Option.not_isSome_iff_eq_none, h.isSome_iff hroot, Option.not_isSome_iff_eq_none]
  have habove : (∀ a ∈ p.ancestors, ∀ o, t.get? a ≠ some (.file o)) ↔
      ∀ a ∈ p.ancestors, t.isFile a = false := by
    refine forall_congr' fun a => imp_congr_right fun _ => ?_
    rw [Bool.eq_false_iff, Ne, isFile_iff, not_exists]
  rw [Bool.eq_iff_iff, Item.hasRoom_iff, Bool.not_eq_true', hs.clashes_eq_false_iff hroot,
    h.clearTo_iff, h.file_iff hroot, hnone, habove]

/-! ## Changes -/

theorem empty : (Tree.empty : Tree Owner).Flattens (.folder []) where
  folder := ⟨[], rfl⟩
  agree p hroot := by
    cases hp : p.components with
    | nil => exact absurd (Path.ext hp) hroot
    | cons c cs => rfl
  valid cs hsome := by
    cases cs with
    | nil => simp
    | cons c cs => cases hsome
  ordered := Item.ordered_empty

/-- A leaf put into the nested tree is matched by a flat tree that has its node, has directories
above it, has nothing below it and is otherwise unchanged. -/
theorem put (h : t.Flattens top) (hroot : p ≠ .root) {n : Node Owner} {new : Item}
    (hleaf : new.IsLeaf) (hnew : new.Ordered) (hholder : new.holder? = n.holder?)
    (hclear : ∀ a ∈ p.ancestors, ∀ o, t.get? a ≠ some (.file o))
    (hat : t'.get? p = some n)
    (habove : ∀ a ∈ p.ancestors, ∃ o, t'.get? a = some (.directory o))
    (hbelow : ∀ q : Path, p.components <+: q.components → q ≠ p → t'.get? q = none)
    (helse : ∀ q, q ≠ p → q ∉ p.ancestors → t'.get? q = t.get? q) :
    t'.Flattens (top.put p.components new) where
  folder := by
    obtain ⟨items, rfl⟩ := h.folder
    cases hp : p.components with
    | nil => exact absurd (Path.ext hp) hroot
    | cons c cs => exact ⟨_, rfl⟩
  agree q hq := by
    rw [Item.holder?_put hleaf (h.clearTo_iff.mpr hclear)]
    by_cases hqp : q = p
    · rw [if_pos (congrArg Path.components hqp), hqp, hat, hholder]
      rfl
    · rw [if_neg fun he => hqp (Path.ext he)]
      have hqne : q.components ≠ [] := fun he => hq (Path.ext he)
      split
      · rename_i hpre
        obtain ⟨o, ho⟩ := habove q (Path.mem_ancestors.mpr ⟨hqne, hpre, hqp⟩)
        rw [ho]
        rfl
      · rename_i hpre
        split
        · rename_i hdown
          rw [hbelow q hdown hqp]
          rfl
        · rw [helse q hqp fun ha => hpre (Path.mem_ancestors.mp ha).2.1]
          exact h.agree q hq
  valid cs hsome := by
    rw [← Option.isSome_map (f := Item.holder?),
      Item.holder?_put hleaf (h.clearTo_iff.mpr hclear)] at hsome
    split at hsome
    · rename_i he
      exact he ▸ p.valid
    · split at hsome
      · rename_i hpre
        exact fun c hc => p.valid c (hpre.subset hc)
      · split at hsome
        · cases hsome
        · rw [Option.isSome_map] at hsome
          exact h.valid cs hsome
  ordered := h.ordered.put hnew _

/-- A node for a free path below a directory. -/
theorem insert (h : t.Flattens top) (hs : t.Sound) {a : Path} (hparent : p.parent? = some a)
    (hdir : t.isDirectory? a = some true) (hfree : t.contains p = false) {n : Node Owner}
    {new : Item} (hleaf : new.IsLeaf) (hnew : new.Ordered) (hholder : new.holder? = n.holder?) :
    (t.insert p n).Flattens (top.put p.components new) := by
  obtain ⟨hroot, hnone⟩ := hs.contains_eq_false_iff.mp hfree
  have habove : ∀ b ∈ p.ancestors, ∃ o, t.get? b = some (.directory o) := by
    intro b hb
    obtain ⟨hne, hpre, hbp⟩ := Path.mem_ancestors.mp hb
    exact hs.above_child hparent hdir b (fun he => hne (congrArg Path.components he)) hpre hbp
  refine h.put hroot hleaf hnew hholder ?_ ?_ ?_ ?_ ?_
  · intro b hb o hfile
    obtain ⟨o', ho'⟩ := habove b hb
    rw [hfile] at ho'
    cases ho'
  · rw [get?_insert, if_pos rfl]
  · intro b hb
    rw [get?_insert, if_neg (Path.mem_ancestors.mp hb).2.2]
    exact habove b hb
  · intro q hpre hne
    rw [get?_insert, if_neg hne]
    cases hq : t.get? q with
    | none => rfl
    | some m =>
      obtain ⟨o, ho⟩ := hs.above q m p hq hroot hpre (Ne.symm hne)
      rw [ho] at hnone
      cases hnone
  · intro q hne _
    rw [get?_insert, if_neg hne]

/-- A file for which there is room. -/
theorem addFile (h : t.Flattens top) (hs : t.Sound) (hroot : p ≠ .root)
    (hc : t.clashes o p = false) : (t.addFile o p).Flattens (top.put p.components (.file o)) := by
  have hclear : ∀ a ∈ p.ancestors, ∀ o', t.get? a ≠ some (.file o') :=
    fun a ha o' => hs.above_of_not_clashes hroot hc ha o'
  refine h.put hroot (Item.isLeaf_file o) (Item.ordered_file o) rfl hclear ?_ ?_ ?_ ?_
    (n := .file o)
  · rw [get?_addFile, if_pos rfl]
  · intro a ha
    rw [get?_addFile, if_neg (Path.mem_ancestors.mp ha).2.2, if_pos ha]
    cases ht : t.get? a with
    | none => exact ⟨some o, rfl⟩
    | some n =>
      cases n with
      | file o' => exact absurd ht (hclear a ha o')
      | directory o' => exact ⟨o', rfl⟩
  · intro q hpre hne
    have hanc : q ∉ p.ancestors := fun ha => hne <| Path.ext <|
      (Path.mem_ancestors.mp ha).2.1.eq_of_length_le hpre.length_le
    rw [get?_addFile, if_neg hne, if_neg hanc]
    cases hq : t.get? q with
    | none => rfl
    | some m =>
      obtain ⟨o', ho'⟩ := hs.above q m p hq hroot hpre (Ne.symm hne)
      rcases (hs.clashes_eq_false_iff hroot).mp hc with ⟨hnone, -⟩ | hsame
      · rw [ho'] at hnone
        cases hnone
      · rw [ho'] at hsame
        cases hsame
  · intro q hne hanc
    rw [get?_addFile, if_neg hne, if_neg hanc]

theorem removeSubtree (h : t.Flattens top) (hroot : p ≠ .root) :
    (t.removeSubtree p).Flattens (top.remove p.components) := by
  have hne : p.components ≠ [] := fun he => hroot (Path.ext he)
  refine ⟨?_, fun q hq => ?_, fun cs hsome => ?_, h.ordered.remove _⟩
  · obtain ⟨items, rfl⟩ := h.folder
    cases hp : p.components with
    | nil => exact absurd hp hne
    | cons c cs =>
      rw [Item.remove]
      split
      · exact ⟨items, rfl⟩
      · split <;> exact ⟨_, rfl⟩
  · rw [Item.holder?_remove hne, get?_removeSubtree]
    split
    · rfl
    · exact h.agree q hq
  · rw [← Option.isSome_map (f := Item.holder?), Item.holder?_remove hne] at hsome
    split at hsome
    · cases hsome
    · rw [Option.isSome_map] at hsome
      exact h.valid cs hsome

/-- Both sides take in the same advertised files and find the same ones to clash. -/
theorem merge (h : t.Flattens top) (hs : t.Sound) (o : Owner) (clashing ps : List Path) :
    (t.mergeInto o clashing ps).1.Flattens (top.advertise o ps).1 ∧
      (t.mergeInto o clashing ps).2 = (top.advertise o ps).2.reverse ++ clashing := by
  induction ps generalizing t top clashing with
  | nil => exact ⟨h, rfl⟩
  | cons p ps ih =>
    rw [mergeInto, Item.advertise]
    by_cases hroot : p.isRoot = true
    · rw [if_pos hroot, if_pos hroot]
      exact ih h hs clashing
    · rw [if_neg hroot, if_neg hroot]
      have hne : p ≠ .root := fun he => hroot (Path.isRoot_iff.mpr he)
      rw [h.hasRoom_eq hs hne]
      cases hc : t.clashes o p with
      | false => exact ih (h.addFile hs hne hc) (hs.addFile hne hc) clashing
      | true =>
        obtain ⟨htree, hlist⟩ := ih h hs (p :: clashing)
        refine ⟨htree, hlist.trans ?_⟩
        simp

end Tree.Flattens

end FileCluster
