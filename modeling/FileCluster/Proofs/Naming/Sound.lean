import FileCluster.Proofs.Naming.Scan

/-!
The invariant of the naming service.

A sound tree has no node for the root, and a directory node for everything above a node
(`Tree.Sound`); so nothing lies below a file and no directory is there without a node of its own.
A sound service has such a tree, whose owners are registered, and a registry whose command stubs are
those of its servers, each server with a stub of its own (`Naming.Sound`). Here the invariant is
carried through every change of the tree and of the registry.
-/

namespace FileCluster

/-- Everything above a node has a node and is a directory; the root has no node. -/
structure Tree.Sound {ω : Type} (t : Tree ω) : Prop where
  root : t.get? .root = none
  above : ∀ p n a, t.get? p = some n → a ≠ .root → a.components <+: p.components → a ≠ p →
    ∃ o, t.get? a = some (.directory o)

/-- The tree is sound, a file has an owner, every owner is a registered server, the known command
stubs are those of the registered servers, and no two servers share one. -/
structure Naming.Sound (s : Naming) : Prop where
  tree : s.tree.Sound
  fileOwner : ∀ p n, s.tree.get? p = some n → n.isFile = true → ∃ o, n.owner? = some o
  owner : ∀ p n o, s.tree.get? p = some n → n.owner? = some o → o ∈ s.registry.servers
  known : ∀ c, c ∈ s.registry.known ↔ c ∈ s.registry.servers.map Owner.command
  distinct : (s.registry.servers.map Owner.command).Nodup

namespace Tree

variable {ω : Type} {t : Tree ω} {p : Path}

/-! ## What a sound tree answers -/

theorem Sound.no_below (h : t.Sound) (hroot : p ≠ .root)
    (hfree : ∀ o, t.get? p ≠ some (.directory o)) : t.hasDescendants p = false := by
  rw [Bool.eq_false_iff]
  intro hd
  obtain ⟨q, n, hq, hpre, hne⟩ := hasDescendants_iff.mp hd
  obtain ⟨o, ho⟩ := h.above q n p hq hroot hpre (Ne.symm hne)
  exact hfree o ho

/-- In a sound tree a path is what its node says. -/
theorem Sound.isDirectory?_eq (h : t.Sound) (p : Path) :
    t.isDirectory? p = if p.isRoot = true then some true else (t.get? p).map Node.isDirectory := by
  unfold isDirectory?
  split
  · rfl
  · rename_i hroot
    cases hget : t.get? p with
    | some n => rfl
    | none =>
      have hne : p ≠ .root := fun he => hroot (Path.isRoot_iff.mpr he)
      have hbelow := h.no_below hne fun o ho => by rw [hget] at ho; cases ho
      simp [hbelow]

theorem Sound.contains_eq (h : t.Sound) (p : Path) :
    t.contains p = (p.isRoot || (t.get? p).isSome) := by
  unfold contains
  rw [h.isDirectory?_eq]
  by_cases hroot : p.isRoot = true
  · simp [hroot]
  · simp [hroot]

theorem Sound.contains_eq_false_iff (h : t.Sound) :
    t.contains p = false ↔ p ≠ .root ∧ t.get? p = none := by
  rw [h.contains_eq, Bool.or_eq_false_iff, Path.isRoot_eq_false_iff, Option.isSome_eq_false_iff,
    Option.isNone_iff_eq_none]

/-- The directories of a sound tree are the root and the directory nodes. -/
theorem Sound.isDirectory?_eq_true_iff (h : t.Sound) :
    t.isDirectory? p = some true ↔ p = .root ∨ ∃ o, t.get? p = some (.directory o) := by
  rw [h.isDirectory?_eq]
  by_cases hroot : p.isRoot = true
  · rw [if_pos hroot]
    exact iff_of_true rfl (Or.inl (Path.isRoot_iff.mp hroot))
  · have hne : p ≠ .root := fun he => hroot (Path.isRoot_iff.mpr he)
    rw [if_neg hroot]
    constructor
    · intro hd
      obtain ⟨n, hn, hdir⟩ := Option.map_eq_some_iff.mp hd
      cases n with
      | file o => cases hdir
      | directory o => exact Or.inr ⟨o, hn⟩
    · rintro (he | ⟨o, ho⟩)
      · exact absurd he hne
      · rw [ho]
        rfl

/-- Below a directory, everything above is a directory node. -/
theorem Sound.above_child (h : t.Sound) {a : Path} (hparent : p.parent? = some a)
    (hdir : t.isDirectory? a = some true) (b : Path) (hroot : b ≠ .root)
    (hpre : b.components <+: p.components) (hne : b ≠ p) :
    ∃ o, t.get? b = some (.directory o) := by
  have hba := (Path.prefix_parent_iff hparent).mpr ⟨hpre, hne⟩
  rcases h.isDirectory?_eq_true_iff.mp hdir with rfl | ⟨o, ho⟩
  · exact absurd (Path.ext (List.prefix_nil.mp hba)) hroot
  · by_cases hab : b = a
    · exact ⟨o, hab ▸ ho⟩
    · exact h.above a _ b ho hroot hba hab

/-! ## Changes keep a tree sound -/

theorem Sound.empty : (Tree.empty : Tree ω).Sound where
  root := rfl
  above p n a h := by cases h

theorem Sound.insert (h : t.Sound) {n : Node ω} (hroot : p ≠ .root)
    (habove : ∀ a : Path, a ≠ .root → a.components <+: p.components → a ≠ p →
      ∃ o, t.get? a = some (.directory o))
    (hfree : ∀ o, t.get? p ≠ some (.directory o)) : (t.insert p n).Sound where
  root := by rw [get?_insert, if_neg (Ne.symm hroot), h.root]
  above q m a hq ha hpre hne := by
    rw [get?_insert] at hq ⊢
    have hnode : ∃ o, t.get? a = some (.directory o) := by
      by_cases hqp : q = p
      · subst hqp
        exact habove a ha hpre hne
      · rw [if_neg hqp] at hq
        exact h.above q m a hq ha hpre hne
    obtain ⟨o, ho⟩ := hnode
    have hap : a ≠ p := fun he => hfree o (he ▸ ho)
    rw [if_neg hap]
    exact ⟨o, ho⟩

theorem Sound.removeSubtree (h : t.Sound) (p : Path) : (t.removeSubtree p).Sound where
  root := by rw [get?_removeSubtree, h.root, ite_self]
  above q n a hq ha hpre hne := by
    rw [get?_removeSubtree] at hq ⊢
    split at hq
    · cases hq
    · rename_i hout
      rw [if_neg fun hpa => hout (hpa.trans hpre)]
      exact h.above q n a hq ha hpre hne

/-! ## Taking in files -/

theorem get?_insertAllAbsent (ps : List Path) (n : Node ω) (t : Tree ω) (q : Path) :
    (ps.foldl (fun t a => t.insertIfAbsent a n) t).get? q =
      if q ∈ ps then some ((t.get? q).getD n) else t.get? q := by
  induction ps generalizing t with
  | nil => simp
  | cons a ps ih =>
    rw [List.foldl_cons, ih, get?_insertIfAbsent]
    by_cases hqa : q = a
    · subst hqa
      simp
    · simp [hqa]

variable {t : Tree Owner} {o : Owner}

/-- The node of a file taken in, and what it adds above and leaves elsewhere. -/
theorem get?_addFile (t : Tree Owner) (o : Owner) (p q : Path) :
    (t.addFile o p).get? q =
      if q = p then some (.file o)
      else if q ∈ p.ancestors then some ((t.get? q).getD (.directory (some o)))
      else t.get? q := by
  unfold addFile
  rw [get?_insert, get?_insertAllAbsent]

/-- In a sound tree a file does not clash where there is nothing and no file above, or where it is
already. -/
theorem Sound.clashes_eq_false_iff (h : t.Sound) (hroot : p ≠ .root) :
    t.clashes o p = false ↔
      (t.get? p = none ∧ ∀ a ∈ p.ancestors, t.isFile a = false) ∨ t.get? p = some (.file o) := by
  unfold clashes
  cases hget : t.get? p with
  | none =>
    have hbelow := h.no_below hroot fun o ho => by rw [hget] at ho; cases ho
    simp [hbelow, List.any_eq_false]
  | some n =>
    cases n with
    | file o' => simp
    | directory o' => simp

/-- Above a file that does not clash there is no file. -/
theorem Sound.above_of_not_clashes (h : t.Sound) (hroot : p ≠ .root) (hc : t.clashes o p = false)
    {a : Path} (ha : a ∈ p.ancestors) (o' : Owner) : t.get? a ≠ some (.file o') := by
  intro hfile
  rcases (h.clashes_eq_false_iff hroot).mp hc with ⟨-, habove⟩ | hsame
  · have := habove a ha
    rw [isFile_iff.mpr ⟨o', hfile⟩] at this
    cases this
  · obtain ⟨hne, hpre, hap⟩ := Path.mem_ancestors.mp ha
    obtain ⟨o'', ho⟩ := h.above p _ a hsame (fun he => hne (he ▸ rfl)) hpre hap
    rw [hfile] at ho
    cases ho

theorem Sound.addFile (h : t.Sound) (hroot : p ≠ .root) (hc : t.clashes o p = false) :
    (t.addFile o p).Sound where
  root := by
    have hanc : Path.root ∉ p.ancestors := fun hm => (Path.mem_ancestors.mp hm).1 rfl
    rw [get?_addFile, if_neg (Ne.symm hroot), if_neg hanc, h.root]
  above q n a hq ha hpre hne := by
    have hne' : a.components ≠ [] := fun he => ha (Path.ext he)
    -- what is above the file becomes or stays a directory
    have hkept : a ∈ p.ancestors → ∃ o', (t.addFile o p).get? a = some (.directory o') := by
      intro hanc
      rw [get?_addFile, if_neg (Path.mem_ancestors.mp hanc).2.2, if_pos hanc]
      cases hget : t.get? a with
      | none => exact ⟨some o, rfl⟩
      | some m =>
        cases m with
        | file o' => exact absurd hget (h.above_of_not_clashes hroot hc hanc o')
        | directory o' => exact ⟨o', rfl⟩
    rw [get?_addFile] at hq
    by_cases hqp : q = p
    · subst hqp
      exact hkept (Path.mem_ancestors.mpr ⟨hne', hpre, hne⟩)
    · rw [if_neg hqp] at hq
      by_cases hqa : q ∈ p.ancestors
      · obtain ⟨-, hqpre, -⟩ := Path.mem_ancestors.mp hqa
        refine hkept (Path.mem_ancestors.mpr ⟨hne', hpre.trans hqpre, fun hap => hqp ?_⟩)
        exact Path.eq_of_prefix hqpre (hap ▸ hpre)
      · rw [if_neg hqa] at hq
        by_cases hanc : a ∈ p.ancestors
        · exact hkept hanc
        · obtain ⟨o', ho⟩ := h.above q n a hq ha hpre hne
          have hap : a ≠ p := by
            rintro rfl
            rcases (h.clashes_eq_false_iff hroot).mp hc with ⟨hnone, -⟩ | hsame
            · rw [ho] at hnone; cases hnone
            · rw [ho] at hsame; cases hsame
          rw [get?_addFile, if_neg hap, if_neg hanc]
          exact ⟨o', ho⟩

/-- Taking in files keeps what every file taken in keeps. -/
theorem mergeInto_invariant {I : Tree Owner → Prop} {o : Owner} {ps : List Path}
    (step : ∀ t p, I t → p ∈ ps → p ≠ .root → t.clashes o p = false → I (t.addFile o p))
    {t : Tree Owner} (h : I t) (clashing : List Path) : I (t.mergeInto o clashing ps).1 := by
  induction ps generalizing t clashing with
  | nil => exact h
  | cons p ps ih =>
    have ih := @ih fun t q h hq => step t q h (List.mem_cons_of_mem p hq)
    rw [mergeInto]
    split
    · exact ih h clashing
    · rename_i hroot
      split
      · exact ih h _
      · rename_i hc
        have hne : p ≠ .root := fun he => hroot (Path.isRoot_iff.mpr he)
        exact ih (step t p h List.mem_cons_self hne (Bool.eq_false_iff.mpr hc)) _

theorem Sound.merge (h : t.Sound) (o : Owner) (ps : List Path) : (t.merge o ps).1.Sound :=
  mergeInto_invariant (fun _ _ h _ hroot hc => h.addFile hroot hc) h []

/-- The owners of nodes are among some servers. -/
def OwnedBy (t : Tree Owner) (servers : List Owner) : Prop :=
  ∀ p n o, t.get? p = some n → n.owner? = some o → o ∈ servers

theorem OwnedBy.insert {servers : List Owner} (h : t.OwnedBy servers) {n : Node Owner}
    (hn : ∀ o, n.owner? = some o → o ∈ servers) (p : Path) : (t.insert p n).OwnedBy servers := by
  intro q m o hq ho
  rw [get?_insert] at hq
  split at hq
  · rw [Option.some.inj hq] at hn
    exact hn o ho
  · exact h q m o hq ho

theorem OwnedBy.removeSubtree {servers : List Owner} (h : t.OwnedBy servers) (p : Path) :
    (t.removeSubtree p).OwnedBy servers := by
  intro q n o hq ho
  rw [get?_removeSubtree] at hq
  split at hq
  · cases hq
  · exact h q n o hq ho

theorem OwnedBy.addFile {servers : List Owner} (h : t.OwnedBy servers) (ho : o ∈ servers)
    (p : Path) : (t.addFile o p).OwnedBy servers := by
  intro q n o' hq ho'
  rw [get?_addFile] at hq
  split at hq
  · cases hq
    exact Option.some.inj ho' ▸ ho
  · split at hq
    · cases hget : t.get? q with
      | none =>
        rw [hget] at hq
        cases hq
        exact Option.some.inj ho' ▸ ho
      | some m =>
        rw [hget] at hq
        cases hq
        exact h q m o' hget ho'
    · exact h q n o' hq ho'

theorem OwnedBy.merge {servers : List Owner} (h : t.OwnedBy servers) (ho : o ∈ servers)
    (ps : List Path) : (t.merge o ps).1.OwnedBy servers :=
  mergeInto_invariant (I := fun t => t.OwnedBy servers) (fun _ p h _ _ _ => h.addFile ho p) h []

end Tree

end FileCluster
