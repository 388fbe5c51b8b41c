import FileCluster.Naming.Service
import FileCluster.Proofs.Path.Prefix

/-!
The directory tree through its look-up.

Every scan of a run of nodes is a scan of all nodes: the nodes below a path, those at it or below
it, and those outside are filters of the whole list. From this, what each question and each change
says in terms of `Tree.get?`, and who holds a file at a path or below it. Main statement: what a
tree is asked about a path, and what is removed there, is what a scan of all of its nodes tells
(`Tree.matchesFullScan`).
-/

namespace FileCluster

/-! ## Runs of a list -/

section Runs

variable {α : Type}

/-- Taking from the front and filtering agree for a property that holds of a front part. -/
theorem takeWhile_eq_filter {inside : α → Bool} {l : List α}
    (h : l.Pairwise fun x y => inside y = true → inside x = true) :
    l.takeWhile inside = l.filter inside ∧ l.dropWhile inside = l.filter fun x => !inside x := by
  induction l with
  | nil => exact ⟨rfl, rfl⟩
  | cons a l ih =>
    obtain ⟨hhead, htail⟩ := List.pairwise_cons.mp h
    by_cases ha : inside a = true
    · obtain ⟨ih₁, ih₂⟩ := ih htail
      simp only [List.takeWhile_cons, List.dropWhile_cons, List.filter_cons, ha, if_true, ih₁, ih₂,
        Bool.not_true, Bool.false_eq_true, if_false, and_self]
    · have hnone : ∀ x ∈ l, inside x = false :=
        fun x hx => Bool.eq_false_iff.mpr fun hi => ha (hhead x hx hi)
      have hfalse : inside a = false := Bool.eq_false_iff.mpr ha
      constructor
      · rw [List.takeWhile_cons_of_neg ha, List.filter_cons_of_neg ha]
        exact (List.filter_eq_nil_iff.mpr fun x hx => by simp [hnone x hx]).symm
      · rw [List.dropWhile_cons_of_neg ha, List.filter_cons_of_pos (by simp [hfalse])]
        exact congrArg (a :: ·) (List.filter_eq_self.mpr fun x hx => by simp [hnone x hx]).symm

/-- A run behind a front part is what a filter finds behind it. -/
theorem run_eq_filter (before inside : α → Bool) {l : List α}
    (front : l.Pairwise fun x y => before y = true → before x = true)
    (run : l.Pairwise fun x y => before x = false → inside y = true → inside x = true) :
    (l.dropWhile before).takeWhile inside = l.filter (fun x => !before x && inside x) ∧
      l.takeWhile before ++ (l.dropWhile before).dropWhile inside =
        l.filter (fun x => before x || !inside x) := by
  induction l with
  | nil => exact ⟨rfl, rfl⟩
  | cons a l ih =>
    obtain ⟨hfront, hfronts⟩ := List.pairwise_cons.mp front
    obtain ⟨hrun, hruns⟩ := List.pairwise_cons.mp run
    by_cases ha : before a = true
    · obtain ⟨ih₁, ih₂⟩ := ih hfronts hruns
      simp only [List.takeWhile_cons, List.dropWhile_cons, List.filter_cons, ha, if_true, ih₁,
        Bool.not_true, Bool.false_and, Bool.true_or, Bool.false_eq_true, if_false, List.cons_append,
        ih₂, and_self]
    · -- nothing of the front part is left, so all of the list is behind it
      have hbehind : ∀ x ∈ a :: l, before x = false := by
        intro x hx
        rcases List.mem_cons.mp hx with rfl | hx
        · exact Bool.eq_false_iff.mpr ha
        · exact Bool.eq_false_iff.mpr fun hb => ha (hfront x hx hb)
      have hinside : (a :: l).Pairwise fun x y => inside y = true → inside x = true :=
        run.imp_of_mem fun {x y} hx _ hxy => hxy (hbehind x hx)
      obtain ⟨htake, hdrop⟩ := takeWhile_eq_filter hinside
      rw [List.dropWhile_cons_of_neg ha, List.takeWhile_cons_of_neg ha, List.nil_append, htake,
        hdrop]
      exact ⟨List.filter_congr fun x hx => by simp [hbehind x hx],
        List.filter_congr fun x hx => by simp [hbehind x hx]⟩

end Runs

namespace Sorted

variable {κ α : Type} [DecidableEq κ]

theorem lookup_eq_none_iff {k : κ} {l : List (κ × α)} :
    lookup k l = none ↔ ∀ e ∈ l, e.1 ≠ k := by
  induction l with
  | nil => simp [lookup]
  | cons e rest ih =>
    obtain ⟨k', y⟩ := e
    rw [lookup, List.forall_mem_cons]
    split
    · rename_i he
      simp [he]
    · rename_i he
      rw [ih]
      exact ⟨fun h => ⟨fun hk => he hk.symm, h⟩, fun h => h.2⟩

/-- Where the keys increase, the values found are those stored. -/
theorem lookup_eq_some_iff [LT κ] (irrefl : ∀ k : κ, ¬k < k) {k : κ} {x : α} {l : List (κ × α)}
    (h : Increasing l) : lookup k l = some x ↔ (k, x) ∈ l := by
  refine ⟨mem_of_lookup, fun hmem => ?_⟩
  induction l with
  | nil => cases hmem
  | cons e rest ih =>
    obtain ⟨k', y⟩ := e
    obtain ⟨hhead, htail⟩ := List.pairwise_cons.mp h
    rw [lookup]
    rcases List.mem_cons.mp hmem with he | hmem
    · cases he
      exact if_pos rfl
    · have hne : k ≠ k' := fun he => irrefl k (he ▸ hhead (k, x) hmem)
      rw [if_neg hne]
      exact ih htail hmem

theorem lookup_filter (f : κ → Bool) (k : κ) (l : List (κ × α)) :
    lookup k (l.filter fun e => f e.1) = if f k = true then lookup k l else none := by
  induction l with
  | nil => simp [lookup]
  | cons e rest ih =>
    obtain ⟨k', y⟩ := e
    by_cases hf : f k' = true
    · rw [List.filter_cons_of_pos (by exact hf), lookup, lookup, ih]
      by_cases hk : k = k'
      · rw [if_pos hk, if_pos hk, if_pos (hk ▸ hf)]
      · rw [if_neg hk, if_neg hk]
    · rw [List.filter_cons_of_neg (by exact hf), ih, lookup]
      by_cases hk : k = k'
      · rw [if_pos hk, if_neg (hk ▸ hf), if_neg (hk ▸ hf)]
      · rw [if_neg hk]

end Sorted

namespace Tree

variable {ω : Type}

theorem get?_eq_some_iff {t : Tree ω} {p : Path} {n : Node ω} :
    t.get? p = some n ↔ (p, n) ∈ t.nodes :=
  Sorted.lookup_eq_some_iff Path.lt_irrefl t.increasing

/-- Trees with the same node at every path are the same. -/
theorem ext_get? {t t' : Tree ω} (h : ∀ p, t.get? p = t'.get? p) : t = t' := by
  have nodup : ∀ u : Tree ω, u.nodes.Nodup := by
    intro u
    refine u.increasing.imp fun {a b} hab he => ?_
    exact Path.lt_irrefl b.1 (he ▸ hab)
  have hmem : ∀ e, e ∈ t.nodes ↔ e ∈ t'.nodes := by
    rintro ⟨p, n⟩
    rw [← get?_eq_some_iff, ← get?_eq_some_iff, h]
  have hnodes : t.nodes = t'.nodes := by
    refine List.Perm.eq_of_pairwise (fun a b _ _ hab hba => ?_) t.increasing t'.increasing ?_
    · exact absurd (Path.lt_trans hab hba) (Path.lt_irrefl a.1)
    · exact (List.perm_ext_iff_of_nodup (nodup t) (nodup t')).mpr hmem
  cases t
  cases t'
  cases hnodes
  rfl

/-! ## Runs of nodes -/

theorem not_lt_of_nodes {t : Tree ω} : t.nodes.Pairwise fun x y => ¬y.1 < x.1 :=
  t.increasing.imp fun {_ _} hxy hyx => Path.lt_irrefl _ (Path.lt_trans hxy hyx)

/-- The nodes strictly below a path. -/
theorem descendants_eq_filter (t : Tree ω) (p : Path) :
    t.descendants p = t.nodes.filter fun e => decide (e.1 ≠ p) && e.1.startsWith p := by
  unfold descendants
  have hrun := run_eq_filter (fun e => decide (e.1 < p) || e.1 == p)
    (fun e => e.1.startsWith p) (l := t.nodes) ?_ ?_
  · rw [hrun.1]
    refine List.filter_congr fun e _ => ?_
    by_cases hs : e.1.startsWith p = true
    · have := Path.not_lt_of_isPrefix (Path.startsWith_iff.mp hs)
      by_cases hp : e.1 = p
      · simp [hp]
      · simp [hs, this, hp]
    · simp [Bool.eq_false_iff.mpr hs]
  · refine t.increasing.imp fun {x y} hxy hy => ?_
    simp only [Bool.or_eq_true, decide_eq_true_eq, beq_iff_eq] at hy ⊢
    rcases hy with hy | hy
    · exact Or.inl (Path.lt_trans hxy hy)
    · exact Or.inl (hy ▸ hxy)
  · refine t.not_lt_of_nodes.imp fun {x y} hxy hx hy => ?_
    simp only [Bool.or_eq_false_iff, decide_eq_false_iff_not] at hx
    rw [Path.startsWith_iff] at hy ⊢
    exact Path.prefix_of_between hx.1 hxy hy

/-- The conditions of `run_eq_filter` for the run that begins at a path itself. -/
theorem runAt (t : Tree ω) (p : Path) :
    (t.subtree p = t.nodes.filter fun e => e.1.startsWith p) ∧
      t.outside p = t.nodes.filter fun e => !e.1.startsWith p := by
  unfold subtree outside
  have hrun := run_eq_filter (fun e => decide (e.1 < p)) (fun e => e.1.startsWith p)
    (l := t.nodes) ?_ ?_
  · have hnot : ∀ e : Path × Node ω, e.1.startsWith p = true → ¬e.1 < p :=
      fun e hs => Path.not_lt_of_isPrefix (Path.startsWith_iff.mp hs)
    rw [hrun.1, hrun.2]
    constructor
    · refine List.filter_congr fun e _ => ?_
      by_cases hs : e.1.startsWith p = true
      · simp [hs, hnot e hs]
      · simp [Bool.eq_false_iff.mpr hs]
    · refine List.filter_congr fun e _ => ?_
      by_cases hs : e.1.startsWith p = true
      · simp [hs, hnot e hs]
      · simp [Bool.eq_false_iff.mpr hs]
  · refine t.increasing.imp fun {x y} hxy hy => ?_
    rw [decide_eq_true_eq] at hy ⊢
    exact Path.lt_trans hxy hy
  · refine t.not_lt_of_nodes.imp fun {x y} hxy hx hy => ?_
    rw [decide_eq_false_iff_not] at hx
    rw [Path.startsWith_iff] at hy ⊢
    exact Path.prefix_of_between hx hxy hy

/-- The nodes at a path and below it. -/
theorem subtree_eq_filter (t : Tree ω) (p : Path) :
    t.subtree p = t.nodes.filter fun e => e.1.startsWith p :=
  (t.runAt p).1

/-- The nodes neither at a path nor below it. -/
theorem outside_eq_filter (t : Tree ω) (p : Path) :
    t.outside p = t.nodes.filter fun e => !e.1.startsWith p :=
  (t.runAt p).2

theorem mem_subtree {t : Tree ω} {p q : Path} {n : Node ω} :
    (q, n) ∈ t.subtree p ↔ t.get? q = some n ∧ p.components <+: q.components := by
  rw [subtree_eq_filter, List.mem_filter, get?_eq_some_iff, Path.startsWith_iff]

theorem mem_descendants {t : Tree ω} {p q : Path} {n : Node ω} :
    (q, n) ∈ t.descendants p ↔ t.get? q = some n ∧ p.components <+: q.components ∧ q ≠ p := by
  rw [descendants_eq_filter, List.mem_filter, get?_eq_some_iff, Bool.and_eq_true,
    Path.startsWith_iff, decide_eq_true_eq]
  exact and_congr_right fun _ => and_comm

/-! ## Questions -/

theorem hasDescendants_iff {t : Tree ω} {p : Path} :
    t.hasDescendants p = true ↔
      ∃ q n, t.get? q = some n ∧ p.components <+: q.components ∧ q ≠ p := by
  unfold hasDescendants
  rw [Bool.not_eq_true', List.isEmpty_eq_false_iff_exists_mem]
  constructor
  · rintro ⟨⟨q, n⟩, h⟩
    exact ⟨q, n, mem_descendants.mp h⟩
  · rintro ⟨q, n, h⟩
    exact ⟨(q, n), mem_descendants.mpr h⟩

theorem isFile_iff {t : Tree ω} {p : Path} :
    t.isFile p = true ↔ ∃ o, t.get? p = some (.file o) := by
  unfold isFile
  rw [Option.any_eq_true]
  constructor
  · rintro ⟨n, hn, hf⟩
    cases n with
    | file o => exact ⟨o, hn⟩
    | directory o => cases hf
  · rintro ⟨o, ho⟩
    exact ⟨.file o, ho, rfl⟩

/-- A name is among the children exactly when some node is at or below the path it makes. -/
theorem mem_children {t : Tree ω} {p : Path} {c : String} :
    c ∈ t.children p ↔ ∃ q n, t.get? q = some n ∧ p.components ++ [c] <+: q.components := by
  unfold children
  rw [NameSet.mem_ofList, List.mem_filterMap]
  constructor
  · rintro ⟨⟨q, n⟩, hmem, hafter⟩
    obtain ⟨hget, ⟨rest, hrest⟩, -⟩ := mem_descendants.mp hmem
    refine ⟨q, n, hget, ?_⟩
    unfold Path.componentAfter? at hafter
    split at hafter
    · unfold Path.depth at hafter
      rw [← hrest, List.getElem?_append_right (Nat.le_refl _), Nat.sub_self] at hafter
      cases rest with
      | nil => cases hafter
      | cons d rest =>
        rw [← hrest, ← Option.some.inj hafter]
        exact ⟨rest, by simp⟩
    · cases hafter
  · rintro ⟨q, n, hget, ⟨rest, hrest⟩⟩
    have hpre : p.components <+: q.components := ⟨c :: rest, by simp [← hrest]⟩
    have hlen := congrArg List.length hrest
    simp only [List.length_append, List.length_singleton] at hlen
    have hne : q ≠ p := fun he => by rw [he] at hlen; omega
    refine ⟨(q, n), mem_descendants.mpr ⟨hget, hpre, hne⟩, ?_⟩
    unfold Path.componentAfter?
    have hdepth : p.depth < q.depth := by unfold Path.depth; omega
    rw [if_pos (by rw [Bool.and_eq_true, decide_eq_true_eq]
                   exact ⟨hdepth, Path.startsWith_iff.mpr hpre⟩)]
    simp [Path.depth, ← hrest]

/-- What is there has a node at it or below it, if it is not the root. -/
theorem contains_iff {t : Tree ω} {p : Path} :
    t.contains p = true ↔
      p = .root ∨ ∃ q n, t.get? q = some n ∧ p.components <+: q.components := by
  unfold contains isDirectory?
  by_cases hroot : p.isRoot = true
  · rw [if_pos hroot]
    exact iff_of_true rfl (.inl (Path.isRoot_iff.mp hroot))
  · have hne : p ≠ .root := fun he => hroot (Path.isRoot_iff.mpr he)
    rw [if_neg hroot]
    cases hget : t.get? p with
    | some n => exact iff_of_true rfl (.inr ⟨p, n, hget, List.prefix_refl _⟩)
    | none =>
      have hbelow : t.hasDescendants p = true ↔
          ∃ q n, t.get? q = some n ∧ p.components <+: q.components := by
        rw [hasDescendants_iff]
        constructor
        · rintro ⟨q, n, hq, hpre, -⟩
          exact ⟨q, n, hq, hpre⟩
        · rintro ⟨q, n, hq, hpre⟩
          exact ⟨q, n, hq, hpre, fun he => by rw [he, hget] at hq; cases hq⟩
      rw [or_iff_right hne, ← hbelow]
      cases t.hasDescendants p <;> simp

theorem hasDescendants_eq (t : Tree ω) (p : Path) :
    t.hasDescendants p = decide (∃ e ∈ t.nodes, e.1.IsBelow p) := by
  rw [Bool.eq_iff_iff, hasDescendants_iff, decide_eq_true_iff]
  constructor
  · rintro ⟨q, n, hq, hbelow⟩
    exact ⟨(q, n), get?_eq_some_iff.mp hq, hbelow⟩
  · rintro ⟨⟨q, n⟩, hmem, hbelow⟩
    exact ⟨q, n, get?_eq_some_iff.mpr hmem, hbelow⟩

/-- The names of the entries of a directory are those that make a path which is there. -/
theorem mem_children_iff {t : Tree ω} {p : Path} {c : String} :
    c ∈ t.children p ↔ ∃ q, p.child c = .ok q ∧ t.contains q = true := by
  rw [mem_children]
  constructor
  · rintro ⟨q, n, hq, hpre⟩
    refine ⟨⟨p.components ++ [c], fun d hd => q.valid d (hpre.subset hd)⟩,
      Path.child_eq_ok_iff.mpr rfl, contains_iff.mpr (.inr ⟨q, n, hq, hpre⟩)⟩
  · rintro ⟨q, hchild, hthere⟩
    have hq := Path.child_eq_ok_iff.mp hchild
    rcases contains_iff.mp hthere with rfl | ⟨r, n, hr, hpre⟩
    · exact absurd hq.symm (by simp [Path.root])
    · exact ⟨r, n, hr, hq ▸ hpre⟩

/-! ## Changes -/

theorem get?_insert (t : Tree ω) (p q : Path) (n : Node ω) :
    (t.insert p n).get? q = if q = p then some n else t.get? q := by
  unfold get? insert
  split
  · rename_i h
    rw [h]
    exact Sorted.lookup_insert_self p n t.nodes
  · rename_i h
    exact Sorted.lookup_insert_ne h n t.nodes

/-- A node at a free path adds a file there if it is one, and changes no other file. -/
theorem file_insert_iff {t : Tree ω} {p q : Path} {n : Node ω} {o : ω} (hfree : t.get? p = none) :
    (t.insert p n).get? q = some (.file o) ↔ t.get? q = some (.file o) ∨ n = .file o ∧ q = p := by
  rw [get?_insert]
  by_cases hq : q = p
  · simp [hq, hfree]
  · simp [hq]

theorem get?_insertIfAbsent (t : Tree ω) (p q : Path) (n : Node ω) :
    (t.insertIfAbsent p n).get? q = if q = p then some ((t.get? p).getD n) else t.get? q := by
  unfold insertIfAbsent
  split
  · rename_i h
    obtain ⟨m, hm⟩ := Option.isSome_iff_exists.mp h
    split
    · rename_i hq
      rw [hq, hm]
      rfl
    · rfl
  · rename_i h
    rw [get?_insert, Option.not_isSome_iff_eq_none.mp h]
    rfl

theorem get?_removeSubtree (t : Tree ω) (p q : Path) :
    (t.removeSubtree p).get? q = if p.components <+: q.components then none else t.get? q := by
  unfold get? removeSubtree
  simp only [outside_eq_filter]
  rw [Sorted.lookup_filter (fun r : Path => !r.startsWith p)]
  by_cases h : p.components <+: q.components
  · rw [if_pos h, if_neg (by rw [Path.startsWith_iff.mpr h]; decide)]
  · have hs : q.startsWith p = false := Bool.eq_false_iff.mpr fun hs => h (Path.startsWith_iff.mp hs)
    rw [if_neg h, if_pos (by rw [hs]; rfl)]

/-! ## Scans of a run and scans of all nodes -/

/-- What is asked about a path, and what is removed at it, as a scan of all nodes in path order
tells it. -/
structure MatchesFullScan (t : Tree ω) (p : Path) : Prop where
  /-- the nodes are the entries of the map, one for each path that has one, in path order -/
  nodes : (∀ q n, (q, n) ∈ t.nodes ↔ t.get? q = some n) ∧ Sorted.Increasing t.nodes
  descendants : t.descendants p = t.nodes.filter fun e => decide (e.1.IsBelow p)
  isDirectory? : t.isDirectory? p =
    if p = .root then some true
    else
      match t.get? p with
      | some n => some n.isDirectory
      | none => if ∃ e ∈ t.nodes, e.1.IsBelow p then some true else none
  /-- a name is a child's exactly if it makes a path that is there -/
  children : ∀ c, c ∈ t.children p ↔ ∃ q, p.child c = .ok q ∧ t.contains q = true
  removed : t.subtree p = t.nodes.filter fun e => decide (p.components <+: e.1.components)
  left : (t.removeSubtree p).nodes =
    t.nodes.filter fun e => decide ¬p.components <+: e.1.components

/-- Each scan of a run of nodes agrees with a scan of all of them, whatever nodes a tree has. -/
theorem matchesFullScan (t : Tree ω) (p : Path) : t.MatchesFullScan p where
  nodes := ⟨fun _ _ => get?_eq_some_iff.symm, t.increasing⟩
  descendants := by
    rw [descendants_eq_filter]
    refine List.filter_congr fun e _ => ?_
    rw [Bool.eq_iff_iff, Bool.and_eq_true, Path.startsWith_iff, decide_eq_true_iff,
      decide_eq_true_iff]
    exact and_comm
  isDirectory? := by
    unfold Tree.isDirectory?
    by_cases hroot : p = .root
    · rw [if_pos (Path.isRoot_iff.mpr hroot), if_pos hroot]
    · rw [if_neg (mt Path.isRoot_iff.mp hroot), if_neg hroot]
      cases t.get? p with
      | some n => rfl
      | none =>
        rw [hasDescendants_eq]
        exact ite_congr (propext decide_eq_true_iff) (fun _ => rfl) fun _ => rfl
  children _ := mem_children_iff
  removed := by
    rw [subtree_eq_filter]
    refine List.filter_congr fun e _ => ?_
    rw [Bool.eq_iff_iff, Path.startsWith_iff, decide_eq_true_iff]
  left := by
    refine (outside_eq_filter t p).trans (List.filter_congr fun e _ => ?_)
    rw [Bool.eq_iff_iff, Bool.not_eq_true', decide_eq_true_iff, ← Bool.not_eq_true,
      Path.startsWith_iff]

end Tree

/-! ## Holders of files -/

/-- Who holds a node, if it is a file. -/
def Node.holder? {ω : Type} : Node ω → Option ω
  | .file o => some o
  | .directory _ => none

/-- Collecting the owners of files one by one, each when it comes up first, collects them without
repetition. -/
theorem collect_eq {f : List Owner → Path × Node Owner → List Owner}
    (hfile : ∀ found p o, f found (p, .file o) = if o ∈ found then found else found ++ [o])
    (hdirectory : ∀ found p o, f found (p, .directory o) = found)
    (nodes : List (Path × Node Owner)) (found : List Owner) :
    nodes.foldl f found =
      found ++ ((nodes.filterMap fun e => e.2.holder?).filter (· ∉ found)).eraseDups := by
  induction nodes generalizing found with
  | nil => simp
  | cons e nodes ih =>
    obtain ⟨p, n⟩ := e
    rw [List.foldl_cons]
    cases n with
    | directory o =>
      rw [hdirectory, ih]
      rfl
    | file o =>
      have hcons : ((p, Node.file o) :: nodes).filterMap (fun e => e.2.holder?) =
          o :: nodes.filterMap fun e => e.2.holder? := rfl
      rw [hfile, hcons]
      by_cases ho : o ∈ found
      · rw [if_pos ho, ih, List.filter_cons_of_neg (by simpa using ho)]
      · -- the new owner comes next, and is left out of what comes later
        rw [if_neg ho, ih, List.filter_cons_of_pos (by simpa using ho), List.eraseDups_cons,
          List.filter_filter, List.append_assoc, List.singleton_append]
        congr 3
        refine List.filter_congr fun a _ => ?_
        by_cases hao : a = o <;> simp [hao]

theorem Naming.holders_eq_eraseDups (nodes : List (Path × Node Owner)) :
    holders nodes = (nodes.filterMap fun e => e.2.holder?).eraseDups := by
  have hall : ∀ l : List Owner, l.filter (· ∉ []) = l := fun l => by simp
  refine (collect_eq (fun _ _ _ => rfl) (fun _ _ _ => rfl) nodes []).trans ?_
  exact congrArg List.eraseDups (hall _)

/-- The holders of what is to be removed are the owners of the files there. -/
theorem Naming.mem_holders_subtree {t : Tree Owner} {p : Path} {o : Owner} :
    o ∈ holders (t.subtree p) ↔ ∃ q, t.get? q = some (.file o) ∧ p.components <+: q.components := by
  rw [holders_eq_eraseDups, List.mem_eraseDups, List.mem_filterMap]
  constructor
  · rintro ⟨⟨q, n⟩, hmem, hn⟩
    obtain ⟨hget, hpre⟩ := Tree.mem_subtree.mp hmem
    cases n with
    | file o' =>
      cases hn
      exact ⟨q, hget, hpre⟩
    | directory o' => cases hn
  · rintro ⟨q, hget, hpre⟩
    exact ⟨(q, .file o), Tree.mem_subtree.mpr ⟨hget, hpre⟩, rfl⟩

end FileCluster
