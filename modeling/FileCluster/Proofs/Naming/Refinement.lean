import FileCluster.Proofs.Naming.Flatten

/-!
The naming service agrees with the catalog.

The naming service keeps one flat list of nodes and finds out about directories by scans; the
catalog is the nested tree that a reader has in mind. Main statement: whatever a fresh service is
asked and whatever storage servers reply, a catalog sends the same commands in the same order and
gives the same answers (`run_events_eq`).
-/

namespace FileCluster

namespace Tree.Flattens

variable {t : Tree Owner} {top i : Item} {p : Path}

/-- The files at a path and below it come in the same order on both sides. -/
theorem files_eq (h : t.Flattens top) (hroot : p ≠ .root) (hi : top.at? p.components = some i) :
    (t.subtree p).filterMap (fun e => e.2.holder?.map fun o => (e.1.components, o)) =
      i.files p.components := by
  have hordered : i.Ordered := by
    intro cs items hat
    refine h.ordered (p.components ++ cs) items ?_
    rw [Item.at?_append, hi]
    exact hat
  have hflat : ((t.subtree p).filterMap fun e =>
      e.2.holder?.map fun o => (e.1.components, o)).Pairwise fun a b => a.1 < b.1 := by
    rw [List.pairwise_filterMap, subtree_eq_filter]
    refine (t.increasing.sublist List.filter_sublist).imp fun {x y} hxy a ha b hb => ?_
    obtain ⟨_, -, rfl⟩ := Option.map_eq_some_iff.mp ha
    obtain ⟨_, -, rfl⟩ := Option.map_eq_some_iff.mp hb
    exact hxy
  have hnodup : ∀ l : List (List String × Owner), (l.Pairwise fun a b => a.1 < b.1) → l.Nodup :=
    fun l hl => List.Pairwise.imp (fun {a b} hab (he : a = b) => List.lt_irrefl b.1 (he ▸ hab)) hl
  refine List.Perm.eq_of_pairwise (fun a b _ _ hab hba => ?_) hflat
    (Item.files_increasing hordered _) ?_
  · exact absurd (List.lt_trans hab hba) (List.lt_irrefl a.1)
  · refine (List.perm_ext_iff_of_nodup (hnodup _ hflat)
      (hnodup _ (Item.files_increasing hordered _))).mpr ?_
    rintro ⟨cs, o⟩
    rw [Item.mem_files hordered, List.mem_filterMap]
    constructor
    · rintro ⟨⟨q, n⟩, hmem, ho⟩
      obtain ⟨hget, rest, hrest⟩ := mem_subtree.mp hmem
      obtain ⟨o', ho', he⟩ := Option.map_eq_some_iff.mp ho
      cases he
      refine ⟨rest, hrest.symm, ?_⟩
      have hq : q ≠ .root := by
        rintro rfl
        exact hroot (Path.ext (List.prefix_nil.mp ⟨rest, hrest⟩))
      have hfile : n = .file o := by
        cases n with
        | file o' => exact congrArg _ (Option.some.inj ho')
        | directory o' => cases ho'
      have hat := (h.file_iff hq).mpr (hfile ▸ hget)
      rw [← hrest, Item.at?_append, hi] at hat
      exact hat
    · rintro ⟨ds, rfl, hds⟩
      have hat : top.at? (p.components ++ ds) = some (.file o) := by
        rw [Item.at?_append, hi]
        exact hds
      have hvalid := h.valid _ (Option.isSome_of_mem hat)
      have hq : (⟨p.components ++ ds, hvalid⟩ : Path) ≠ .root := by
        intro he
        have hnil : p.components ++ ds = [] := congrArg Path.components he
        exact hroot (Path.ext (List.append_eq_nil_iff.mp hnil).1)
      exact ⟨(⟨p.components ++ ds, hvalid⟩, .file o),
        mem_subtree.mpr ⟨(h.file_iff hq).mp hat, List.prefix_append _ _⟩, rfl⟩

theorem holders_eq (h : t.Flattens top) (hroot : p ≠ .root) (hi : top.at? p.components = some i) :
    Naming.holders (t.subtree p) = ((i.files p.components).map Prod.snd).eraseDups := by
  rw [Naming.holders_eq_eraseDups, ← h.files_eq hroot hi, List.map_filterMap]
  congr 1
  congr 1
  funext e
  cases e.2 <;> rfl

end Tree.Flattens

namespace Naming

open Catalog

/-! ## Agreeing states -/

/-- A naming service and a catalog that hold the same files and directories, know the same servers
and have dealt out as many files. -/
structure Agrees (s : Naming) (k : Catalog) : Prop where
  sound : s.Sound
  tree : s.tree.Flattens k.top
  servers : k.servers = s.registry.servers
  cursor : s.registry.cursor = UInt64.ofNat k.dealt

namespace Agrees

variable {s : Naming} {k : Catalog} {p : Path}

theorem empty : Agrees .empty .empty where
  sound := Sound.empty
  tree := Tree.Flattens.empty
  servers := rfl
  cursor := rfl

theorem isDirectory_eq (h : Agrees s k) (p : Path) : s.isDirectory p = k.isDirectory p := by
  unfold Naming.isDirectory Catalog.isDirectory Catalog.entry?
  rw [h.tree.isDirectory?_eq h.sound.tree]
  cases k.top.at? p.components with
  | none => rfl
  | some i => cases i <;> rfl

theorem list_eq (h : Agrees s k) (p : Path) : s.list p = k.list p := by
  unfold Naming.list Catalog.list Catalog.entry?
  rw [h.tree.isDirectory?_eq h.sound.tree]
  cases hp : k.top.at? p.components with
  | none => rfl
  | some i =>
    cases i with
    | file o => rfl
    | folder items => exact congrArg Except.ok (h.tree.children_eq hp)

theorem getStorage_eq (h : Agrees s k) (p : Path) : s.getStorage p = k.getStorage p := by
  unfold Naming.getStorage Catalog.getStorage Catalog.entry?
  by_cases hroot : p = .root
  · obtain ⟨items, hitems⟩ := h.tree.at?_root
    rw [hroot, hitems, h.sound.tree.root]
  · cases hp : k.top.at? p.components with
    | none =>
      have hsome := h.tree.isSome_iff hroot
      rw [hp] at hsome
      have hnone : s.tree.get? p = none :=
        Option.isNone_iff_eq_none.mp (Option.isSome_eq_false_iff.mp hsome.symm)
      rw [hnone]
    | some i =>
      cases i with
      | file o => rw [(h.tree.file_iff hroot).mp hp]
      | folder items =>
        obtain ⟨o, ho⟩ := (h.tree.folder_iff hroot).mp ⟨items, hp⟩
        rw [ho]

theorem requireParent_eq (h : Agrees s k) (p : Path) : s.requireParent p = k.requireParent p := by
  unfold Naming.requireParent Catalog.requireParent Catalog.entry?
  cases p.parent? with
  | none => rfl
  | some a =>
    dsimp only
    rw [h.tree.isDirectory?_eq h.sound.tree]
    cases k.top.at? a.components with
    | none => rfl
    | some i => cases i <;> rfl

theorem contains_eq (h : Agrees s k) (p : Path) : s.tree.contains p = (k.entry? p).isSome :=
  h.tree.contains_eq h.sound.tree p

/-- The next server by the counter is the server whose turn it is. -/
theorem next_eq (h : Agrees s k) :
    s.registry.next =
      match k.turn with
      | none => .error .noStorageServers
      | some o => .ok (o, { s.registry with cursor := UInt64.ofNat (k.dealt + 1) }) := by
  unfold Registry.next Catalog.turn
  have hturn : s.registry.cursor.toNat = k.dealt % UInt64.size := by
    rw [h.cursor]
    rfl
  have hpassed : s.registry.cursor + 1 = UInt64.ofNat (k.dealt + 1) :=
    (congrArg (· + 1) h.cursor).trans (UInt64.ofNat_add k.dealt 1).symm
  rw [hturn, h.servers]
  cases s.registry.servers[k.dealt % UInt64.size % s.registry.servers.length]? with
  | none => rfl
  | some o => exact congrArg (fun cursor => Except.ok (o, { s.registry with cursor })) hpassed

/-! ## Operations -/

theorem createDirectory (h : Agrees s k) (p : Path) :
    (s.createDirectory p).1 = (k.createDirectory p).1 ∧
      Agrees (s.createDirectory p).2 (k.createDirectory p).2 := by
  have hsound := h.sound.createDirectory p
  revert hsound
  unfold Naming.createDirectory Catalog.createDirectory
  rw [h.requireParent_eq, ← h.contains_eq]
  split
  · exact fun _ => ⟨rfl, h⟩
  · cases hparent : k.requireParent p with
    | error e => exact fun _ => ⟨rfl, h⟩
    | ok u =>
      dsimp only
      split
      · exact fun _ => ⟨rfl, h⟩
      · rename_i hfree
        intro hsound
        obtain ⟨a, ha, hdir⟩ := requireParent_eq_ok_iff.mp ((h.requireParent_eq p).trans hparent)
        refine ⟨rfl, hsound, ?_, h.servers, h.cursor⟩
        exact h.tree.insert h.sound.tree ha hdir (Bool.eq_false_iff.mpr hfree) Item.isLeaf_folder
          Item.ordered_empty rfl

theorem register (h : Agrees s k) (r : RegistrationRequest) :
    (s.register r).1 = (k.register r).1 ∧ Agrees (s.register r).2 (k.register r).2 := by
  have hsound := h.sound.register r
  revert hsound
  unfold Naming.register Catalog.register Registry.enroll
  dsimp only
  have hknown : k.servers.any (·.command = r.command) = true ↔ r.command ∈ s.registry.known := by
    rw [h.sound.known, h.servers, List.any_eq_true, List.mem_map]
    simp only [decide_eq_true_eq]
  by_cases hk : r.command ∈ s.registry.known
  · rw [if_pos hk, if_pos (hknown.mpr hk)]
    exact fun _ => ⟨rfl, h⟩
  · rw [if_neg hk, if_neg fun he => hk (hknown.mp he)]
    intro hsound
    obtain ⟨htree, hclash⟩ := h.tree.merge h.sound.tree ⟨r.storage, r.command⟩ [] r.paths
    refine ⟨?_, hsound, htree, ?_, h.cursor⟩
    · refine congrArg Except.ok ?_
      unfold Tree.merge
      dsimp only
      rw [hclash, List.append_nil, List.reverse_reverse]
    · dsimp only
      rw [h.servers]

end Agrees

/-! ## Steps that look alike -/

/-- Two steps that are seen to do the same, and leave states that agree. -/
def Alike {α : Type} (x : StateM (List Event) (α × Naming))
    (y : StateM (List Event) (α × Catalog)) : Prop :=
  ∀ past, (x.run past).1.1 = (y.run past).1.1 ∧ (x.run past).2 = (y.run past).2 ∧
    Agrees (x.run past).1.2 (y.run past).1.2

section Steps

variable {α β : Type} {s : Naming} {k : Catalog}

theorem Alike.pure {x : α × Naming} {y : α × Catalog} (h : x.1 = y.1 ∧ Agrees x.2 y.2) :
    Alike (pure x) (pure y) :=
  fun _ => ⟨h.1, rfl, h.2⟩

/-- Both do the same first. -/
theorem Alike.bind (x : StateM (List Event) β) {f : β → StateM (List Event) (α × Naming)}
    {g : β → StateM (List Event) (α × Catalog)} (h : ∀ b, Alike (f b) (g b)) :
    Alike (x >>= f) (x >>= g) :=
  fun past => h (x.run past).1 (x.run past).2

/-- What is made of the answers is the same. -/
theorem Alike.map {x : StateM (List Event) (α × Naming)} {y : StateM (List Event) (α × Catalog)}
    (h : Alike x y) (f : α → β) :
    Alike (do let (a, s) ← x; return (f a, s)) (do let (a, k) ← y; return (f a, k)) :=
  fun past => ⟨congrArg f (h past).1, (h past).2⟩

variable (command : Commander (StateM (List Event)))

theorem Agrees.createFile (h : Agrees s k) (p : Path) :
    Alike (Naming.createFile command s p) (Catalog.createFile command k p) := by
  unfold Naming.createFile Catalog.createFile
  rw [h.requireParent_eq, h.contains_eq, h.next_eq]
  split
  · exact Alike.pure ⟨rfl, h⟩
  · rename_i hroot
    cases hparent : k.requireParent p with
    | error e => exact Alike.pure ⟨rfl, h⟩
    | ok u =>
      dsimp only
      split
      · exact Alike.pure ⟨rfl, h⟩
      · rename_i hfree
        cases hturn : k.turn with
        | none => exact Alike.pure ⟨rfl, h⟩
        | some o =>
          have hparent' := (h.requireParent_eq p).trans hparent
          have hfree' : s.tree.contains p = false :=
            (h.contains_eq p).trans (Bool.eq_false_iff.mpr hfree)
          have hnext := h.next_eq
          rw [hturn] at hnext
          have hplace := placement_eq_ok_iff.mpr
            ⟨Bool.eq_false_iff.mpr hroot, hparent', hfree', hnext⟩
          obtain ⟨a, ha, hdir⟩ := requireParent_eq_ok_iff.mp hparent'
          refine Alike.bind _ fun reply => ?_
          have hsound := h.sound.placed hplace reply
          cases reply with
          | error e => exact Alike.pure ⟨rfl, hsound, h.tree, h.servers, rfl⟩
          | ok created =>
            refine Alike.pure ⟨rfl, hsound, ?_, h.servers, rfl⟩
            exact h.tree.insert h.sound.tree ha hdir hfree' (Item.isLeaf_file o)
              (Item.ordered_file o) rfl

/-- Telling each server once comes to sending the commands one after the other. -/
theorem tellEach_eq {m : Type → Type} [Monad m] [LawfulMonad m] (command : Commander m) (p : Path)
    (owners : List Owner) :
    tellEach command p owners = commandDeletes command p owners.eraseDups := by
  unfold tellEach
  induction owners.eraseDups with
  | nil => rfl
  | cons o rest ih =>
    rw [commandDeletes, ← ih]
    show ((command o.command (.delete p) >>= fun _ => pure ()) >>= fun _ => rest.forM _) = _
    rw [bind_assoc]
    simp only [pure_bind]

theorem Agrees.delete (h : Agrees s k) (p : Path) :
    Alike (Naming.delete command s p) (Catalog.delete command k p) := by
  unfold Naming.delete Catalog.delete
  rw [h.requireParent_eq, h.contains_eq]
  split
  · exact Alike.pure ⟨rfl, h⟩
  · rename_i hroot
    have hne : p ≠ .root := fun he => hroot (Path.isRoot_iff.mpr he)
    cases k.requireParent p with
    | error e => exact Alike.pure ⟨rfl, h⟩
    | ok u =>
      cases hentry : k.entry? p with
      | none => exact Alike.pure ⟨rfl, h⟩
      | some i =>
        dsimp only [Option.isSome_some]
        rw [if_pos rfl, h.tree.holders_eq hne hentry, ← tellEach_eq]
        refine Alike.bind _ fun _ => Alike.pure ⟨rfl, ?_⟩
        exact ⟨h.sound.removeSubtree p, h.tree.removeSubtree hne, h.servers, h.cursor⟩

theorem Agrees.answer (h : Agrees s k) (r : ServiceRequest) :
    Alike (Naming.answer command s r) (Catalog.answer command k r) := by
  cases r with
  | isDirectory p => exact Alike.pure ⟨h.isDirectory_eq p, h⟩
  | list p => exact Alike.pure ⟨h.list_eq p, h⟩
  | createFile p => exact h.createFile command p
  | createDirectory p => exact Alike.pure (h.createDirectory p)
  | delete p => exact h.delete command p
  | getStorage p => exact Alike.pure ⟨h.getStorage_eq p, h⟩

/-- One operation is seen to do the same on both sides. -/
theorem Agrees.perform (h : Agrees s k) (op : Operation) :
    Alike (Naming.perform command s op) (Catalog.perform command k op) := by
  cases op with
  | request r => exact (h.answer command r).map (Answer.answered r)
  | register r =>
    obtain ⟨hresult, hagrees⟩ := h.register r
    exact Alike.pure ⟨congrArg Answer.registered hresult, hagrees⟩

theorem Agrees.runBy (h : Agrees s k) (ops : List Operation) (past : List Event) :
    ((Naming.runBy (Naming.perform command) s ops).run past).2 =
      ((Naming.runBy (Catalog.perform command) k ops).run past).2 := by
  induction ops generalizing s k past with
  | nil => rfl
  | cons op ops ih =>
    obtain ⟨hanswer, hlog, hagrees⟩ := h.perform command op past
    rw [runBy_cons, runBy_cons, hanswer, hlog]
    exact ih hagrees _

end Steps

/-- Whatever a fresh naming service is asked and whatever storage servers reply, the commands that
it sends and the answers that it gives are those of a catalog. -/
theorem run_events_eq (replies : Replies) (ops : List Operation) :
    (run replies ops).2 = (Catalog.run replies ops).2 :=
  Agrees.empty.runBy (record replies) ops []

end Naming

end FileCluster
