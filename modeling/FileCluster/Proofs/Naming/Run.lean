import FileCluster.Proofs.Naming.Sound

/-!
Runs of the naming service.

`placement` and `removal` say before any command is sent what an order comes to: an answer at once,
or servers to command. `perform` carries out one operation and `run` a sequence of them on a fresh
service, with any replies of the storage servers whatever. Main statement: every state of every run
is sound (`run_sound`).
-/

namespace FileCluster.Naming

/-! ## What an order comes to -/

/-- The server that is to hold a new file and the registry with the turn passed on, or the answer
given without asking a server. -/
def placement (s : Naming) (p : Path) : Except (Except NamingError Bool) (Owner × Registry) :=
  if p.isRoot then .error (.ok false)
  else
    match s.requireParent p with
    | .error e => .error (.error e)
    | .ok () =>
      if s.tree.contains p then .error (.ok false)
      else
        match s.registry.next with
        | .error e => .error (.error e)
        | .ok next => .ok next

/-- What follows from the reply of the server that is to hold a new file. -/
def placed (s : Naming) (p : Path) (owner : Owner) (registry : Registry) :
    Except StorageError Bool → Except NamingError Bool × Naming
  | .ok _ => (.ok true, ⟨s.tree.insert p (.file owner), registry⟩)
  | .error e =>
    (.error (.storageUnavailable (owner.text ++ ": " ++ e.message)), { s with registry })

/-- The servers that hold something of what is to be removed, or the answer given without asking
one. -/
def removal (s : Naming) (p : Path) : Except (Except NamingError Bool) (List Owner) :=
  if p.isRoot then .error (.ok false)
  else
    match s.requireParent p with
    | .error e => .error (.error e)
    | .ok () =>
      if s.tree.contains p then .ok (holders (s.tree.subtree p)) else .error (.error (.notFound p))

section Orders

variable {m : Type → Type} [Monad m]

theorem createFile_eq (command : Commander m) (s : Naming) (p : Path) :
    createFile command s p =
      match s.placement p with
      | .error answer => pure (answer, s)
      | .ok (owner, registry) => do
        let reply ← command owner.command (.create p)
        return s.placed p owner registry reply := by
  unfold createFile placement
  split
  · rfl
  · cases s.requireParent p with
    | error e => rfl
    | ok u =>
      dsimp only
      split
      · rfl
      · cases s.registry.next with
        | error e => rfl
        | ok next =>
          dsimp only
          congr 1
          funext reply
          cases reply <;> rfl

theorem delete_eq (command : Commander m) (s : Naming) (p : Path) :
    delete command s p =
      match s.removal p with
      | .error answer => pure (answer, s)
      | .ok owners => do
        commandDeletes command p owners
        return (.ok true, { s with tree := s.tree.removeSubtree p }) := by
  unfold delete removal
  split
  · rfl
  · cases s.requireParent p with
    | error e => rfl
    | ok u =>
      dsimp only
      split <;> rfl

end Orders

theorem requireParent_eq_ok_iff {s : Naming} {p : Path} :
    s.requireParent p = .ok () ↔
      ∃ a, p.parent? = some a ∧ s.tree.isDirectory? a = some true := by
  unfold requireParent
  cases hparent : p.parent? with
  | none => simp
  | some a =>
    dsimp only
    split
    · rename_i h
      simp [h]
    · rename_i h
      simp only [Option.some.injEq, exists_eq_left', reduceCtorEq, false_iff]
      exact h

/-- A server is asked to hold a file exactly when the path is free, below a directory, and it is
some server's turn. -/
theorem placement_eq_ok_iff {s : Naming} {p : Path} {next : Owner × Registry} :
    s.placement p = .ok next ↔
      p.isRoot = false ∧ s.requireParent p = .ok () ∧ s.tree.contains p = false ∧
        s.registry.next = .ok next := by
  unfold placement
  cases p.isRoot <;> cases s.requireParent p <;> cases s.tree.contains p <;>
    cases s.registry.next <;> simp

/-- No answer says that a file was made unless a storage server was told to make it. -/
theorem placement_ne_ok_true (s : Naming) (p : Path) : s.placement p ≠ .error (.ok true) := by
  unfold placement
  split
  · exact nofun
  · cases s.requireParent p with
    | error e => exact nofun
    | ok u =>
      dsimp only
      split
      · exact nofun
      · cases s.registry.next <;> exact nofun

theorem removal_eq_ok_iff {s : Naming} {p : Path} {owners : List Owner} :
    s.removal p = .ok owners ↔
      p.isRoot = false ∧ s.requireParent p = .ok () ∧ s.tree.contains p = true ∧
        holders (s.tree.subtree p) = owners := by
  unfold removal
  cases p.isRoot <;> cases s.requireParent p <;> cases s.tree.contains p <;> simp

/-- A server is refused if its command stub is known, and taken in with its files otherwise. -/
theorem register_cases (s : Naming) (r : RegistrationRequest) :
    (∃ e, s.register r = (.error e, s)) ∨
      ∃ registry : Registry, r.command ∉ s.registry.known ∧
        registry.servers = s.registry.servers ++ [⟨r.storage, r.command⟩] ∧
        s.register r = (.ok (s.tree.merge ⟨r.storage, r.command⟩ r.paths).2,
          ⟨(s.tree.merge ⟨r.storage, r.command⟩ r.paths).1, registry⟩) := by
  unfold Naming.register Registry.enroll
  dsimp only
  by_cases hknown : r.command ∈ s.registry.known
  · rw [if_pos hknown]
    exact Or.inl ⟨.alreadyRegistered, rfl⟩
  · rw [if_neg hknown]
    exact Or.inr ⟨_, hknown, rfl, rfl⟩

/-! ## Operations and runs -/

/-- What a naming service may be asked: a client's request or a registration. -/
inductive Operation where
  | request (r : ServiceRequest)
  | register (r : RegistrationRequest)

/-- What came of an operation. -/
inductive Answer where
  | answered (r : ServiceRequest) (result : Except NamingError r.Result)
  | registered (result : Except NamingError (List Path))

/-- What can be seen of a naming service from outside. -/
inductive Event where
  /-- a command sent to a storage server -/
  | commanded (server : CommandStub) (r : CommandRequest)
  /-- an answer to who asked for an operation -/
  | answered (a : Answer)

/-- What storage servers reply to a command, after all that has been seen before it. -/
abbrev Replies := List Event → CommandStub → CommandRequest → Except StorageError Bool

/-- Sends commands by noting them; the replies are given. -/
def record (replies : Replies) : Commander (StateM (List Event)) := fun server r => do
  let past ← get
  set (past ++ [.commanded server r])
  return replies past server r

/-- Carries out one operation. -/
def perform {m : Type → Type} [Monad m] (command : Commander m) (s : Naming) :
    Operation → m (Answer × Naming)
  | .request r => do
    let (result, s) ← answer command s r
    return (.answered r result, s)
  | .register r =>
    let (result, s) := s.register r
    pure (.registered result, s)

/-- Carries out operations in turn, by the given step from state to state, and notes every
answer. -/
def runBy {σ : Type} (step : σ → Operation → StateM (List Event) (Answer × σ)) (s : σ) :
    List Operation → StateM (List Event) σ
  | [] => pure s
  | op :: ops => do
    let (a, s) ← step s op
    modify (· ++ [.answered a])
    runBy step s ops

/-- The state of a fresh service after some operations, and all that was seen of it. -/
def run (replies : Replies) (ops : List Operation) : Naming × List Event :=
  (runBy (perform (record replies)) .empty ops).run []

/-! ## Soundness along a run -/

theorem Sound.empty : Naming.empty.Sound where
  tree := Tree.Sound.empty
  fileOwner p n h := by cases h
  owner p n o h := by cases h
  known c := Iff.rfl
  distinct := List.nodup_nil

/-- Every file node has an owner by its form. -/
theorem fileOwner_of_isFile {n : Node Owner} (h : n.isFile = true) : ∃ o, n.owner? = some o := by
  cases n with
  | file o => exact ⟨o, rfl⟩
  | directory o => cases h

theorem Sound.withTree {s : Naming} (h : s.Sound) {t : Tree Owner} (ht : t.Sound)
    (howned : t.OwnedBy s.registry.servers) : Sound { s with tree := t } where
  tree := ht
  fileOwner _ _ _ hf := fileOwner_of_isFile hf
  owner := howned
  known := h.known
  distinct := h.distinct

/-- The turn is a registered server's, and passing it on changes nothing else. -/
theorem next_eq_ok {r r' : Registry} {o : Owner} (h : r.next = .ok (o, r')) :
    o ∈ r.servers ∧ r' = { r with cursor := r.cursor + 1 } := by
  unfold Registry.next at h
  split at h
  · cases h
  · rename_i o' hget
    cases h
    exact ⟨List.mem_of_getElem? hget, rfl⟩

/-- Answering a client changes nothing about who has registered. -/
theorem servers_answer {σ : Type} (s : Naming) (command : Commander (StateM σ))
    (r : ServiceRequest) (x : σ) :
    ((answer command s r).run x).1.2.registry.servers = s.registry.servers := by
  cases r with
  | createFile p =>
    simp only [answer, createFile_eq]
    cases hplace : s.placement p with
    | error a => rfl
    | ok next =>
      obtain ⟨o, registry⟩ := next
      obtain ⟨-, -, -, hnext⟩ := placement_eq_ok_iff.mp hplace
      obtain ⟨-, rfl⟩ := next_eq_ok hnext
      have hplaced : ∀ registry reply,
          (s.placed p o registry reply).2.registry.servers = registry.servers := by
        intro registry reply
        cases reply <;> rfl
      exact hplaced _ _
  | delete p =>
    simp only [answer, delete_eq]
    cases s.removal p <;> rfl
  | createDirectory p =>
    show (s.createDirectory p).2.registry.servers = s.registry.servers
    unfold Naming.createDirectory
    split
    · rfl
    · split
      · rfl
      · split <;> rfl
  | isDirectory p => rfl
  | list p => rfl
  | getStorage p => rfl

theorem Sound.passTurn {s : Naming} (h : s.Sound) {o : Owner} {registry : Registry}
    (hnext : s.registry.next = .ok (o, registry)) : Sound { s with registry } := by
  obtain ⟨-, rfl⟩ := next_eq_ok hnext
  exact ⟨h.tree, fun p n _ hf => fileOwner_of_isFile hf, h.owner, h.known, h.distinct⟩

/-- A free path below a directory takes a node. -/
theorem Sound.insert {s : Naming} (h : s.Sound) {p : Path} {n : Node Owner}
    (hparent : s.requireParent p = .ok ()) (hfree : s.tree.contains p = false)
    (howner : ∀ o, n.owner? = some o → o ∈ s.registry.servers) :
    Sound { s with tree := s.tree.insert p n } := by
  obtain ⟨a, ha, hdir⟩ := requireParent_eq_ok_iff.mp hparent
  obtain ⟨hroot, hnone⟩ := h.tree.contains_eq_false_iff.mp hfree
  refine h.withTree (h.tree.insert hroot ?_ fun o ho => ?_) (Tree.OwnedBy.insert h.owner howner p)
  · exact h.tree.above_child ha hdir
  · rw [ho] at hnone
    cases hnone

theorem Sound.placed {s : Naming} (h : s.Sound) {p : Path} {owner : Owner} {registry : Registry}
    (hplace : s.placement p = .ok (owner, registry)) (reply : Except StorageError Bool) :
    (s.placed p owner registry reply).2.Sound := by
  obtain ⟨-, hparent, hfree, hnext⟩ := placement_eq_ok_iff.mp hplace
  have hpassed := h.passTurn hnext
  cases reply with
  | error e => exact hpassed
  | ok created =>
    refine hpassed.insert (p := p) (n := .file owner) hparent hfree fun o ho => ?_
    obtain ⟨hmem, rfl⟩ := next_eq_ok hnext
    rw [← Option.some.inj ho]
    exact hmem

theorem Sound.createDirectory {s : Naming} (h : s.Sound) (p : Path) :
    (s.createDirectory p).2.Sound := by
  unfold Naming.createDirectory
  split
  · exact h
  · cases hparent : s.requireParent p with
    | error e => exact h
    | ok u =>
      dsimp only
      split
      · exact h
      · rename_i hfree
        exact h.insert hparent (Bool.eq_false_iff.mpr hfree) fun o ho => by cases ho

theorem Sound.removeSubtree {s : Naming} (h : s.Sound) (p : Path) :
    Sound { s with tree := s.tree.removeSubtree p } :=
  h.withTree (h.tree.removeSubtree p) (Tree.OwnedBy.removeSubtree h.owner p)

theorem Sound.register {s : Naming} (h : s.Sound) (r : RegistrationRequest) :
    (s.register r).2.Sound := by
  unfold Naming.register Registry.enroll
  dsimp only
  split
  · rename_i e he
    exact h
  · rename_i registry he
    split at he
    · cases he
    · rename_i hnew
      cases he
      have hmem : (⟨r.storage, r.command⟩ : Owner) ∈
          s.registry.servers ++ [⟨r.storage, r.command⟩] := by simp
      have howned : s.tree.OwnedBy (s.registry.servers ++ [⟨r.storage, r.command⟩]) :=
        fun p n o hp ho => List.mem_append_left _ (h.owner p n o hp ho)
      refine ⟨h.tree.merge _ _, fun p n _ hf => fileOwner_of_isFile hf, howned.merge hmem _, ?_, ?_⟩
      · intro c
        rw [List.map_append, List.mem_append, List.mem_cons, h.known]
        simp [or_comm]
      · rw [List.map_append, List.nodup_append]
        refine ⟨h.distinct, by simp, fun a ha b hb hab => hnew ?_⟩
        rw [List.map_singleton, List.mem_singleton] at hb
        have he : a = r.command := hab.trans hb
        exact (h.known _).mpr (he ▸ ha)

/-- One operation keeps a service sound, whatever storage servers reply. -/
theorem Sound.perform {s : Naming} (h : s.Sound) {σ : Type} (command : Commander (StateM σ))
    (op : Operation) (past : σ) : ((perform command s op).run past).1.2.Sound := by
  cases op with
  | register r => exact h.register r
  | request r =>
    cases r with
    | createFile p =>
      simp only [Naming.perform, answer, createFile_eq]
      cases hplace : s.placement p with
      | error a => exact h
      | ok next => exact h.placed hplace _
    | delete p =>
      simp only [Naming.perform, answer, delete_eq]
      cases s.removal p with
      | error a => exact h
      | ok owners => exact h.removeSubtree p
    | createDirectory p => exact h.createDirectory p
    | isDirectory p => exact h
    | list p => exact h
    | getStorage p => exact h

theorem runBy_cons {σ : Type} (step : σ → Operation → StateM (List Event) (Answer × σ)) (s : σ)
    (op : Operation) (ops : List Operation) (past : List Event) :
    (runBy step s (op :: ops)).run past =
      (runBy step ((step s op).run past).1.2 ops).run
        (((step s op).run past).2 ++ [.answered ((step s op).run past).1.1]) := rfl

theorem runBy_invariant {σ : Type} {P : σ → Prop}
    {step : σ → Operation → StateM (List Event) (Answer × σ)}
    (hstep : ∀ s op past, P s → P ((step s op).run past).1.2) {s : σ} (h : P s)
    (ops : List Operation) (past : List Event) : P ((runBy step s ops).run past).1 := by
  induction ops generalizing s past with
  | nil => exact h
  | cons op ops ih =>
    rw [runBy_cons]
    exact ih (hstep s op past h) _

/-- Every state that a fresh naming service reaches is sound, whatever it is asked and whatever
storage servers reply. -/
theorem run_sound (replies : Replies) (ops : List Operation) : (run replies ops).1.Sound :=
  runBy_invariant (fun _ op past h => h.perform (record replies) op past) Sound.empty ops []

end FileCluster.Naming
