import FileCluster.Proofs.Naming.Merge
import FileCluster.Proofs.Naming.Run

/-!
What one operation of the naming service changes.

Commands to storage servers are sent between the checks of an operation and its change of the tree,
and they may fail. Still an operation does what it reports and nothing else (`Tidy`): if it is
refused, the tree and the registered servers are as before; a node that stays is the same node; a
file or directory that is made is one node more, a removal takes away one subtree, and a
registration takes away nothing. Main statement: every operation is tidy in every state, whatever
storage servers reply (`perform_tidy`).
-/

namespace FileCluster

/-- Whether an answer affirms: the answer to a question what is there does, and another one if it is
not false. -/
def ServiceRequest.affirms : (r : ServiceRequest) → r.Result → Bool
  | .isDirectory _, b => b
  | .list _, _ => true
  | .createFile _, b => b
  | .createDirectory _, b => b
  | .delete _, b => b
  | .getStorage _, _ => true

/-- One tree has one node more than another one. -/
structure Tree.AddsOnly {ω : Type} (t t' : Tree ω) (p : Path) (n : Node ω) : Prop where
  free : t.get? p = none
  get? : ∀ q, t'.get? q = if q = p then some n else t.get? q

namespace Naming

/-- Whether an operation was refused: the answer is an error or false. -/
def Answer.isRefusal : Answer → Bool
  | .answered _ (.error _) => true
  | .answered r (.ok x) => !r.affirms x
  | .registered (.error _) => true
  | .registered (.ok _) => false

/-- The state when a server's turn has passed. -/
def turned (s : Naming) : Naming :=
  { s with registry := { s.registry with cursor := s.registry.cursor + 1 } }

/-- What an operation in state `s` may lead to: an answer `a`, a state `s'`, and what has been seen
then. -/
structure Tidy (op : Operation) (s : Naming) (past : List Event) (a : Answer) (s' : Naming)
    (seen : List Event) : Prop where
  /-- nothing is changed by what is refused, but that a turn passes if a server was asked to make a
  file -/
  refused : a.isRefusal = true → s' = s ∨ s' = s.turned ∧
    ∃ p server, op = .request (.createFile p) ∧ seen = past ++ [.commanded server (.create p)]
  same : ∀ p n n', s.tree.get? p = some n → s'.tree.get? p = some n' → n' = n
  createdFile : ∀ p, op = .request (.createFile p) → a.isRefusal = false →
    ∃ o ∈ s.registry.servers, s.tree.AddsOnly s'.tree p (.file o)
  createdDirectory : ∀ p, op = .request (.createDirectory p) → a.isRefusal = false →
    s.tree.AddsOnly s'.tree p (.directory none)
  deleted : ∀ p, op = .request (.delete p) → a.isRefusal = false → ∀ q, s'.tree.get? q =
    if p.components <+: q.components then none else s.tree.get? q
  registered : ∀ r, op = .register r → a.isRefusal = false →
    ∀ p n, s.tree.get? p = some n → s'.tree.get? p = some n

end Naming

/-! ## Trees -/

namespace Tree

theorem get?_of_not_contains {ω : Type} {t : Tree ω} {p : Path} (h : t.contains p = false) :
    t.get? p = none := by
  cases hget : t.get? p with
  | none => rfl
  | some n =>
    unfold contains isDirectory? at h
    rw [hget] at h
    split at h <;> cases h

theorem AddsOnly.insert {ω : Type} {t : Tree ω} {p : Path} (h : t.contains p = false)
    (n : Node ω) : t.AddsOnly (t.insert p n) p n :=
  ⟨get?_of_not_contains h, fun q => get?_insert t p q n⟩

theorem AddsOnly.same {ω : Type} {t t' : Tree ω} {p : Path} {n : Node ω} (h : t.AddsOnly t' p n)
    (q : Path) {m m' : Node ω} (hm : t.get? q = some m) (hm' : t'.get? q = some m') : m' = m := by
  have hne : q ≠ p := by
    rintro rfl
    rw [h.free] at hm
    cases hm
  rw [h.get?, if_neg hne, hm] at hm'
  exact (Option.some.inj hm').symm

end Tree

namespace Naming

variable {s : Naming} {past seen : List Event} {op : Operation} {a : Answer} {p : Path}

/-- No answer says that something was removed unless storage servers were told to remove it. -/
theorem removal_ne_ok_true (s : Naming) (p : Path) : s.removal p ≠ .error (.ok true) := by
  unfold removal
  split
  · exact nofun
  · cases s.requireParent p with
    | error e => exact nofun
    | ok u =>
      dsimp only
      split <;> exact nofun

/-! ## Operations -/

/-- What does nothing and says so is tidy. -/
theorem Tidy.of_refusal (h : a.isRefusal = true) : Tidy op s past a s seen where
  refused _ := .inl rfl
  same p n n' hn hn' := Option.some.inj (hn'.symm.trans hn)
  createdFile p _ ha := by rw [h] at ha; cases ha
  createdDirectory p _ ha := by rw [h] at ha; cases ha
  deleted p _ ha := by rw [h] at ha; cases ha
  registered r _ ha := by rw [h] at ha; cases ha

/-- The answer to an order that is not affirmed is a refusal. -/
theorem isRefusal_of_ne {r : ServiceRequest} {result : Except NamingError r.Result}
    (h : ∀ x, result = .ok x → r.affirms x = false) :
    (Answer.answered r result).isRefusal = true := by
  cases result with
  | error e => rfl
  | ok x => exact congrArg (!·) (h x rfl)

theorem createFile_tidy (s : Naming) (replies : Replies) (p : Path) (past : List Event) :
    let after := (createFile (record replies) s p).run past
    Tidy (.request (.createFile p)) s past (.answered (.createFile p) after.1.1) after.1.2
      after.2 := by
  rw [createFile_eq]
  cases hplace : s.placement p with
  | error answer =>
    refine Tidy.of_refusal (isRefusal_of_ne fun b hb => ?_)
    cases b with
    | false => rfl
    | true => exact absurd (hplace.trans (congrArg Except.error hb)) (s.placement_ne_ok_true p)
  | ok next =>
    obtain ⟨o, registry⟩ := next
    obtain ⟨-, -, hfree, hnext⟩ := placement_eq_ok_iff.mp hplace
    obtain ⟨ho, rfl⟩ := next_eq_ok hnext
    intro after
    have hafter : after = (s.placed p o { s.registry with cursor := s.registry.cursor + 1 }
        (replies past o.command (.create p)), past ++ [.commanded o.command (.create p)]) := rfl
    rw [hafter]
    cases replies past o.command (.create p) with
    | error e =>
      exact {
        refused := fun _ => .inr ⟨rfl, p, o.command, rfl, rfl⟩
        same := fun q n n' hn hn' => Option.some.inj (hn'.symm.trans hn)
        createdFile := fun _ _ ha => by cases ha
        createdDirectory := fun _ ha => by cases ha
        deleted := fun _ ha => by cases ha
        registered := fun _ ha => by cases ha }
    | ok made =>
      have hadds := Tree.AddsOnly.insert hfree (.file o)
      exact {
        refused := fun ha => by cases ha
        same := fun q n n' => hadds.same q
        createdFile := fun q hq _ => by
          cases hq
          exact ⟨o, ho, hadds⟩
        createdDirectory := fun _ ha => by cases ha
        deleted := fun _ ha => by cases ha
        registered := fun _ ha => by cases ha }

theorem createDirectory_tidy (s : Naming) (p : Path) (past : List Event) :
    Tidy (.request (.createDirectory p)) s past (.answered (.createDirectory p)
      (s.createDirectory p).1) (s.createDirectory p).2 past := by
  unfold Naming.createDirectory
  split
  · exact .of_refusal rfl
  · cases s.requireParent p with
    | error e => exact .of_refusal rfl
    | ok u =>
      dsimp only
      split
      · exact .of_refusal rfl
      · rename_i hfree
        have hadds := Tree.AddsOnly.insert (Bool.eq_false_iff.mpr hfree) (.directory none)
        exact {
          refused := fun ha => by cases ha
          same := fun q n n' => hadds.same q
          createdFile := fun _ ha => by cases ha
          createdDirectory := fun q hq _ => by
            cases hq
            exact hadds
          deleted := fun _ ha => by cases ha
          registered := fun _ ha => by cases ha }

theorem delete_tidy (s : Naming) (replies : Replies) (p : Path) (past : List Event) :
    let after := (delete (record replies) s p).run past
    Tidy (.request (.delete p)) s past (.answered (.delete p) after.1.1) after.1.2 after.2 := by
  rw [delete_eq]
  cases hremoval : s.removal p with
  | error answer =>
    refine Tidy.of_refusal (isRefusal_of_ne fun b hb => ?_)
    cases b with
    | false => rfl
    | true => exact absurd (hremoval.trans (congrArg Except.error hb)) (s.removal_ne_ok_true p)
  | ok owners =>
    have hget := fun q => Tree.get?_removeSubtree s.tree p q
    exact {
      refused := fun ha => by cases ha
      same := fun q n n' hn hn' => by
        have hn' : (s.tree.removeSubtree p).get? q = some n' := hn'
        rw [hget] at hn'
        split at hn'
        · cases hn'
        · exact Option.some.inj (hn'.symm.trans hn)
      createdFile := fun _ ha => by cases ha
      createdDirectory := fun _ ha => by cases ha
      deleted := fun q hq _ => by
        cases hq
        exact hget
      registered := fun _ ha => by cases ha }

theorem register_tidy (s : Naming) (r : RegistrationRequest) (past : List Event) :
    Tidy (.register r) s past (.registered (s.register r).1) (s.register r).2 past := by
  rcases register_cases s r with ⟨e, h⟩ | ⟨registry, -, -, h⟩
  · rw [h]
    exact .of_refusal rfl
  · rw [h]
    have hkept : ∀ p n, s.tree.get? p = some n →
        (s.tree.merge ⟨r.storage, r.command⟩ r.paths).1.get? p = some n :=
      Tree.partOf_mergeInto s.tree _ r.paths []
    exact {
      refused := fun ha => by cases ha
      same := fun q n n' hn hn' => Option.some.inj (hn'.symm.trans (hkept q n hn))
      createdFile := fun _ ha => by cases ha
      createdDirectory := fun _ ha => by cases ha
      deleted := fun _ ha => by cases ha
      registered := fun _ _ _ => hkept }

/-- A question changes nothing. -/
theorem Tidy.of_question {r : ServiceRequest} (hfile : ∀ p, r ≠ .createFile p)
    (hdirectory : ∀ p, r ≠ .createDirectory p) (hdelete : ∀ p, r ≠ .delete p) :
    Tidy (.request r) s past a s seen where
  refused _ := .inl rfl
  same p n n' hn hn' := Option.some.inj (hn'.symm.trans hn)
  createdFile p h := absurd (Operation.request.inj h) (hfile p)
  createdDirectory p h := absurd (Operation.request.inj h) (hdirectory p)
  deleted p h := absurd (Operation.request.inj h) (hdelete p)
  registered _ h := by cases h

/-- Whatever state a naming service is in, whatever it is asked and whatever storage servers reply,
it changes what it reports and nothing else. -/
theorem perform_tidy (s : Naming) (replies : Replies) (op : Operation) (past : List Event) :
    let after := (perform (record replies) s op).run past
    Tidy op s past after.1.1 after.1.2 after.2 := by
  cases op with
  | register r => exact register_tidy s r past
  | request r =>
    cases r with
    | isDirectory p => exact .of_question nofun nofun nofun
    | list p => exact .of_question nofun nofun nofun
    | getStorage p => exact .of_question nofun nofun nofun
    | createFile p => exact createFile_tidy s replies p past
    | createDirectory p => exact createDirectory_tidy s p past
    | delete p => exact delete_tidy s replies p past

end Naming

end FileCluster
