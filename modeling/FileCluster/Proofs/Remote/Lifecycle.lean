import FileCluster.Remote.Skeleton
import Mathlib.Data.List.Induction

/-!
The life of a skeleton.

A skeleton is started, stopped and given up, and accepting a connection may fail; other programs use
the network in between, so that each of these events comes with the network as it is then. The
history of a skeleton holds what each event was answered and what the hooks were told. Main
statement: whatever the events, the skeleton runs exactly from a start that succeeded to the first
event after it that ends listening, it keeps its address, and the hooks are told once of each end
(`keepsTo_history`).
-/

namespace FileCluster

/-! ## Binding -/

namespace Network

theorem assignedPort_ne_zero (turn : Nat) : assignedPort turn ≠ 0 := by
  intro h
  have hlt : turn % assignable < assignable := Nat.mod_lt _ (by decide)
  have hsmall : firstAssigned + turn % assignable < UInt16.size :=
    Nat.lt_of_lt_of_eq (Nat.add_lt_add_left hlt firstAssigned) rfl
  have hnat := congrArg UInt16.toNat h
  unfold assignedPort at hnat
  rw [UInt16.toNat_ofNat_of_lt' hsmall] at hnat
  exact absurd hnat (Nat.ne_of_gt (Nat.add_pos_left (by decide) _))

/-- What is bound has a port, and is what was asked for if that had one. -/
theorem bind_eq_ok {net net' : Network} {a got : SocketAddr} (h : net.bind a = .ok (got, net')) :
    got.port ≠ 0 ∧ (a.port ≠ 0 → got = a) := by
  unfold bind at h
  split at h
  · cases h
  · split at h
    · rename_i hzero
      split at h
      · cases h
      · rename_i turn hturn
        cases h
        refine ⟨?_, fun hport => absurd hzero hport⟩
        cases a <;> exact assignedPort_ne_zero turn
    · rename_i hport
      split at h
      · cases h
      · cases h
        exact ⟨hport, fun _ => rfl⟩

end Network

namespace Skeleton

variable {s : Skeleton} {net : Network}

/-! ## Single operations -/

/-- The address that a skeleton listens on if it does. -/
def listensOn (s : Skeleton) : Option SocketAddr :=
  (s.listener.filter fun l => !l.finished).map Listener.address

/-- No thread has been told to stop and is still there. -/
def Settled (s : Skeleton) : Prop := ∀ l, s.listener = some l → l.stopping = false

theorem isRunning_iff : s.isRunning = true ↔ ∃ l, s.listener = some l ∧ l.finished = false := by
  unfold isRunning
  rw [Option.any_eq_true]
  simp only [Bool.not_eq_true']

theorem start_of_isRunning (h : s.isRunning = true) (net : Network) :
    s.start net = (.error .alreadyRunning, s, net) := by
  unfold start
  rw [if_pos h]

theorem start_of_unbound (h : s.isRunning = false) {cause : IoError}
    (hb : net.bind s.wanted = .error cause) :
    s.start net = (.error (.transport cause), { s with listener := none }, net) := by
  unfold start
  rw [if_neg (Bool.eq_false_iff.mp h), hb]

/-- A skeleton that is started has the address that it listens on. -/
theorem start_of_bound (h : s.isRunning = false) {got : SocketAddr} {net' : Network}
    (hb : net.bind s.wanted = .ok (got, net')) :
    s.start net = (.ok (), ⟨some got, some ⟨got, false, false⟩⟩, net') := by
  have haddress : (if s.wanted.port = 0 then some got else s.address) = some got := by
    split
    · rfl
    · rename_i hport
      rw [(Network.bind_eq_ok hb).2 hport]
      unfold wanted at hport ⊢
      cases ha : s.address with
      | none =>
        rw [ha] at hport
        exact absurd rfl hport
      | some a => rfl
  unfold start
  rw [if_neg (Bool.eq_false_iff.mp h), hb]
  dsimp only
  rw [haddress]

/-- A start finds the skeleton running, cannot bind, or binds. -/
theorem start_cases (s : Skeleton) (net : Network) :
    (s.isRunning = true ∧ s.start net = (.error .alreadyRunning, s, net)) ∨
    (s.isRunning = false ∧ ∃ cause, net.bind s.wanted = .error cause ∧
      s.start net = (.error (.transport cause), { s with listener := none }, net)) ∨
    (s.isRunning = false ∧ ∃ got net', net.bind s.wanted = .ok (got, net') ∧
      s.start net = (.ok (), ⟨some got, some ⟨got, false, false⟩⟩, net')) := by
  cases h : s.isRunning with
  | true => exact .inl ⟨rfl, start_of_isRunning h net⟩
  | false =>
    cases hb : net.bind s.wanted with
    | error cause => exact .inr (.inl ⟨rfl, cause, rfl, start_of_unbound h hb⟩)
    | ok bound => exact .inr (.inr ⟨rfl, bound.1, bound.2, rfl, start_of_bound h hb⟩)

theorem stop_skeleton (s : Skeleton) (net : Network) :
    (s.stop net).2.1 = { s with listener := none } := by
  unfold stop
  split
  · unfold arrive
    cases hl : s.listener with
    | none => rfl
    | some l => dsimp only [Option.map_some]; split <;> rfl
  · rfl

/-- A stop is told exactly if there was something to stop. -/
theorem stop_notices (s : Skeleton) (net : Network) :
    (s.stop net).1 = if s.isRunning then [.stopped none] else [] := by
  unfold stop
  split
  · rename_i h
    obtain ⟨l, hl, halive⟩ := isRunning_iff.mp h
    unfold arrive Listener.round Listener.tellToStop
    rw [hl]
    simp [halive]
  · rfl

theorem acceptFails_of_not_running (h : s.isRunning = false) (policy : ListenPolicy)
    (cause : IoError) (net : Network) : s.acceptFails policy cause net = ([], s, net) := by
  unfold acceptFails arrive
  cases hl : s.listener with
  | none => rfl
  | some l =>
    cases hfinished : l.finished with
    | true => simp [hfinished]
    | false => exact absurd (isRunning_iff.mpr ⟨l, hl, hfinished⟩) (Bool.eq_false_iff.mp h)

/-- A listening thread goes on after a failure if the hooks say so. -/
theorem acceptFails_resume (hs : s.Settled) (h : s.isRunning = true) (cause : IoError)
    (net : Network) : s.acceptFails .resume cause net = ([.listenError cause], s, net) := by
  obtain ⟨l, hl, halive⟩ := isRunning_iff.mp h
  obtain ⟨address, listener⟩ := s
  subst hl
  unfold acceptFails arrive Listener.round
  simp [halive, hs l rfl]

/-- Otherwise it ends, and tells the failure. -/
theorem acceptFails_stop (hs : s.Settled) (h : s.isRunning = true) (cause : IoError)
    (net : Network) :
    ∃ l, s.listener = some l ∧ s.acceptFails .stop cause net =
      ([.listenError cause, .stopped (some (.transport cause))],
        { s with listener := some { l with finished := true } }, net.release l.address) := by
  obtain ⟨l, hl, halive⟩ := isRunning_iff.mp h
  refine ⟨l, hl, ?_⟩
  unfold acceptFails arrive Listener.round
  rw [hl]
  simp [halive, hs l hl]

/-! ## Events -/

/-- What may happen to a skeleton; the network is as it is then. -/
inductive Event where
  | start (net : Network)
  | stop (net : Network)
  | drop (net : Network)
  /-- accepting a connection fails, and the hooks resume or stop -/
  | acceptFails (resumes : Bool) (cause : IoError) (net : Network)

namespace Event

/-- Whether an event ends listening. -/
def ends : Event → Bool
  | .start _ => false
  | .stop _ => true
  | .drop _ => true
  | .acceptFails resumes _ _ => !resumes

/-- The cause that an event gives for an end. -/
def cause : Event → Option CallError
  | .acceptFails _ cause _ => some (.transport cause)
  | _ => none

end Event

/-- An event with what a start was answered and what the hooks were told. -/
structure Happening where
  event : Event
  answer : Option (Except CallError Unit)
  notices : List Notice

namespace Happening

/-- A start that succeeded. -/
def starts (h : Happening) : Bool :=
  match h.answer with
  | some (.ok ()) => true
  | _ => false

/-- The ends that the hooks were told of. -/
def stops (h : Happening) : List (Option CallError) :=
  h.notices.filterMap fun
    | .stopped cause => some cause
    | _ => none

end Happening

/-- The policy of hooks that resume or stop. -/
def policyOf (resumes : Bool) : ListenPolicy := if resumes then .resume else .stop

/-- What comes of an event, and the skeleton after it. -/
def happen (s : Skeleton) : Event → Happening × Skeleton
  | .start net => (⟨.start net, some (s.start net).1, []⟩, (s.start net).2.1)
  | .stop net => (⟨.stop net, none, (s.stop net).1⟩, (s.stop net).2.1)
  | .drop net => (⟨.drop net, none, (s.drop net).1⟩, (s.drop net).2.1)
  | .acceptFails resumes cause net =>
    (⟨.acceptFails resumes cause net, none, (s.acceptFails (policyOf resumes) cause net).1⟩,
      (s.acceptFails (policyOf resumes) cause net).2.1)

theorem happen_event (s : Skeleton) (e : Event) : (s.happen e).1.event = e := by
  cases e <;> rfl

/-- The skeleton after events in turn. -/
def after (s : Skeleton) : List Event → Skeleton
  | [] => s
  | e :: rest => (s.happen e).2.after rest

/-- What comes of events in turn. -/
def history (s : Skeleton) : List Event → List Happening
  | [] => []
  | e :: rest => (s.happen e).1 :: (s.happen e).2.history rest

theorem after_append (s : Skeleton) (events later : List Event) :
    s.after (events ++ later) = (s.after events).after later := by
  induction events generalizing s with
  | nil => rfl
  | cons e events ih => exact ih (s.happen e).2

theorem history_append (s : Skeleton) (events later : List Event) :
    s.history (events ++ later) = s.history events ++ (s.after events).history later := by
  induction events generalizing s with
  | nil => rfl
  | cons e events ih => exact congrArg _ (ih (s.happen e).2)

/-! ## What one event does -/

/-- The three turns that an event can take: the skeleton goes on as before, it begins to listen, or
it ceases to. -/
inductive Turn (s : Skeleton) (e : Event) (h : Happening) (s' : Skeleton) : Prop
  | kept (running : s'.isRunning = s.isRunning) (address : s'.address = s.address)
      (starts : h.starts = false) (stops : h.stops = [])
      (ends : s.isRunning = true → e.ends = false)
  | started (got : SocketAddr) (idle : s.isRunning = false)
      (now : s' = ⟨some got, some ⟨got, false, false⟩⟩) (port : got.port ≠ 0)
      (asked : s.wanted.port ≠ 0 → got = s.wanted) (starts : h.starts = true) (stops : h.stops = [])
      (ends : e.ends = false)
  | ended (running : s.isRunning = true) (idle : s'.isRunning = false)
      (address : s'.address = s.address) (starts : h.starts = false)
      (stops : h.stops = [e.cause]) (ends : e.ends = true)

theorem turn_start (s : Skeleton) (net : Network) :
    s.Turn (.start net) ⟨.start net, some (s.start net).1, []⟩ (s.start net).2.1 := by
  rcases s.start_cases net with ⟨-, h⟩ | ⟨hidle, cause, -, h⟩ | ⟨hidle, got, net', hb, h⟩
  · rw [h]
    exact .kept rfl rfl rfl rfl fun _ => rfl
  · rw [h]
    exact .kept hidle.symm rfl rfl rfl fun _ => rfl
  · rw [h]
    obtain ⟨hport, hasked⟩ := Network.bind_eq_ok hb
    exact .started got hidle rfl hport hasked rfl rfl rfl

theorem turn_stop (s : Skeleton) {e : Event} (hends : e.ends = true) (hcause : e.cause = none)
    (net : Network) : s.Turn e ⟨e, none, (s.stop net).1⟩ (s.stop net).2.1 := by
  rw [stop_skeleton, stop_notices]
  cases hrun : s.isRunning with
  | true => exact .ended hrun rfl rfl rfl (hcause ▸ rfl) hends
  | false => exact .kept hrun.symm rfl rfl rfl fun h => absurd h (Bool.eq_false_iff.mp hrun)

theorem turn_acceptFails (hs : s.Settled) (resumes : Bool) (cause : IoError) (net : Network) :
    s.Turn (.acceptFails resumes cause net)
      ⟨.acceptFails resumes cause net, none, (s.acceptFails (policyOf resumes) cause net).1⟩
      (s.acceptFails (policyOf resumes) cause net).2.1 := by
  cases hrun : s.isRunning with
  | false =>
    rw [acceptFails_of_not_running hrun]
    exact .kept rfl rfl rfl rfl fun h => absurd h (Bool.eq_false_iff.mp hrun)
  | true =>
    cases resumes with
    | true =>
      have hpolicy : policyOf true = .resume := rfl
      rw [hpolicy, acceptFails_resume hs hrun]
      exact .kept rfl rfl rfl rfl fun _ => rfl
    | false =>
      obtain ⟨l, -, h⟩ := acceptFails_stop hs hrun cause net
      have hpolicy : policyOf false = .stop := rfl
      rw [hpolicy, h]
      exact .ended hrun rfl rfl rfl rfl rfl

/-- Every event takes one of the three turns. -/
theorem turn (hs : s.Settled) (e : Event) : s.Turn e (s.happen e).1 (s.happen e).2 := by
  cases e with
  | start net => exact s.turn_start net
  | stop net => exact s.turn_stop rfl rfl net
  | drop net => exact s.turn_stop rfl rfl net
  | acceptFails resumes cause net => exact turn_acceptFails hs resumes cause net

theorem settled_new (address : Option SocketAddr) : (new address).Settled :=
  fun _ h => nomatch h

theorem Settled.happen (hs : s.Settled) (e : Event) : (s.happen e).2.Settled := by
  have hforgotten : ({ s with listener := none } : Skeleton).Settled := fun _ h => nomatch h
  have hstopped : ∀ net, (s.stop net).2.1.Settled := fun net => by
    rw [stop_skeleton]
    exact hforgotten
  cases e with
  | start net =>
    show (s.start net).2.1.Settled
    rcases s.start_cases net with ⟨-, h⟩ | ⟨-, cause, -, h⟩ | ⟨-, got, net', -, h⟩
    · rw [h]
      exact hs
    · rw [h]
      exact hforgotten
    · rw [h]
      rintro l ⟨⟩
      rfl
  | stop net => exact hstopped net
  | drop net => exact hstopped net
  | acceptFails resumes cause net =>
    show (s.acceptFails (policyOf resumes) cause net).2.1.Settled
    cases hrun : s.isRunning with
    | false =>
      rw [acceptFails_of_not_running hrun]
      exact hs
    | true =>
      cases resumes with
      | true =>
        rw [policyOf, if_pos rfl, acceptFails_resume hs hrun]
        exact hs
      | false =>
        obtain ⟨l, hl, h⟩ := acceptFails_stop hs hrun cause net
        rw [policyOf, if_neg Bool.false_ne_true, h]
        rintro l' ⟨⟩
        exact hs l hl

theorem Settled.after (hs : s.Settled) (events : List Event) : (s.after events).Settled := by
  induction events generalizing s with
  | nil => exact hs
  | cons e events ih => exact ih (hs.happen e)

/-! ## Whole histories -/

/-- A start has succeeded that nothing has ended since. -/
def Open (past : List Happening) : Prop :=
  ∃ before h since, past = before ++ h :: since ∧ h.starts = true ∧
    ∀ x ∈ since, x.event.ends = false

theorem open_nil : ¬Open [] := by
  rintro ⟨before, h, since, he, -⟩
  simp at he

/-- One happening more: it opens the history, or leaves it open. -/
theorem open_concat (past : List Happening) (h : Happening) :
    Open (past ++ [h]) ↔ h.starts = true ∨ Open past ∧ h.event.ends = false := by
  constructor
  · rintro ⟨before, x, since, he, hstarts, hsince⟩
    obtain rfl | ⟨since, y, rfl⟩ := since.eq_nil_or_concat
    · obtain ⟨-, rfl⟩ := List.append_inj' he rfl |>.imp id List.singleton_inj.mp
      exact .inl hstarts
    · rw [List.concat_eq_append] at he hsince
      rw [← List.cons_append, ← List.append_assoc] at he
      obtain ⟨rfl, hy⟩ := List.append_inj' he rfl
      obtain rfl := List.singleton_inj.mp hy
      exact .inr ⟨⟨before, x, since, rfl, hstarts, fun z hz => hsince z (by simp [hz])⟩,
        hsince _ (by simp)⟩
  · rintro (hstarts | ⟨⟨before, x, since, rfl, hstarts, hsince⟩, hends⟩)
    · exact ⟨past, h, [], rfl, hstarts, fun _ hx => absurd hx List.not_mem_nil⟩
    · refine ⟨before, x, since ++ [h], by simp, hstarts, fun z hz => ?_⟩
      rcases List.mem_append.mp hz with hz | hz
      · exact hsince z hz
      · exact List.mem_singleton.mp hz ▸ hends

theorem history_concat (s : Skeleton) (events : List Event) (e : Event) :
    s.history (events ++ [e]) = s.history events ++ [((s.after events).happen e).1] :=
  s.history_append events [e]

theorem after_concat (s : Skeleton) (events : List Event) (e : Event) :
    s.after (events ++ [e]) = ((s.after events).happen e).2 :=
  s.after_append events [e]

/-- A skeleton runs exactly while its history is open. -/
theorem isRunning_after_iff (given : Option SocketAddr) (events : List Event) :
    ((new given).after events).isRunning = true ↔ Open ((new given).history events) := by
  induction events using List.reverseRecOn with
  | nil => exact iff_of_false Bool.false_ne_true open_nil
  | append_singleton events e ih =>
    rw [history_concat, after_concat, open_concat, happen_event, ← ih]
    cases turn ((settled_new given).after events) e with
    | kept running _ starts _ ends =>
      rw [running, starts]
      simp only [Bool.false_eq_true, false_or]
      exact ⟨fun h => ⟨h, ends h⟩, And.left⟩
    | started got idle now _ _ starts =>
      exact iff_of_true (now ▸ rfl) (.inl starts)
    | ended running idle _ starts _ ends =>
      rw [idle, starts, ends]
      simp

/-- The hooks are told of an end when an event ends an open history, and of nothing else. -/
theorem stops_of_history (given : Option SocketAddr) {events : List Event}
    {before since : List Happening} {h : Happening}
    (he : (new given).history events = before ++ h :: since) :
    (Open before ∧ h.event.ends = true → h.stops = [h.event.cause]) ∧
      (¬(Open before ∧ h.event.ends = true) → h.stops = []) := by
  induction events using List.reverseRecOn generalizing since with
  | nil => simp [history] at he
  | append_singleton events e ih =>
    rw [history_concat] at he
    obtain rfl | ⟨since, y, rfl⟩ := since.eq_nil_or_concat
    · obtain ⟨rfl, hh⟩ := List.append_inj' he rfl
      obtain rfl := List.singleton_inj.mp hh
      rw [happen_event, ← isRunning_after_iff]
      cases turn ((settled_new given).after events) e with
      | kept running _ _ stops ends =>
        refine ⟨fun h => ?_, fun _ => stops⟩
        rw [ends h.1] at h
        exact absurd h.2 Bool.false_ne_true
      | started got idle _ _ _ _ stops ends =>
        refine ⟨fun h => ?_, fun _ => stops⟩
        rw [ends] at h
        exact absurd h.2 Bool.false_ne_true
      | ended running _ _ _ stops ends => exact ⟨fun _ => stops, fun h => absurd ⟨running, ends⟩ h⟩
    · rw [List.concat_eq_append, ← List.cons_append, ← List.append_assoc] at he
      exact ih (List.append_inj' he rfl).1

/-- Every start that succeeded has been told to have ended, but for the one that has not. -/
theorem stops_count (given : Option SocketAddr) (events : List Event) :
    (((new given).history events).flatMap Happening.stops).length +
        (if ((new given).after events).isRunning then 1 else 0) =
      ((new given).history events).countP Happening.starts := by
  induction events using List.reverseRecOn with
  | nil => rfl
  | append_singleton events e ih =>
    rw [history_concat, after_concat, List.flatMap_append, List.length_append, List.countP_append,
      List.flatMap_singleton, List.countP_singleton]
    cases turn ((settled_new given).after events) e with
    | kept running _ starts stops =>
      rw [running, starts, stops, ← ih]
      simp
    | started got idle now _ _ starts stops =>
      rw [idle] at ih
      rw [now, starts, stops, ← ih]
      simp [isRunning]
    | ended running idle _ starts stops =>
      rw [running] at ih
      rw [idle, starts, stops, ← ih]
      simp

/-- An address with a port is kept whatever happens. -/
theorem address_after {s : Skeleton} (hs : s.Settled) {a : SocketAddr} (ha : s.address = some a)
    (hport : a.port ≠ 0) (events : List Event) : (s.after events).address = some a := by
  induction events generalizing s with
  | nil => exact ha
  | cons e events ih =>
    refine ih (hs.happen e) ?_
    have hwanted : s.wanted = a := by
      unfold wanted
      rw [ha]
      rfl
    cases turn hs e with
    | kept _ address => exact address.trans ha
    | started got _ now _ asked => rw [now, asked (hwanted ▸ hport), hwanted]
    | ended _ _ address => exact address.trans ha

/-! ## What a skeleton keeps to -/

theorem start_alreadyRunning_iff (s : Skeleton) (net : Network) :
    (s.start net).1 = .error .alreadyRunning ↔ s.isRunning = true := by
  rcases s.start_cases net with ⟨hrun, h⟩ | ⟨hidle, cause, -, h⟩ | ⟨hidle, got, net', -, h⟩
  · rw [h, hrun]
    simp
  · rw [h, hidle]
    simp
  · rw [h, hidle]
    simp

/-- A skeleton that does not run can be started whenever its address can be bound. -/
theorem start_eq_ok_iff (h : s.isRunning = false) (net : Network) :
    (s.start net).1 = .ok () ↔ ∃ bound, net.bind s.wanted = .ok bound := by
  cases hb : net.bind s.wanted with
  | error cause =>
    rw [start_of_unbound h hb]
    simp
  | ok bound =>
    rw [start_of_bound h hb]
    simp

theorem isRunning_of_failed {e : CallError} (h : (s.start net).1 = .error e)
    (he : e ≠ .alreadyRunning) :
    (s.start net).2.1.isRunning = false ∧ (s.start net).2.1.address = s.address := by
  rcases s.start_cases net with ⟨-, hs⟩ | ⟨-, cause, -, hs⟩ | ⟨-, got, net', -, hs⟩
  · rw [hs] at h
    cases h
    exact absurd rfl he
  · rw [hs]
    exact ⟨rfl, rfl⟩
  · rw [hs] at h
    cases h

/-- What has been started listens on its address, which has a port. -/
theorem listensOn_of_started (h : (s.start net).1 = .ok ()) :
    ∃ a, a.port ≠ 0 ∧ (s.wanted.port ≠ 0 → a = s.wanted) ∧
      (s.start net).2.1.address = some a ∧ (s.start net).2.1.listensOn = some a := by
  rcases s.start_cases net with ⟨-, hs⟩ | ⟨-, cause, -, hs⟩ | ⟨-, got, net', hb, hs⟩
  · rw [hs] at h
    cases h
  · rw [hs] at h
    cases h
  · rw [hs]
    obtain ⟨hport, hasked⟩ := Network.bind_eq_ok hb
    exact ⟨got, hport, hasked, rfl, rfl⟩

/-- What a skeleton with a history keeps to. -/
structure KeepsTo (past : List Happening) (s : Skeleton) : Prop where
  /-- it runs from a start that succeeded to the first event after it that ends listening -/
  running : s.isRunning = true ↔ Open past
  /-- a start is refused exactly while it runs, and changes nothing then -/
  refused : ∀ net, ((s.start net).1 = .error .alreadyRunning ↔ s.isRunning = true) ∧
    (s.isRunning = true → s.start net = (.error .alreadyRunning, s, net))
  /-- a start that fails for another reason leaves it not running, with the address that it had -/
  failed : ∀ net e, (s.start net).1 = .error e → e ≠ .alreadyRunning →
    (s.start net).2.1.isRunning = false ∧ (s.start net).2.1.address = s.address
  /-- while it does not run a start succeeds exactly if its address can be bound -/
  succeeds : ∀ net, s.isRunning = false →
    ((s.start net).1 = .ok () ↔ ∃ bound, net.bind s.wanted = .ok bound)
  /-- what has been started listens on its address, which has a port -/
  listens : ∀ net, (s.start net).1 = .ok () → ∃ a, a.port ≠ 0 ∧
    (s.start net).2.1.address = some a ∧ (s.start net).2.1.listensOn = some a
  /-- an address with a port is kept, and every later start binds it -/
  address : ∀ a, s.address = some a → a.port ≠ 0 → ∀ later,
    (s.after later).address = some a ∧ ∀ net, ((s.after later).start net).1 = .ok () →
      ((s.after later).start net).2.1.listensOn = some a
  /-- the hooks are told of an event that ends listening, with its cause -/
  told : ∀ before h since, past = before ++ h :: since → Open before → h.event.ends = true →
    h.stops = [h.event.cause]
  /-- they are told of no other end -/
  untold : ∀ before h since, past = before ++ h :: since →
    ¬(Open before ∧ h.event.ends = true) → h.stops = []
  /-- they have been told of as many ends as starts have succeeded, but for one that still runs -/
  once : (past.flatMap Happening.stops).length + (if s.isRunning then 1 else 0) =
    past.countP Happening.starts

/-- Whatever happens to a skeleton, it keeps to its history. -/
theorem keepsTo_history (given : Option SocketAddr) (events : List Event) :
    KeepsTo ((new given).history events) ((new given).after events) where
  running := isRunning_after_iff given events
  refused net := ⟨start_alreadyRunning_iff _ net, fun h => start_of_isRunning h net⟩
  failed _ _ h he := isRunning_of_failed h he
  succeeds net h := start_eq_ok_iff h net
  listens net h := by
    obtain ⟨a, hport, -, haddress, hlistens⟩ := listensOn_of_started h
    exact ⟨a, hport, haddress, hlistens⟩
  address a ha hport later := by
    have hlater := address_after ((settled_new given).after events) ha hport later
    refine ⟨hlater, fun net h => ?_⟩
    obtain ⟨b, -, hasked, -, hlistens⟩ := listensOn_of_started h
    have hwanted : (((new given).after events).after later).wanted = a := by
      unfold wanted
      rw [hlater]
      rfl
    rw [hlistens, hasked (hwanted ▸ hport), hwanted]
  told _ _ _ he hopen hends := (stops_of_history given he).1 ⟨hopen, hends⟩
  untold _ _ _ he h := (stops_of_history given he).2 h
  once := stops_count given events

end Skeleton

end FileCluster
