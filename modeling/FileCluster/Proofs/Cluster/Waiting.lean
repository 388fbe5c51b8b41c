import FileCluster.Cluster.Basic
import FileCluster.Proofs.Remote.Lifecycle

/-!
Waiting for a server to stop.

A server process waits until one of its two skeletons stops. What it waits for is a flag that the
skeletons' notices raise and that a start clears, so the flag tells the truth when it is raised
exactly if one of the two does not run. Main statement: once a start has succeeded the flag tells
the truth after every event, up to the first start that clears it and then returns without a notice
of a skeleton that does not run (`truthful_after_iff`).
-/

namespace FileCluster

/-! ## The flag and the skeletons -/

namespace Skeleton

variable {s : Skeleton} {net : Network}

theorem isRunning_stop (s : Skeleton) (net : Network) : (s.stop net).2.1.isRunning = false := by
  rw [stop_skeleton]
  rfl

theorem settled_stop (s : Skeleton) (net : Network) : (s.stop net).2.1.Settled := by
  rw [stop_skeleton]
  exact fun _ h => nomatch h

theorem isRunning_of_serves {port : Port} (h : s.serves port = true) : s.isRunning = true := by
  unfold serves at h
  rw [Option.any_eq_true] at h
  obtain ⟨l, hl, hserves⟩ := h
  rw [Bool.and_eq_true, Bool.not_eq_true'] at hserves
  exact isRunning_iff.mpr ⟨l, hl, hserves.1⟩

/-- A start that succeeds finds the skeleton stopped and its address free, and leaves it running. -/
theorem start_ok (h : (s.start net).1 = .ok ()) :
    s.isRunning = false ∧ (∀ cause, net.bind s.wanted ≠ .error cause) ∧
      (s.start net).2.1.isRunning = true := by
  rcases s.start_cases net with ⟨-, hs⟩ | ⟨-, cause, -, hs⟩ | ⟨hidle, got, net', hb, hs⟩
  · rw [hs] at h
    cases h
  · rw [hs] at h
    cases h
  · rw [hs]
    exact ⟨hidle, fun cause hbind => (by cases hb.symm.trans hbind), rfl⟩

/-- A start that fails finds the skeleton running or its address taken, and leaves it as it was. -/
theorem start_error {e : CallError} (h : (s.start net).1 = .error e) :
    (s.start net).2.1.isRunning = s.isRunning ∧
      (s.isRunning = true ∨ ∃ cause, net.bind s.wanted = .error cause) := by
  rcases s.start_cases net with ⟨hrun, hs⟩ | ⟨hidle, cause, hb, hs⟩ | ⟨-, got, net', -, hs⟩
  · rw [hs]
    exact ⟨rfl, .inl hrun⟩
  · rw [hs]
    exact ⟨hidle.symm, .inr ⟨cause, hb⟩⟩
  · rw [hs] at h
    cases h

end Skeleton

namespace StopFlag

/-- A stop raises the flag if there was something to stop. -/
theorem stopped_notices_stop (f : StopFlag) (s : Skeleton) (net : Network) :
    (f.notices (s.stop net).1).stopped = (f.stopped || s.isRunning) := by
  rw [Skeleton.stop_notices]
  cases s.isRunning with
  | true => exact (Bool.or_true f.stopped).symm
  | false => exact (Bool.or_false f.stopped).symm

/-- When accepting a connection fails the skeleton that serves it ends, which raises the flag. -/
theorem stopped_notices_acceptFails (f : StopFlag) {s : Skeleton} (hs : s.Settled) {port : Port}
    (h : s.serves port = true) (cause : IoError) (net : Network) :
    (f.notices (s.acceptFails policy cause net).1).stopped = true ∧
      (s.acceptFails policy cause net).2.1.isRunning = false := by
  obtain ⟨l, -, ha⟩ := Skeleton.acceptFails_stop hs (Skeleton.isRunning_of_serves h) cause net
  unfold policy
  rw [ha]
  exact ⟨rfl, rfl⟩

theorem notices_append (f : StopFlag) (ns more : List Notice) :
    f.notices (ns ++ more) = (f.notices ns).notices more :=
  List.foldl_append

end StopFlag

/-! ## What happens to a server -/

namespace Server

/-- A server that has not been started. -/
def new : NamingSettings ⊕ StorageSettings → Server
  | .inl settings => .naming (.new settings)
  | .inr settings => .storage (.new settings)

/-- The skeleton that is started first. -/
def first : Server → Skeleton
  | .naming s => s.service
  | .storage s => s.storage

/-- The skeleton that is started second. -/
def second : Server → Skeleton
  | .naming s => s.registration
  | .storage s => s.command

/-- What waiting looks at. -/
def flag : Server → StopFlag
  | .naming s => s.flag
  | .storage s => s.flag

/-- Whether both skeletons listen. -/
def isRunning : Server → Bool
  | .naming s => s.isRunning
  | .storage s => s.isRunning

/-- What a start is given and meets: the name of the machine, its disk and its network, and the
reply to the registration if there is one. -/
structure Attempt where
  hostname : String
  disk : Disk
  net : Network
  reply : Except NamingError (List Path)

/-- Starts a server; the first component says whether that succeeded. -/
def start : Server → Attempt → Bool × Server
  | .naming s, a => ((s.start a.net).1.isOk, .naming (s.start a.net).2.1)
  | .storage s, a =>
    match s.announce a.hostname a.disk a.net with
    | (.error _, s, _) => (false, .storage s)
    | (.ok _, s, net) =>
      ((s.conclude a.reply a.disk net).1.isOk, .storage (s.conclude a.reply a.disk net).2.1)

/-- Stops a server. -/
def stop : Server → Network → Server
  | .naming s, net => .naming (s.stop net).1
  | .storage s, net => .storage (s.stop net).1

/-- Accepting a connection fails on a port, which ends the skeleton that serves it. -/
def acceptFails : Server → Port → IoError → Network → Server
  | .naming s, port, cause, net => .naming (s.acceptFails port cause net).1
  | .storage s, port, cause, net => .storage (s.acceptFails port cause net).1

/-- What may happen to a server; disk and network are as they are then. -/
inductive Event where
  | start (a : Attempt)
  | stop (net : Network)
  | acceptFails (port : Port) (cause : IoError) (net : Network)

/-- The server after an event. -/
def happen (s : Server) : Event → Server
  | .start a => (s.start a).2
  | .stop net => s.stop net
  | .acceptFails port cause net => s.acceptFails port cause net

/-- The server after events in turn. -/
def after (s : Server) (events : List Event) : Server := events.foldl happen s

/-- The flag is raised exactly if one of the two skeletons does not run. -/
def Truthful (s : Server) : Prop := s.flag.waitReturns = !s.isRunning

instance (s : Server) : Decidable s.Truthful := inferInstanceAs (Decidable (_ = _))

/-- A start that clears the flag and returns without a notice, while a skeleton does not run. A
naming server returns at once if the first skeleton cannot be started, be it that it still runs; a
storage server goes on to stop both skeletons, which gives no notice if neither runs. -/
def Misfires : Server → Attempt → Prop
  | .naming s, a => s.isRunning = false ∧
      (s.service.isRunning = true ∨ ∃ cause, a.net.bind s.service.wanted = .error cause)
  | .storage s, a => a.disk.isDirectory s.root = true ∧
      s.storage.isRunning = false ∧ s.command.isRunning = false ∧
      ∃ cause, a.net.bind s.storage.wanted = .error cause

theorem isRunning_eq (s : Server) : s.isRunning = (s.first.isRunning && s.second.isRunning) := by
  cases s <;> rfl

/-- Neither skeleton has a thread that was told to stop and is still there. -/
structure Settled (s : Server) : Prop where
  first : s.first.Settled
  second : s.second.Settled

variable {s : Server}

/-! ## Stops and failures -/

theorem isRunning_stop (s : Server) (net : Network) : (s.stop net).isRunning = false := by
  rw [isRunning_eq, Bool.and_eq_false_iff]
  left
  cases s with
  | naming s => exact s.service.isRunning_stop net
  | storage s => exact s.storage.isRunning_stop net

/-- A stop raises the flag if there was something to stop. -/
theorem flag_stop (s : Server) (net : Network) :
    (s.stop net).flag.waitReturns =
      (s.flag.waitReturns || s.first.isRunning || s.second.isRunning) := by
  cases s with
  | naming s =>
    show ((s.flag.notices (s.service.stop net).1).notices
      (s.registration.stop (s.service.stop net).2.2).1).stopped = _
    rw [StopFlag.stopped_notices_stop, StopFlag.stopped_notices_stop]
    rfl
  | storage s =>
    show (s.flag.notices ((s.storage.stop net).1 ++
      (s.command.stop (s.storage.stop net).2.2).1)).stopped = _
    rw [StopFlag.notices_append, StopFlag.stopped_notices_stop, StopFlag.stopped_notices_stop]
    rfl

theorem truthful_stop (h : s.Truthful) (net : Network) : (s.stop net).Truthful := by
  unfold Truthful at h ⊢
  rw [flag_stop, isRunning_stop, h, isRunning_eq]
  cases s.first.isRunning <;> cases s.second.isRunning <;> rfl

/-- A raised flag tells the truth if one of the two skeletons does not run. -/
theorem truthful_of_ended (hflag : s.flag.waitReturns = true)
    (h : s.first.isRunning = false ∨ s.second.isRunning = false) : s.Truthful := by
  unfold Truthful
  rw [hflag, isRunning_eq, Bool.and_eq_false_iff.mpr h]
  rfl

theorem truthful_acceptFails (hs : s.Settled) (h : s.Truthful) (port : Port) (cause : IoError)
    (net : Network) : (s.acceptFails port cause net).Truthful := by
  cases s with
  | naming s =>
    show (Server.naming (s.acceptFails port cause net).1).Truthful
    unfold NamingServer.acceptFails
    split
    · rename_i hserves
      obtain ⟨hraised, hended⟩ := s.flag.stopped_notices_acceptFails hs.first hserves cause net
      exact truthful_of_ended hraised (.inl hended)
    · split
      · rename_i hserves
        obtain ⟨hraised, hended⟩ := s.flag.stopped_notices_acceptFails hs.second hserves cause net
        exact truthful_of_ended hraised (.inr hended)
      · exact h
  | storage s =>
    show (Server.storage (s.acceptFails port cause net).1).Truthful
    unfold StorageServer.acceptFails
    split
    · rename_i hserves
      obtain ⟨hraised, hended⟩ := s.flag.stopped_notices_acceptFails hs.first hserves cause net
      exact truthful_of_ended hraised (.inl hended)
    · split
      · rename_i hserves
        obtain ⟨hraised, hended⟩ := s.flag.stopped_notices_acceptFails hs.second hserves cause net
        exact truthful_of_ended hraised (.inr hended)
      · exact h

/-! ## Starts -/

/-- What comes of a start: it is refused, it is undone with a notice, both skeletons run, or it
misfires. -/
inductive Outcome (s : Server) (a : Attempt) (ok : Bool) (s' : Server) : Prop
  | refused (unchanged : s' = s) (fails : ok = false) (fine : ¬s.Misfires a)
  | undone (raised : s'.flag.waitReturns = true) (idle : s'.isRunning = false) (fails : ok = false)
      (fine : ¬s.Misfires a)
  | running (cleared : s'.flag.waitReturns = false) (runs : s'.isRunning = true)
      (fine : ¬s.Misfires a)
  | misfired (cleared : s'.flag.waitReturns = false) (idle : s'.isRunning = false)
      (fails : ok = false) (misfires : s.Misfires a)

/-- Stopping both skeletons again gives a notice if the first one was started. -/
theorem Outcome.undone_of_stop {a : Attempt} {t : Server} (h : t.first.isRunning = true)
    (net : Network) (fine : ¬s.Misfires a) : s.Outcome a false (t.stop net) := by
  refine .undone ?_ (t.isRunning_stop net) rfl fine
  rw [flag_stop, h, Bool.or_true, Bool.true_or]

section Naming

variable {n : NamingServer} {net net₁ net₂ : Network} {e : CallError}
  {service registration : Skeleton}

theorem start_naming_first (h : n.service.start net = (.error e, service, net₁)) :
    n.start net = (.error e, { n with service, flag := .clear }, net₁) := by
  unfold NamingServer.start
  dsimp only
  rw [h]
  rfl

theorem start_naming_second (h : n.service.start net = (.ok (), service, net₁))
    (h' : n.registration.start net₁ = (.error e, registration, net₂)) :
    n.start net =
      (.error e, { n with service, registration, flag := .clear }.stopService net₂) := by
  unfold NamingServer.start
  dsimp only
  rw [h]
  dsimp only
  rw [h']
  rfl

theorem start_naming_both (h : n.service.start net = (.ok (), service, net₁))
    (h' : n.registration.start net₁ = (.ok (), registration, net₂)) :
    n.start net = (.ok (), { n with service, registration, flag := .clear }, net₂) := by
  unfold NamingServer.start
  dsimp only
  rw [h]
  dsimp only
  rw [h']
  rfl

end Naming

theorem start_naming (s : NamingServer) (a : Attempt) :
    (Server.naming s).Outcome a ((Server.naming s).start a).1 ((Server.naming s).start a).2 := by
  show (Server.naming s).Outcome a (s.start a.net).1.isOk (.naming (s.start a.net).2.1)
  rcases hfirst : s.service.start a.net with ⟨r, service, net₁⟩
  cases r with
  | error e =>
    rw [start_naming_first hfirst]
    obtain ⟨hkept, hwhy⟩ := Skeleton.start_error (congrArg Prod.fst hfirst)
    rw [hfirst] at hkept
    have hsame : (service.isRunning && s.registration.isRunning) = s.isRunning := by
      rw [hkept]
      rfl
    cases hrun : s.isRunning with
    | true => exact .running rfl (hsame.trans hrun) fun h => absurd hrun (Bool.eq_false_iff.mp h.1)
    | false => exact .misfired rfl (hsame.trans hrun) rfl ⟨hrun, hwhy⟩
  | ok =>
    obtain ⟨hidle, hbound, hruns⟩ := Skeleton.start_ok (congrArg Prod.fst hfirst)
    rw [hfirst] at hruns
    have hfine : ¬(Server.naming s).Misfires a := by
      rintro ⟨-, h | ⟨cause, h⟩⟩
      · exact absurd h (Bool.eq_false_iff.mp hidle)
      · exact hbound cause h
    rcases hsecond : s.registration.start net₁ with ⟨r, registration, net₂⟩
    cases r with
    | error e =>
      rw [start_naming_second hfirst hsecond]
      refine .undone ?_ ?_ rfl hfine
      · show (StopFlag.clear.notices (service.stop net₂).1).stopped = true
        rw [StopFlag.stopped_notices_stop]
        exact hruns
      · show ((service.stop net₂).2.1.isRunning && registration.isRunning) = false
        rw [Skeleton.isRunning_stop, Bool.false_and]
    | ok =>
      rw [start_naming_both hfirst hsecond]
      obtain ⟨-, -, hruns'⟩ := Skeleton.start_ok (congrArg Prod.fst hsecond)
      rw [hsecond] at hruns'
      refine .running rfl ?_ hfine
      show (service.isRunning && registration.isRunning) = true
      rw [hruns, hruns']
      rfl

/-- A storage server that runs, or whose root is no directory, is not started. -/
theorem start_storage_refused (s : StorageServer) (a : Attempt)
    (h : s.isRunning = true ∨ a.disk.isDirectory s.root = false) :
    (Server.storage s).start a = (false, .storage s) := by
  unfold Server.start StorageServer.announce
  dsimp only
  by_cases hrun : s.isRunning = true
  · rw [if_pos hrun]
  · rw [if_neg hrun, h.resolve_left hrun]
    rfl

/-- A storage server whose skeletons have been tried either stops them again or is left as it is
then. -/
theorem start_storage_tried (s : StorageServer) (a : Attempt) (hrun : s.isRunning = false)
    (hroot : a.disk.isDirectory s.root = true) {r : Except CallError Unit} {t : StorageServer}
    {net : Network}
    (ht : { s with flag := StopFlag.clear }.startSkeletons a.net = (r, t, net)) :
    (∃ net, (Server.storage s).start a = (false, (Server.storage t).stop net)) ∨
      (r = .ok () ∧ (Server.storage s).start a = (true, .storage t)) := by
  have hstarted : { s with flag := s.flag.started }.startSkeletons a.net = (r, t, net) := ht
  unfold Server.start StorageServer.announce
  dsimp only
  rw [if_neg (Bool.eq_false_iff.mp hrun), if_neg (by rw [hroot]; exact Bool.false_ne_true),
    hstarted]
  rcases r with e | ⟨⟩
  · exact .inl ⟨net, rfl⟩
  · dsimp only
    cases t.registrationAt a.hostname a.disk with
    | error e => exact .inl ⟨net, rfl⟩
    | ok request =>
      unfold StorageServer.conclude
      cases a.reply with
      | error e => exact .inl ⟨net, rfl⟩
      | ok clashing => exact .inr ⟨rfl, rfl⟩

theorem start_storage (s : StorageServer) (a : Attempt) :
    (Server.storage s).Outcome a ((Server.storage s).start a).1 ((Server.storage s).start a).2 := by
  by_cases hrefused : s.isRunning = true ∨ a.disk.isDirectory s.root = false
  · rw [start_storage_refused s a hrefused]
    refine .refused rfl rfl fun ⟨hroot, hidle, _, _⟩ => ?_
    rcases hrefused with hrun | hnone
    · unfold StorageServer.isRunning at hrun
      rw [hidle] at hrun
      exact Bool.false_ne_true hrun
    · rw [hroot] at hnone
      cases hnone
  rw [not_or, Bool.not_eq_true, Bool.not_eq_false] at hrefused
  obtain ⟨hrun, hroot⟩ := hrefused
  rcases hfirst : s.storage.start a.net with ⟨r, storage, net₁⟩
  cases r with
  | error e =>
    have ht : { s with flag := StopFlag.clear }.startSkeletons a.net =
        (.error e, { s with storage, flag := StopFlag.clear }, net₁) := by
      unfold StorageServer.startSkeletons
      rw [hfirst]
    obtain ⟨net, hstart⟩ | ⟨hr, -⟩ := start_storage_tried s a hrun hroot ht
    · rw [hstart]
      obtain ⟨hkept, hwhy⟩ := Skeleton.start_error (congrArg Prod.fst hfirst)
      rw [hfirst] at hkept
      -- the flag has been cleared, and the stop raises it if anything was left to stop
      have hflag : ((Server.storage { s with storage, flag := StopFlag.clear }).stop
          net).flag.waitReturns = (s.storage.isRunning || s.command.isRunning) := by
        rw [flag_stop]
        show (false || storage.isRunning || s.command.isRunning) = _
        rw [hkept, Bool.false_or]
      have hidle := isRunning_stop (.storage { s with storage, flag := StopFlag.clear }) net
      cases hboth : (s.storage.isRunning || s.command.isRunning) with
      | true =>
        refine .undone (hflag.trans hboth) hidle rfl fun ⟨_, h₁, h₂, _⟩ => ?_
        rw [h₁, h₂] at hboth
        exact Bool.false_ne_true hboth
      | false =>
        obtain ⟨h₁, h₂⟩ := Bool.or_eq_false_iff.mp hboth
        exact .misfired (hflag.trans hboth) hidle rfl
          ⟨hroot, h₁, h₂, hwhy.resolve_left (Bool.eq_false_iff.mp h₁)⟩
    · cases hr
  | ok =>
    obtain ⟨hidle, hbound, hruns⟩ := Skeleton.start_ok (congrArg Prod.fst hfirst)
    rw [hfirst] at hruns
    have hfine : ¬(Server.storage s).Misfires a := fun ⟨_, _, _, cause, h⟩ => hbound cause h
    rcases hsecond : s.command.start net₁ with ⟨r, command, net₂⟩
    have ht : { s with flag := StopFlag.clear }.startSkeletons a.net =
        (r, { s with storage, command, flag := StopFlag.clear }, net₂) := by
      unfold StorageServer.startSkeletons
      rw [hfirst]
      dsimp only
      rw [hsecond]
    obtain ⟨net, hstart⟩ | ⟨rfl, hstart⟩ := start_storage_tried s a hrun hroot ht
    · rw [hstart]
      exact .undone_of_stop (t := .storage { s with storage, command, flag := .clear }) hruns net
        hfine
    · rw [hstart]
      obtain ⟨-, -, hruns'⟩ := Skeleton.start_ok (congrArg Prod.fst hsecond)
      rw [hsecond] at hruns'
      refine .running rfl ?_ hfine
      show (storage.isRunning && command.isRunning) = true
      rw [hruns, hruns']
      rfl

theorem settled_stop (s : Server) (net : Network) : (s.stop net).Settled := by
  cases s with
  | naming s => exact ⟨s.service.settled_stop net, s.registration.settled_stop _⟩
  | storage s => exact ⟨s.storage.settled_stop net, s.command.settled_stop _⟩

theorem settled_start_naming {s : NamingServer} (hs : (Server.naming s).Settled) (net : Network) :
    (Server.naming (s.start net).2.1).Settled := by
  have hsettled : (s.service.start net).2.1.Settled := hs.first.happen (.start net)
  rcases hfirst : s.service.start net with ⟨r, service, net₁⟩
  rw [hfirst] at hsettled
  cases r with
  | error e =>
    rw [start_naming_first hfirst]
    exact ⟨hsettled, hs.second⟩
  | ok =>
    have hsettled' : (s.registration.start net₁).2.1.Settled := hs.second.happen (.start net₁)
    rcases hsecond : s.registration.start net₁ with ⟨r, registration, net₂⟩
    rw [hsecond] at hsettled'
    cases r with
    | error e =>
      rw [start_naming_second hfirst hsecond]
      exact ⟨service.settled_stop net₂, hsettled'⟩
    | ok =>
      rw [start_naming_both hfirst hsecond]
      exact ⟨hsettled, hsettled'⟩

theorem settled_startSkeletons {s : StorageServer} (hs : (Server.storage s).Settled)
    (net : Network) : (Server.storage (s.startSkeletons net).2.1).Settled := by
  have hsettled : (s.storage.start net).2.1.Settled := hs.first.happen (.start net)
  unfold StorageServer.startSkeletons
  rcases hfirst : s.storage.start net with ⟨r, storage, net₁⟩
  rw [hfirst] at hsettled
  cases r with
  | error e => exact ⟨hsettled, hs.second⟩
  | ok => exact ⟨hsettled, hs.second.happen (.start net₁)⟩

theorem Settled.start (hs : s.Settled) (a : Attempt) : (s.start a).2.Settled := by
  cases s with
  | naming s => exact settled_start_naming hs a.net
  | storage s =>
    by_cases hrefused : s.isRunning = true ∨ a.disk.isDirectory s.root = false
    · rw [start_storage_refused s a hrefused]
      exact hs
    rw [not_or, Bool.not_eq_true, Bool.not_eq_false] at hrefused
    have hcleared : (Server.storage { s with flag := StopFlag.clear }).Settled := ⟨hs.1, hs.2⟩
    have hsettled := settled_startSkeletons hcleared a.net
    rcases ht : { s with flag := StopFlag.clear }.startSkeletons a.net with ⟨r, t, net⟩
    rw [ht] at hsettled
    obtain ⟨net, hstart⟩ | ⟨-, hstart⟩ := start_storage_tried s a hrefused.1 hrefused.2 ht
    · rw [hstart]
      exact settled_stop (.storage t) net
    · rw [hstart]
      exact hsettled

theorem Settled.acceptFails (hs : s.Settled) (port : Port) (cause : IoError) (net : Network) :
    (s.acceptFails port cause net).Settled := by
  -- a server process stops at every failure, as hooks do that do not resume
  have hfirst := hs.first.happen (.acceptFails false cause net)
  have hsecond := hs.second.happen (.acceptFails false cause net)
  cases s with
  | naming s =>
    show (Server.naming (s.acceptFails port cause net).1).Settled
    unfold NamingServer.acceptFails
    split
    · exact ⟨hfirst, hs.second⟩
    · split
      · exact ⟨hs.first, hsecond⟩
      · exact hs
  | storage s =>
    show (Server.storage (s.acceptFails port cause net).1).Settled
    unfold StorageServer.acceptFails
    split
    · exact ⟨hfirst, hs.second⟩
    · split
      · exact ⟨hs.first, hsecond⟩
      · exact hs

/-- Every start has one of the four outcomes. -/
theorem start_outcome (s : Server) (a : Attempt) : s.Outcome a (s.start a).1 (s.start a).2 := by
  cases s with
  | naming s => exact start_naming s a
  | storage s => exact start_storage s a

/-- After a start that succeeds the flag tells the truth. -/
theorem truthful_of_started {a : Attempt} (h : (s.start a).1 = true) : (s.start a).2.Truthful := by
  unfold Truthful
  cases s.start_outcome a with
  | refused _ fails => exact absurd h (Bool.eq_false_iff.mp fails)
  | undone _ _ fails => exact absurd h (Bool.eq_false_iff.mp fails)
  | running cleared runs =>
    rw [cleared, runs]
    rfl
  | misfired _ _ fails => exact absurd h (Bool.eq_false_iff.mp fails)

/-- A start leaves a flag that tells the truth exactly if it does not misfire. -/
theorem truthful_start_iff (h : s.Truthful) (a : Attempt) :
    (s.start a).2.Truthful ↔ ¬s.Misfires a := by
  cases s.start_outcome a with
  | refused unchanged _ fine =>
    rw [unchanged]
    exact iff_of_true h fine
  | undone raised idle _ fine =>
    refine iff_of_true ?_ fine
    unfold Truthful
    rw [raised, idle]
    rfl
  | running cleared runs fine =>
    refine iff_of_true ?_ fine
    unfold Truthful
    rw [cleared, runs]
    rfl
  | misfired cleared idle _ misfires =>
    refine iff_of_false ?_ (not_not_intro misfires)
    unfold Truthful
    rw [cleared, idle]
    exact Bool.false_ne_true

/-! ## Whole runs -/

theorem settled_new (given : NamingSettings ⊕ StorageSettings) : (new given).Settled := by
  cases given <;> exact ⟨Skeleton.settled_new _, Skeleton.settled_new _⟩

theorem Settled.happen (hs : s.Settled) (e : Event) : (s.happen e).Settled := by
  cases e with
  | start a => exact hs.start a
  | stop net => exact s.settled_stop net
  | acceptFails port cause net => exact hs.acceptFails port cause net

theorem Settled.after (hs : s.Settled) (events : List Event) : (s.after events).Settled := by
  induction events generalizing s with
  | nil => exact hs
  | cons e events ih => exact ih (hs.happen e)

/-- Only a start that misfires takes the truth from the flag. -/
theorem truthful_happen (hs : s.Settled) (h : s.Truthful) (e : Event)
    (hfine : ∀ a, e = .start a → ¬s.Misfires a) : (s.happen e).Truthful := by
  cases e with
  | start a => exact (truthful_start_iff h a).mpr (hfine a rfl)
  | stop net => exact truthful_stop h net
  | acceptFails port cause net => exact truthful_acceptFails hs h port cause net

/-- Whether the flag tells the truth after every event of a run. -/
theorem truthful_run_iff (hs : s.Settled) (h : s.Truthful) (events : List Event) :
    (∀ past, past <+: events → (s.after past).Truthful) ↔
      ∀ past a, past ++ [.start a] <+: events → ¬(s.after past).Misfires a := by
  constructor
  · intro hall past a hpast
    have hnow := hall past (List.IsPrefix.trans (List.prefix_append past _) hpast)
    have hthen := hall (past ++ [.start a]) hpast
    unfold after at hthen
    rw [List.foldl_append] at hthen
    exact (truthful_start_iff hnow a).mp hthen
  · intro hfine past
    induction past using List.reverseRecOn with
    | nil => exact fun _ => h
    | append_singleton past e ih =>
      intro hpast
      have hnow := ih (List.IsPrefix.trans (List.prefix_append past _) hpast)
      unfold after
      rw [List.foldl_append]
      refine truthful_happen (hs.after past) hnow e fun a he => ?_
      exact hfine past a (he ▸ hpast)

/-- Once a start has succeeded, the flag tells the truth after every later event exactly if no later
start misfires. -/
theorem truthful_after_iff (given : NamingSettings ⊕ StorageSettings) (earlier : List Event)
    (a : Attempt) (hstarted : (((new given).after earlier).start a).1 = true)
    (later : List Event) :
    (∀ past, past <+: later → ((((new given).after earlier).start a).2.after past).Truthful) ↔
      ∀ past b, past ++ [.start b] <+: later →
        ¬((((new given).after earlier).start a).2.after past).Misfires b :=
  truthful_run_iff (((settled_new given).after earlier).start a) (truthful_of_started hstarted)
    later

/-- A start on a machine whose only directory is an empty root. -/
def attemptOn (net : Network) : Attempt := ⟨"127.0.0.1", ⟨[([0x61], .directory [])]⟩, net, .ok []⟩

/-- The two ports that are assigned first are in use. -/
def firstPorts : Network := ⟨[⟨.v4, 49153⟩, ⟨.v4, 49152⟩], 2, []⟩

/-- A storage server below the root. -/
def storageServer : NamingSettings ⊕ StorageSettings := .inr (.default "/a")

/-- The skeleton for commands dies, and a start finds the other one running. -/
def troubles : List Event :=
  [.acceptFails ⟨.v4, 49153⟩ .connectionAborted firstPorts, .start (attemptOn firstPorts)]

theorem truthful_after_iff_troubles :
    ((new storageServer).start (attemptOn .empty)).1 = true ∧
      ∀ past, past <+: troubles →
        (((new storageServer).start (attemptOn .empty)).2.after past).Truthful := by
  have hstarted : ((new storageServer).start (attemptOn .empty)).1 = true := by decide +kernel
  refine ⟨hstarted,
    (truthful_after_iff storageServer [] (attemptOn .empty) hstarted troubles).mpr ?_⟩
  intro past b hpast
  obtain _ | ⟨e, _ | ⟨e', past⟩⟩ := past
  · cases (List.cons_prefix_cons.mp hpast).1
  · obtain ⟨rfl, hlast⟩ := List.cons_prefix_cons.mp hpast
    cases (List.cons_prefix_cons.mp hlast).1
    rintro ⟨-, hidle, -⟩
    exact absurd hidle (by decide +kernel)
  · have hlength := hpast.length_le
    simp [troubles] at hlength

/-- A naming server that takes any two ports of the machine itself. -/
def namingServer : NamingSettings ⊕ StorageSettings :=
  .inl ⟨.v4 .localhost 0, .v4 .localhost 0⟩

/-- The flag need not tell the truth: here the skeleton for registrations has died, and the naming
server is told to start while the other one runs. -/
theorem not_truthful_after_redundant_start :
    ¬∀ (given : NamingSettings ⊕ StorageSettings) (earlier : List Event) (a : Attempt),
      (((new given).after earlier).start a).1 = true →
        ∀ later, ((((new given).after earlier).start a).2.after later).Truthful := by
  intro htrue
  have hstarted : (((new namingServer).after []).start (attemptOn .empty)).1 = true := by
    decide +kernel
  have hwrong := htrue namingServer [] (attemptOn .empty) hstarted
    [.acceptFails ⟨.v4, 49153⟩ .connectionAborted firstPorts, .start (attemptOn firstPorts)]
  exact absurd hwrong (by decide +kernel)

end Server

/-! ## The servers of a cluster -/

namespace StorageServer

/-- What becomes of a server that is stopped does not hang on the network. -/
theorem stop_server (s : StorageServer) (net net' : Network) :
    (s.stop net).1 = (s.stop net').1 := by
  unfold stop
  simp only [Skeleton.stop_skeleton, Skeleton.stop_notices]

theorem conclude_server (s : StorageServer) (reply : Except NamingError (List Path))
    (disk disk' : Disk) (net net' : Network) :
    (s.conclude reply disk net).1 = (s.conclude reply disk' net').1 ∧
      (s.conclude reply disk net).2.1 = (s.conclude reply disk' net').2.1 := by
  cases reply with
  | error e => exact ⟨rfl, s.stop_server net net'⟩
  | ok clashing => exact ⟨rfl, rfl⟩

end StorageServer

namespace Cluster

variable {c : Cluster} {name : String}

theorem server?_setServer (c : Cluster) (name : String) (s : Server) :
    (c.setServer name s).server? name = some s := by
  unfold server? setServer
  rw [List.lookup_cons_self]

/-- A naming server of a cluster is started on its network. -/
theorem server?_startNaming {s : NamingServer} (h : c.namingServer? name = some s)
    (hostname : String) (reply : Except NamingError (List Path)) :
    (c.startNaming name).2.server? name =
        some ((Server.naming s).start ⟨hostname, c.disk, c.network, reply⟩).2 ∧
      (c.startNaming name).1.isOk =
        ((Server.naming s).start ⟨hostname, c.disk, c.network, reply⟩).1 := by
  unfold startNaming
  rw [h]
  exact ⟨server?_setServer _ name _, rfl⟩

/-- A storage server of a cluster is started on its disk and its network, whatever the naming server
replies. -/
theorem server?_startStorage {s : StorageServer} (h : c.storageServer? name = some s)
    (hostname : String) (naming : RegistrationStub) :
    ∃ reply, (c.startStorage name hostname naming).2.server? name =
        some ((Server.storage s).start ⟨hostname, c.disk, c.network, reply⟩).2 ∧
      (c.startStorage name hostname naming).1.isOk =
        ((Server.storage s).start ⟨hostname, c.disk, c.network, reply⟩).1 := by
  unfold startStorage Server.start
  rw [h]
  dsimp only
  rcases s.announce hostname c.disk c.network with ⟨r, t, net⟩
  cases r with
  | error e => exact ⟨.ok [], server?_setServer _ name _, rfl⟩
  | ok request =>
    rcases hreply : (naming.request exchange request).run
      ({ c with network := net }.setServer name (.storage t)) with ⟨reply, c'⟩
    obtain ⟨hresult, hserver⟩ := t.conclude_server reply c'.disk c.disk c'.network net
    refine ⟨reply, ?_⟩
    dsimp only
    rw [hreply, ← hresult, ← hserver]
    exact ⟨server?_setServer _ name _, rfl⟩

end Cluster

end FileCluster
