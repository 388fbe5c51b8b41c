import FileCluster.Proofs.Cluster.Waiting
import FileCluster.Proofs.Remote.Streams
import FileCluster.Proofs.Remote.Transparent

/-!
Starts that fail.

A server has two skeletons, and either may have died while the other goes on, so a start may fail
with something running already. A naming server stops again what the start itself began. Main
statement: it runs then what it ran before, occupies the ports that it occupied before, and knows
what it knew before (`NamingServer.start_failed`). A storage server stops whatever runs. Main
statement: after a start that failed neither of its skeletons runs, unless the root is missing, for
that is found out before anything is stopped; the disk is not changed in any case
(`StorageServer.idle_of_failed_start_iff`). A storage server of a cluster starts in the same way:
what it learns over the network is the reply, and registering changes no disk
(`Cluster.startStorage_eq_start`).
-/

namespace FileCluster

/-! ## Ports -/

/-- Binding occupies one port more. -/
theorem Network.listeners_of_bind {net net' : Network} {a got : SocketAddr}
    (h : net.bind a = .ok (got, net')) : net'.listeners = got.occupies :: net.listeners := by
  unfold bind at h
  split at h
  · cases h
  · split at h
    · split at h
      · cases h
      · cases h
        rfl
    · split at h
      · cases h
      · cases h
        rfl

theorem Network.listeners_release (net : Network) (a : SocketAddr) :
    (net.release a).listeners = net.listeners.erase a.occupies := rfl

namespace Skeleton

variable {s s' : Skeleton} {net net' : Network}

/-- A start that fails occupies no port. -/
theorem network_of_start_error {e : CallError} (h : s.start net = (.error e, s', net')) :
    net' = net := by
  rcases s.start_cases net with ⟨-, hs⟩ | ⟨-, cause, -, hs⟩ | ⟨-, got, bound, -, hs⟩
  · cases hs.symm.trans h
    rfl
  · cases hs.symm.trans h
    rfl
  · cases hs.symm.trans h

/-- Stopping a skeleton that runs gives its port back. -/
theorem network_stop (h : s.isRunning = true) (net : Network) :
    ∃ l, s.listener = some l ∧ (s.stop net).2.2 = net.release l.address := by
  obtain ⟨l, hl, halive⟩ := isRunning_iff.mp h
  refine ⟨l, hl, ?_⟩
  unfold stop
  rw [if_pos h]
  unfold arrive Listener.round Listener.tellToStop
  rw [hl]
  simp [halive]

/-- A skeleton that is started and stopped again leaves the ports as they were. -/
theorem listeners_of_start_stop (h : s.start net = (.ok (), s', net')) :
    (s'.stop net').2.2.listeners = net.listeners := by
  rcases s.start_cases net with ⟨-, hs⟩ | ⟨-, cause, -, hs⟩ | ⟨-, got, bound, hb, hs⟩
  · cases hs.symm.trans h
  · cases hs.symm.trans h
  · cases hs.symm.trans h
    have hrunning : isRunning ⟨some got, some ⟨got, false, false⟩⟩ = true := rfl
    obtain ⟨l, hl, hstop⟩ := network_stop hrunning net'
    cases hl
    rw [hstop, Network.listeners_release, Network.listeners_of_bind hb, List.erase_cons_head]

end Skeleton

/-! ## Naming servers -/

namespace NamingServer

variable {s : NamingServer} {net : Network}

/-- A start that fails leaves each skeleton running if it was running before and only then, the
ports that are in use, and the tree and the registry of the service. -/
theorem start_failed {e : CallError} (h : (s.start net).1 = .error e) :
    ((s.start net).2.1.service.isRunning = true ↔ s.service.isRunning = true) ∧
      ((s.start net).2.1.registration.isRunning = true ↔ s.registration.isRunning = true) ∧
      (s.start net).2.1.naming.tree = s.naming.tree ∧
      (s.start net).2.1.naming.registry = s.naming.registry ∧
      (s.start net).2.2.listeners = net.listeners := by
  rcases hfirst : s.service.start net with ⟨r, service, net₁⟩
  cases r with
  | error e =>
    rw [Server.start_naming_first hfirst]
    obtain ⟨hkept, -⟩ := Skeleton.start_error (congrArg Prod.fst hfirst)
    rw [hfirst] at hkept
    obtain rfl := Skeleton.network_of_start_error hfirst
    exact ⟨iff_of_eq (congrArg (· = true) hkept), Iff.rfl, rfl, rfl, rfl⟩
  | ok =>
    rcases hsecond : s.registration.start net₁ with ⟨r, registration, net₂⟩
    cases r with
    | error e =>
      rw [Server.start_naming_second hfirst hsecond]
      obtain ⟨hidle, -, -⟩ := Skeleton.start_ok (congrArg Prod.fst hfirst)
      obtain ⟨hkept, -⟩ := Skeleton.start_error (congrArg Prod.fst hsecond)
      rw [hsecond] at hkept
      obtain rfl := Skeleton.network_of_start_error hsecond
      -- the first skeleton did not run before, and is the one that is stopped again
      refine ⟨?_, iff_of_eq (congrArg (· = true) hkept), rfl, rfl, ?_⟩
      · show (service.stop net₂).2.1.isRunning = true ↔ s.service.isRunning = true
        rw [Skeleton.isRunning_stop, hidle]
      · exact Skeleton.listeners_of_start_stop hfirst
    | ok =>
      rw [Server.start_naming_both hfirst hsecond] at h
      cases h

/-- A naming server that was started, and whose skeleton for clients has died since. -/
def halfDead : NamingServer :=
  (((new ⟨.v4 .localhost 0, .v4 .localhost 0⟩).start .empty).2.1.acceptFails ⟨.v4, 49152⟩
    .connectionAborted ⟨[⟨.v4, 49153⟩, ⟨.v4, 49152⟩], 2, []⟩).1

/-- The port of the skeleton that runs is in use, and another one of the machine. -/
def usedPorts : Network := ⟨[⟨.v4, 49153⟩, ⟨.v4, 2000⟩], 2, []⟩

theorem start_failed_halfDead :
    halfDead.service.isRunning = false ∧ halfDead.registration.isRunning = true ∧
      (halfDead.start usedPorts).1 = .error .alreadyRunning ∧
      (halfDead.start usedPorts).2.1.service.isRunning = false ∧
      (halfDead.start usedPorts).2.1.registration.isRunning = true ∧
      (halfDead.start usedPorts).2.2.listeners = [⟨.v4, 49153⟩, ⟨.v4, 2000⟩] := by
  have hdead : halfDead.service.isRunning = false := by decide +kernel
  have halive : halfDead.registration.isRunning = true := by decide +kernel
  have hfailed : (halfDead.start usedPorts).1 = .error .alreadyRunning := by decide +kernel
  obtain ⟨hservice, hregistration, -, -, hports⟩ := start_failed hfailed
  refine ⟨hdead, halive, hfailed, ?_, hregistration.mpr halive, hports⟩
  rw [← Bool.not_eq_true, hservice, hdead]
  exact Bool.false_ne_true

end NamingServer

/-! ## Storage servers -/

namespace StorageServer

/-- A whole start. -/
def start (s : StorageServer) (a : Server.Attempt) :
    Except ServerError Unit × StorageServer × Disk × Network :=
  match s.announce a.hostname a.disk a.net with
  | (.error e, s, net) => (.error e, s, a.disk, net)
  | (.ok _, s, net) => s.conclude a.reply a.disk net

/-- Neither skeleton runs. -/
def Idle (s : StorageServer) : Prop := s.storage.isRunning = false ∧ s.command.isRunning = false

instance (s : StorageServer) : Decidable s.Idle := inferInstanceAs (Decidable (_ ∧ _))

variable {s s' : StorageServer} {a : Server.Attempt} {disk disk' : Disk} {net net' : Network}

theorem idle_stop (s : StorageServer) (net : Network) : (s.stop net).1.Idle :=
  ⟨s.storage.isRunning_stop net, s.command.isRunning_stop _⟩

/-- A server that runs is not started, and nor is one without a root; otherwise a start that fails
before the registration stops both skeletons. -/
theorem announce_eq_error {hostname : String} {e : ServerError}
    (h : s.announce hostname disk net = (.error e, s', net')) :
    e = .call .alreadyRunning ∨ disk.isDirectory s.root = false ∧ s' = s ∨
      disk.isDirectory s.root = true ∧ s'.Idle := by
  unfold announce at h
  split at h
  · cases h
    exact .inl rfl
  · cases hroot : disk.isDirectory s.root with
    | false =>
      rw [hroot] at h
      cases h
      exact .inr (.inl ⟨rfl, rfl⟩)
    | true =>
      rw [hroot, if_neg (by decide)] at h
      refine .inr (.inr ⟨rfl, ?_⟩)
      split at h
      · cases h
        exact idle_stop _ _
      · split at h
        · cases h
          exact idle_stop _ _
        · cases h

/-- A server registers only if its root is there. -/
theorem isDirectory_of_announce {hostname : String} {request : RegistrationRequest}
    (h : s.announce hostname disk net = (.ok request, s', net')) :
    disk.isDirectory s.root = true := by
  unfold announce at h
  split at h
  · cases h
  · split at h
    · cases h
    · rename_i hroot
      simpa using hroot

/-- After a registration that failed both skeletons are stopped, and the disk is as it was. -/
theorem conclude_eq_error {reply : Except NamingError (List Path)} {e : ServerError}
    (h : s.conclude reply disk net = (.error e, s', disk', net')) : s'.Idle ∧ disk' = disk := by
  unfold conclude at h
  cases reply with
  | error cause =>
    cases h
    exact ⟨idle_stop s net, rfl⟩
  | ok clashing => cases h

/-- What becomes of the disk does not hang on the network. -/
theorem disk_conclude (s : StorageServer) (reply : Except NamingError (List Path)) (disk : Disk)
    (net net' : Network) :
    (s.conclude reply disk net).2.2.1 = (s.conclude reply disk net').2.2.1 := by
  cases reply <;> rfl

/-- A start that fails other than for a server that runs leaves neither skeleton running, exactly if
the root is there or neither ran before. It leaves the disk as it was. -/
theorem idle_of_failed_start_iff {e : ServerError} (h : (s.start a).1 = .error e)
    (hother : e ≠ .call .alreadyRunning) :
    ((s.start a).2.1.Idle ↔ a.disk.isDirectory s.root = true ∨ s.Idle) ∧
      (s.start a).2.2.1 = a.disk := by
  unfold start at h ⊢
  rcases hannounce : s.announce a.hostname a.disk a.net with ⟨r, t, net⟩
  rw [hannounce] at h
  cases r with
  | error e' =>
    obtain rfl : e' = e := Except.error.inj h
    refine ⟨?_, rfl⟩
    obtain hrunning | ⟨hmissing, rfl⟩ | ⟨hroot, hidle⟩ := announce_eq_error hannounce
    · exact absurd hrunning hother
    · simp [hmissing]
    · exact iff_of_true hidle (.inl hroot)
  | ok request =>
    rcases hconclude : t.conclude a.reply a.disk net with ⟨r, t', disk, net'⟩
    dsimp only at h ⊢
    rw [hconclude] at h ⊢
    obtain rfl : r = .error e := h
    obtain ⟨hidle, rfl⟩ := conclude_eq_error hconclude
    exact ⟨iff_of_true hidle (.inl (isDirectory_of_announce hannounce)), rfl⟩

/-- A storage server that was started, and whose skeleton for clients has died since. -/
def halfDead : StorageServer :=
  (((new (.default "/a")).start (Server.attemptOn .empty)).2.1.acceptFails ⟨.v4, 49152⟩
    .connectionAborted Server.firstPorts).1

theorem idle_of_failed_start_iff_halfDead :
    halfDead.storage.isRunning = false ∧ halfDead.command.isRunning = true ∧
      (halfDead.start (Server.attemptOn Server.firstPorts)).1 =
        .error (.call (.transport .addressInUse)) ∧
      (halfDead.start (Server.attemptOn Server.firstPorts)).2.1.Idle ∧
      (halfDead.start (Server.attemptOn Server.firstPorts)).2.2.1 =
        (Server.attemptOn Server.firstPorts).disk := by
  have hdead : halfDead.storage.isRunning = false := by decide +kernel
  have halive : halfDead.command.isRunning = true := by decide +kernel
  -- the port that the dead skeleton had has been taken by another program
  have hfailed : (halfDead.start (Server.attemptOn Server.firstPorts)).1 =
      .error (.call (.transport .addressInUse)) := by decide +kernel
  have hroot : (Server.attemptOn Server.firstPorts).disk.isDirectory halfDead.root = true := by
    decide +kernel
  obtain ⟨hidle, hdisk⟩ := idle_of_failed_start_iff hfailed (by decide)
  exact ⟨hdead, halive, hfailed, hidle.mpr (.inl hroot), hdisk⟩

/-- A start that fails can leave a skeleton running: here the root has been removed since one of the
two died. -/
theorem failed_start_leaves_running :
    ¬∀ (s : StorageServer) (a : Server.Attempt) (e : ServerError), (s.start a).1 = .error e →
      e ≠ .call .alreadyRunning → (s.start a).2.1.Idle ∧ (s.start a).2.2.1 = a.disk := by
  intro hidle
  have hfailed : (halfDead.start ⟨"127.0.0.1", ⟨[]⟩, Server.firstPorts, .ok []⟩).1 =
      .error (.rootNotFound "/a") := by decide +kernel
  have hrunning : ¬(halfDead.start ⟨"127.0.0.1", ⟨[]⟩, Server.firstPorts, .ok []⟩).2.1.Idle := by
    decide +kernel
  exact hrunning (hidle halfDead _ _ hfailed (by decide)).1

end StorageServer

/-! ## The servers of a cluster -/

/-- Bytes that hold no call but of the method that registers. -/
def Registers (sent : List UInt8) : Prop :=
  ∀ call : Call, (Frame.read sent).1 = .ok call →
    call.method = registerMethod.name ∧ call.signature = registerMethod.params

theorem registers_nil : Registers [] := by
  intro call h
  cases h

theorem registers_bytes {request : RegistrationRequest} {frame : Frame}
    (h : Frame.write (registrationInterface.call request) = .ok frame) :
    Registers frame.bytes := by
  intro call hcall
  by_cases hfits : (registrationInterface.call request).encode.text.utf8ByteSize ≤ maxPayload
  · rw [Frame.write_eq rfl hfits] at h
    cases h
    have hread := Frame.read_call (c := registrationInterface.call request)
      (fun v hv => (registrationInterface_faithful.arguments request v hv).1) hfits []
    rw [List.append_nil] at hread
    rw [hread] at hcall
    cases hcall
    exact ⟨rfl, rfl⟩
  · rw [Frame.write_eq_error rfl hfits] at h
    cases h

/-- An interface that does not have the method runs nothing for such bytes. -/
theorem Interface.serve_of_registers {I : Interface} {m : Type → Type} [Monad m] [LawfulMonad m]
    (hunlisted : I.lookup registerMethod.name registerMethod.params = none) {sent : List UInt8}
    (h : Registers sent) (implementation : I.Implementation m) :
    ∃ answer, I.serve implementation sent = pure answer := by
  unfold serve
  cases hread : (Frame.read sent : Except CallError Call × List UInt8).1 with
  | error e => exact ⟨_, rfl⟩
  | ok call =>
    obtain ⟨hname, hsignature⟩ := h call hread
    dsimp only
    unfold respond
    rw [hname, hsignature, hunlisted]
    exact ⟨_, pure_bind _ _⟩

namespace Cluster

theorem disk_setNaming (c : Cluster) (name : String) (naming : Naming) :
    (c.setNaming name naming).disk = c.disk := by
  unfold setNaming
  split <;> rfl

/-- A computation that leaves the disk of a cluster alone. -/
def KeepsDisk {α : Type} (x : StateM Cluster α) : Prop := ∀ c, (x.run c).2.disk = c.disk

namespace KeepsDisk

variable {α β : Type} {x : StateM Cluster α} {sent : List UInt8}

theorem pure (a : α) : KeepsDisk (Pure.pure a) := fun _ => rfl

theorem get : KeepsDisk get := fun _ => rfl

theorem bind {f : α → StateM Cluster β} (h : KeepsDisk x) (hf : ∀ a, KeepsDisk (f a)) :
    KeepsDisk (x >>= f) := fun c => (hf _ _).trans (h c)

theorem serve {I : Interface} {implementation : I.Implementation (StateM Cluster)}
    (h : ∀ r, KeepsDisk (implementation r)) (incoming : List UInt8) :
    KeepsDisk (I.serve implementation incoming) := by
  unfold Interface.serve
  split
  · exact .pure _
  · refine bind ?_ fun _ => .pure _
    unfold Interface.respond
    split
    · exact .pure _
    · refine bind ?_ fun _ => .pure _
      unfold Interface.dispatch
      split
      · exact .pure _
      · exact bind (h _) fun _ => .pure _

theorem registrationOf (name : String) (r : RegistrationRequest) :
    KeepsDisk (registrationOf name r) := by
  unfold Cluster.registrationOf
  refine bind .get fun c => ?_
  dsimp only
  exact bind (fun c => disk_setNaming c name _) fun _ => .pure _

/-- A registration leaves the disk alone, whichever skeleton it reaches. -/
theorem serveAt (h : Registers sent) (exchange : Stub.Exchange (StateM Cluster)) (e : Endpoint) :
    KeepsDisk (serveAt exchange sent e) := by
  unfold Cluster.serveAt
  have hpure : ∀ {x : StateM Cluster (Except CallError Frame)}, (∃ answer, x = Pure.pure answer) →
      KeepsDisk x := by
    rintro _ ⟨answer, rfl⟩
    exact .pure answer
  cases e with
  | service name => exact hpure (Interface.serve_of_registers (by decide) h _)
  | storage name root => exact hpure (Interface.serve_of_registers (by decide) h _)
  | command name root => exact hpure (Interface.serve_of_registers (by decide) h _)
  | registration name => exact serve (registrationOf name) sent

theorem exchangeWithin (h : Registers sent) (hops : Nat) (host : String) (port : UInt16) :
    KeepsDisk (exchangeWithin hops host port sent) := by
  cases hops with
  | zero => exact .pure _
  | succ hops =>
    refine bind .get fun c => ?_
    split
    · exact .pure _
    · split
      · exact .pure _
      · refine bind (serveAt h _ _) fun answer => ?_
        split <;> exact .pure _

theorem exchange (h : Registers sent) (host : String) (port : UInt16) :
    KeepsDisk (exchange host port sent) :=
  bind .get fun c => exchangeWithin h (c.servers.length + 1) host port

theorem register (naming : RegistrationStub) (request : RegistrationRequest) :
    KeepsDisk (naming.request Cluster.exchange request) := by
  unfold Stub.request
  split
  · refine bind (exchange registers_nil _ _) fun answer => ?_
    split <;> exact .pure _
  · rename_i frame hframe
    refine bind (exchange (registers_bytes hframe) _ _) fun answer => ?_
    split <;> exact .pure _

end KeepsDisk

variable {c : Cluster} {name : String}

/-- Starting a storage server of a cluster comes to what starting it with some reply comes to. -/
theorem startStorage_eq_start {s : StorageServer} (h : c.storageServer? name = some s)
    (hostname : String) (naming : RegistrationStub) :
    ∃ reply, let a : Server.Attempt := ⟨hostname, c.disk, c.network, reply⟩
      (c.startStorage name hostname naming).1 = (s.start a).1 ∧
        (c.startStorage name hostname naming).2.server? name = some (.storage (s.start a).2.1) ∧
        (c.startStorage name hostname naming).2.disk = (s.start a).2.2.1 := by
  unfold startStorage StorageServer.start
  rw [h]
  dsimp only
  rcases s.announce hostname c.disk c.network with ⟨r, t, net⟩
  cases r with
  | error e => exact ⟨.ok [], rfl, server?_setServer _ name _, rfl⟩
  | ok request =>
    have hdisk := KeepsDisk.register naming request
      ({ c with network := net }.setServer name (.storage t))
    rcases hreply : (naming.request exchange request).run
      ({ c with network := net }.setServer name (.storage t)) with ⟨reply, c'⟩
    rw [hreply] at hdisk
    have hdisk : c'.disk = c.disk := hdisk
    obtain ⟨hresult, hserver⟩ := t.conclude_server reply c.disk c.disk c'.network net
    refine ⟨reply, ?_⟩
    dsimp only
    rw [hreply]
    dsimp only
    rw [hdisk, ← hresult, ← hserver, t.disk_conclude reply c.disk net c'.network]
    exact ⟨rfl, server?_setServer _ name _, rfl⟩

end Cluster

end FileCluster
