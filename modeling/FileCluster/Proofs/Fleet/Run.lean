import FileCluster.Proofs.Naming.Run
import FileCluster.Storage.Server

/-!
A naming service with its storage servers.

A fleet is a naming service and any number of storage servers on one machine. A storage server
starts and registers with the naming service; the naming service answers clients and sends its
commands to the servers that have registered; a storage server answers clients about its files.
`Fleet.run` carries out such operations in turn, each as the functions of the program do it.
-/

namespace FileCluster

/-- A naming service, the disk and the network of a machine, the storage servers on it, and which of
them have registered under which stubs, in the order of registration. -/
structure Fleet (ι : Type) where
  naming : Naming
  disk : Disk
  network : Network
  servers : ι → StorageServer
  registered : List (Owner × ι)

namespace Fleet

variable {ι : Type}

/-! ## Operations -/

/-- The local root of a storage server. -/
def root (f : Fleet ι) (i : ι) : String := (f.servers i).root

/-- The storage server that takes the commands sent to a stub. -/
def commanded? (f : Fleet ι) (stub : CommandStub) : Option ι :=
  (f.registered.find? fun e => e.1.command = stub).map Prod.snd

/-- Sends a command to the storage server that registered with the stub. -/
def command (f : Fleet ι) : Naming.Commander (StateM Disk) := fun stub r disk =>
  match f.commanded? stub with
  | some i => Storage.obey (f.root i) disk r
  | none => (.error (.call (.transport .connectionRefused)), disk)

/-- A client asks the naming service. -/
def ask (f : Fleet ι) (r : ServiceRequest) : Except NamingError r.Result × Fleet ι :=
  let ((result, naming), disk) := (Naming.answer f.command f.naming r).run f.disk
  (result, { f with naming, disk })

/-- A client asks a storage server. -/
def access (f : Fleet ι) (i : ι) (r : StorageRequest) : Except StorageError r.Result × Fleet ι :=
  let (result, disk) := Storage.answer (f.root i) f.disk r
  (result, { f with disk })

variable [DecidableEq ι]

/-- Puts a storage server in the place of another one. -/
def setServer (f : Fleet ι) (i : ι) (s : StorageServer) : ι → StorageServer :=
  fun j => if j = i then s else f.servers j

/-- Starts a storage server at the name of its machine and registers it. -/
def start (f : Fleet ι) (i : ι) (hostname : String) : Except ServerError Unit × Fleet ι :=
  match (f.servers i).announce hostname f.disk f.network with
  | (.error e, s, network) => (.error e, { f with network, servers := f.setServer i s })
  | (.ok request, s, network) =>
    match f.naming.register request with
    | (.error e, naming) =>
      let (result, s, disk, network) := s.conclude (.error e) f.disk network
      (result, { f with naming, disk, network, servers := f.setServer i s })
    | (.ok clashing, naming) =>
      let (result, s, disk, network) := s.conclude (.ok clashing) f.disk network
      (result, {
        naming, disk, network
        servers := f.setServer i s
        registered := f.registered ++ [(⟨request.storage, request.command⟩, i)] })

/-- Stops a storage server. The naming service is not told. -/
def stop (f : Fleet ι) (i : ι) : Fleet ι :=
  let (s, network) := (f.servers i).stop f.network
  { f with network, servers := f.setServer i s }

/-- What may be done with a fleet. -/
inductive Operation (ι : Type) where
  | start (i : ι) (hostname : String)
  | ask (r : ServiceRequest)
  | access (i : ι) (r : StorageRequest)

/-- Carries out one operation. -/
def perform (f : Fleet ι) : Operation ι → Fleet ι
  | .start i hostname => (f.start i hostname).2
  | .ask r => (f.ask r).2
  | .access i r => (f.access i r).2

/-- Carries out operations in turn. -/
def run (f : Fleet ι) (ops : List (Operation ι)) : Fleet ι := ops.foldl perform f

end Fleet

/-! ## The two halves of a start -/

namespace StorageServer

theorem root_stop (s : StorageServer) (net : Network) : (s.stop net).1.root = s.root := rfl

theorem isRunning_start {s s' : Skeleton} {net net' : Network}
    (h : s.start net = (.ok (), s', net')) : s'.isRunning = true := by
  unfold Skeleton.start at h
  split at h
  · cases h
  · split at h
    · cases h
    · cases h
      rfl

theorem root_startSkeletons (s : StorageServer) (net : Network) :
    (s.startSkeletons net).2.1.root = s.root := by
  unfold startSkeletons
  split <;> rfl

theorem isRunning_startSkeletons {s s' : StorageServer} {net net' : Network}
    (h : s.startSkeletons net = (.ok (), s', net')) : s'.isRunning = true := by
  unfold startSkeletons at h
  split at h
  · cases h
  · rename_i storage net₁ hstorage
    obtain ⟨⟨r, command, net₂⟩, hcommand⟩ : ∃ x, s.command.start net₁ = x := ⟨_, rfl⟩
    simp only [hcommand, Prod.mk.injEq] at h
    obtain ⟨rfl, rfl, rfl⟩ := h
    unfold isRunning
    rw [isRunning_start hstorage, isRunning_start hcommand]
    rfl

/-- A server that runs is not started again. -/
theorem announce_of_isRunning {s : StorageServer} (h : s.isRunning = true) (hostname : String)
    (disk : Disk) (net : Network) :
    s.announce hostname disk net = (.error (.call .alreadyRunning), s, net) := by
  unfold announce
  rw [if_pos h]

theorem root_announce (s : StorageServer) (hostname : String) (disk : Disk) (net : Network) :
    (s.announce hostname disk net).2.1.root = s.root := by
  unfold announce
  split
  · rfl
  · split
    · rfl
    · have hroot := root_startSkeletons { s with flag := s.flag.started } net
      split
      · rename_i hstart
        rw [hstart] at hroot
        exact hroot
      · rename_i hstart
        rw [hstart] at hroot
        split <;> exact hroot

theorem paths_of_registrationAt {s : StorageServer} {hostname : String} {disk : Disk}
    {request : RegistrationRequest} (h : s.registrationAt hostname disk = .ok request) :
    Storage.files s.root disk = .ok request.paths := by
  unfold registrationAt at h
  split at h
  · cases h
  · cases h
  · split at h
    · cases h
    · rename_i hfiles
      cases h
      exact hfiles

/-- A server that says what is to be registered did not run before and runs then, and has listed
its files. -/
theorem announce_eq_ok {s s' : StorageServer} {hostname : String} {disk : Disk}
    {net net' : Network} {request : RegistrationRequest}
    (h : s.announce hostname disk net = (.ok request, s', net')) :
    s.isRunning = false ∧ s'.isRunning = true ∧
      Storage.files s.root disk = .ok request.paths := by
  unfold announce at h
  split at h
  · cases h
  · rename_i hrunning
    split at h
    · cases h
    · have hroot := root_startSkeletons { s with flag := s.flag.started } net
      split at h
      · cases h
      · rename_i s₁ net₁ hstart
        rw [hstart] at hroot
        have hroot : s₁.root = s.root := hroot
        split at h
        · cases h
        · rename_i hregistration
          cases h
          exact ⟨Bool.eq_false_iff.mpr hrunning, isRunning_startSkeletons hstart,
            hroot ▸ paths_of_registrationAt hregistration⟩

end StorageServer

/-! ## What a start comes to -/

namespace Fleet

variable {ι : Type} [DecidableEq ι] {f : Fleet ι} {i : ι} {hostname : String}
  {request : RegistrationRequest} {s : StorageServer} {net : Network}

/-- A server that does not come up leaves everything as it is but the ports. -/
theorem start_of_unready {e : ServerError}
    (ha : (f.servers i).announce hostname f.disk f.network = (.error e, s, net)) :
    (f.start i hostname).2 = { f with network := net, servers := f.setServer i s } := by
  unfold start
  rw [ha]

/-- A server that is refused is stopped again. -/
theorem start_of_refused {naming : Naming} {e : NamingError}
    (ha : (f.servers i).announce hostname f.disk f.network = (.ok request, s, net))
    (hr : f.naming.register request = (.error e, naming)) :
    (f.start i hostname).2 = { f with
      naming, network := (s.stop net).2, servers := f.setServer i (s.stop net).1 } := by
  unfold start
  rw [ha]
  dsimp only
  rw [hr]
  rfl

/-- A server that is taken in removes the files that clash. -/
theorem start_of_registered {naming : Naming} {clashing : List Path}
    (ha : (f.servers i).announce hostname f.disk f.network = (.ok request, s, net))
    (hr : f.naming.register request = (.ok clashing, naming)) :
    (f.start i hostname).2 =
      ⟨naming, StorageServer.removeAll s.root f.disk clashing, net, f.setServer i s,
        f.registered ++ [(⟨request.storage, request.command⟩, i)]⟩ := by
  unfold start
  rw [ha]
  dsimp only
  rw [hr]
  rfl

theorem root_setServer (hroot : s.root = f.root i) :
    (fun j => (f.setServer i s j).root) = f.root := by
  funext j
  unfold setServer
  split
  · rename_i hj
    rw [hroot, hj]
  · rfl

/-- No operation changes the root of a server. -/
theorem root_perform (f : Fleet ι) (op : Operation ι) : (f.perform op).root = f.root := by
  cases op with
  | ask r => rfl
  | access i r => rfl
  | start i hostname =>
    obtain ⟨⟨reply, s, net⟩, ha⟩ :
      ∃ x, (f.servers i).announce hostname f.disk f.network = x := ⟨_, rfl⟩
    have hroot := (f.servers i).root_announce hostname f.disk f.network
    rw [ha] at hroot
    show (f.start i hostname).2.root = f.root
    cases reply with
    | error e =>
      rw [start_of_unready ha]
      exact root_setServer hroot
    | ok request =>
      obtain ⟨⟨answer, naming⟩, hr⟩ : ∃ x, f.naming.register request = x := ⟨_, rfl⟩
      cases answer with
      | error e =>
        rw [start_of_refused ha hr]
        exact root_setServer ((s.root_stop net).trans hroot)
      | ok clashing =>
        rw [start_of_registered ha hr]
        exact root_setServer hroot

end Fleet

end FileCluster
