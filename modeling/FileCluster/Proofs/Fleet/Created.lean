import FileCluster.Proofs.Fleet.Agreement
import FileCluster.Proofs.Storage.Existing

/-!
What becomes of a file that was reported as made.

The naming service puts a file into its tree when the storage server says that it has made it, and
also when the server says that something was there already. In the latter case the server does not
say what: it may be a directory, and then the file of the tree is none that can be used. Main
statement: a file that was reported as made has a size exactly if nothing but a regular file stood
at its path on the storage server (`created_usable_iff`), in any state that a fleet may come to
(`Reached`).
-/

namespace FileCluster.Fleet

open Disk

variable {ι : Type} {f : Fleet ι} {p : Path}

/-! ## States of a fleet -/

/-- A client asks the naming service, and the commands for storage servers are carried out in some
way: they may get lost, fail, or change the disk in any way. -/
def askBy (f : Fleet ι) (command : Naming.Commander (StateM Disk)) (r : ServiceRequest) :
    Except NamingError r.Result × Fleet ι :=
  let ((result, naming), disk) := (Naming.answer command f.naming r).run f.disk
  (result, { f with naming, disk })

/-- The states that a fleet may come to: storage servers start and stop, clients ask the naming
service, whatever becomes of its commands, and the disk changes in any way. -/
inductive Reached [DecidableEq ι] : Fleet ι → Prop
  | fresh {f : Fleet ι} (hnaming : f.naming = .empty) (hregistered : f.registered = []) : Reached f
  | start {f : Fleet ι} (h : Reached f) (i : ι) (hostname : String) : Reached (f.start i hostname).2
  | stop {f : Fleet ι} (h : Reached f) (i : ι) : Reached (f.stop i)
  | ask {f : Fleet ι} (h : Reached f) (command : Naming.Commander (StateM Disk))
      (r : ServiceRequest) : Reached (f.askBy command r).2
  | disk {f : Fleet ι} (h : Reached f) (d : Disk) : Reached { f with disk := d }

/-- Whatever is done with a fleet, it comes to a state that it may come to. -/
theorem Reached.perform [DecidableEq ι] (h : f.Reached) (op : Operation ι) :
    (f.perform op).Reached := by
  cases op with
  | start i hostname => exact h.start i hostname
  | ask r => exact h.ask f.command r
  | access i r => exact h.disk _

theorem Reached.run [DecidableEq ι] (h : f.Reached) (ops : List (Operation ι)) :
    (f.run ops).Reached := by
  induction ops generalizing f with
  | nil => exact h
  | cons op ops ih => exact ih (h.perform op)

/-- A sound naming service that knows the servers that have registered. -/
structure Enrolled (f : Fleet ι) : Prop where
  sound : f.naming.Sound
  servers : f.registered.map Prod.fst = f.naming.registry.servers

theorem Enrolled.start [DecidableEq ι] (h : f.Enrolled) (i : ι) (hostname : String) :
    (f.start i hostname).2.Enrolled := by
  obtain ⟨⟨reply, s, net⟩, ha⟩ :
    ∃ x, (f.servers i).announce hostname f.disk f.network = x := ⟨_, rfl⟩
  cases reply with
  | error e =>
    rw [start_of_unready ha]
    exact ⟨h.sound, h.servers⟩
  | ok request =>
    rcases Naming.register_cases f.naming request with ⟨e, hr⟩ | ⟨registry, -, hservers, hr⟩
    · rw [start_of_refused ha hr]
      exact ⟨h.sound, h.servers⟩
    · have hsound := h.sound.register request
      rw [hr] at hsound
      rw [start_of_registered ha hr]
      refine ⟨hsound, ?_⟩
      show (f.registered ++ [_]).map Prod.fst = registry.servers
      rw [List.map_append, h.servers, hservers]
      rfl

theorem Reached.enrolled [DecidableEq ι] (h : f.Reached) : f.Enrolled := by
  induction h with
  | fresh hnaming hregistered =>
    refine ⟨hnaming ▸ Naming.Sound.empty, ?_⟩
    rw [hnaming, hregistered]
    rfl
  | start _ i hostname ih => exact ih.start i hostname
  | stop _ i ih => exact ⟨ih.sound, ih.servers⟩
  | @ask f _ command r ih =>
    exact ⟨ih.sound.perform command (.request r) f.disk,
      ih.servers.trans (f.naming.servers_answer command r f.disk).symm⟩
  | disk _ d ih => exact ⟨ih.sound, ih.servers⟩

/-- A command reaches the storage server that has registered with its stub. -/
theorem Enrolled.commanded? (h : f.Enrolled) {o : Owner} {i : ι} (hi : (o, i) ∈ f.registered) :
    f.commanded? o.command = some i := by
  have hdistinct := h.sound.distinct
  rw [← h.servers, List.map_map] at hdistinct
  unfold Fleet.commanded?
  rw [find?_key (k := fun e : Owner × ι => e.1.command) hdistinct hi]
  rfl

/-! ## Files that were reported as made -/

theorem ask_createFile_fst :
    (f.ask (.createFile p)).1 =
      match f.naming.placement p with
      | .error answer => answer
      | .ok (o, registry) =>
        (f.naming.placed p o registry (f.command o.command (.create p) f.disk).1).1 := by
  unfold ask
  simp only [Naming.answer, Naming.createFile_eq]
  cases f.naming.placement p <;> rfl

/-- A file is reported as made when a storage server was told to make it and did not fail, whether
it made the file or not; the file is put down to this server then. -/
theorem Enrolled.createFile_eq_true (h : f.Enrolled)
    (hcreated : (f.ask (.createFile p)).1 = .ok true) :
    ∃ o i made, (o, i) ∈ f.registered ∧ p ≠ .root ∧
      Storage.create (f.root i) f.disk p = (.ok made, (f.ask (.createFile p)).2.disk) ∧
      (f.ask (.createFile p)).2.naming.tree.get? p = some (.file o) := by
  rw [ask_createFile_fst] at hcreated
  cases hplace : f.naming.placement p with
  | error answer =>
    rw [hplace] at hcreated
    exact absurd (hplace.trans (congrArg Except.error hcreated)) (f.naming.placement_ne_ok_true p)
  | ok next =>
    obtain ⟨o, registry⟩ := next
    obtain ⟨hroot, -, -, hnext⟩ := Naming.placement_eq_ok_iff.mp hplace
    obtain ⟨hmem, -⟩ := Naming.next_eq_ok hnext
    rw [← h.servers, List.mem_map] at hmem
    obtain ⟨⟨o', i⟩, hi, rfl⟩ := hmem
    have hcommand : f.command o'.command (.create p) f.disk =
        Storage.create (f.root i) f.disk p := by
      unfold command
      rw [h.commanded? hi]
      rfl
    rw [ask_createFile hplace]
    rw [hplace] at hcreated
    dsimp only at hcreated ⊢
    rw [hcommand] at hcreated ⊢
    cases hreply : Storage.create (f.root i) f.disk p with
    | mk reply d =>
      rw [hreply] at hcreated
      cases reply with
      | error e => cases hcreated
      | ok made =>
        refine ⟨o', i, made, hi, Path.isRoot_eq_false_iff.mp hroot, hreply, ?_⟩
        exact (Tree.get?_insert ..).trans (if_pos rfl)

/-- A file that was reported as made belongs to a registered storage server, and its size can be had
there exactly if nothing but a regular file stood at its path when the server had made the
directories above it; and if the server's root was there, exactly if nothing but a regular file stood
at the path before. -/
theorem created_usable_iff [DecidableEq ι] (h : f.Reached)
    (hcreated : (f.ask (.createFile p)).1 = .ok true) :
    ∃ o i, (o, i) ∈ f.registered ∧
      ((f.ask (.createFile p)).2.ask (.getStorage p)).1 = .ok o.storage ∧
      (((f.ask (.createFile p)).2.access i (.size p)).1.isOk = true ↔
        (Storage.prepared (f.root i) f.disk p).isObstructed (p.toLocal (f.root i)) = false) ∧
      (f.disk.isDirectory (f.root i) = true →
        (((f.ask (.createFile p)).2.access i (.size p)).1.isOk = true ↔
          f.disk.isObstructed (p.toLocal (f.root i)) = false)) := by
  obtain ⟨o, i, made, hi, hp, hcreate, hget⟩ := h.enrolled.createFile_eq_true hcreated
  obtain ⟨hmade, hfile⟩ := Storage.isFile_of_create hp hcreate
  have husable : ((f.ask (.createFile p)).2.access i (.size p)).1.isOk = true ↔
      (Storage.prepared (f.root i) f.disk p).isObstructed (p.toLocal (f.root i)) = false := by
    have hsize : ((f.ask (.createFile p)).2.access i (.size p)).1.isOk =
        (f.ask (.createFile p)).2.disk.isFile (p.toLocal (f.root i)) := Storage.isOk_size hp
    rw [hsize, hfile, Bool.not_eq_true']
  refine ⟨o, i, hi, ?_, husable, fun hroot => ?_⟩
  · show (f.ask (.createFile p)).2.naming.getStorage p = .ok o.storage
    unfold Naming.getStorage
    rw [hget]
  · rw [husable, Storage.isObstructed_prepared hroot hp hmade]

/-! ## A directory that nothing tells of -/

/-- A server whose root holds nothing but an empty directory. -/
def emptyDirectory : Fleet Unit where
  naming := .empty
  disk := ⟨[([0x61], .directory [([0x64], .directory [])])]⟩
  network := .empty
  servers _ := ⟨"/a", .new none, .new none, .clear⟩
  registered := []

/-- The server has registered, with no file at all. -/
def withDirectory : Fleet Unit := emptyDirectory.run [.start () "127.0.0.1"]

/-- Where nothing stands a file can be used when it has been made. -/
theorem created_usable_iff_withDirectory :
    withDirectory.Reached ∧ (withDirectory.ask (.createFile fileX)).1 = .ok true ∧
      ((withDirectory.ask (.createFile fileX)).2.access () (.size fileX)).1.isOk = true := by
  have hreached : withDirectory.Reached := (Reached.fresh rfl rfl).run [.start () "127.0.0.1"]
  have hcreated : (withDirectory.ask (.createFile fileX)).1 = .ok true :=
    eq_ok_of_toOption (α := Bool) (by decide +kernel)
  obtain ⟨o, ⟨⟩, -, -, -, husable⟩ := created_usable_iff hreached hcreated
  have hroot : withDirectory.disk.isDirectory (withDirectory.root ()) = true := by decide +kernel
  have hfree : withDirectory.disk.isObstructed (fileX.toLocal (withDirectory.root ())) = false := by
    decide +kernel
  exact ⟨hreached, hcreated, (husable hroot).mpr hfree⟩

/-- What is found in a directory with one entry is found in this entry. -/
theorem get?_single {n m : Name} {e x : Entry} {rest : Place}
    (h : (Entry.directory [(n, e)]).get? (m :: rest) = some x) : e.get? rest = some x := by
  rw [Entry.get?_directory_cons, Sorted.lookup] at h
  split at h
  · exact h
  · cases h

theorem noLinks_emptyDirectory (q : Place) (t : List UInt8) :
    emptyDirectory.disk.get? q ≠ some (.link t) := by
  intro hget
  cases q with
  | nil => cases hget
  | cons n q =>
    have hget := get?_single hget
    cases q with
    | nil => cases hget
    | cons m q => cases q <;> cases get?_single hget

/-- The path of the directory. -/
def directoryD : Path := single "d" ⟨by decide, by decide, by decide, by decide⟩

/-- A file that was reported as made may be of no use: here a directory that the naming service has
never heard of stands at its path. There are no links, and every registered server runs. -/
theorem created_unusable :
    ¬∀ (f : Fleet Unit) (ops : List (Operation Unit)) (p : Path),
      f.naming = .empty → f.registered = [] → (∀ q t, f.disk.get? q ≠ some (.link t)) →
      (∀ e ∈ (f.run ops).registered, ((f.run ops).servers e.2).isRunning = true) →
      ((f.run ops).ask (.createFile p)).1 = .ok true → ∀ o i, (o, i) ∈ (f.run ops).registered →
        (((f.run ops).ask (.createFile p)).2.ask (.getStorage p)).1 = .ok o.storage →
          (((f.run ops).ask (.createFile p)).2.access i (.size p)).1.isOk = true := by
  intro husable
  have hrunning : ∀ e ∈ withDirectory.registered, (withDirectory.servers e.2).isRunning = true := by
    decide +kernel
  have hcreated : (withDirectory.ask (.createFile directoryD)).1 = .ok true :=
    eq_ok_of_toOption (α := Bool) (by decide +kernel)
  have hregistered :
      (⟨⟨"127.0.0.1", 49152⟩, ⟨"127.0.0.1", 49153⟩⟩, ()) ∈ withDirectory.registered := by
    decide +kernel
  have hstorage : ((withDirectory.ask (.createFile directoryD)).2.ask (.getStorage directoryD)).1 =
      .ok ⟨"127.0.0.1", 49152⟩ :=
    eq_ok_of_toOption (α := StorageStub) (by decide +kernel)
  have hsize : ((withDirectory.ask (.createFile directoryD)).2.access ()
      (.size directoryD)).1.isOk = false := by decide +kernel
  have hok := husable emptyDirectory [.start () "127.0.0.1"] directoryD rfl rfl
    noLinks_emptyDirectory hrunning hcreated _ () hregistered hstorage
  cases hsize.symm.trans hok

end FileCluster.Fleet
