import FileCluster.Proofs.Client.Pieces
import FileCluster.Proofs.Fleet.Created

/-!
Data that is put into a file and read back.

A client reaches the naming service and the storage servers over connections that may fail
(`Connection`), and what it calls can be noted down (`Note`). Main statement: when data has been put
into a file, the file holds the data followed by what it held beyond, nothing else has changed, and
reading the file writes out just that (`put_then_cat`).
-/

namespace FileCluster

namespace Client

variable {σ : Type} {p : Path} {data : ByteArray}

/-! ## Steps of a client -/

theorem run_writePieces_cons
    (write : (r : StorageRequest) → StateM σ (Except StorageError r.Result))
    (offset length : Nat) (rest : List (Nat × Nat)) (s : σ) :
    (writePieces write p data ((offset, length) :: rest)).run s =
      match
        (write (.write p (UInt64.ofNat offset) (data.extract offset (offset + length)))).run s
      with
      | (.error e, s) => (.error (.writing p offset e), s)
      | (.ok _, s) => (writePieces write p data rest).run s := by
  rw [writePieces, StateT.run_bind]
  rcases (write (.write p (UInt64.ofNat offset) (data.extract offset (offset + length)))).run s with
    ⟨x, s'⟩
  cases x <;> rfl

theorem run_readPieces_cons (read : (r : StorageRequest) → StateM σ (Except StorageError r.Result))
    (out : ByteArray) (offset length : Nat) (rest : List (Nat × Nat)) (s : σ) :
    (readPieces read p out ((offset, length) :: rest)).run s =
      match (read (.read p (UInt64.ofNat offset) (UInt64.ofNat length))).run s with
      | (.error e, s) => (⟨out, some (.reading p offset e)⟩, s)
      | (.ok data, s) => (readPieces read p (out ++ data) rest).run s := by
  rw [readPieces, StateT.run_bind]
  rcases (read (.read p (UInt64.ofNat offset) (UInt64.ofNat length))).run s with ⟨x, s'⟩
  cases x <;> rfl

variable (service : Service (StateM σ)) (storages : Storages (StateM σ))

/-- Data goes to the server that the naming service names. -/
theorem run_put_named (p : Path) (data : ByteArray) (s : σ) :
    (do
      match ← service (.getStorage p) with
      | .error e => return .error (.naming e)
      | .ok stub => writePieces (storages stub) p data (pieces data.size) :
        StateM σ (Except ClientError Unit)).run s =
      match (service (.getStorage p)).run s with
      | (.error e, s) => (.error (.naming e), s)
      | (.ok stub, s) => (writePieces (storages stub) p data (pieces data.size)).run s := by
  rw [StateT.run_bind]
  rcases (service (.getStorage p)).run s with ⟨x, s'⟩
  cases x <;> rfl

theorem run_put (p : Path) (data : ByteArray) (s : σ) :
    (put service storages p data).run s =
      match (service (.createFile p)).run s with
      | (.error e, s) => (.error (.naming e), s)
      | (.ok _, s) =>
        match (service (.getStorage p)).run s with
        | (.error e, s) => (.error (.naming e), s)
        | (.ok stub, s) => (writePieces (storages stub) p data (pieces data.size)).run s := by
  rw [put, StateT.run_bind]
  rcases (service (.createFile p)).run s with ⟨x, s'⟩
  cases x with
  | error e => rfl
  | ok made =>
    dsimp only
    rw [← run_put_named]
    rfl

/-- The size is asked of the server that the naming service names, and the pieces are read from
it. -/
theorem run_cat_named (stub : StorageStub) (p : Path) (s : σ) :
    (do
      match ← storages stub (.size p) with
      | .error e => return .failed (.storage e)
      | .ok (size : UInt64) => readPieces (storages stub) p .empty (pieces size.toNat) :
        StateM σ Output).run s =
      match (storages stub (.size p)).run s with
      | (.error e, s) => (.failed (.storage e), s)
      | (.ok (size : UInt64), s) =>
        (readPieces (storages stub) p .empty (pieces size.toNat)).run s := by
  rw [StateT.run_bind]
  rcases (storages stub (.size p)).run s with ⟨x, s'⟩
  cases x <;> rfl

theorem run_cat (p : Path) (s : σ) :
    (cat service storages p).run s =
      match (service (.getStorage p)).run s with
      | (.error e, s) => (.failed (.naming e), s)
      | (.ok stub, s) =>
        match (storages stub (.size p)).run s with
        | (.error e, s) => (.failed (.storage e), s)
        | (.ok (size : UInt64), s) =>
          (readPieces (storages stub) p .empty (pieces size.toNat)).run s := by
  rw [cat, StateT.run_bind]
  rcases (service (.getStorage p)).run s with ⟨x, s'⟩
  cases x with
  | error e => rfl
  | ok stub =>
    dsimp only
    rw [← run_cat_named]
    rfl

/-! ## Noting calls down -/

/-- A call that a client makes, and whether it succeeded. -/
inductive Note where
  | ask (r : ServiceRequest) (succeeded : Bool)
  | access (stub : StorageStub) (r : StorageRequest) (succeeded : Bool)

/-- Whether a call succeeded. -/
def Note.succeeded : Note → Bool
  | .ask _ succeeded => succeeded
  | .access _ _ succeeded => succeeded

/-- Makes a call and notes it down. -/
def noted {ε α : Type} (note : Bool → Note) (call : StateM σ (Except ε α)) :
    StateM (σ × List Note) (Except ε α) := fun s =>
  let (x, s') := call.run s.1
  (x, s', s.2 ++ [note x.isOk])

/-- A naming service whose calls are noted down. -/
def Service.noted (service : Service (StateM σ)) : Service (StateM (σ × List Note)) := fun r =>
  Client.noted (.ask r) (service r)

/-- Storage servers whose calls are noted down. -/
def Storages.noted (storages : Storages (StateM σ)) : Storages (StateM (σ × List Note)) :=
  fun stub r => Client.noted (.access stub r) (storages stub r)

theorem run_noted {ε α : Type} (note : Bool → Note) (call : StateM σ (Except ε α)) (s : σ)
    (calls : List Note) :
    (noted note call).run (s, calls) =
      ((call.run s).1, (call.run s).2, calls ++ [note (call.run s).1.isOk]) := rfl

/-- Noting calls down changes nothing else. -/
theorem run_readPieces_noted (stub : StorageStub) (p : Path) (pieces : List (Nat × Nat))
    (out : ByteArray) (s : σ) (calls : List Note) :
    ∃ calls', (readPieces (storages.noted stub) p out pieces).run (s, calls) =
      (((readPieces (storages stub) p out pieces).run s).1,
        ((readPieces (storages stub) p out pieces).run s).2, calls') := by
  induction pieces generalizing out s calls with
  | nil => exact ⟨calls, rfl⟩
  | cons piece rest ih =>
    rw [run_readPieces_cons, run_readPieces_cons]
    unfold Storages.noted
    rw [run_noted]
    rcases (storages stub (.read p (UInt64.ofNat piece.1) (UInt64.ofNat piece.2))).run s with
      ⟨x, s'⟩
    cases x with
    | error e => exact ⟨_, rfl⟩
    | ok data => exact ih (out ++ data) s' _

theorem run_cat_noted (p : Path) (s : σ) (calls : List Note) :
    ∃ calls', (cat service.noted storages.noted p).run (s, calls) =
      (((cat service storages p).run s).1, ((cat service storages p).run s).2, calls') := by
  rw [run_cat, run_cat]
  unfold Service.noted
  rw [run_noted]
  rcases (service (.getStorage p)).run s with ⟨x, s'⟩
  cases x with
  | error e => exact ⟨_, rfl⟩
  | ok stub =>
    dsimp only
    unfold Storages.noted
    rw [run_noted]
    rcases (storages stub (.size p)).run s' with ⟨x, s''⟩
    cases x with
    | error e => exact ⟨_, rfl⟩
    | ok size => exact run_readPieces_noted storages stub p _ .empty s'' _

end Client

/-! ## Connections to a fleet -/

/-- How a client reaches the naming service and the storage servers of a fleet. A call that succeeds
has been answered by the one that it was meant for; one that fails may have done anything. -/
structure Connection (ι : Type) where
  service : Client.Service (StateM (Fleet ι))
  storages : Client.Storages (StateM (Fleet ι))
  /-- the storage server that a stub leads to -/
  reach : StorageStub → Option ι
  service_ok : ∀ {r f x f'}, (service r).run f = (.ok x, f') → f.ask r = (.ok x, f')
  storages_ok : ∀ {stub r f x f'}, (storages stub r).run f = (.ok x, f') →
    ∃ i, reach stub = some i ∧ f.access i r = (.ok x, f')

/-- A write that is answered is carried out below the root of the server. -/
theorem Fleet.write_of_access {ι : Type} {f g : Fleet ι} {i : ι} {p : Path} {offset : UInt64}
    {data : ByteArray} {x : Unit} (h : f.access i (.write p offset data) = (.ok x, g)) :
    ∃ d, g = { f with disk := d } ∧
      Storage.write (f.root i) f.disk p offset data = (.ok (), d) := by
  have h : ((Storage.write (f.root i) f.disk p offset data).1,
      { f with disk := (Storage.write (f.root i) f.disk p offset data).2 }) = (.ok x, g) := h
  obtain ⟨hresult, rfl⟩ := Prod.mk.inj h
  exact ⟨_, rfl, Prod.ext hresult rfl⟩

namespace Connection

open Client

variable {ι : Type} {f f' : Fleet ι} {p : Path} {data c : ByteArray} {stub : StorageStub} {i : ι}

/-- A call that succeeds is answered by the server that its stub leads to. -/
theorem access_of_storages (C : Connection ι) (hreach : C.reach stub = some i)
    {r : StorageRequest} {x : r.Result} (h : (C.storages stub r).run f = (.ok x, f')) :
    f.access i r = (.ok x, f') := by
  obtain ⟨j, hj, haccess⟩ := C.storages_ok h
  obtain rfl := Option.some.inj (hreach.symm.trans hj)
  exact haccess

/-! ## Putting data -/

/-- What is written through a connection is written below the root of the server it leads to. -/
theorem writes_of_writePieces (C : Connection ι) (hreach : C.reach stub = some i)
    {pieces : List (Nat × Nat)}
    (h : (writePieces (C.storages stub) p data pieces).run f = (.ok (), f')) :
    ∃ d, f' = { f with disk := d } ∧
      Storage.Writes (f.root i) p f.disk (writesOf data pieces) d := by
  induction pieces generalizing f with
  | nil =>
    cases h
    exact ⟨_, rfl, .none _⟩
  | cons piece rest ih =>
    rw [run_writePieces_cons] at h
    rcases hcall : (C.storages stub (.write p (UInt64.ofNat piece.1)
      (data.extract piece.1 (piece.1 + piece.2)))).run f with ⟨x, g⟩
    rw [hcall] at h
    cases x with
    | error e => cases h
    | ok u =>
      obtain ⟨d, rfl, hfirst⟩ := Fleet.write_of_access (C.access_of_storages hreach hcall)
      obtain ⟨d, rfl, hlater⟩ := ih h
      exact ⟨d, rfl, .write hfirst hlater⟩

/-- Data that has been put has been written, in pieces, to the server that the naming service named
when the file had been made. -/
theorem writes_of_put (C : Connection ι)
    (hput : (put C.service C.storages p data).run f = (.ok (), f'))
    (hstub : (f.ask (.createFile p)).2.naming.getStorage p = .ok stub)
    (hreach : C.reach stub = some i) :
    ∃ d, f' = { (f.ask (.createFile p)).2 with disk := d } ∧
      Storage.Writes (f.root i) p (f.ask (.createFile p)).2.disk
        (writesOf data (pieces data.size)) d := by
  rw [run_put] at hput
  rcases hmade : (C.service (.createFile p)).run f with ⟨x, g⟩
  rw [hmade] at hput
  cases x with
  | error e => cases hput
  | ok made =>
    dsimp only at hput
    rw [C.service_ok hmade] at hstub ⊢
    rcases hnamed : (C.service (.getStorage p)).run g with ⟨x, g'⟩
    rw [hnamed] at hput
    cases x with
    | error e => cases hput
    | ok stub' =>
      have hask : (g.naming.getStorage p, g) = (.ok stub', g') := C.service_ok hnamed
      obtain ⟨hsame, rfl⟩ := Prod.mk.inj hask
      obtain rfl : stub' = stub := Except.ok.inj (hsame.symm.trans hstub)
      have hg : (f.ask (.createFile p)).2 = g := congrArg Prod.snd (C.service_ok hmade)
      have hroot : f.root i = g.root i := by
        rw [← hg]
        rfl
      rw [hroot]
      exact writes_of_writePieces C hreach hput

/-! ## Reading data -/

/-- A connection that does not fail. -/
structure Direct (C : Connection ι) : Prop where
  service : ∀ r f, (C.service r).run f = f.ask r
  storages : ∀ stub i, C.reach stub = some i → ∀ r f, (C.storages stub r).run f = f.access i r

/-- What comes of reading pieces that are there: which calls are made, and what is written out if
none of them fails. -/
structure ReadOut (C : Connection ι) (f : Fleet ι) (stub : StorageStub) (p : Path) (c : ByteArray)
    (pieces : List (Nat × Nat)) (out : ByteArray) (calls made : List Note) : Prop where
  noted : ((readPieces (C.storages.noted stub) p out pieces).run (f, calls)).2.2 = calls ++ made
  length : made.length ≤ pieces.length
  reads : ∀ call ∈ made, ∃ piece ∈ pieces, ∃ succeeded, call =
    .access stub (.read p (UInt64.ofNat piece.1) (UInt64.ofNat piece.2)) succeeded
  direct : C.Direct → ∀ call ∈ made, call.succeeded = true
  exact : (∀ call ∈ made, call.succeeded = true) →
    (readPieces (C.storages stub) p out pieces).run f = (⟨join c out pieces, none⟩, f)

theorem readOut (C : Connection ι) (hreach : C.reach stub = some i)
    (hc : Storage.content (f.root i) f.disk p = .ok c) (hsmall : c.size < 0x10000000000000000)
    {pieces : List (Nat × Nat)} (hpieces : ∀ piece ∈ pieces, piece.1 + piece.2 ≤ c.size)
    (out : ByteArray) (calls : List Note) :
    ∃ made, C.ReadOut f stub p c pieces out calls made := by
  induction pieces generalizing out calls with
  | nil =>
    exact ⟨[], (List.append_nil calls).symm, Nat.le_refl 0, nofun, fun _ => nofun, fun _ => rfl⟩
  | cons piece rest ih =>
    rw [List.forall_mem_cons] at hpieces
    have hread : f.access i (.read p (UInt64.ofNat piece.1) (UInt64.ofNat piece.2)) =
        (.ok (c.extract piece.1 (piece.1 + piece.2)), f) :=
      Prod.ext (read_piece hc hsmall hpieces.1) rfl
    rcases hcall : (C.storages stub
      (.read p (UInt64.ofNat piece.1) (UInt64.ofNat piece.2))).run f with ⟨x, g⟩
    cases x with
    | error e =>
      refine ⟨[.access stub (.read p (UInt64.ofNat piece.1) (UInt64.ofNat piece.2)) false],
        ?_, Nat.succ_le_succ (Nat.zero_le _), ?_, ?_, ?_⟩
      · rw [run_readPieces_cons]
        unfold Storages.noted
        rw [run_noted, hcall]
        rfl
      · intro call hmem
        exact ⟨piece, List.mem_cons_self, false, List.mem_singleton.mp hmem⟩
      · intro hdirect
        rw [hdirect.storages stub i hreach, hread] at hcall
        cases hcall
      · intro hall
        cases hall _ (List.mem_singleton_self _)
    | ok data =>
      cases hread.symm.trans (C.access_of_storages hreach hcall)
      obtain ⟨made, hmade⟩ := ih hpieces.2 (out ++ c.extract piece.1 (piece.1 + piece.2))
        (calls ++ [.access stub (.read p (UInt64.ofNat piece.1) (UInt64.ofNat piece.2)) true])
      refine ⟨.access stub (.read p (UInt64.ofNat piece.1) (UInt64.ofNat piece.2)) true :: made,
        ?_, Nat.succ_le_succ hmade.length, ?_, ?_, ?_⟩
      · rw [run_readPieces_cons, List.append_cons, ← hmade.noted]
        unfold Storages.noted
        rw [run_noted, hcall]
        rfl
      · rw [List.forall_mem_cons]
        refine ⟨⟨piece, List.mem_cons_self, true, rfl⟩, fun call hmem => ?_⟩
        obtain ⟨piece', hpiece, hcall⟩ := hmade.reads call hmem
        exact ⟨piece', List.mem_cons_of_mem _ hpiece, hcall⟩
      · intro hdirect
        rw [List.forall_mem_cons]
        exact ⟨rfl, hmade.direct hdirect⟩
      · intro hall
        rw [run_readPieces_cons, hcall]
        exact hmade.exact (List.forall_mem_cons.mp hall).2

/-- The calls that reading a file makes. -/
def calls (C : Connection ι) (f : Fleet ι) (p : Path) : List Note :=
  ((cat C.service.noted C.storages.noted p).run (f, [])).2.2

/-- What comes of reading a file that holds some bytes. -/
structure Downloads (C : Connection ι) (f : Fleet ι) (p : Path) (c : ByteArray) : Prop where
  /-- noting the calls down changes nothing -/
  noted : (cat C.service.noted C.storages.noted p).run (f, []) =
    (((cat C.service C.storages p).run f).1, ((cat C.service C.storages p).run f).2, C.calls f p)
  /-- every read lies within the file -/
  within : ∀ stub p' offset length succeeded,
    Note.access stub (.read p' offset length) succeeded ∈ C.calls f p →
      p' = p ∧ offset.toNat + length.toNat ≤ c.size
  /-- there are no more calls than one for the server, one for the size and one for each piece -/
  ends : (C.calls f p).length ≤ 2 + (c.size + (pieceSize - 1)) / pieceSize
  /-- if no call fails the bytes are written out, and nothing is changed -/
  exact : (∀ call ∈ C.calls f p, call.succeeded = true) →
    (cat C.service C.storages p).run f = (⟨c, none⟩, f)
  /-- over a connection that does not fail no call fails -/
  direct : C.Direct → ∀ call ∈ C.calls f p, call.succeeded = true

theorem cat_noted (C : Connection ι) (f : Fleet ι) (p : Path) :
    (cat C.service.noted C.storages.noted p).run (f, []) =
      (((cat C.service C.storages p).run f).1, ((cat C.service C.storages p).run f).2,
        C.calls f p) := by
  obtain ⟨calls', h⟩ := run_cat_noted C.service C.storages p f []
  unfold calls
  rw [h]

/-- A call fails before anything is read. -/
theorem downloads_of_failed (C : Connection ι) {calls : List Note} (hcalls : C.calls f p = calls)
    (hlength : calls.length ≤ 2) (hreads : ∀ call ∈ calls, ∀ stub p' offset length succeeded,
      call ≠ .access stub (.read p' offset length) succeeded)
    (hfails : ∃ call ∈ calls, call.succeeded = false) (hdirect : ¬C.Direct) (c : ByteArray) :
    C.Downloads f p c := by
  obtain ⟨failed, hmem, hfailed⟩ := hfails
  subst hcalls
  exact
    { noted := C.cat_noted f p
      within := fun stub p' offset length succeeded h =>
        absurd rfl (hreads _ h stub p' offset length succeeded)
      ends := Nat.le_trans hlength (Nat.le_add_right 2 _)
      exact := fun hall => absurd (hall failed hmem) (Bool.eq_false_iff.mp hfailed)
      direct := fun h => absurd h hdirect }

/-- The server and the size have been told, and the pieces are read. -/
theorem downloads_of_sized (C : Connection ι) (hreach : C.reach stub = some i)
    (hc : Storage.content (f.root i) f.disk p = .ok c) (hsmall : c.size < 0x10000000000000000)
    (hnamed : (C.service (.getStorage p)).run f = (.ok stub, f)) {n : UInt64}
    (hsized : (C.storages stub (.size p)).run f = (.ok n, f)) (hn : n.toNat = c.size) :
    C.Downloads f p c := by
  have hpieces : ∀ piece ∈ pieces c.size, piece.1 + piece.2 ≤ c.size :=
    fun piece hmem => (mem_piecesFrom hmem).2.2.2
  obtain ⟨made, hmade⟩ := C.readOut hreach hc hsmall hpieces .empty
    [.ask (.getStorage p) true, .access stub (.size p) true]
  have hcalls : C.calls f p = .ask (.getStorage p) true :: .access stub (.size p) true :: made := by
    refine Eq.trans ?_ hmade.noted
    unfold calls
    rw [run_cat]
    unfold Service.noted
    rw [run_noted, hnamed]
    dsimp only
    rw [Storages.noted, run_noted, hsized, ← hn]
    rfl
  refine ⟨C.cat_noted f p, ?_, ?_, ?_, ?_⟩
  · intro stub' p' offset length succeeded hmem
    rw [hcalls, List.mem_cons, List.mem_cons] at hmem
    rcases hmem with h | h | h
    · cases h
    · cases h
    · obtain ⟨piece, hpiece, _, hcall⟩ := hmade.reads _ h
      cases hcall
      have hend := hpieces piece hpiece
      rw [UInt64.toNat_ofNat', UInt64.toNat_ofNat']
      exact ⟨rfl, Nat.le_trans (Nat.add_le_add (Nat.mod_le _ _) (Nat.mod_le _ _)) hend⟩
  · have hlength := hmade.length
    rw [pieces, length_piecesFrom, Nat.sub_zero] at hlength
    rw [hcalls, List.length_cons, List.length_cons]
    omega
  · intro hall
    rw [hcalls] at hall
    have hread := hmade.exact (List.forall_mem_cons.mp (List.forall_mem_cons.mp hall).2).2
    rw [join_pieces] at hread
    rw [run_cat, hnamed]
    dsimp only
    rw [hsized]
    dsimp only
    rw [hn]
    exact hread
  · intro hdirect
    rw [hcalls, List.forall_mem_cons, List.forall_mem_cons]
    exact ⟨rfl, rfl, hmade.direct hdirect⟩

/-- A file that is there can be read. -/
theorem downloads (C : Connection ι) (hstub : f.naming.getStorage p = .ok stub)
    (hreach : C.reach stub = some i) (hc : Storage.content (f.root i) f.disk p = .ok c)
    (hsmall : c.size < 0x10000000000000000) : C.Downloads f p c := by
  have hask : f.ask (.getStorage p) = (.ok stub, f) := Prod.ext hstub rfl
  obtain ⟨n, hsize, hn⟩ := Storage.size_of_content hc hsmall
  have haccess : f.access i (.size p) = (.ok n, f) := Prod.ext hsize rfl
  rcases hnamed : (C.service (.getStorage p)).run f with ⟨e | stub', g⟩
  · have hcalls : C.calls f p = [.ask (.getStorage p) false] := by
      unfold calls
      rw [run_cat]
      unfold Service.noted
      rw [run_noted, hnamed]
      rfl
    refine C.downloads_of_failed hcalls (Nat.le_succ 1) (List.forall_mem_singleton.mpr nofun)
      ⟨_, List.mem_singleton_self _, rfl⟩ ?_ c
    intro hdirect
    rw [hdirect.service, hask] at hnamed
    cases hnamed
  cases hask.symm.trans (C.service_ok hnamed)
  rcases hsized : (C.storages stub (.size p)).run f with ⟨e | n', g⟩
  · have hcalls : C.calls f p = [.ask (.getStorage p) true, .access stub (.size p) false] := by
      unfold calls
      rw [run_cat]
      unfold Service.noted Storages.noted
      rw [run_noted, hnamed]
      dsimp only
      rw [run_noted, hsized]
      rfl
    refine C.downloads_of_failed hcalls (Nat.le_refl 2)
      (List.forall_mem_cons.mpr ⟨nofun, List.forall_mem_singleton.mpr nofun⟩)
      ⟨_, List.mem_cons_of_mem _ (List.mem_singleton_self _), rfl⟩ ?_ c
    intro hdirect
    rw [hdirect.storages stub i hreach, haccess] at hsized
    cases hsized
  cases haccess.symm.trans (C.access_of_storages hreach hsized)
  exact C.downloads_of_sized hreach hc hsmall hnamed hsized hn

end Connection

/-! ## Making a file takes nothing away -/

namespace Storage

open Disk

variable {d d' : Disk} {root : String} {p : Path} {c : ByteArray}

theorem partOf_create (root : String) (d : Disk) (p : Path) : d.PartOf (create root d p).2 := by
  unfold create
  split
  · exact .refl d
  · have hdirectories := PartOf.createDirectories (directoriesAbove root p) d
    split
    · rename_i h
      rw [h] at hdirectories
      exact hdirectories
    · rename_i h
      rw [h] at hdirectories
      split
      · rename_i hmade
        exact hdirectories.trans (.putNew hmade fun _ _ => rfl)
      · exact hdirectories
      · exact hdirectories

/-- A file keeps its content as long as nothing is taken away. -/
theorem content_of_partOf (h : d.PartOf d') (hc : content root d p = .ok c) :
    content root d' p = .ok c := by
  obtain ⟨hp, q, hr⟩ := content_eq_ok_iff.mp hc
  obtain ⟨e, hr', hbare⟩ := h.resolve hr
  cases e with
  | file c' =>
    cases hbare
    exact content_eq_ok_iff.mpr ⟨hp, q, hr'⟩
  | _ => cases hbare

end Storage

namespace Fleet

theorem partOf_ask_createFile {ι : Type} (f : Fleet ι) (p : Path) :
    f.disk.PartOf (f.ask (.createFile p)).2.disk := by
  cases hplace : f.naming.placement p with
  | error a =>
    rw [ask_createFile_of_error hplace]
    exact .refl f.disk
  | ok next =>
    obtain ⟨o, registry⟩ := next
    rw [ask_createFile hplace]
    show f.disk.PartOf (f.command o.command (.create p) f.disk).2
    unfold command
    split
    · exact Storage.partOf_create _ f.disk p
    · exact .refl f.disk

end Fleet

namespace Connection

open Client

variable {ι : Type} {f f' : Fleet ι} {p : Path} {data old : ByteArray} {stub : StorageStub} {i : ι}

/-! ## Putting and reading back -/

/-- What has become of a fleet when a file holds what was put into it: `f` is the fleet before,
`made` when the file had been made, and `f'` afterwards. -/
structure Uploaded (f made f' : Fleet ι) (i : ι) (p : Path) (c : ByteArray) : Prop where
  /-- the file holds the bytes -/
  content : Storage.content (f.root i) f'.disk p = .ok c
  /-- below a root without links the writing has changed nothing else -/
  becomes : ∀ R, made.disk.Leads (f.root i) R → made.disk.NoLinks R →
    Storage.Becomes (f.root i) R p made.disk f'.disk c
  /-- and what stood at other places at first stands there still -/
  elsewhere : ∀ R, made.disk.Leads (f.root i) R → made.disk.NoLinks R →
    ∀ q e, q ≠ R ++ p.names → f.disk.look q = some e → f'.disk.look q = some e
  /-- so that every other file has the content that it had at first -/
  others : ∀ R, made.disk.Leads (f.root i) R → made.disk.NoLinks R →
    ∀ p' c', p' ≠ p → Storage.content (f.root i) f.disk p' = .ok c' →
      Storage.content (f.root i) f'.disk p' = .ok c'

/-- Data that has been put into a file stands there before what the file held beyond it; nothing
else has changed; and reading the file writes out just what it holds. Lengths are told in words, and
no file is longer than they can tell. -/
theorem put_then_cat (C : Connection ι)
    (hput : (put C.service C.storages p data).run f = (.ok (), f'))
    (hstub : (f.ask (.createFile p)).2.naming.getStorage p = .ok stub)
    (hreach : C.reach stub = some i)
    (hold : Storage.content (f.root i) (f.ask (.createFile p)).2.disk p = .ok old) :
    Uploaded f (f.ask (.createFile p)).2 f' i p (data ++ old.extract data.size old.size) ∧
      (old.size < 0x10000000000000000 →
        C.Downloads f' p (data ++ old.extract data.size old.size)) := by
  obtain ⟨d, rfl, hwrites⟩ := C.writes_of_put hput hstub hreach
  obtain ⟨hp, q, hr⟩ := Storage.content_eq_ok_iff.mp hold
  have hoverlaid := Storage.overlaid_of_writes hp hr hwrites
  have hshort : data.size ≤ 0x8000000000000000 := size_le_of_near hoverlaid.near
  have hwords : data.size ≤ 0x10000000000000000 := by omega
  have hbytes := overlays_pieces hwords old
  have hcontent : Storage.content (f.root i) d p =
      .ok (data ++ old.extract data.size old.size) := by
    rw [← hbytes]
    exact Storage.content_eq_ok_iff.mpr ⟨hp, q, hoverlaid.resolve⟩
  have hbecomes : ∀ R, (f.ask (.createFile p)).2.disk.Leads (f.root i) R →
      (f.ask (.createFile p)).2.disk.NoLinks R → Storage.Becomes (f.root i) R p
        (f.ask (.createFile p)).2.disk d (data ++ old.extract data.size old.size) := by
    intro R hleads hlinks
    rw [← hbytes]
    exact Storage.becomes_of_overlaid hleads hlinks hp hr hoverlaid
  have hpart := f.partOf_ask_createFile p
  refine ⟨⟨hcontent, hbecomes, ?_, ?_⟩, fun hsmall => ?_⟩
  · intro R hleads hlinks q e hq he
    exact ((hbecomes R hleads hlinks).elsewhere q hq).trans (hpart q e he)
  · intro R hleads hlinks p' c' hne hc'
    exact ((hbecomes R hleads hlinks).others p' hne).trans (Storage.content_of_partOf hpart hc')
  · refine C.downloads hstub hreach hcontent ?_
    rw [ByteArray.size_append, ByteArray.size_extract]
    omega

/-- A connection to a fleet of one server that does not fail. -/
def toOne : Connection Unit where
  service := fun r f => f.ask r
  storages := fun _ r f => f.access () r
  reach _ := some ()
  service_ok h := h
  storages_ok h := ⟨(), rfl, h⟩

theorem direct_toOne : toOne.Direct :=
  ⟨fun _ _ => rfl, fun _ _ _ _ _ => rfl⟩

/-- A server that has one file, which the naming service knows. -/
def threeBytes : Fleet Unit where
  naming :=
    ⟨.insert .empty Storage.pathX (.file ⟨⟨"127.0.0.1", 1⟩, ⟨"127.0.0.1", 2⟩⟩), .empty⟩
  disk := Storage.oneFile ⟨#[1, 2, 3]⟩
  network := .empty
  servers _ := ⟨"/a", .new none, .new none, .clear⟩
  registered := []

/-- The same server when the first byte has been overwritten. -/
def firstReplaced : Fleet Unit := { threeBytes with disk := Storage.oneFile ⟨#[9, 2, 3]⟩ }

theorem pieces_one : pieces 1 = [(0, 1)] := by
  unfold pieces
  rw [piecesFrom_of_lt (by decide), piecesFrom_of_le (by decide)]
  rfl

/-- One byte is put over the first of three, and all three are read back. -/
theorem put_then_cat_threeBytes :
    (put toOne.service toOne.storages Storage.pathX ⟨#[9]⟩).run threeBytes =
        (.ok (), firstReplaced) ∧
      Storage.content "/a" firstReplaced.disk Storage.pathX = .ok ⟨#[9, 2, 3]⟩ ∧
      (cat toOne.service toOne.storages Storage.pathX).run firstReplaced =
        (⟨⟨#[9, 2, 3]⟩, none⟩, firstReplaced) := by
  have hput : (put toOne.service toOne.storages Storage.pathX ⟨#[9]⟩).run threeBytes =
      (.ok (), firstReplaced) := by
    have hpieces : pieces (ByteArray.mk #[9]).size = [(0, 1)] := pieces_one
    rw [run_put, hpieces]
    rfl
  have hold : Storage.content "/a" threeBytes.disk Storage.pathX = .ok ⟨#[1, 2, 3]⟩ := rfl
  have hstub : threeBytes.naming.getStorage Storage.pathX = .ok ⟨"127.0.0.1", 1⟩ := rfl
  obtain ⟨huploaded, hdownloads⟩ := put_then_cat toOne (i := ()) hput hstub rfl hold
  have hdownloads := hdownloads (by decide)
  exact ⟨hput, huploaded.content, hdownloads.exact (hdownloads.direct direct_toOne)⟩

end Connection

end FileCluster
