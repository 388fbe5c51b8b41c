import FileCluster.Proofs.Client.Transfer
import FileCluster.Proofs.Json.Size
import FileCluster.Proofs.Remote.Transparent

/-!
What a client sends and is answered fits a frame.

A piece travels as an array of numbers of up to three digits, so it takes at most four times its
bytes, and a path takes at most six times its bytes (`StorageRequest.Small.arguments`). Both stay
far below what a frame holds, and so does every answer of a storage service
(`StorageRequest.Small.answer_fits`). Main statement: whatever the size of a file, no frame of
putting or reading it is refused (`transfers_fit`).
-/

namespace FileCluster

open Json Wire

/-! ## Calls -/

/-- A method of a short name and a few parameters of short names. -/
def Method.IsTerse (m : Method) : Prop :=
  m.name.utf8ByteSize ≤ 16 ∧ m.params.length ≤ 3 ∧ ∀ s ∈ m.params, s.utf8ByteSize ≤ 8

instance (m : Method) : Decidable m.IsTerse := inferInstanceAs (Decidable (_ ∧ _ ∧ _))

/-- A call of a terse method takes what its arguments take and little more. -/
theorem Method.IsTerse.length_written_le {m : Method} (h : m.IsTerse) (args : List Json) :
    (written (Call.encode ⟨m.name, m.params, args⟩)).length ≤
      (written (.array args)).length + 300 := by
  obtain ⟨hname, hcount, hparams⟩ := h
  have hkeys : (writtenString "method").length = 8 ∧ (writtenString "signature").length = 11 ∧
      (writtenString "args").length = 6 := by decide
  have hmethod := length_writtenString_le m.name
  have hparam : ∀ v ∈ m.params.map Json.string, (written v).length ≤ 50 := by
    intro v hv
    obtain ⟨s, hs, rfl⟩ := List.mem_map.mp hv
    have hlength := length_writtenString_le s
    have hshort := hparams s hs
    rw [written_string]
    omega
  have hsignature := length_written_array_le hparam
  rw [List.length_map] at hsignature
  unfold Call.encode
  rw [written_object, writtenMembers_cons, writtenMembers_cons, writtenMembers_nil, written_string]
  simp only [List.length_cons, List.length_append, List.length_nil]
  omega

/-- A call of a terse method with at most three arguments, none of them huge, fits a frame. -/
theorem Interface.Faithful.call_fits {I : Interface} (hI : I.Faithful)
    (hterse : ∀ m ∈ I.methods, m.IsTerse) {r : I.Request} (hcount : (I.arguments r).length ≤ 3)
    (hsmall : ∀ v ∈ I.arguments r, (written v).length ≤ 5000000) :
    (I.call r).encode.text.utf8ByteSize ≤ maxPayload := by
  have hmethod := hterse _ (List.mem_of_find?_eq_some (hI.lookup r))
  have hcall := hmethod.length_written_le (I.arguments r)
  have hargs := length_written_array_le hsmall
  unfold call
  rw [utf8ByteSize_text, maxPayload]
  omega

/-! ## Responses -/

theorem Response.fits {r : Response} (h : (written r.payload).length ≤ 67000000) :
    r.encode.text.utf8ByteSize ≤ maxPayload := by
  have hkeys : (writtenString "ok").length = 4 ∧ (writtenString "payload").length = 9 := by decide
  have hok : (written (.bool r.ok)).length ≤ 5 := by
    cases r.ok <;> decide
  unfold Response.encode
  rw [utf8ByteSize_text, written_object, writtenMembers_cons, writtenMembers_nil, maxPayload]
  simp only [List.length_cons, List.length_append, List.length_nil]
  omega

/-- A text that has room in an answer: its JSON string takes sixty million bytes at most. -/
def Brief (s : String) : Prop := s.utf8ByteSize ≤ 10000000

theorem Brief.length_le {s : String} (h : Brief s) : (written (.string s)).length ≤ 60000002 := by
  have hlength := length_writtenString_le s
  unfold Brief at h
  rw [written_string]
  omega

theorem Response.fits_of_refusal {reason : String} (h : reason.utf8ByteSize ≤ 11000000) :
    (Response.refusal reason).encode.text.utf8ByteSize ≤ maxPayload := by
  have hkey : (writtenString "dispatch").length = 10 := by decide
  have hreason := length_writtenString_le reason
  refine fits ?_
  show (written (.object [("dispatch", .string reason)])).length ≤ _
  rw [length_written_single, written_string]
  omega

namespace Interface

variable {I : Interface} {r : I.Request}

theorem fits_of_returned {x : I.Result r} {v : Json} (h : (I.resultWire r).encode x = .ok v)
    (hv : (written v.canonical).length ≤ 67000000) :
    (I.report r (.returned x)).encode.text.utf8ByteSize ≤ maxPayload := by
  have hreport : I.report r (.returned x) = .ofValue v.canonical := by
    unfold report dispatched
    dsimp only
    rw [h]
    rfl
  rw [hreport]
  exact Response.fits hv

theorem fits_of_raised {e : I.Error} {v : Json} (h : I.errorWire.encode e = .ok v)
    (hv : (written v.canonical).length ≤ 66000000) :
    (I.report r (.raised e)).encode.text.utf8ByteSize ≤ maxPayload := by
  have hreport : I.report r (.raised e) = .ofFault (.application v.canonical) := by
    unfold report dispatched
    dsimp only
    rw [h]
    rfl
  have hkey : (writtenString "application").length = 13 := by decide
  rw [hreport]
  refine Response.fits ?_
  show (written (.object [("application", v.canonical)])).length ≤ _
  rw [length_written_single]
  omega

/-- An error of one case with a brief text. -/
theorem fits_of_case {e : I.Error} {k s : String}
    (h : I.errorWire.encode e = .ok (.object [(k, .string s)])) (hk : k.utf8ByteSize ≤ 100)
    (hs : Brief s) : (I.report r (.raised e)).encode.text.utf8ByteSize ≤ maxPayload := by
  have hkey := length_writtenString_le k
  have htext := hs.length_le
  refine fits_of_raised h ?_
  rw [canonical_single, canonical_string, length_written_single]
  omega

/-- The refusal to let an error leave the process, if the error has a brief wording. -/
theorem fits_of_refused {e : I.Error} {f : EncodeError} (h : I.errorWire.encode e = .error f)
    (he : Brief (I.message e)) (hf : f.message.utf8ByteSize ≤ 100) :
    (I.report r (.raised e)).encode.text.utf8ByteSize ≤ maxPayload := by
  have hreport : I.report r (.raised e) =
      .refusal (CallError.encode (I.message e ++ " (" ++ f.message ++ ")")).message := by
    unfold report dispatched
    dsimp only
    rw [h]
    rfl
  have hparts : "failed to encode message: ".utf8ByteSize = 26 ∧ " (".utf8ByteSize = 2 ∧
      ")".utf8ByteSize = 1 := by decide
  unfold Brief at he
  rw [hreport]
  refine Response.fits_of_refusal ?_
  unfold CallError.message
  simp only [String.utf8ByteSize_append]
  omega

end Interface

/-- The written form of some bytes takes four times as much at most. -/
theorem length_written_bytes_le (data : ByteArray) :
    (written (.array (data.data.toList.map fun b => .ofUInt64 b.toUInt64))).length ≤
      data.size * 4 + 2 := by
  have hbyte : ∀ v ∈ data.data.toList.map fun b => ofUInt64 b.toUInt64, (written v).length ≤ 3 := by
    intro v hv
    obtain ⟨b, -, rfl⟩ := List.mem_map.mp hv
    exact length_written_byte_le b
  have hlength := length_written_array_le hbyte
  rw [List.length_map, Array.length_toList] at hlength
  exact hlength

/-! ## Storage services -/

namespace StorageRequest

/-- A request about a path that is no longer than a local path may be, which moves no more than one
piece of data. -/
def Small : StorageRequest → Prop
  | .size p => p.text.utf8ByteSize ≤ 4096
  | .read p _ length => p.text.utf8ByteSize ≤ 4096 ∧ length.toNat ≤ Client.pieceSize
  | .write p _ data => p.text.utf8ByteSize ≤ 4096 ∧ data.size ≤ Client.pieceSize

theorem length_written_path_le {p : Path} (h : p.text.utf8ByteSize ≤ 4096) :
    (written (.string p.text)).length ≤ 5000000 := by
  have hlength := length_writtenString_le p.text
  rw [written_string]
  omega

theorem length_written_offset_le (n : UInt64) : (written (ofUInt64 n)).length ≤ 5000000 :=
  Nat.le_trans (length_written_word_le n) (by decide)

theorem Small.arguments {r : StorageRequest} (h : r.Small) :
    r.arguments.length ≤ 3 ∧ ∀ v ∈ r.arguments, (written v).length ≤ 5000000 := by
  cases r with
  | size p =>
    exact ⟨Nat.succ_le_succ (Nat.zero_le 2),
      List.forall_mem_singleton.mpr (length_written_path_le h)⟩
  | read p offset length =>
    refine ⟨Nat.le_refl 3, List.forall_mem_cons.mpr ⟨length_written_path_le h.1,
      List.forall_mem_cons.mpr ⟨length_written_offset_le offset,
        List.forall_mem_singleton.mpr (length_written_offset_le length)⟩⟩⟩
  | write p offset data =>
    have hdata := length_written_bytes_le data
    have hsize : data.size ≤ 1024 * 1024 := h.2
    refine ⟨Nat.le_refl 3, List.forall_mem_cons.mpr ⟨length_written_path_le h.1,
      List.forall_mem_cons.mpr ⟨length_written_offset_le offset,
        List.forall_mem_singleton.mpr (by omega)⟩⟩⟩

/-- The call of a small request fits a frame. -/
theorem Small.call_fits {r : StorageRequest} (h : r.Small) :
    (storageInterface.call r).encode.text.utf8ByteSize ≤ maxPayload := by
  obtain ⟨hcount, hsmall⟩ := h.arguments
  exact storageInterface_faithful.call_fits (by decide) hcount hsmall

end StorageRequest

/-- The texts that a storage error holds are brief. -/
def StorageError.IsBrief : StorageError → Prop
  | .notFound p => Brief p.text
  | .outOfBounds p _ _ _ => Brief p.text
  | .io reason => Brief reason
  | .call e => Brief e.message

theorem StorageError.IsBrief.fits {e : StorageError} (h : e.IsBrief) (r : StorageRequest) :
    (storageInterface.report r (.raised e)).encode.text.utf8ByteSize ≤ maxPayload := by
  cases e with
  | notFound p => exact Interface.fits_of_case (k := "NotFound") rfl (by decide) h
  | io reason => exact Interface.fits_of_case (k := "Io") rfl (by decide) h
  | call e => exact Interface.fits_of_refused (f := ⟨"StorageError", "Rmi"⟩) rfl h (by decide)
  | outOfBounds p offset length size =>
    have hkeys : (writtenString "OutOfBounds").length = 13 ∧ (writtenString "length").length = 8 ∧
        (writtenString "offset").length = 8 ∧ (writtenString "path").length = 6 ∧
        (writtenString "size").length = 6 := by decide
    have hpath := Brief.length_le h
    have hoffset := length_written_word_le offset
    have hlength := length_written_word_le length
    have hsize := length_written_word_le size
    refine Interface.fits_of_raised (v := .object [("OutOfBounds", .object
      [("path", .string p.text), ("offset", .ofUInt64 offset), ("length", .ofUInt64 length),
        ("size", .ofUInt64 size)])]) rfl ?_
    rw [canonical_single, canonical_outOfBounds, length_written_single, written_object,
      writtenMembers_cons, writtenMembers_cons, writtenMembers_cons, writtenMembers_nil]
    simp only [List.length_cons, List.length_append, List.length_nil]
    omega

namespace Storage

variable {root : String} {d : Disk} {p : Path}

/-! ### What the operations fail with -/

theorem content_error {e : StorageError} (h : content root d p = .error e) : e = .notFound p := by
  have hnone : content root d p = .error (.notFound p) := content_eq_error fun c hc => by
    rw [hc] at h
    cases h
  exact Except.error.inj (h.symm.trans hnone)

theorem size_error {e : StorageError} (h : size root d p = .error e) : e = .notFound p := by
  unfold size at h
  split at h
  · cases h
  · rename_i hc
    cases h
    exact content_error hc

theorem read_error {offset length : UInt64} {e : StorageError}
    (h : read root d p offset length = .error e) :
    e = .notFound p ∨ ∃ size, e = .outOfBounds p offset length size := by
  unfold read at h
  split at h
  · rename_i hc
    cases h
    exact .inl (content_error hc)
  · dsimp only at h
    split at h
    · exact .inr ⟨_, (Except.error.inj h).symm⟩
    · split at h
      · exact .inr ⟨_, (Except.error.inj h).symm⟩
      · cases h

theorem write_error {offset : UInt64} {data : ByteArray} {e : StorageError}
    (h : (write root d p offset data).1 = .error e) :
    e = .notFound p ∨
      ∃ cause, d.writeFile (p.toLocal root) offset.toNat data = .error cause ∧ e = .ofIo cause := by
  unfold write at h
  split at h
  · rename_i hc
    cases h
    exact .inl (content_error hc)
  · split at h
    · cases h
    · rename_i hcause
      exact .inr ⟨_, hcause, (Except.error.inj h).symm⟩

/-! ### What the operations answer -/

theorem toNat_stop_le {offset length stop : UInt64} (h : stop? offset length = some stop) :
    stop.toNat ≤ offset.toNat + length.toNat := by
  unfold stop? at h
  dsimp only at h
  split at h
  · cases h
  · rw [← Option.some.inj h, UInt64.toNat_add]
    exact Nat.mod_le _ _

/-- No more is read than was asked for. -/
theorem size_read_le {offset length : UInt64} {data : ByteArray}
    (h : read root d p offset length = .ok data) : data.size ≤ length.toNat := by
  unfold read at h
  split at h
  · cases h
  · dsimp only at h
    split at h
    · cases h
    · rename_i hstop
      have hsum := toNat_stop_le hstop
      split at h
      · cases h
      · cases h
        rw [ByteArray.size_extract]
        omega

theorem brief_of_lookup {cause : IoError} (h : cause.isOfLookup = true) : Brief cause.message := by
  unfold Brief
  cases cause with
  | noSuchFile | notADirectory | nameTooLong | tooManyLinks | nulInName => decide
  | _ => cases h

theorem brief_of_writeFile {path : String} {offset : Nat} {data : ByteArray} {cause : IoError}
    (h : d.writeFile path offset data = .error cause) : Brief cause.message := by
  unfold Disk.writeFile at h
  split at h
  · split at h
    · cases h
      exact show _ ≤ _ by decide
    · cases h
  · cases h
    exact show _ ≤ _ by decide
  · cases h
  · cases h
    exact brief_of_lookup rfl
  · cases h
    exact brief_of_lookup (Disk.isOfLookup_of_resolve (by assumption))

/-- The errors of a storage service quote the path they are about, or the wording of a failure. -/
theorem isBrief_of_answer {r : StorageRequest} (h : r.Small) {e : StorageError}
    (he : (answer root d r).1 = .error e) : e.IsBrief := by
  have hbrief : ∀ p : Path, p.text.utf8ByteSize ≤ 4096 → Brief p.text :=
    fun p hp => Nat.le_trans hp (by decide)
  cases r with
  | size p =>
    obtain rfl := size_error (p := p) he
    exact hbrief p h
  | read p offset length =>
    rcases read_error (p := p) he with rfl | ⟨size, rfl⟩
    · exact hbrief p h.1
    · exact hbrief p h.1
  | write p offset data =>
    rcases write_error (p := p) he with rfl | ⟨cause, hcause, rfl⟩
    · exact hbrief p h.1
    · exact brief_of_writeFile hcause

end Storage

/-- The response that carries some bytes fits a frame if they are no more than a piece. -/
theorem StorageRequest.fits_of_data {p : Path} {offset length : UInt64} {data : ByteArray}
    (h : data.size ≤ Client.pieceSize) :
    (storageInterface.report (.read p offset length) (.returned data)).encode.text.utf8ByteSize ≤
      maxPayload := by
  have hsize : data.size ≤ 1024 * 1024 := h
  have hdata := length_written_bytes_le data
  refine Interface.fits_of_returned (I := storageInterface) (r := .read p offset length) rfl ?_
  rw [(array_of_bytes data).2]
  omega

/-- What a storage service answers to a small request fits a frame. -/
theorem StorageRequest.Small.answer_fits {r : StorageRequest} (h : r.Small) (root : String)
    (d : Disk) :
    (storageInterface.report r (.of (Storage.answer root d r).1)).encode.text.utf8ByteSize ≤
      maxPayload := by
  cases ha : (Storage.answer root d r).1 with
  | error e => exact (Storage.isBrief_of_answer h ha).fits r
  | ok x =>
    cases r with
    | size p =>
      refine Interface.fits_of_returned (I := storageInterface) (r := .size p) (v := .ofUInt64 x)
        rfl ?_
      rw [canonical_ofUInt64]
      exact Nat.le_trans (length_written_word_le x) (by decide)
    | read p offset length =>
      have hread : Storage.read root d p offset length = .ok x := ha
      exact fits_of_data (Nat.le_trans (Storage.size_read_le hread) h.2)
    | write p offset data =>
      have hnull : (written Json.null.canonical).length ≤ 67000000 := by
        rw [show Json.null.canonical = .null by simp [canonical]]
        decide
      exact Interface.fits_of_returned (I := storageInterface) (r := .write p offset data)
        (v := .null) rfl hnull

/-! ## Naming services -/

/-- The texts that a naming error holds are brief. -/
def NamingError.IsBrief : NamingError → Prop
  | .notFound p => Brief p.text
  | .storageUnavailable reason => Brief reason
  | .call e => Brief e.message
  | _ => True

theorem NamingError.IsBrief.fits {e : NamingError} (h : e.IsBrief) (r : ServiceRequest) :
    (serviceInterface.report r (.raised e)).encode.text.utf8ByteSize ≤ maxPayload := by
  have bare : ∀ s : String, e.encode = .ok (.string s) → s.utf8ByteSize ≤ 100 →
      (serviceInterface.report r (.raised e)).encode.text.utf8ByteSize ≤ maxPayload := by
    intro s hs hshort
    have hlength := length_writtenString_le s
    refine Interface.fits_of_raised hs ?_
    rw [canonical_string, written_string]
    omega
  cases e with
  | notFound p => exact Interface.fits_of_case (k := "NotFound") rfl (by decide) h
  | storageUnavailable reason =>
    exact Interface.fits_of_case (k := "StorageUnavailable") rfl (by decide) h
  | call e => exact Interface.fits_of_refused (f := ⟨"NamingError", "Rmi"⟩) rfl h (by decide)
  | alreadyRegistered => exact bare "AlreadyRegistered" rfl (by decide)
  | noStorageServers => exact bare "NoStorageServers" rfl (by decide)

namespace ServiceRequest

/-- A question that moving data begins with. -/
def IsOpening (r : ServiceRequest) (p : Path) : Prop := r = .createFile p ∨ r = .getStorage p

/-- The texts that an answer holds are brief: the name of a host, or what an error holds. -/
def IsBrief : (r : ServiceRequest) → Outcome NamingError r.Result → Prop
  | _, .raised e => e.IsBrief
  | .getStorage _, .returned stub => Brief stub.host
  | _, _ => True

theorem IsOpening.call_fits {r : ServiceRequest} {p : Path} (h : r.IsOpening p)
    (hp : p.text.utf8ByteSize ≤ 4096) :
    (serviceInterface.call r).encode.text.utf8ByteSize ≤ maxPayload := by
  have hpath : r.path = p := by
    rcases h with rfl | rfl <;> rfl
  refine serviceInterface_faithful.call_fits (by decide) (Nat.succ_le_succ (Nat.zero_le 2)) ?_
  refine List.forall_mem_singleton.mpr ?_
  rw [hpath]
  exact StorageRequest.length_written_path_le hp

theorem fits_of_stub {p : Path} {stub : StorageStub} (h : Brief stub.host) :
    (serviceInterface.report (.getStorage p) (.returned stub)).encode.text.utf8ByteSize ≤
      maxPayload := by
  have hkeys : (writtenString "host").length = 6 ∧ (writtenString "interface").length = 11 ∧
      (writtenString "port").length = 6 := by decide
  have hname := length_writtenString_le storageInterface.name
  have hshort : storageInterface.name.utf8ByteSize ≤ 10 := by decide
  have hhost := h.length_le
  have hport := length_written_word_le stub.port.toUInt64
  refine Interface.fits_of_returned (I := serviceInterface) (r := .getStorage p)
    (v := stub.encode) rfl ?_
  rw [canonical_stub, written_object, writtenMembers_cons, writtenMembers_cons, writtenMembers_nil,
    written_string storageInterface.name]
  simp only [List.length_cons, List.length_append, List.length_nil]
  omega

theorem IsOpening.answer_fits {r : ServiceRequest} {p : Path} (h : r.IsOpening p)
    {o : Outcome NamingError r.Result} (ho : r.IsBrief o) :
    (serviceInterface.report r o).encode.text.utf8ByteSize ≤ maxPayload := by
  cases o with
  | raised e =>
    have he : e.IsBrief := by
      rcases h with rfl | rfl <;> exact ho
    exact he.fits r
  | crashed =>
    have hnames : (serviceInterface.method (.createFile p)).name = "create_file" ∧
        (serviceInterface.method (.getStorage p)).name = "get_storage" := ⟨rfl, rfl⟩
    have hname : (serviceInterface.method r).name.utf8ByteSize ≤ 16 := by
      rcases h with rfl | rfl
      · rw [hnames.1]
        decide
      · rw [hnames.2]
        decide
    have hparts : serviceInterface.name.utf8ByteSize = 7 ∧ ".".utf8ByteSize = 1 ∧
        " panicked".utf8ByteSize = 9 := by decide
    refine Response.fits_of_refusal ?_
    simp only [String.utf8ByteSize_append]
    omega
  | returned x =>
    rcases h with rfl | rfl
    · have hbool : (written (Json.bool x).canonical).length ≤ 67000000 := by
        rw [show (Json.bool x).canonical = .bool x by simp [canonical]]
        cases x <;> decide
      exact Interface.fits_of_returned (I := serviceInterface) (r := .createFile p) rfl hbool
    · exact fits_of_stub ho

end ServiceRequest

/-! ## Putting and reading -/

namespace Client

variable {σ : Type} {p : Path} {data : ByteArray}

/-- No frame of a call is refused: neither the one that the client sends, nor the one that a storage
service answers it with, nor one that a naming service answers it with, if the texts of the answer
are brief. -/
def Note.Carried : Note → Prop
  | .ask r _ =>
    (∃ frame, Frame.write (serviceInterface.call r) = .ok frame) ∧
      ∀ o, r.IsBrief o → ∃ frame, Frame.write (serviceInterface.report r o) = .ok frame
  | .access _ r _ =>
    (∃ frame, Frame.write (storageInterface.call r) = .ok frame) ∧
      ∀ root d, ∃ frame,
        Frame.write (storageInterface.report r (.of (Storage.answer root d r).1)) = .ok frame

theorem carried_ask (hp : p.text.utf8ByteSize ≤ 4096) {r : ServiceRequest} (h : r.IsOpening p)
    (succeeded : Bool) : (Note.ask r succeeded).Carried :=
  ⟨⟨_, Frame.write_eq rfl (h.call_fits hp)⟩, fun _ ho => ⟨_, Frame.write_eq rfl (h.answer_fits ho)⟩⟩

theorem carried_access {r : StorageRequest} (h : r.Small) (stub : StorageStub) (succeeded : Bool) :
    (Note.access stub r succeeded).Carried :=
  ⟨⟨_, Frame.write_eq rfl h.call_fits⟩,
    fun root d => ⟨_, Frame.write_eq rfl (h.answer_fits root d)⟩⟩

theorem forall_mem_concat {P : Note → Prop} {calls : List Note} {call : Note}
    (hcalls : ∀ c ∈ calls, P c) (hcall : P call) : ∀ c ∈ calls ++ [call], P c :=
  List.forall_mem_append.mpr ⟨hcalls, List.forall_mem_singleton.mpr hcall⟩

variable (service : Service (StateM σ)) (storages : Storages (StateM σ))

theorem carried_writePieces (hp : p.text.utf8ByteSize ≤ 4096) (stub : StorageStub)
    {pieces : List (Nat × Nat)} (hpieces : ∀ piece ∈ pieces, piece.2 ≤ pieceSize) (s : σ)
    {calls : List Note} (hcalls : ∀ call ∈ calls, call.Carried) :
    ∀ call ∈ ((writePieces (storages.noted stub) p data pieces).run (s, calls)).2.2,
      call.Carried := by
  induction pieces generalizing s calls with
  | nil => exact hcalls
  | cons piece rest ih =>
    obtain ⟨hpiece, hrest⟩ := List.forall_mem_cons.mp hpieces
    have hsmall : (StorageRequest.write p (UInt64.ofNat piece.1)
        (data.extract piece.1 (piece.1 + piece.2))).Small := by
      refine ⟨hp, ?_⟩
      rw [ByteArray.size_extract]
      omega
    rw [run_writePieces_cons]
    unfold Storages.noted
    rw [run_noted]
    rcases (storages stub (.write p (UInt64.ofNat piece.1)
      (data.extract piece.1 (piece.1 + piece.2)))).run s with ⟨x, s'⟩
    have hmore := forall_mem_concat hcalls (carried_access hsmall stub x.isOk)
    cases x with
    | error e => exact hmore
    | ok u => exact ih hrest s' hmore

theorem carried_readPieces (hp : p.text.utf8ByteSize ≤ 4096) (stub : StorageStub)
    {pieces : List (Nat × Nat)} (hpieces : ∀ piece ∈ pieces, piece.2 ≤ pieceSize) (out : ByteArray)
    (s : σ) {calls : List Note} (hcalls : ∀ call ∈ calls, call.Carried) :
    ∀ call ∈ ((readPieces (storages.noted stub) p out pieces).run (s, calls)).2.2,
      call.Carried := by
  induction pieces generalizing out s calls with
  | nil => exact hcalls
  | cons piece rest ih =>
    obtain ⟨hpiece, hrest⟩ := List.forall_mem_cons.mp hpieces
    have hsmall : (StorageRequest.read p (UInt64.ofNat piece.1) (UInt64.ofNat piece.2)).Small := by
      refine ⟨hp, ?_⟩
      rw [UInt64.toNat_ofNat']
      exact Nat.le_trans (Nat.mod_le _ _) hpiece
    rw [run_readPieces_cons]
    unfold Storages.noted
    rw [run_noted]
    rcases (storages stub (.read p (UInt64.ofNat piece.1) (UInt64.ofNat piece.2))).run s with
      ⟨x, s'⟩
    have hmore := forall_mem_concat hcalls (carried_access hsmall stub x.isOk)
    cases x with
    | error e => exact hmore
    | ok read => exact ih hrest (out ++ read) s' hmore

theorem length_le_of_mem_pieces {size : Nat} : ∀ piece ∈ pieces size, piece.2 ≤ pieceSize :=
  fun _ h => (mem_piecesFrom h).2.2.1

/-- No frame of putting data is refused. -/
theorem carried_put (hp : p.text.utf8ByteSize ≤ 4096) (data : ByteArray) (s : σ) :
    ∀ call ∈ ((put service.noted storages.noted p data).run (s, [])).2.2, call.Carried := by
  rw [run_put]
  unfold Service.noted
  rw [run_noted]
  rcases (service (.createFile p)).run s with ⟨x, s'⟩
  have hmade := forall_mem_concat (List.forall_mem_nil Note.Carried)
    (carried_ask hp (.inl rfl) x.isOk)
  cases x with
  | error e => exact hmade
  | ok made =>
    dsimp only
    rw [run_noted]
    rcases (service (.getStorage p)).run s' with ⟨y, s''⟩
    have hnamed := forall_mem_concat hmade (carried_ask hp (.inr rfl) y.isOk)
    cases y with
    | error e => exact hnamed
    | ok stub =>
      exact carried_writePieces storages hp stub length_le_of_mem_pieces s'' hnamed

/-- No frame of reading a file is refused. -/
theorem carried_cat (hp : p.text.utf8ByteSize ≤ 4096) (s : σ) :
    ∀ call ∈ ((cat service.noted storages.noted p).run (s, [])).2.2, call.Carried := by
  rw [run_cat]
  unfold Service.noted
  rw [run_noted]
  rcases (service (.getStorage p)).run s with ⟨x, s'⟩
  have hnamed := forall_mem_concat (List.forall_mem_nil Note.Carried)
    (carried_ask hp (.inr rfl) x.isOk)
  cases x with
  | error e => exact hnamed
  | ok stub =>
    have hsmall : (StorageRequest.size p).Small := hp
    dsimp only
    unfold Storages.noted
    rw [run_noted]
    rcases (storages stub (.size p)).run s' with ⟨y, s''⟩
    have hsized := forall_mem_concat hnamed (carried_access hsmall stub y.isOk)
    cases y with
    | error e => exact hsized
    | ok size => exact carried_readPieces storages hp stub length_le_of_mem_pieces .empty s'' hsized

/-- A piece of data fits a frame whatever bytes it holds and wherever it goes, both on its way to a
storage server and on its way back; and whatever is put or read, of whatever size and however the
calls turn out, no frame is refused. -/
theorem transfers_fit (hp : p.text.utf8ByteSize ≤ 4096) :
    (∀ (offset : UInt64) (data : ByteArray), data.size ≤ pieceSize →
      (storageInterface.call (.write p offset data)).encode.text.utf8ByteSize ≤ maxPayload) ∧
    (∀ (offset length : UInt64) (data : ByteArray), data.size ≤ pieceSize →
      (storageInterface.report (.read p offset length)
        (.returned data)).encode.text.utf8ByteSize ≤ maxPayload) ∧
    ∀ (σ : Type) (service : Service (StateM σ)) (storages : Storages (StateM σ)) (s : σ),
      (∀ data, ∀ call ∈ ((put service.noted storages.noted p data).run (s, [])).2.2,
        call.Carried) ∧
      ∀ call ∈ ((cat service.noted storages.noted p).run (s, [])).2.2, call.Carried := by
  refine ⟨?_, fun _ _ _ => StorageRequest.fits_of_data, ?_⟩
  · intro offset data hdata
    have hsmall : (StorageRequest.write p offset data).Small := ⟨hp, hdata⟩
    exact hsmall.call_fits
  · intro σ service storages s
    exact ⟨fun data => carried_put service storages hp data s, carried_cat service storages hp s⟩

/-- The path of one component of control characters, as long as a path may be. -/
def controls : Path :=
  ⟨[String.ofList (List.replicate 4095 '\x01')], by
    have hchar : ∀ c ∈ (String.ofList (List.replicate 4095 '\x01')).toList, c = '\x01' := by
      intro c hc
      rw [String.toList_ofList] at hc
      exact List.eq_of_mem_replicate hc
    have hlength : (String.ofList (List.replicate 4095 '\x01')).length = 4095 := by
      rw [String.length_ofList, List.length_replicate]
    have hne : ∀ s : String, s.length ≠ 4095 →
        String.ofList (List.replicate 4095 '\x01') ≠ s := fun s hs he => hs (he ▸ hlength)
    exact List.forall_mem_singleton.mpr ⟨hne _ (by decide),
      fun hc => absurd (hchar _ hc) (by decide), fun hc => absurd (hchar _ hc) (by decide),
      fun he => he.elim (hne _ (by decide)) (hne _ (by decide))⟩⟩

theorem utf8ByteSize_controls : controls.text.utf8ByteSize = 4096 := by
  have hbytes : ∀ n, (String.ofList (List.replicate n '\x01')).utf8ByteSize = n := by
    intro n
    rw [← Text.length_encode, Text.encode_eq_flatMap, String.toList_ofList]
    induction n with
    | zero => rfl
    | succ n ih =>
      have hone : (String.utf8EncodeChar '\x01').length = 1 := by decide
      rw [List.replicate_succ, List.flatMap_cons, List.length_append, ih, hone, Nat.add_comm]
  have htext : controls.text = "/" ++ String.ofList (List.replicate 4095 '\x01') := rfl
  rw [htext, String.utf8ByteSize_append, hbytes]
  rfl

/-- The longest written form of a piece. -/
theorem transfers_fit_controls :
    controls.text.utf8ByteSize ≤ 4096 ∧
    (storageInterface.call (.write controls 18446744073709551615
      ⟨Array.replicate pieceSize 255⟩)).encode.text.utf8ByteSize ≤ maxPayload ∧
    (storageInterface.report (.read controls 18446744073709551615 1048576)
      (.returned ⟨Array.replicate pieceSize 255⟩)).encode.text.utf8ByteSize ≤ maxPayload := by
  have hp : controls.text.utf8ByteSize ≤ 4096 := Nat.le_of_eq utf8ByteSize_controls
  have hdata : (ByteArray.mk (Array.replicate pieceSize 255)).size ≤ pieceSize :=
    Nat.le_of_eq Array.size_replicate
  obtain ⟨hwrite, hread, -⟩ := transfers_fit hp
  exact ⟨hp, hwrite _ _ hdata, hread _ _ _ hdata⟩

end Client

end FileCluster
