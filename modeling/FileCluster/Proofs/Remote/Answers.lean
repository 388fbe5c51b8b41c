import FileCluster.Proofs.Remote.Streams
import FileCluster.Proofs.Wire.Format

/-!
What a caller makes of a reply.

The bytes that come back over a connection may be anything. They return a value, raise an error or
refuse the call if they begin with a frame that holds a response that says so (`Stub.Returns`,
`Stub.Raises`, `Stub.Refuses`); they may be cut short or announce too long a frame; or they are none
of these. Main statement: a caller is told which of the six it was, with the very value, error or
reason, and what comes after the first frame makes no difference (`answer_classified`).
-/

namespace FileCluster

open Json Wire

/-! ## Errors that tell of failed calls -/

/-- Errors that tell of a failed call are told apart from all others: the failure can be read off
them, and no JSON value decodes to one. -/
structure Interface.CallErrorsApart (I : Interface) : Prop where
  injective : ∀ {c c'}, I.ofCallError c = I.ofCallError c' → c = c'
  decoded : ∀ v c, I.errorWire.decode v ≠ .ok (I.ofCallError c)

theorem callErrorsApart_of_mem {I : Interface} (h : I ∈ clusterInterfaces) :
    I.CallErrorsApart := by
  simp only [clusterInterfaces, List.mem_cons, List.not_mem_nil, or_false] at h
  obtain rfl | rfl | rfl | rfl := h
  · exact ⟨NamingError.call.inj, NamingError.decode_ne_call⟩
  · exact ⟨NamingError.call.inj, NamingError.decode_ne_call⟩
  · exact ⟨StorageError.call.inj, StorageError.decode_ne_call⟩
  · exact ⟨StorageError.call.inj, StorageError.decode_ne_call⟩

namespace Stub

/-! ## What a stream says -/

/-- A stream begins with a frame that holds a response. -/
def Brings (stream : List UInt8) (response : Response) : Prop :=
  ∃ payload, Frame.Begins stream payload ∧ Wire.read? payload = some response

variable {I : Interface} (r : I.Request)

/-- A stream returns a value: its payload decodes as the type of the request's result. -/
def Returns (stream : List UInt8) (x : I.Result r) : Prop :=
  ∃ response, Brings stream response ∧ response.ok = true ∧
    (I.resultWire r).decode response.payload = .ok x

/-- A stream raises an error of the interface. -/
def Raises (I : Interface) (stream : List UInt8) (e : I.Error) : Prop :=
  ∃ response value, Brings stream response ∧ response.ok = false ∧
    Fault.decode response.payload = .ok (.application value) ∧ I.errorWire.decode value = .ok e

/-- A stream says why no method was run. -/
def Refuses (stream : List UInt8) (reason : String) : Prop :=
  ∃ response, Brings stream response ∧ response.ok = false ∧
    Fault.decode response.payload = .ok (.dispatch reason)

/-- A stream is whole, but says nothing that a caller of the request can make out. -/
structure Garbled (stream : List UInt8) : Prop where
  whole : ¬Frame.Truncated stream
  short : ¬Frame.Oversized stream
  returned : ∀ x, ¬Returns r stream x
  raised : ∀ e, ¬Raises I stream e
  refused : ∀ reason, ¬Refuses stream reason

/-- An answer tells what the stream says. -/
structure Tells (stream : List UInt8) (answer : Except I.Error (I.Result r)) : Prop where
  returned : ∀ x, answer = .ok x ↔ Returns r stream x
  raised : ∀ e, (∀ c, e ≠ I.ofCallError c) → (answer = .error e ↔ Raises I stream e)
  refused : ∀ reason, answer = .error (I.ofCallError (.dispatch reason)) ↔ Refuses stream reason
  protocol : (∃ fault, answer = .error (I.ofCallError (.protocol fault))) ↔ Frame.Oversized stream
  transport : (∃ cause, answer = .error (I.ofCallError (.transport cause))) ↔
    Frame.Truncated stream
  decode : (∃ fault, answer = .error (I.ofCallError (.decode fault))) ↔ Garbled r stream

/-! ## What a caller makes of it -/

variable {r} {stream stream' payload : List UInt8}

theorem readAnswer_of_truncated (h : Frame.Truncated stream) :
    readAnswer r stream = .error (I.ofCallError (.transport .endOfStream)) := by
  unfold readAnswer
  rw [Frame.read_of_truncated h]

theorem readAnswer_of_oversized (h : Frame.Oversized stream) :
    ∃ fault, readAnswer r stream = .error (I.ofCallError (.protocol fault)) := by
  obtain ⟨n, hn, hlong⟩ := h
  refine ⟨.announcedTooLong n, ?_⟩
  unfold readAnswer
  rw [Frame.read_of_oversized hn hlong]

/-- What comes after the first frame is not looked at. -/
theorem readAnswer_of_begins (h : Frame.Begins stream payload)
    (h' : Frame.Begins stream' payload) : readAnswer r stream = readAnswer r stream' := by
  unfold readAnswer
  rw [Frame.read_of_begins h, Frame.read_of_begins h']

theorem readAnswer_of_brings {response : Response} (h : Brings stream response) :
    readAnswer r stream = answerOf r response := by
  unfold readAnswer
  rw [Frame.read_eq_ok.mpr h]

theorem readAnswer_of_returns {x : I.Result r} (h : Returns r stream x) :
    readAnswer r stream = .ok x := by
  obtain ⟨response, hbrings, hok, hx⟩ := h
  rw [readAnswer_of_brings hbrings]
  unfold answerOf Response.result
  rw [if_pos hok]
  dsimp only
  rw [hx]

theorem result_of_fault {response : Response} {fault : Fault} (hok : response.ok = false)
    (h : Fault.decode response.payload = .ok fault) : response.result = .ok (.error fault) := by
  unfold Response.result
  rw [if_neg (Bool.eq_false_iff.mp hok), h]

theorem readAnswer_of_raises {e : I.Error} (h : Raises I stream e) :
    readAnswer r stream = .error e := by
  obtain ⟨response, value, hbrings, hok, hfault, he⟩ := h
  rw [readAnswer_of_brings hbrings]
  unfold answerOf
  rw [result_of_fault hok hfault]
  dsimp only
  rw [he]

theorem readAnswer_of_refuses {reason : String} (h : Refuses stream reason) :
    readAnswer r stream = .error (I.ofCallError (.dispatch reason)) := by
  obtain ⟨response, hbrings, hok, hfault⟩ := h
  rw [readAnswer_of_brings hbrings]
  unfold answerOf
  rw [result_of_fault hok hfault]

/-- Whatever stage of decoding it is that fails, the caller gets a decoding error. -/
theorem readAnswer_of_garbled (h : Garbled r stream) :
    ∃ fault, readAnswer r stream = .error (I.ofCallError (.decode fault)) := by
  obtain hshort | hlong | ⟨payload, hbegins⟩ := Frame.stream_cases stream
  · exact absurd hshort h.whole
  · exact absurd hlong h.short
  cases hread : (Wire.read? payload : Option Response) with
  | none =>
    refine ⟨.unreadable, ?_⟩
    unfold readAnswer
    rw [Frame.read_of_begins hbegins, hread]
  | some response =>
    have hbrings : Brings stream response := ⟨payload, hbegins, hread⟩
    rw [readAnswer_of_brings hbrings]
    unfold answerOf
    cases hok : response.ok with
    | true =>
      cases hx : (I.resultWire r).decode response.payload with
      | ok x => exact absurd ⟨response, hbrings, hok, hx⟩ (h.returned x)
      | error e =>
        unfold Response.result
        rw [if_pos hok]
        dsimp only
        rw [hx]
        exact ⟨_, rfl⟩
    | false =>
      cases hfault : Fault.decode response.payload with
      | error e =>
        unfold Response.result
        rw [if_neg (Bool.eq_false_iff.mp hok), hfault]
        exact ⟨_, rfl⟩
      | ok fault =>
        rw [result_of_fault hok hfault]
        cases fault with
        | dispatch reason => exact absurd ⟨response, hbrings, hok, hfault⟩ (h.refused reason)
        | application value =>
          dsimp only
          cases he : I.errorWire.decode value with
          | ok e => exact absurd ⟨response, value, hbrings, hok, hfault, he⟩ (h.raised e)
          | error e => exact ⟨_, rfl⟩

/-! ## What an answer tells -/

variable (r) in
/-- What the stream says when a caller is told that the call failed. -/
def Fails (stream : List UInt8) : CallError → Prop
  | .dispatch reason => Refuses stream reason
  | .protocol _ => Frame.Oversized stream
  | .transport _ => Frame.Truncated stream
  | .decode _ => Garbled r stream
  | _ => False

variable (r) in
/-- An answer with what the stream says to give it. -/
inductive Told (stream : List UInt8) : Except I.Error (I.Result r) → Prop
  | returned {x : I.Result r} (h : Returns r stream x) : Told stream (.ok x)
  | raised {e : I.Error} (h : Raises I stream e) : Told stream (.error e)
  | failed {c : CallError} (h : Fails r stream c) : Told stream (.error (I.ofCallError c))

/-- Every stream gives an answer of one of these kinds. -/
theorem told_readAnswer (r : I.Request) (stream : List UInt8) :
    Told r stream (readAnswer r stream) := by
  by_cases hshort : Frame.Truncated stream
  · rw [readAnswer_of_truncated hshort]
    exact .failed hshort
  by_cases hlong : Frame.Oversized stream
  · obtain ⟨fault, h⟩ := readAnswer_of_oversized (r := r) hlong
    rw [h]
    exact .failed (c := .protocol fault) hlong
  by_cases hreturned : ∃ x, Returns r stream x
  · obtain ⟨x, hx⟩ := hreturned
    rw [readAnswer_of_returns hx]
    exact .returned hx
  by_cases hraised : ∃ e, Raises I stream e
  · obtain ⟨e, he⟩ := hraised
    rw [readAnswer_of_raises he]
    exact .raised he
  by_cases hrefused : ∃ reason, Refuses stream reason
  · obtain ⟨reason, hreason⟩ := hrefused
    rw [readAnswer_of_refuses hreason]
    exact .failed (c := .dispatch reason) hreason
  have hgarbled : Garbled r stream := ⟨hshort, hlong, fun x h => hreturned ⟨x, h⟩,
    fun e h => hraised ⟨e, h⟩, fun reason h => hrefused ⟨reason, h⟩⟩
  obtain ⟨fault, h⟩ := readAnswer_of_garbled hgarbled
  rw [h]
  exact .failed (c := .decode fault) hgarbled

/-- What an error that tells of a failed call says can be read off the failure. -/
theorem Told.of_callError (hI : I.CallErrorsApart) {answer : Except I.Error (I.Result r)}
    (h : Told r stream answer) {c : CallError} (ha : answer = .error (I.ofCallError c)) :
    Fails r stream c := by
  cases h with
  | returned h => cases ha
  | raised h =>
    obtain ⟨response, value, -, -, -, he⟩ := h
    rw [Except.error.inj ha] at he
    exact absurd he (hI.decoded value c)
  | failed h =>
    obtain rfl := hI.injective (Except.error.inj ha)
    exact h

/-- A caller is told what the stream says. -/
theorem tells_readAnswer (hI : I.CallErrorsApart) (r : I.Request) (stream : List UInt8) :
    Tells r stream (readAnswer r stream) := by
  have htold := told_readAnswer r stream
  constructor
  case returned =>
    refine fun x => ⟨fun h => ?_, readAnswer_of_returns⟩
    rw [h] at htold
    cases htold with
    | returned hx => exact hx
  case raised =>
    refine fun e he => ⟨fun h => ?_, readAnswer_of_raises⟩
    rw [h] at htold
    cases htold with
    | raised h => exact h
    | failed _ => exact absurd rfl (he _)
  case refused => exact fun reason => ⟨htold.of_callError hI, readAnswer_of_refuses⟩
  case protocol => exact ⟨fun ⟨_, h⟩ => htold.of_callError hI h, readAnswer_of_oversized⟩
  case transport =>
    exact ⟨fun ⟨_, h⟩ => htold.of_callError hI h, fun h => ⟨_, readAnswer_of_truncated h⟩⟩
  case decode => exact ⟨fun ⟨_, h⟩ => htold.of_callError hI h, readAnswer_of_garbled⟩

end Stub

/-! ## Calls -/

/-- A call that is sent gives whatever the stream says that comes back, and a caller is told which
of the six kinds it is. Streams that begin with the same frame give the same answer. -/
theorem answer_classified {I : Interface} (hI : I ∈ clusterInterfaces) {m : Type → Type} [Monad m]
    (exchange : Stub.Exchange m) (s : Stub I) (r : I.Request) {frame : Frame}
    (hsent : Frame.write (I.call r) = .ok frame) :
    (Stub.request exchange s r = do
      match ← exchange s.host s.port frame.bytes with
      | .error cause => return .error (I.ofCallError (.transport cause))
      | .ok stream => return Stub.readAnswer r stream) ∧
    (∀ stream, Stub.Tells r stream (Stub.readAnswer r stream)) ∧
    ∀ payload stream stream', Frame.Begins stream payload → Frame.Begins stream' payload →
      Stub.readAnswer r stream = Stub.readAnswer r stream' := by
  refine ⟨?_, Stub.tells_readAnswer (callErrorsApart_of_mem hI) r,
    fun payload stream stream' => Stub.readAnswer_of_begins⟩
  unfold Stub.request
  split
  · rename_i e he
    cases hsent.symm.trans he
  · rename_i frame' hframe
    obtain rfl : frame = frame' := Except.ok.inj (hsent.symm.trans hframe)
    rfl

/-- A server that has no time for a delete says so, and one byte more. -/
theorem answer_classified_busy :
    commandInterface ∈ clusterInterfaces ∧
    ∃ frame reply : Frame, Frame.write (commandInterface.call (.delete .root)) = .ok frame ∧
      Stub.request (m := Id) (fun _ _ _ => .ok (reply.bytes ++ [0x2a]))
        (⟨"storage", 2000⟩ : CommandStub) (.delete .root) = .error (.call (.dispatch "busy")) := by
  have hmem : commandInterface ∈ clusterInterfaces := by simp [clusterInterfaces]
  have hcall : (commandInterface.call (.delete .root)).encode.text.utf8ByteSize ≤ maxPayload := by
    rw [← Text.length_encode]
    show (written (.object [("method", .string "delete"), ("signature", .array [.string "Path"]),
      ("args", .array [.string "/"])])).length ≤ _
    simp only [written_object, writtenMembers_cons, written_array, written_string, writtenString]
    decide
  have hreply : (Response.refusal "busy").encode.text.utf8ByteSize ≤ maxPayload := by
    rw [← Text.length_encode]
    show (written (.object [("ok", .bool false),
      ("payload", .object [("dispatch", .string "busy")])])).length ≤ _
    simp only [written_object, writtenMembers_cons, written_string, writtenString]
    decide
  have hsent : Frame.write (commandInterface.call (.delete .root)) = .ok ⟨_, hcall⟩ :=
    Frame.write_eq rfl hcall
  have hplain : (Response.refusal "busy").payload.Plain 126 :=
    (plain_single "dispatch" (plain_string 1 "busy")).mono (by decide)
  have hpayload : Fault.decode (Response.refusal "busy").payload.canonical =
      .ok (.dispatch "busy") := by
    show Fault.decode (Json.object [("dispatch", .string "busy")]).canonical = _
    rw [canonical_single, canonical_string]
    rfl
  have hrefuses : Stub.Refuses ((⟨_, hreply⟩ : Frame).bytes ++ [0x2a]) "busy" :=
    ⟨_, ⟨_, Frame.begins_bytes ⟨_, hreply⟩ [0x2a], Response.read?_written hplain⟩, rfl, hpayload⟩
  obtain ⟨hrequest, htells, -⟩ := answer_classified hmem (m := Id)
    (fun _ _ _ => .ok ((⟨_, hreply⟩ : Frame).bytes ++ [0x2a])) ⟨"storage", 2000⟩ (.delete .root)
    hsent
  exact ⟨hmem, ⟨_, hcall⟩, ⟨_, hreply⟩, hsent,
    hrequest.trans (((htells _).refused "busy").mpr hrefuses)⟩

end FileCluster
