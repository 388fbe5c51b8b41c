import FileCluster.Proofs.Remote.Framing
import FileCluster.Remote.Skeleton

/-!
Remote calls are transparent.

An interface is faithful when its own encoders and decoders fit together: every method is found by
its name and the types of its parameters, its arguments read back, and results and errors survive
(`Interface.Faithful`). A call through a stub then runs the implementation once, on the request that
was made, and hands back its outcome (`Interface.Faithful.request_eq`). Main statement: this holds
of the four interfaces of the cluster (`request_transparent`).
-/

namespace FileCluster

open Json Wire

namespace Interface

variable {I : Interface}

/-- The encoders and decoders of an interface fit together. -/
structure Faithful (I : Interface) : Prop where
  lookup : ∀ r, I.lookup (I.method r).name (I.method r).params = some (I.method r)
  read : ∀ r, I.read (I.method r).name (I.arguments r) = .ok r
  arguments : ∀ r, ∀ v ∈ I.arguments r, v.Plain 2 ∧ v.canonical = v
  result : ∀ r x, Survives (I.resultWire r) x
  error : ∀ e, Survives I.errorWire e ∨ ∃ c, e = I.ofCallError c
  callError : ∀ c, ∃ f, I.errorWire.encode (I.ofCallError c) = .error f

/-- The response that tells of an outcome. -/
def report (I : Interface) (r : I.Request) (o : Outcome I.Error (I.Result r)) : Response :=
  I.responseTo (I.method r).name (I.dispatched r o)

/-- What a caller gets for an outcome whose response reaches it: the outcome, but that an error
which must not leave the process is told as a failed call. -/
def delivered (I : Interface) (r : I.Request) :
    Outcome I.Error (I.Result r) → Except I.Error (I.Result r)
  | .returned x => .ok x
  | .raised e =>
    match I.errorWire.encode e with
    | .ok _ => .error e
    | .error f =>
      .error (I.ofCallError
        (.dispatch (CallError.encode (I.message e ++ " (" ++ f.message ++ ")")).message))
  | .crashed =>
    .error (I.ofCallError (.dispatch (I.name ++ "." ++ (I.method r).name ++ " panicked")))

/-! ## Responses -/

theorem Faithful.plain_response (h : I.Faithful) (r : I.Request)
    (o : Outcome I.Error (I.Result r)) : (I.report r o).payload.Plain 126 := by
  have refusal : ∀ reason, (Response.refusal reason).payload.Plain 126 :=
    fun reason => (plain_single "dispatch" (plain_string 1 reason)).mono (by decide)
  unfold report dispatched
  cases o with
  | crashed => exact refusal _
  | returned x =>
    obtain ⟨v, hv, hplain, -⟩ := h.result r x
    dsimp only
    rw [hv]
    exact hplain.canonical.mono (by decide)
  | raised e =>
    rcases h.error e with ⟨v, hv, hplain, -⟩ | ⟨c, rfl⟩
    · dsimp only
      rw [hv]
      exact (plain_single "application" hplain.canonical).mono (by decide)
    · obtain ⟨f, hf⟩ := h.callError c
      dsimp only
      rw [hf]
      exact refusal _

theorem result_refusal (reason : String) :
    Response.result ⟨false, (Response.refusal reason).payload.canonical⟩ =
      .ok (.error (.dispatch reason)) := by
  have hcanonical : (Response.refusal reason).payload.canonical =
      .object [("dispatch", .string reason)] := by
    show (Json.object [("dispatch", .string reason)]).canonical = _
    rw [canonical_single, canonical_string]
  rw [hcanonical]
  rfl

theorem result_application (v : Json) :
    Response.result ⟨false, (Reply.raised v.canonical).response.payload.canonical⟩ =
      .ok (.error (.application v.canonical)) := by
  have hcanonical : (Reply.raised v.canonical).response.payload.canonical =
      .object [("application", v.canonical)] := by
    show (Json.object [("application", v.canonical)]).canonical = _
    rw [canonical_single, canonical_canonical]
  rw [hcanonical]
  rfl

/-- A caller makes of the response to an outcome what is to be delivered. -/
theorem Faithful.answerOf_response (h : I.Faithful) (r : I.Request)
    (o : Outcome I.Error (I.Result r)) :
    Stub.answerOf r ⟨(I.report r o).ok, (I.report r o).payload.canonical⟩ =
      I.delivered r o := by
  have refusal : ∀ reason, Stub.answerOf r ⟨(Response.refusal reason).ok,
      (Response.refusal reason).payload.canonical⟩ = .error (I.ofCallError (.dispatch reason)) := by
    intro reason
    unfold Stub.answerOf
    rw [show (Response.refusal reason).ok = false from rfl, result_refusal]
  unfold report dispatched delivered
  cases o with
  | crashed => exact refusal _
  | returned x =>
    obtain ⟨v, hv, -, hdecode⟩ := h.result r x
    dsimp only
    rw [hv]
    dsimp only
    have hresult : Response.result
        ⟨(I.responseTo (I.method r).name (.replied (.returned v.canonical))).ok,
          (I.responseTo (I.method r).name (.replied (.returned v.canonical))).payload.canonical⟩ =
        .ok (.ok v.canonical) := by
      show Except.ok (Except.ok v.canonical.canonical) = _
      rw [canonical_canonical]
    unfold Stub.answerOf
    rw [hresult]
    dsimp only
    rw [hdecode]
  | raised e =>
    rcases h.error e with ⟨v, hv, -, hdecode⟩ | ⟨c, rfl⟩
    · dsimp only
      rw [hv]
      dsimp only
      have hresult : Response.result
          ⟨(I.responseTo (I.method r).name (.replied (.raised v.canonical))).ok,
            (I.responseTo (I.method r).name (.replied (.raised v.canonical))).payload.canonical⟩ =
          .ok (.error (.application v.canonical)) := result_application v
      unfold Stub.answerOf
      rw [hresult]
      dsimp only
      rw [hdecode]
    · obtain ⟨f, hf⟩ := h.callError c
      dsimp only
      rw [hf]
      exact refusal _

/-! ## Calls -/

section Calls

variable {m : Type → Type} [Monad m] [LawfulMonad m]

/-- A call of a request runs its method on the request. -/
theorem Faithful.respond_call (h : I.Faithful) (implementation : I.Implementation m)
    (r : I.Request) :
    I.respond implementation (I.call r) = do return I.report r (← implementation r) := by
  unfold respond call dispatch report
  dsimp only
  rw [h.lookup]
  dsimp only
  rw [h.read]
  simp

/-- A connection to a stub's address reaches a skeleton that serves an implementation, and does not
fail. -/
def Reaches (exchange : Stub.Exchange m) (s : Stub I) (implementation : I.Implementation m) :
    Prop :=
  ∀ sent, exchange s.host s.port sent = do
    match ← I.serve implementation sent with
    | .ok frame => return .ok frame.bytes
    | .error _ => return .ok []

/-- A call runs the implementation once, on the request made, and hands back its outcome. -/
theorem Faithful.request_eq (h : I.Faithful) {exchange : Stub.Exchange m} {s : Stub I}
    {implementation : I.Implementation m} (hreach : Reaches exchange s implementation)
    (r : I.Request) (hcall : (I.call r).encode.text.utf8ByteSize ≤ maxPayload) :
    Stub.request exchange s r = do
      let o ← implementation r
      return if (I.report r o).encode.text.utf8ByteSize ≤ maxPayload then I.delivered r o
        else .error (I.ofCallError (.transport .endOfStream)) := by
  have hargs : (I.arguments r).map canonical = I.arguments r := by
    conv => rhs; rw [← List.map_id (I.arguments r)]
    exact List.map_congr_left fun v hv => (h.arguments r v hv).2
  have hserve : I.serve implementation (⟨(I.call r).encode.text, hcall⟩ : Frame).bytes = do
      return Frame.write (← I.respond implementation (I.call r)) := by
    have hread := Frame.read_call (c := I.call r) (fun v hv => (h.arguments r v hv).1) hcall []
    rw [List.append_nil] at hread
    unfold serve
    rw [hread]
    have hsame : (⟨(I.call r).method, (I.call r).signature,
        (I.call r).args.map canonical⟩ : Call) = I.call r :=
      congrArg (Call.mk (I.method r).name (I.method r).params) hargs
    dsimp only
    rw [hsame]
  have hwrite : Frame.write (I.call r) = .ok ⟨(I.call r).encode.text, hcall⟩ :=
    Frame.write_eq rfl hcall
  unfold Stub.request
  rw [hwrite]
  dsimp only
  rw [hreach, hserve, h.respond_call]
  simp only [bind_assoc, pure_bind]
  congr 1
  funext o
  by_cases hfits : (I.report r o).encode.text.utf8ByteSize ≤ maxPayload
  · have hsent : Frame.write (I.report r o) =
        .ok ⟨(I.report r o).encode.text, hfits⟩ := Frame.write_eq rfl hfits
    have hread := Frame.read_response (h.plain_response r o) hfits []
    rw [List.append_nil] at hread
    have hanswer : Stub.readAnswer r (⟨(I.report r o).encode.text, hfits⟩ : Frame).bytes =
        I.delivered r o := by
      unfold Stub.readAnswer
      rw [hread]
      exact h.answerOf_response r o
    rw [hsent, if_pos hfits, ← hanswer]
    simp
  · have hsent : Frame.write (I.report r o) =
        .error (.protocol (.tooLong (I.report r o).encode.text.utf8ByteSize)) :=
      Frame.write_eq_error rfl hfits
    rw [hsent, if_neg hfits]
    simp only [pure_bind]
    rfl

end Calls

end Interface

/-! ## The interfaces of the cluster -/

/-- Taking an argument that decodes. -/
theorem Arguments.bind_take {α β : Type} [Wire α] {v : Json} {x : α} (h : Wire.decode v = .ok x)
    (f : α → StateT Arguments (Except CallError) β) (rest : List Json) (taken : Nat) :
    (Arguments.take α >>= f) ⟨v :: rest, taken⟩ = f x ⟨rest, taken + 1⟩ := by
  have htake : Arguments.take α ⟨v :: rest, taken⟩ = .ok (x, ⟨rest, taken + 1⟩) := by
    unfold Arguments.take Arguments.next
    dsimp only
    rw [h]
  show StateT.bind _ _ _ = _
  unfold StateT.bind
  rw [htake]
  rfl

theorem CommandRequest.read?_arguments (r : CommandRequest) :
    CommandRequest.read? r.method.name [.string r.path.text] = .ok r := by
  have hpath : Wire.decode (.string r.path.text) = .ok r.path := decodePath_text r.path
  unfold CommandRequest.read? Arguments.read Arguments.ofList
  rw [Arguments.bind_take hpath]
  cases r <;> rfl

theorem ServiceRequest.read?_arguments (r : ServiceRequest) :
    ServiceRequest.read? r.methodName [.string r.path.text] = .ok r := by
  have hpath : Wire.decode (.string r.path.text) = .ok r.path := decodePath_text r.path
  unfold ServiceRequest.read? Arguments.read Arguments.ofList
  rw [Arguments.bind_take hpath]
  cases r <;> rfl

theorem RegistrationRequest.read?_of_decode {u v w : Json} {storage : StorageStub}
    {command : CommandStub} {paths : List Path} (hstorage : Wire.decode u = .ok storage)
    (hcommand : Wire.decode v = .ok command) (hpaths : Wire.decode w = .ok paths) :
    RegistrationRequest.read? registerMethod.name [u, v, w] = .ok ⟨storage, command, paths⟩ := by
  have hname : registerMethod.name = "register" := rfl
  unfold RegistrationRequest.read?
  rw [if_pos hname]
  unfold Arguments.read Arguments.ofList
  rw [Arguments.bind_take hstorage, Arguments.bind_take hcommand, Arguments.bind_take hpaths]
  rfl

theorem RegistrationRequest.read?_arguments (r : RegistrationRequest) :
    RegistrationRequest.read? registerMethod.name r.arguments = .ok r :=
  read?_of_decode (decode_stub r.storage) (decode_stub r.command)
    (decodeList_map _ decodePath_text r.paths)

theorem StorageRequest.read?_of_decode {u : Json} {p : Path} (hpath : Wire.decode u = .ok p) :
    StorageRequest.read? "size" [u] = .ok (.size p) ∧
      (∀ {v w : Json} {offset length : UInt64}, Wire.decode v = .ok offset →
        Wire.decode w = .ok length →
          StorageRequest.read? "read" [u, v, w] = .ok (.read p offset length)) ∧
      (∀ {v w : Json} {offset : UInt64} {data : ByteArray}, Wire.decode v = .ok offset →
        Wire.decode w = .ok data →
          StorageRequest.read? "write" [u, v, w] = .ok (.write p offset data)) := by
  unfold StorageRequest.read? Arguments.read Arguments.ofList
  refine ⟨?_, fun hoffset hlength => ?_, fun hoffset hdata => ?_⟩
  · rw [Arguments.bind_take hpath]
    rfl
  · simp only
    rw [Arguments.bind_take hpath, Arguments.bind_take hoffset, Arguments.bind_take hlength]
    rfl
  · simp only
    rw [Arguments.bind_take hpath, Arguments.bind_take hoffset, Arguments.bind_take hdata]
    rfl

theorem StorageRequest.read?_arguments (r : StorageRequest) :
    StorageRequest.read? r.method.name r.arguments = .ok r := by
  have hpath : ∀ p : Path, Wire.decode (.string p.text) = .ok p := decodePath_text
  have hnumber : ∀ n, Wire.decode (.ofUInt64 n) = .ok n := decodeUInt64_ofUInt64
  cases r with
  | size p => exact (read?_of_decode (hpath p)).1
  | read p offset length =>
    exact (read?_of_decode (hpath p)).2.1 (hnumber offset) (hnumber length)
  | write p offset data =>
    exact (read?_of_decode (hpath p)).2.2 (hnumber offset) (decode_bytes data)

theorem commandInterface_faithful : commandInterface.Faithful where
  lookup r := by cases r <;> rfl
  read := CommandRequest.read?_arguments
  arguments r v hv := by
    rw [List.mem_singleton.mp hv]
    exact ⟨plain_string 2 _, canonical_string _⟩
  result _ := survives_bool
  error := survives_storageError
  callError _ := ⟨_, rfl⟩

theorem serviceInterface_faithful : serviceInterface.Faithful where
  lookup r := by cases r <;> rfl
  read := ServiceRequest.read?_arguments
  arguments r v hv := by
    rw [List.mem_singleton.mp hv]
    exact ⟨plain_string 2 _, canonical_string _⟩
  result r := by
    cases r with
    | list p => exact survives_names
    | getStorage p => exact survives_stub
    | isDirectory p | createFile p | createDirectory p | delete p => exact survives_bool
  error := survives_namingError
  callError _ := ⟨_, rfl⟩

theorem registrationInterface_faithful : registrationInterface.Faithful where
  lookup _ := rfl
  read r := by
    have hread : registrationInterface.read = RegistrationRequest.read? := rfl
    rw [hread]
    exact RegistrationRequest.read?_arguments r
  arguments r v hv := by
    simp only [registrationInterface, RegistrationRequest.arguments, List.mem_cons,
      List.not_mem_nil, or_false] at hv
    rcases hv with rfl | rfl | rfl
    · exact ⟨(plain_stub _ 1).canonical, canonical_canonical _⟩
    · exact ⟨(plain_stub _ 1).canonical, canonical_canonical _⟩
    · exact ⟨(array_of_paths r.paths).1 1, (array_of_paths r.paths).2⟩
  result _ := survives_paths
  error := survives_namingError
  callError _ := ⟨_, rfl⟩

theorem storageInterface_faithful : storageInterface.Faithful where
  lookup r := by cases r <;> rfl
  read := StorageRequest.read?_arguments
  arguments r v hv := by
    have hpath : ∀ p : Path, (Json.string p.text).Plain 2 ∧
        (Json.string p.text).canonical = .string p.text :=
      fun p => ⟨plain_string 2 _, canonical_string _⟩
    have hnumber : ∀ n, (ofUInt64 n).Plain 2 ∧ (ofUInt64 n).canonical = ofUInt64 n :=
      fun n => ⟨plain_ofUInt64 2 n, canonical_ofUInt64 n⟩
    cases r with
    | size p =>
      rw [List.mem_singleton.mp hv]
      exact hpath p
    | read p offset length =>
      simp only [storageInterface, StorageRequest.arguments, List.mem_cons, List.not_mem_nil,
        or_false] at hv
      rcases hv with rfl | rfl | rfl
      · exact hpath p
      · exact hnumber offset
      · exact hnumber length
    | write p offset data =>
      simp only [storageInterface, StorageRequest.arguments, List.mem_cons, List.not_mem_nil,
        or_false] at hv
      obtain ⟨hplain, hcanonical⟩ := array_of_bytes data
      rcases hv with rfl | rfl | rfl
      · exact hpath p
      · exact hnumber offset
      · exact ⟨hplain 1, hcanonical⟩
  result r := by
    cases r with
    | size p => exact survives_uint64
    | read p offset length => exact survives_bytes
    | write p offset data => exact survives_unit
  error := survives_storageError
  callError _ := ⟨_, rfl⟩

/-- The interfaces through which the parts of a cluster talk to each other. -/
def clusterInterfaces : List Interface :=
  [serviceInterface, registrationInterface, storageInterface, commandInterface]

theorem faithful_of_mem {I : Interface} (h : I ∈ clusterInterfaces) : I.Faithful := by
  simp only [clusterInterfaces, List.mem_cons, List.not_mem_nil, or_false] at h
  rcases h with rfl | rfl | rfl | rfl
  · exact serviceInterface_faithful
  · exact registrationInterface_faithful
  · exact storageInterface_faithful
  · exact commandInterface_faithful

/-- A call that fits a frame, over a connection that does not fail, is a run of the implementation
on the request made. Of its outcome the caller gets, if the response fits a frame, the value that
was returned and every error that was raised, except an error that tells of a failed call: that one
it gets as a call refused because the error could not be encoded. -/
theorem request_transparent {I : Interface} (hI : I ∈ clusterInterfaces) {m : Type → Type}
    [Monad m] [LawfulMonad m] {exchange : Stub.Exchange m} {s : Stub I}
    {implementation : I.Implementation m} (hreach : Interface.Reaches exchange s implementation)
    (r : I.Request) (hcall : (I.call r).encode.text.utf8ByteSize ≤ maxPayload) :
    (Stub.request exchange s r = do
      let o ← implementation r
      return if (I.report r o).encode.text.utf8ByteSize ≤ maxPayload then I.delivered r o
        else .error (I.ofCallError (.transport .endOfStream))) ∧
    (∀ x, I.delivered r (.returned x) = .ok x) ∧
    (∀ e, (∀ c, e ≠ I.ofCallError c) → I.delivered r (.raised e) = .error e) ∧
    ∀ c, ∃ f : EncodeError, I.delivered r (.raised (I.ofCallError c)) =
      .error (I.ofCallError (.dispatch
        (CallError.encode (I.message (I.ofCallError c) ++ " (" ++ f.message ++ ")")).message)) := by
  have hfaithful := faithful_of_mem hI
  refine ⟨hfaithful.request_eq hreach r hcall, fun _ => rfl, fun e he => ?_, fun c => ?_⟩
  · rcases hfaithful.error e with ⟨v, hv, -, -⟩ | ⟨c, hc⟩
    · unfold Interface.delivered
      dsimp only
      rw [hv]
    · exact absurd hc (he c)
  · obtain ⟨f, hf⟩ := hfaithful.callError c
    refine ⟨f, ?_⟩
    unfold Interface.delivered
    dsimp only
    rw [hf]

/-- A connection that leads straight to a skeleton. -/
def Interface.line {m : Type → Type} [Monad m] {I : Interface}
    (implementation : I.Implementation m) : Stub.Exchange m := fun _ _ sent => do
  match ← I.serve implementation sent with
  | .ok frame => return .ok frame.bytes
  | .error _ => return .ok []

/-- Notes every command and answers that something changed. -/
def noting : commandInterface.Implementation (StateM (List CommandRequest)) := fun r => do
  modify (· ++ [r])
  return .returned true

theorem request_transparent_noting :
    commandInterface ∈ clusterInterfaces ∧
    Interface.Reaches (Interface.line noting) (⟨"storage", 2000⟩ : CommandStub) noting ∧
    (commandInterface.call (.delete .root)).encode.text.utf8ByteSize ≤ maxPayload ∧
    (Stub.request (Interface.line noting) (⟨"storage", 2000⟩ : CommandStub) (.delete .root)).run [] =
      (.ok true, [.delete .root]) := by
  have hmem : commandInterface ∈ clusterInterfaces := by simp [clusterInterfaces]
  have hcall : (commandInterface.call (.delete .root)).encode.text.utf8ByteSize ≤ maxPayload := by
    rw [← Text.length_encode]
    show (written (.object [("method", .string "delete"), ("signature", .array [.string "Path"]),
      ("args", .array [.string "/"])])).length ≤ _
    simp only [written_object, writtenMembers_cons, written_array, written_string, writtenString]
    decide
  have hreport : (commandInterface.report (.delete .root) (.returned true)).encode.text.utf8ByteSize
      ≤ maxPayload := by
    rw [← Text.length_encode]
    have hpayload : (commandInterface.report (.delete .root) (.returned true)).encode =
        .object [("ok", .bool true), ("payload", .bool true)] := by
      show Json.object [("ok", .bool true), ("payload", (Json.bool true).canonical)] = _
      simp [canonical]
    rw [hpayload]
    show (written _).length ≤ _
    simp only [written_object, writtenMembers_cons, writtenString]
    decide
  have hreach : Interface.Reaches (Interface.line noting) (⟨"storage", 2000⟩ : CommandStub) noting :=
    fun _ => rfl
  refine ⟨hmem, hreach, hcall, ?_⟩
  rw [(request_transparent hmem hreach (.delete .root) hcall).1]
  exact congrArg (·, [CommandRequest.delete Path.root]) (if_pos hreport)

end FileCluster
