import FileCluster.Proofs.Remote.Dispatch
import FileCluster.Proofs.Remote.Streams

/-!
Skeletons act on well-formed calls only.

A call is well formed for an interface if it names a method of the interface's table and brings one
argument for each parameter, of the parameter's type (`TypedInterface.Asks`). Main statement: a
skeleton runs its implementation once, on the request asked, for a well-formed call and not at all
for any other bytes, and answers with one frame (`handle_wellFormed`).
-/

namespace FileCluster

open Json Wire

/-! ## Well-formed calls -/

/-- The bytes begin with a frame that holds a call of a method of the interface, by its name and the
types of its parameters, with these arguments and no others. -/
def TypedInterface.Asks (T : TypedInterface) (incoming : List UInt8) (method : Method)
    (args : List Argument) : Prop :=
  ∃ (payload : List UInt8) (call : Call), Frame.Begins incoming payload ∧
    Wire.read? payload = some call ∧ method ∈ T.interface.methods ∧ call.method = method.name ∧
    call.signature = method.params ∧ Argument.decodeAll? method.params call.args = some args

/-- A call names a method of the table by its name and the types of its parameters. -/
theorem Interface.lookup_eq_some {I : Interface} {name : String} {signature : List String}
    {method : Method} :
    I.lookup name signature = some method ↔
      method ∈ I.methods ∧ name = method.name ∧ signature = method.params := by
  have hmatches : ∀ m : Method, m.matches name signature = true ↔
      name = m.name ∧ signature = m.params := by
    intro m
    unfold Method.matches
    rw [Bool.and_eq_true, beq_iff_eq, beq_iff_eq, eq_comm, eq_comm (a := m.params)]
  unfold lookup
  constructor
  · intro h
    have hmatch := List.find?_some h
    exact ⟨List.mem_of_find?_eq_some h, (hmatches method).mp hmatch⟩
  · rintro ⟨hmem, hname, hsignature⟩
    cases h : I.methods.find? fun m => m.matches name signature with
    | none =>
      have hnone := List.find?_eq_none.mp h method hmem
      exact absurd ((hmatches method).mpr ⟨hname, hsignature⟩) hnone
    | some m =>
      have hmatch := List.find?_some h
      obtain ⟨hname', hsignature'⟩ := (hmatches m).mp hmatch
      obtain ⟨n, ps⟩ := m
      obtain ⟨n', ps'⟩ := method
      obtain rfl : n = n' := hname'.symm.trans hname
      obtain rfl : ps = ps' := hsignature'.symm.trans hsignature
      rfl

namespace TypedInterface

variable {T : TypedInterface} {m : Type → Type} [Monad m] {call : Call}

/-- A well-formed call is answered by a run of its request. -/
theorem FollowsTable.respond_asked [LawfulMonad m] (h : T.FollowsTable)
    (implementation : T.interface.Implementation m) {method : Method} {args : List Argument}
    (hmethod : T.interface.lookup call.method call.signature = some method)
    (hargs : Argument.decodeAll? method.params call.args = some args) :
    ∃ r, T.interface.method r = method ∧ T.values r = args ∧
      T.interface.respond implementation call = do
        return T.interface.report r (← implementation r) := by
  obtain ⟨r, rfl, rfl⟩ := h.request_of method (Interface.lookup_eq_some.mp hmethod).1 _ _ hargs
  refine ⟨r, rfl, rfl, ?_⟩
  unfold Interface.respond Interface.dispatch Interface.report
  rw [hmethod]
  dsimp only
  rw [(h.read_eq_ok _ _ r).mpr ⟨rfl, hargs⟩]
  simp

/-- Any other call is refused. -/
theorem FollowsTable.respond_refused [LawfulMonad m] (h : T.FollowsTable)
    (hfaithful : T.interface.Faithful) (implementation : T.interface.Implementation m)
    (hnot : ∀ method args, T.interface.lookup call.method call.signature = some method →
      Argument.decodeAll? method.params call.args ≠ some args) :
    ∃ reason, T.interface.respond implementation call = pure (.refusal reason) := by
  unfold Interface.respond
  cases hmethod : T.interface.lookup call.method call.signature with
  | none => exact ⟨_, rfl⟩
  | some method =>
    cases hread : T.interface.read method.name call.args with
    | error e =>
      refine ⟨e.message, ?_⟩
      unfold Interface.dispatch
      dsimp only
      rw [hread]
      simp [Interface.responseTo]
    | ok r =>
      obtain ⟨hname, hargs⟩ := (h.read_eq_ok _ _ _).mp hread
      have hmem := (Interface.lookup_eq_some.mp (hfaithful.lookup r)).1
      have hmem' := (Interface.lookup_eq_some.mp hmethod).1
      obtain rfl : method = T.interface.method r := h.names_distinct _ hmem' _ hmem hname
      exact absurd hargs (hnot _ _ hmethod)

/-- A method and its arguments make one request. -/
theorem FollowsTable.request_unique (h : T.FollowsTable) (hfaithful : T.interface.Faithful)
    {r r' : T.interface.Request} (hmethod : T.interface.method r = T.interface.method r')
    (hvalues : T.values r = T.values r') : r = r' := by
  have hread := hfaithful.read r
  have hargs := ((h.read_eq_ok _ _ _).mp hread).2
  rw [hmethod, hvalues] at hargs
  have hread' := (h.read_eq_ok _ _ _).mpr ⟨congrArg Method.name hmethod, hargs⟩
  exact Except.ok.inj (hread.symm.trans hread')

end TypedInterface

/-! ## Serving a connection -/

/-- A connection that accepts writes takes a response whole, in one frame. A response that is too
long for a frame is told to the hooks, and nothing is sent. -/
theorem Outlet.deliver_response (sent : List UInt8) (response : Response) :
    deliver ⟨sent, none⟩ (Frame.write response) =
      if h : response.encode.text.utf8ByteSize ≤ maxPayload then
        (⟨sent ++ Frame.bytes ⟨response.encode.text, h⟩, none⟩, [])
      else (⟨sent, none⟩,
        [.serviceError (.protocol (.tooLong response.encode.text.utf8ByteSize))]) := by
  by_cases h : response.encode.text.utf8ByteSize ≤ maxPayload
  · rw [dif_pos h, Frame.write_eq rfl h]
    unfold deliver
    dsimp only
    rw [sendFrame_accepting]
  · rw [dif_neg h, Frame.write_eq_error rfl h]
    rfl

/-- A skeleton runs its implementation once, on the request of the method and the arguments asked
for, if the bytes begin with a frame that holds a well-formed call, and otherwise not at all: then
the response is a refusal. Over a connection that accepts writes the response goes out as one frame;
one that is too long for a frame is told to the hooks, and no byte of it is sent. -/
theorem handle_wellFormed {T : TypedInterface} (hT : T ∈ typedInterfaces) {m : Type → Type}
    [Monad m] [LawfulMonad m] (implementation : T.interface.Implementation m)
    (incoming : List UInt8) (out : Outlet) :
    (∀ method args, T.Asks incoming method args →
      ∃ r, T.interface.method r = method ∧ T.values r = args ∧
        (∀ r', T.interface.method r' = method → T.values r' = args → r' = r) ∧
        T.interface.handle implementation incoming out = do
          let o ← implementation r
          return out.deliver (Frame.write (T.interface.report r o))) ∧
    ((∀ method args, ¬T.Asks incoming method args) →
      ∃ reason, T.interface.handle implementation incoming out =
        pure (out.deliver (Frame.write (Response.refusal reason)))) ∧
    ∀ (sent : List UInt8) (response : Response), Outlet.deliver ⟨sent, none⟩ (Frame.write response) =
      if h : response.encode.text.utf8ByteSize ≤ maxPayload then
        (⟨sent ++ Frame.bytes ⟨response.encode.text, h⟩, none⟩, [])
      else (⟨sent, none⟩,
        [.serviceError (.protocol (.tooLong response.encode.text.utf8ByteSize))]) := by
  obtain ⟨hfaithful, htable⟩ := TypedInterface.followsTable_of_mem hT
  refine ⟨?_, fun hnot => ?_, Outlet.deliver_response⟩
  · rintro method args ⟨payload, call, hbegins, hcall, hmem, hname, hsignature, hargs⟩
    have hread := Frame.read_eq_ok.mpr ⟨payload, hbegins, hcall⟩
    have hmethod := Interface.lookup_eq_some.mpr ⟨hmem, hname, hsignature⟩
    obtain ⟨r, rfl, rfl, hrespond⟩ := htable.respond_asked implementation hmethod hargs
    refine ⟨r, rfl, rfl, fun r' => htable.request_unique hfaithful, ?_⟩
    unfold Interface.handle Interface.serve
    rw [hread]
    dsimp only
    rw [hrespond]
    simp
  · unfold Interface.handle Interface.serve
    cases hread : (Frame.read incoming : Except CallError Call × List UInt8).1 with
    | error e =>
      refine ⟨e.message, ?_⟩
      simp
    | ok call =>
      obtain ⟨payload, hbegins, hcall⟩ := Frame.read_eq_ok.mp hread
      obtain ⟨reason, hrespond⟩ := htable.respond_refused hfaithful implementation
        fun method args hmethod hargs => by
          obtain ⟨hmem, hname, hsignature⟩ := Interface.lookup_eq_some.mp hmethod
          exact hnot method args ⟨payload, call, hbegins, hcall, hmem, hname, hsignature, hargs⟩
      refine ⟨reason, ?_⟩
      dsimp only
      rw [hrespond]
      simp

theorem handle_wellFormed_noting :
    typedCommand ∈ typedInterfaces ∧
    ∃ incoming, typedCommand.Asks incoming ⟨"delete", ["Path"]⟩ [.path .root] ∧
      ((commandInterface.handle noting incoming .accepting).run []).2 = [.delete .root] ∧
      ∃ cut, (∀ method args, ¬typedCommand.Asks cut method args) ∧
        ((commandInterface.handle noting cut .accepting).run []).2 = [] := by
  have hmem : typedCommand ∈ typedInterfaces := by simp [typedInterfaces]
  have hfits : (⟨"delete", ["Path"], [.string "/"]⟩ : Call).encode.text.utf8ByteSize ≤
      maxPayload := by
    rw [← Text.length_encode]
    show (written (.object [("method", .string "delete"), ("signature", .array [.string "Path"]),
      ("args", .array [.string "/"])])).length ≤ _
    simp only [written_object, writtenMembers_cons, written_array, written_string, writtenString]
    decide
  have hread := Call.read?_written (c := ⟨"delete", ["Path"], [.string "/"]⟩)
    (List.forall_mem_singleton.mpr (plain_string 2 "/"))
  have hasks : typedCommand.Asks ((⟨_, hfits⟩ : Frame).bytes ++ []) ⟨"delete", ["Path"]⟩
      [.path .root] := by
    refine ⟨_, _, Frame.begins_bytes _ [], hread, by decide, rfl, rfl, ?_⟩
    exact Argument.decodeAll?_path.mpr
      ⟨.string "/", .root, by simp [canonical], decodePath_text .root, rfl⟩
  have hcut : ∀ method args, ¬typedCommand.Asks [] method args := by
    rintro method args ⟨payload, call, ⟨hnone, -⟩, -⟩
    cases hnone
  obtain ⟨r, hmethod, hvalues, -, hrun⟩ :=
    (handle_wellFormed hmem noting ((⟨_, hfits⟩ : Frame).bytes ++ []) .accepting).1 _ _ hasks
  obtain ⟨reason, hrefused⟩ := (handle_wellFormed hmem noting [] .accepting).2.1 hcut
  refine ⟨hmem, _, hasks, ?_, [], hcut, ?_⟩
  · cases r with
    | create p =>
      have hname : "create" = "delete" := congrArg Method.name hmethod
      exact absurd hname (by decide)
    | delete p =>
      obtain rfl : p = .root := Argument.path.inj (List.cons.inj hvalues).1
      exact congrArg (fun run => (run.run []).2) hrun
  · exact congrArg (fun run => (run.run []).2) hrefused

end FileCluster
