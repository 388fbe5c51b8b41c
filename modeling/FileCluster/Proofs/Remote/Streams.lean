import FileCluster.Proofs.Remote.Framing

/-!
Messages one after the other on a stream.

What is written frame by frame is read frame by frame, and whatever comes after the last frame is
left alone (`readAll_writeAll`). How reading ends is decided by the first four bytes and by the
length of the stream (`Frame.read_cases`); how writing ends, by the length of the payload
(`Frame.writeTo_of_fits`, `Frame.writeTo_of_long`). Main statement: frames are lossless and delimit
themselves (`frames_delimit`).
-/

namespace FileCluster

open Json Wire

/-! ## Reading -/

section Reading

variable {α : Type} [Wire α] {stream payload : List UInt8}

theorem Frame.read_of_truncated (h : Truncated stream) :
    (read stream : Except CallError α × List UInt8) = (.error (.transport .endOfStream), []) := by
  unfold read
  rw [split_of_truncated h]

theorem Frame.read_of_oversized {n : Nat} (hn : announces? stream = some n)
    (hlong : maxPayload < n) :
    (read stream : Except CallError α × List UInt8) =
      (.error (.protocol (.announcedTooLong n)), stream.drop 4) := by
  unfold read
  rw [split_of_oversized hn hlong]

theorem Frame.read_of_begins (h : Begins stream payload) :
    (read stream : Except CallError α × List UInt8) =
      (match Wire.read? payload with
      | some message => .ok message
      | none => .error (.decode .unreadable), stream.drop (4 + payload.length)) := by
  unfold read
  rw [split_of_begins h]
  dsimp only
  cases (Wire.read? payload : Option α) <;> rfl

/-- A message is read exactly if the stream begins with a frame that holds it. -/
theorem Frame.read_eq_ok {message : α} :
    (read stream : Except CallError α × List UInt8).1 = .ok message ↔
      ∃ payload, Begins stream payload ∧ Wire.read? payload = some message := by
  constructor
  · intro hok
    obtain h | ⟨n, hn, hlong⟩ | ⟨payload, h⟩ := stream_cases stream
    · rw [read_of_truncated h] at hok
      exact nomatch hok
    · rw [read_of_oversized hn hlong] at hok
      exact nomatch hok
    · rw [read_of_begins h] at hok
      refine ⟨payload, h, ?_⟩
      cases hread : (Wire.read? payload : Option α) with
      | none =>
        rw [hread] at hok
        exact nomatch hok
      | some x =>
        rw [hread] at hok
        exact congrArg some (Except.ok.inj hok)
  · rintro ⟨payload, h, hread⟩
    rw [read_of_begins h, hread]

/-- What comes of reading a frame as a message: what was read, and what was left on the stream. -/
structure Frame.ReadsByLength (α : Type) [Wire α] (stream : List UInt8) : Prop where
  transport : (∃ cause, (read stream : Except CallError α × List UInt8).1 =
    .error (.transport cause)) ↔ Truncated stream
  protocol : (∃ fault, (read stream : Except CallError α × List UInt8).1 =
    .error (.protocol fault)) ↔ Oversized stream
  length_taken : Oversized stream →
    (read stream : Except CallError α × List UInt8).2 = stream.drop 4
  frame_taken : ¬Truncated stream → ¬Oversized stream → ∃ payload, Begins stream payload ∧
    (read stream : Except CallError α × List UInt8).2 = stream.drop (4 + payload.length) ∧
    ((∃ message, (read stream : Except CallError α × List UInt8).1 = .ok message) ∨
      ∃ fault, (read stream : Except CallError α × List UInt8).1 = .error (.decode fault))

theorem Frame.read_of_begins_cases (α : Type) [Wire α] (h : Begins stream payload) :
    (∃ message, (read stream : Except CallError α × List UInt8).1 = .ok message) ∨
      ∃ fault, (read stream : Except CallError α × List UInt8).1 = .error (.decode fault) := by
  rw [read_of_begins h]
  cases (Wire.read? payload : Option α) with
  | some message => exact .inl ⟨message, rfl⟩
  | none => exact .inr ⟨_, rfl⟩

/-- The first four bytes of a stream and its length decide how reading ends. -/
theorem Frame.readsByLength (α : Type) [Wire α] (stream : List UInt8) :
    ReadsByLength α stream := by
  have hlong : Oversized stream → ∃ n, (read stream : Except CallError α × List UInt8) =
      (.error (.protocol (.announcedTooLong n)), stream.drop 4) :=
    fun ⟨n, hn, hlong⟩ => ⟨n, read_of_oversized hn hlong⟩
  constructor
  case transport =>
    refine ⟨?_, fun h => ⟨_, by rw [read_of_truncated h]⟩⟩
    rintro ⟨cause, hcause⟩
    obtain h | h | ⟨payload, h⟩ := stream_cases stream
    · exact h
    · obtain ⟨n, hn⟩ := hlong h
      rw [hn] at hcause
      exact nomatch hcause
    · obtain ⟨message, hm⟩ | ⟨fault, hf⟩ := read_of_begins_cases α h
      · exact nomatch hm.symm.trans hcause
      · exact nomatch hf.symm.trans hcause
  case protocol =>
    constructor
    · rintro ⟨fault, hfault⟩
      obtain h | h | ⟨payload, h⟩ := stream_cases stream
      · rw [read_of_truncated h] at hfault
        exact nomatch hfault
      · exact h
      · obtain ⟨message, hm⟩ | ⟨fault', hf⟩ := read_of_begins_cases α h
        · exact nomatch hm.symm.trans hfault
        · exact nomatch hf.symm.trans hfault
    · intro h
      obtain ⟨n, hn⟩ := hlong h
      exact ⟨_, by rw [hn]⟩
  case length_taken =>
    intro h
    obtain ⟨n, hn⟩ := hlong h
    rw [hn]
  case frame_taken =>
    intro hshort hlong
    obtain h | h | ⟨payload, h⟩ := stream_cases stream
    · exact absurd h hshort
    · exact absurd h hlong
    · exact ⟨payload, h, by rw [read_of_begins h], read_of_begins_cases α h⟩

end Reading

/-! ## Writing -/

section Writing

variable {α : Type} [Wire α] {x : α}

theorem Frame.writeTo_of_unencodable {e : EncodeError} (h : Wire.encode x = .error e)
    (out : Outlet) : writeTo out x = (.error (.encode e.message), out) := by
  unfold writeTo write
  rw [h]

theorem Frame.writeTo_of_long {v : Json} (h : Wire.encode x = .ok v)
    (hlong : maxPayload < v.text.utf8ByteSize) (out : Outlet) :
    writeTo out x = (.error (.protocol (.tooLong v.text.utf8ByteSize)), out) := by
  unfold writeTo
  rw [write_eq_error h (Nat.not_le.mpr hlong)]

theorem Frame.writeTo_of_fits {v : Json} (h : Wire.encode x = .ok v)
    (hfits : v.text.utf8ByteSize ≤ maxPayload) (out : Outlet) :
    writeTo out x = out.sendFrame ⟨v.text, hfits⟩ := by
  unfold writeTo
  rw [write_eq h hfits]

/-- A connection that accepts writes takes a frame whole. -/
theorem Outlet.sendFrame_accepting (sent : List UInt8) (f : Frame) :
    sendFrame ⟨sent, none⟩ f = (.ok (), ⟨sent ++ f.bytes, none⟩) := by
  show (Except.ok (), (⟨sent ++ f.header ++ _, none⟩ : Outlet)) = _
  rw [List.append_assoc]
  rfl

/-- A connection fails with the transport only. -/
theorem Outlet.send_error {out : Outlet} {bytes : List UInt8} {e : CallError}
    (h : (out.send bytes).1 = .error e) : ∃ cause, e = .transport cause := by
  unfold send at h
  split at h
  · exact nomatch h
  · split at h
    · exact nomatch h
    · exact ⟨_, (Except.error.inj h).symm⟩

theorem Outlet.sendFrame_error {out : Outlet} {f : Frame} {e : CallError}
    (h : (out.sendFrame f).1 = .error e) : ∃ cause, e = .transport cause := by
  unfold sendFrame at h
  split at h
  next e' out' hsend =>
    obtain rfl : e' = e := Except.error.inj h
    exact send_error (congrArg Prod.fst hsend)
  next => exact send_error h

/-- What comes of writing a message to a connection. -/
structure Frame.WritesByLength (x : α) (out : Outlet) : Prop where
  encode : (∃ reason, (writeTo out x).1 = .error (.encode reason)) ↔ ∃ e, Wire.encode x = .error e
  protocol : ∀ v, Wire.encode x = .ok v →
    ((∃ fault, (writeTo out x).1 = .error (.protocol fault)) ↔ maxPayload < v.text.utf8ByteSize)
  nothing_sent : ∀ e, (writeTo out x).1 = .error e → (∀ cause, e ≠ .transport cause) →
    (writeTo out x).2 = out
  all_sent : ∀ v, Wire.encode x = .ok v → v.text.utf8ByteSize ≤ maxPayload → out.limit = none →
    writeTo out x =
      (.ok (), ⟨out.sent ++ (lengthBytes v.text.utf8ByteSize ++ Text.encode v.text), none⟩)

/-- Whether a message can be encoded, and its length, decide how writing it ends, unless the
connection fails. -/
theorem Frame.writesByLength (x : α) (out : Outlet) : WritesByLength x out := by
  have hcases : ∀ {v e}, Wire.encode x = .ok v → (writeTo out x).1 = .error e →
      (∃ cause, e = .transport cause) ∨ maxPayload < v.text.utf8ByteSize := by
    intro v e hv he
    by_cases hfits : v.text.utf8ByteSize ≤ maxPayload
    · rw [writeTo_of_fits hv hfits] at he
      exact .inl (Outlet.sendFrame_error he)
    · exact .inr (Nat.not_le.mp hfits)
  constructor
  case encode =>
    refine ⟨?_, fun ⟨e, he⟩ => ⟨_, by rw [writeTo_of_unencodable he]⟩⟩
    rintro ⟨reason, hreason⟩
    cases hv : Wire.encode x with
    | error e => exact ⟨e, rfl⟩
    | ok v =>
      obtain ⟨cause, hcause⟩ | hlong := hcases hv hreason
      · exact nomatch hcause
      · rw [writeTo_of_long hv hlong] at hreason
        exact nomatch hreason
  case protocol =>
    refine fun v hv => ⟨?_, fun hlong => ⟨_, by rw [writeTo_of_long hv hlong]⟩⟩
    rintro ⟨fault, hfault⟩
    obtain ⟨cause, hcause⟩ | hlong := hcases hv hfault
    · exact nomatch hcause
    · exact hlong
  case nothing_sent =>
    intro e he hnot
    cases hv : Wire.encode x with
    | error f => rw [writeTo_of_unencodable hv]
    | ok v =>
      obtain ⟨cause, hcause⟩ | hlong := hcases hv he
      · exact absurd hcause (hnot cause)
      · rw [writeTo_of_long hv hlong]
  case all_sent =>
    intro v hv hfits hlimit
    obtain ⟨sent, limit⟩ := out
    obtain rfl : limit = none := hlimit
    rw [writeTo_of_fits hv hfits, Outlet.sendFrame_accepting]
    rfl

end Writing

/-! ## Messages in a row -/

/-- What travels in a frame. -/
inductive Message where
  | call (c : Call)
  | response (r : Response)

/-- What a reader expects of a frame. -/
inductive Message.Kind where
  | call
  | response

namespace Message

/-- What kind a message is of. -/
def kind : Message → Kind
  | .call _ => .call
  | .response _ => .response

/-- A message as it is written. -/
def value : Message → Json
  | .call c => c.encode
  | .response r => r.encode

/-- The JSON values that a message holds. -/
def held : Message → List Json
  | .call c => c.args
  | .response r => [r.payload]

/-- A message with its values in canonical form. -/
def canonical : Message → Message
  | .call c => .call ⟨c.method, c.signature, c.args.map Json.canonical⟩
  | .response r => .response ⟨r.ok, r.payload.canonical⟩

/-- Sends a message. -/
def writeTo (out : Outlet) : Message → Except CallError Unit × Outlet
  | .call c => Frame.writeTo out c
  | .response r => Frame.writeTo out r

/-- Reads a message of a kind off a stream. -/
def read (stream : List UInt8) : Kind → Except CallError Message × List UInt8
  | .call => ((Frame.read stream).1.map call, (Frame.read (α := Call) stream).2)
  | .response => ((Frame.read stream).1.map response, (Frame.read (α := Response) stream).2)

/-- Sends messages in turn, up to the first that cannot be sent. -/
def writeAll (out : Outlet) : List Message → Except CallError Unit × Outlet
  | [] => (.ok (), out)
  | m :: ms =>
    match m.writeTo out with
    | (.ok (), out) => writeAll out ms
    | (.error e, out) => (.error e, out)

/-- Reads a message of each of several kinds in turn, up to the first that cannot be read. -/
def readAll (stream : List UInt8) : List Kind → Except CallError (List Message) × List UInt8
  | [] => (.ok [], stream)
  | k :: ks =>
    match read stream k with
    | (.error e, rest) => (.error e, rest)
    | (.ok m, rest) => ((readAll rest ks).1.map (m :: ·), (readAll rest ks).2)

/-- A message that can be sent: every object in it has its members in key order, each key once, as
an object in memory does; no number in it is a floating-point one, it nests no deeper than a reader
allows, and it fits a frame. -/
structure Sendable (m : Message) : Prop where
  canonical : ∀ v ∈ m.held, v.IsCanonical
  plain : m.value.Plain maxDepth
  fits : m.value.text.utf8ByteSize ≤ maxPayload

theorem Sendable.canonical_eq {m : Message} (h : m.Sendable) : m.canonical = m := by
  cases m with
  | call c =>
    have hargs : c.args.map Json.canonical = c.args := by
      conv => rhs; rw [← List.map_id c.args]
      exact List.map_congr_left fun v hv => canonical_eq_self (h.canonical v hv)
    exact congrArg (fun args => call ⟨c.method, c.signature, args⟩) hargs
  | response r =>
    have hpayload : r.payload.canonical = r.payload :=
      canonical_eq_self (h.canonical r.payload List.mem_cons_self)
    exact congrArg (fun payload => response ⟨r.ok, payload⟩) hpayload

/-- The frame of a message. -/
def Sendable.frame {m : Message} (h : m.Sendable) : Frame := ⟨m.value.text, h.fits⟩

theorem Sendable.writeTo_eq {m : Message} (h : m.Sendable) (sent : List UInt8) :
    m.writeTo ⟨sent, none⟩ = (.ok (), ⟨sent ++ h.frame.bytes, none⟩) := by
  cases m with
  | call c =>
    exact (Frame.writeTo_of_fits (x := c) rfl h.fits _).trans (Outlet.sendFrame_accepting _ _)
  | response r =>
    exact (Frame.writeTo_of_fits (x := r) rfl h.fits _).trans (Outlet.sendFrame_accepting _ _)

theorem Sendable.read_eq {m : Message} (h : m.Sendable) (rest : List UInt8) :
    read (h.frame.bytes ++ rest) m.kind = (.ok m, rest) := by
  have hself := h.canonical_eq
  cases m with
  | call c =>
    have hread := Frame.read_of_payload (Call.read?_plain h.plain) h.fits rest
    show (Except.map call (Frame.read _).1, (Frame.read (α := Call) _).2) = _
    rw [show h.frame = ⟨c.encode.text, h.fits⟩ from rfl, hread]
    exact congrArg (fun m => (Except.ok m, rest)) hself
  | response r =>
    have hread := Frame.read_of_payload (Response.read?_plain h.plain) h.fits rest
    show (Except.map response (Frame.read _).1, (Frame.read (α := Response) _).2) = _
    rw [show h.frame = ⟨r.encode.text, h.fits⟩ from rfl, hread]
    exact congrArg (fun m => (Except.ok m, rest)) hself

/-- Messages written one after the other are read one after the other. -/
theorem readAll_writeAll {ms : List Message} (h : ∀ m ∈ ms, m.Sendable) (sent : List UInt8) :
    ∃ bytes, writeAll ⟨sent, none⟩ ms = (.ok (), ⟨sent ++ bytes, none⟩) ∧
      ∀ rest, readAll (bytes ++ rest) (ms.map kind) = (.ok ms, rest) := by
  induction ms generalizing sent with
  | nil => exact ⟨[], by rw [writeAll, List.append_nil], fun rest => rfl⟩
  | cons m ms ih =>
    obtain ⟨hm, hms⟩ := List.forall_mem_cons.mp h
    obtain ⟨bytes, hwrite, hread⟩ := ih hms (sent ++ hm.frame.bytes)
    refine ⟨hm.frame.bytes ++ bytes, ?_, fun rest => ?_⟩
    · rw [writeAll, hm.writeTo_eq]
      dsimp only
      rw [hwrite, List.append_assoc]
    · rw [List.map_cons, readAll, List.append_assoc, hm.read_eq]
      dsimp only
      rw [hread]
      rfl

end Message

/-! ## Frames delimit themselves -/

/-- Messages sent one after the other are read one after the other, and what follows the last of
them is left. What comes of reading any stream is decided by its first four bytes and its length,
and what comes of sending a message by its encoding. A payload is too long to be sent exactly if it
is too long to be read. -/
theorem frames_delimit :
    (∀ (ms : List Message) (sent : List UInt8), (∀ m ∈ ms, m.Sendable) →
      ∃ bytes, Message.writeAll ⟨sent, none⟩ ms = (.ok (), ⟨sent ++ bytes, none⟩) ∧
        ∀ rest, Message.readAll (bytes ++ rest) (ms.map Message.kind) = (.ok ms, rest)) ∧
    (∀ (α : Type) [Wire α] (stream : List UInt8), Frame.ReadsByLength α stream) ∧
    (∀ (α : Type) [Wire α] (x : α) (out : Outlet), Frame.WritesByLength x out) ∧
    ∀ (α β : Type) [Wire α] [Wire β] (x : α) (out : Outlet) (v : Json) (stream : List UInt8),
      Wire.encode x = .ok v → Frame.announces? stream = some v.text.utf8ByteSize →
        ((∃ fault, (Frame.writeTo out x).1 = .error (.protocol fault)) ↔
          ∃ fault, (Frame.read stream : Except CallError β × List UInt8).1 =
            .error (.protocol fault)) := by
  refine ⟨fun ms sent h => Message.readAll_writeAll h sent, fun α _ => Frame.readsByLength α,
    fun α _ => Frame.writesByLength, fun α β _ _ x out v stream hv hn => ?_⟩
  rw [(Frame.writesByLength x out).protocol v hv, (Frame.readsByLength β stream).protocol]
  constructor
  · exact fun hlong => ⟨_, hn, hlong⟩
  · rintro ⟨n, hn', hlong⟩
    obtain rfl : v.text.utf8ByteSize = n := Option.some.inj (hn.symm.trans hn')
    exact hlong

/-- A call with a nested object for an argument, and a response with the largest number. -/
def exchanged : List Message :=
  [.call ⟨"list", ["Path"], [.object [("at", .array [.string "/é", .null])]]⟩,
    .response ⟨true, .ofUInt64 0xffffffffffffffff⟩]

theorem frames_delimit_exchanged :
    (∀ m ∈ exchanged, m.Sendable) ∧
    ∃ bytes, Message.writeAll .accepting exchanged = (.ok (), ⟨bytes, none⟩) ∧
      Message.readAll (bytes ++ [0x2a]) [.call, .response] = (.ok exchanged, [0x2a]) := by
  have hsendable : ∀ m ∈ exchanged, m.Sendable := by
    refine List.forall_mem_cons.mpr ⟨?_, List.forall_mem_singleton.mpr ?_⟩
    · refine ⟨?_, ?_, ?_⟩
      · simp [Message.held, IsCanonical, MembersCanonical, AllCanonical, Sorted.Increasing]
      · simp [Message.value, Call.encode, Plain, PlainMembers, PlainItems, maxDepth]
      · rw [← Text.length_encode]
        show (written (.object [("method", .string "list"), ("signature", .array [.string "Path"]),
          ("args", .array [.object [("at", .array [.string "/é", .null])]])])).length ≤ _
        simp only [written_object, writtenMembers_cons, written_array, writtenItems_cons,
          written_string, writtenString]
        decide
    · refine ⟨?_, ?_, ?_⟩
      · simp [Message.held, ofUInt64, IsCanonical]
      · simp [Message.value, Response.encode, ofUInt64, Plain, PlainMembers, maxDepth]
      · rw [← Text.length_encode]
        show (written (.object [("ok", .bool true),
          ("payload", .ofUInt64 0xffffffffffffffff)])).length ≤ _
        simp only [written_object, writtenMembers_cons, writtenString]
        decide
  obtain ⟨bytes, hwrite, hread⟩ := frames_delimit.1 exchanged [] hsendable
  exact ⟨hsendable, bytes, hwrite, hread [0x2a]⟩

end FileCluster
