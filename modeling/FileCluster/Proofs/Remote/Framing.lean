import FileCluster.Proofs.Wire.RoundTrip
import FileCluster.Remote.Frame

/-!
Messages read back from their frames.

The bytes of a frame split into its payload and whatever comes after (`Frame.split_bytes`). Any
stream is cut short, announces too long a payload or begins with a frame (`Frame.stream_cases`),
and splits accordingly. A call or a response whose values are plain reads back as itself, its values
in canonical form (`Frame.read_call`, `Frame.read_response`).
-/

namespace FileCluster

open Json Wire

/-! ## Frames -/

/-- The length that the first four bytes of a stream announce. -/
def Frame.announces? : List UInt8 → Option Nat
  | a :: b :: c :: d :: _ => some (announced a b c d)
  | _ => none

/-- A stream ends before its first frame does, which is not too long. -/
def Frame.Truncated (stream : List UInt8) : Prop :=
  stream.length < 4 ∨ ∃ n, announces? stream = some n ∧ n ≤ maxPayload ∧ stream.length < 4 + n

/-- A stream announces a payload that is too long. -/
def Frame.Oversized (stream : List UInt8) : Prop :=
  ∃ n, announces? stream = some n ∧ maxPayload < n

/-- A stream begins with a frame that holds a payload. -/
def Frame.Begins (stream payload : List UInt8) : Prop :=
  announces? stream = some payload.length ∧ payload.length ≤ maxPayload ∧
    payload <+: stream.drop 4

theorem Frame.announces?_eq_none {stream : List UInt8} (h : announces? stream = none) :
    stream.length < 4 := by
  match stream with
  | [] | [_] | [_, _] | [_, _, _] => simp
  | _ :: _ :: _ :: _ :: _ => exact nomatch h

theorem Frame.split_of_truncated {stream : List UInt8} (h : Truncated stream) :
    split stream = (.error (.transport .endOfStream), []) := by
  match stream with
  | [] | [_] | [_, _] | [_, _, _] => rfl
  | a :: b :: c :: d :: rest =>
    obtain hshort | ⟨n, hn, hfits, hshort⟩ := h
    · simp at hshort
      omega
    · obtain rfl : announced a b c d = n := Option.some.inj hn
      simp only [List.length_cons] at hshort
      unfold split
      dsimp only
      rw [if_neg (Nat.not_lt.mpr hfits), if_pos (by rw [List.length_take]; omega)]

theorem Frame.split_of_oversized {stream : List UInt8} {n : Nat}
    (hn : announces? stream = some n) (hlong : maxPayload < n) :
    split stream = (.error (.protocol (.announcedTooLong n)), stream.drop 4) := by
  match stream with
  | [] | [_] | [_, _] | [_, _, _] => exact nomatch hn
  | a :: b :: c :: d :: rest =>
    obtain rfl : announced a b c d = n := Option.some.inj hn
    unfold split
    dsimp only
    rw [if_pos hlong]
    rfl

theorem Frame.split_of_begins {stream payload : List UInt8} (h : Begins stream payload) :
    split stream = (.ok payload, stream.drop (4 + payload.length)) := by
  obtain ⟨hn, hfits, hprefix⟩ := h
  match stream with
  | [] | [_] | [_, _] | [_, _, _] => exact nomatch hn
  | a :: b :: c :: d :: rest =>
    have hlength : announced a b c d = payload.length := Option.some.inj hn
    have hpayload : payload = rest.take payload.length := List.prefix_iff_eq_take.mp hprefix
    unfold split
    dsimp only
    rw [hlength, ← hpayload, if_neg (Nat.not_lt.mpr hfits), if_neg (Nat.lt_irrefl _), Nat.add_comm]
    rfl

/-- A stream is cut short, or announces too long a payload, or begins with a frame. -/
theorem Frame.stream_cases (stream : List UInt8) :
    Truncated stream ∨ Oversized stream ∨ ∃ payload, Begins stream payload := by
  cases hn : announces? stream with
  | none => exact .inl (.inl (announces?_eq_none hn))
  | some n =>
    by_cases hlong : maxPayload < n
    · exact .inr (.inl ⟨n, hn, hlong⟩)
    · by_cases hshort : stream.length < 4 + n
      · exact .inl (.inr ⟨n, hn, Nat.not_lt.mp hlong, hshort⟩)
      · have hlength : ((stream.drop 4).take n).length = n := by
          rw [List.length_take, List.length_drop]
          omega
        refine .inr (.inr ⟨(stream.drop 4).take n, ?_, ?_, List.take_prefix _ _⟩)
        · rw [hlength, hn]
        · rw [hlength]
          exact Nat.not_lt.mp hlong

theorem Frame.begins_bytes (f : Frame) (rest : List UInt8) :
    Begins (f.bytes ++ rest) (Text.encode f.payload) := by
  have hlength : (Text.encode f.payload).length = f.payload.utf8ByteSize :=
    Text.length_encode f.payload
  have hfits : f.payload.utf8ByteSize < 0x100000000 := Nat.lt_of_le_of_lt f.fits (by decide)
  refine ⟨?_, hlength ▸ f.fits, rest, rfl⟩
  rw [hlength, ← announced_lengthBytes _ hfits]
  rfl

theorem Frame.split_bytes (f : Frame) (rest : List UInt8) :
    split (f.bytes ++ rest) = (.ok (Text.encode f.payload), rest) := by
  have hsize : 4 + (Text.encode f.payload).length = f.bytes.length := by
    rw [length_bytes, Text.length_encode, size, Nat.add_comm]
  rw [split_of_begins (begins_bytes f rest), hsize, List.drop_left]

theorem Frame.write_eq {α : Type} [Wire α] {x : α} {v : Json} (h : Wire.encode x = .ok v)
    (hfits : v.text.utf8ByteSize ≤ maxPayload) : write x = .ok ⟨v.text, hfits⟩ := by
  unfold write ofPayload
  rw [h]
  exact dif_pos hfits

theorem Frame.write_eq_error {α : Type} [Wire α] {x : α} {v : Json} (h : Wire.encode x = .ok v)
    (hlong : ¬v.text.utf8ByteSize ≤ maxPayload) :
    write x = .error (.protocol (.tooLong v.text.utf8ByteSize)) := by
  unfold write ofPayload
  rw [h]
  exact dif_neg hlong

theorem Frame.read_of_payload {α : Type} [Wire α] {v : Json} {y : α}
    (hread : Wire.read? (written v) = some y) (hfits : v.text.utf8ByteSize ≤ maxPayload)
    (rest : List UInt8) :
    read ((⟨v.text, hfits⟩ : Frame).bytes ++ rest) = (.ok y, rest) := by
  have hread : Wire.read? (Text.encode v.text) = some y := hread
  unfold read
  rw [split_bytes]
  dsimp only
  rw [hread]

/-! ## Messages -/

/-- A message whose text reads as a value, and the value decodes. -/
theorem Wire.read?_eq {α : Type} [Wire α] {v w : Json} {x : α}
    (hread : Json.read? (Wire.shape α) (written v) = some w) (hdecode : Wire.decode w = .ok x) :
    Wire.read? (written v) = some x := by
  unfold Wire.read?
  rw [hread]
  dsimp only
  rw [hdecode]

theorem Call.canonical_encode (c : Call) :
    c.encode.canonical = .object [("args", .array (c.args.map canonical)),
      ("method", .string c.method), ("signature", .array (c.signature.map .string))] := by
  have hfirst : "args" < "method" := by decide
  have hmethod : "method" < "signature" := by decide
  have hlast : Sorted.insert "signature" (.array (c.signature.map .string))
      [("method", Json.string c.method)] =
      [("method", .string c.method), ("signature", .array (c.signature.map .string))] :=
    insert_last _ (List.forall_mem_singleton.mpr hmethod)
  have hsignature : (Json.array (c.signature.map .string)).canonical =
      .array (c.signature.map .string) :=
    (array_of_scalars Json.string (fun s levels => plain_string levels s) canonical_string
      c.signature).2
  unfold Call.encode
  rw [canonical, canonicalMembers, canonicalMembers, canonicalMembers, canonicalMembers, hsignature,
    canonical_array, canonical_string, Sorted.insert, hlast, insert_first hfirst]

theorem Call.plain_encode {c : Call} {levels : Nat} (h : ∀ v ∈ c.args, v.Plain levels) :
    c.encode.Plain (levels + 2) := by
  have hsignature := (array_of_scalars Json.string (fun s levels => plain_string levels s)
    canonical_string c.signature).1 levels
  have hargs : (Json.array c.args).Plain (levels + 1) := by
    rw [Plain]
    exact ⟨by omega, plainItems_iff.mpr h⟩
  unfold Call.encode
  rw [Plain]
  refine ⟨by omega, ?_⟩
  simp only [PlainMembers, plain_string, true_and, and_true]
  exact ⟨hsignature, hargs⟩

/-- A call decodes from the canonical form of what encodes it, its arguments in canonical form. -/
theorem Call.decode_encode (c : Call) :
    Call.decode c.encode.canonical = .ok ⟨c.method, c.signature, c.args.map canonical⟩ := by
  have hlookup : ∀ v w x : Json,
      Sorted.lookup "args" [("args", v), ("method", w), ("signature", x)] = some v ∧
      Sorted.lookup "method" [("args", v), ("method", w), ("signature", x)] = some w ∧
      Sorted.lookup "signature" [("args", v), ("method", w), ("signature", x)] = some x := by
    simp [Sorted.lookup]
  obtain ⟨hargs, hmethod, hsignature⟩ := hlookup (.array (c.args.map canonical)) (.string c.method)
    (.array (c.signature.map .string))
  have hdecodeArgs : decodeList .ok (.array (c.args.map canonical)) = .ok (c.args.map canonical) := by
    have hall := decodeList_map id (fun _ => rfl) (c.args.map canonical)
    rwa [List.map_id] at hall
  have hdecodeSignature : decodeList decodeString (.array (c.signature.map .string)) =
      .ok c.signature := decodeList_map Json.string (fun _ => rfl) c.signature
  rw [canonical_encode]
  unfold Call.decode
  dsimp only
  rw [field?_of_lookup hargs hdecodeArgs, field?_of_lookup hmethod (x := c.method) rfl,
    field?_of_lookup hsignature hdecodeSignature]
  rfl

/-- A call that encodes as a plain value reads back with its arguments in canonical form. -/
theorem Call.read?_plain {c : Call} (hplain : c.encode.Plain maxDepth) :
    Wire.read? (written c.encode) = some (⟨c.method, c.signature, c.args.map canonical⟩ : Call) := by
  have hknown : ∀ m ∈ [("method", Json.string c.method),
      ("signature", .array (c.signature.map .string)), ("args", .array c.args)],
      m.1 ∈ ["method", "signature", "args"] := by simp
  exact Wire.read?_eq (read?_record hplain hknown (by simp)) (decode_encode c)

/-- A call with plain arguments reads back with its arguments in canonical form. -/
theorem Call.read?_written {c : Call} (h : ∀ v ∈ c.args, v.Plain 2) :
    Wire.read? (written c.encode) = some (⟨c.method, c.signature, c.args.map canonical⟩ : Call) :=
  read?_plain ((plain_encode h).mono (by decide))

theorem Response.plain_encode {r : Response} {levels : Nat} (h : r.payload.Plain levels) :
    r.encode.Plain (levels + 1) := by
  unfold Response.encode
  rw [Plain]
  refine ⟨by omega, ?_⟩
  simp only [PlainMembers, and_true]
  exact ⟨by simp [Plain], h⟩

/-- A response decodes from the canonical form of what encodes it, its payload in canonical
form. -/
theorem Response.decode_encode (r : Response) :
    Response.decode r.encode.canonical = .ok ⟨r.ok, r.payload.canonical⟩ := by
  have hcanonical : r.encode.canonical =
      .object [("ok", .bool r.ok), ("payload", r.payload.canonical)] := by
    have hok : (Json.bool r.ok).canonical = .bool r.ok := by simp [canonical]
    have hlast : "ok" < "payload" := by decide
    unfold Response.encode
    rw [canonical, canonicalMembers, canonicalMembers, canonicalMembers, hok, Sorted.insert,
      insert_last _ (List.forall_mem_singleton.mpr hlast)]
    rfl
  have hlookup : ∀ v w : Json,
      Sorted.lookup "ok" [("ok", v), ("payload", w)] = some v ∧
      Sorted.lookup "payload" [("ok", v), ("payload", w)] = some w := by
    simp [Sorted.lookup]
  obtain ⟨hok, hpayload⟩ := hlookup (.bool r.ok) r.payload.canonical
  rw [hcanonical]
  unfold Response.decode
  dsimp only
  rw [field?_of_lookup hok (x := r.ok) rfl, field?_of_lookup hpayload (x := r.payload.canonical) rfl]
  rfl

/-- A response that encodes as a plain value reads back with its payload in canonical form. -/
theorem Response.read?_plain {r : Response} (hplain : r.encode.Plain maxDepth) :
    Wire.read? (written r.encode) = some (⟨r.ok, r.payload.canonical⟩ : Response) := by
  have hknown : ∀ m ∈ [("ok", Json.bool r.ok), ("payload", r.payload)],
      m.1 ∈ ["ok", "payload"] := by simp
  exact Wire.read?_eq (read?_record hplain hknown (by simp)) (decode_encode r)

/-- A response with a plain payload reads back with its payload in canonical form. -/
theorem Response.read?_written {r : Response} (h : r.payload.Plain 126) :
    Wire.read? (written r.encode) = some (⟨r.ok, r.payload.canonical⟩ : Response) :=
  read?_plain (plain_encode h)

/-- A call that fits a frame is read from it, its arguments in canonical form. -/
theorem Frame.read_call {c : Call} (h : ∀ v ∈ c.args, v.Plain 2)
    (hfits : c.encode.text.utf8ByteSize ≤ maxPayload) (rest : List UInt8) :
    read ((⟨c.encode.text, hfits⟩ : Frame).bytes ++ rest) =
      (.ok (⟨c.method, c.signature, c.args.map canonical⟩ : Call), rest) :=
  read_of_payload (Call.read?_written h) hfits rest

/-- A response that fits a frame is read from it, its payload in canonical form. -/
theorem Frame.read_response {r : Response} (h : r.payload.Plain 126)
    (hfits : r.encode.text.utf8ByteSize ≤ maxPayload) (rest : List UInt8) :
    read ((⟨r.encode.text, hfits⟩ : Frame).bytes ++ rest) =
      (.ok (⟨r.ok, r.payload.canonical⟩ : Response), rest) :=
  read_of_payload (Response.read?_written h) hfits rest

end FileCluster
