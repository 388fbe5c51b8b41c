import FileCluster.Remote.Message

/-!
Frames.

A message travels as one frame: the length of its payload in four bytes, the highest first, and
then the payload, which is JSON text. A payload above `maxPayload` is neither sent nor accepted.
`Frame.write` and `Frame.read` are what both sides of a connection use; `Frame.writeTo` sends a
message over a connection that may fail.
-/

namespace FileCluster

/-- A frame: a payload that is not too long to be sent. -/
structure Frame where
  payload : String
  fits : payload.utf8ByteSize ≤ maxPayload

namespace Frame

/-- The four bytes of a length, the highest first. -/
def lengthBytes (n : Nat) : List UInt8 :=
  [UInt8.ofNat (n >>> 24), UInt8.ofNat (n >>> 16), UInt8.ofNat (n >>> 8), UInt8.ofNat n]

/-- The length that four bytes announce. -/
def announced (a b c d : UInt8) : Nat :=
  (a.toNat <<< 24) + (b.toNat <<< 16) + (c.toNat <<< 8) + d.toNat

/-- The bytes of a length announce it. -/
theorem announced_lengthBytes (n : Nat) (h : n < 0x100000000) :
    announced (.ofNat (n >>> 24)) (.ofNat (n >>> 16)) (.ofNat (n >>> 8)) (.ofNat n) = n := by
  simp only [announced, UInt8.toNat_ofNat', Nat.shiftRight_eq_div_pow, Nat.shiftLeft_eq]
  omega

/-- The bytes in front of the payload. -/
def header (f : Frame) : List UInt8 := lengthBytes f.payload.utf8ByteSize

/-- The bytes of a frame. -/
def bytes (f : Frame) : List UInt8 := f.header ++ f.payload.toUTF8.data.toList

/-- The number of bytes of a frame. -/
def size (f : Frame) : Nat := f.payload.utf8ByteSize + 4

theorem length_bytes (f : Frame) : f.bytes.length = f.size := by
  simp [bytes, header, lengthBytes, size]

/-- The frame of a payload; a payload that is too long is refused. -/
def ofPayload (payload : String) : Except CallError Frame :=
  if fits : payload.utf8ByteSize ≤ maxPayload then .ok ⟨payload, fits⟩
  else .error (.protocol (.tooLong payload.utf8ByteSize))

/-- The frame of a message. -/
def write {α : Type} [Wire α] (message : α) : Except CallError Frame :=
  match Wire.encode message with
  | .ok v => ofPayload v.text
  | .error e => .error (.encode e.message)

/-- The payload of the frame at the front of a stream, and what is left of the stream. -/
def split (stream : List UInt8) : Except CallError (List UInt8) × List UInt8 :=
  match stream with
  | a :: b :: c :: d :: rest =>
    let n := announced a b c d
    if maxPayload < n then (.error (.protocol (.announcedTooLong n)), rest)
    else
      let payload := rest.take n
      if payload.length < n then (.error (.transport .endOfStream), [])
      else (.ok payload, rest.drop n)
  | _ => (.error (.transport .endOfStream), [])

/-- The message of the frame at the front of a stream, and what is left of the stream. -/
def read {α : Type} [Wire α] (stream : List UInt8) : Except CallError α × List UInt8 :=
  match split stream with
  | (.error e, rest) => (.error e, rest)
  | (.ok payload, rest) =>
    match Wire.read? payload with
    | some message => (.ok message, rest)
    | none => (.error (.decode .unreadable), rest)

end Frame

/-! ## Sending -/

/-- The sending side of a connection: what it has taken, and after how many bytes more it fails and
why, if it does fail. -/
structure Outlet where
  sent : List UInt8
  limit : Option (Nat × IoError)

namespace Outlet

/-- A connection that accepts writes and over which nothing was sent. -/
def accepting : Outlet := ⟨[], none⟩

/-- Sends bytes, as many as the connection takes. -/
def send (out : Outlet) (bytes : List UInt8) : Except CallError Unit × Outlet :=
  match out.limit with
  | none => (.ok (), ⟨out.sent ++ bytes, none⟩)
  | some (room, cause) =>
    if bytes.length ≤ room then
      (.ok (), ⟨out.sent ++ bytes, some (room - bytes.length, cause)⟩)
    else (.error (.transport cause), ⟨out.sent ++ bytes.take room, some (0, cause)⟩)

/-- Sends a frame: the length, and then the payload. -/
def sendFrame (out : Outlet) (frame : Frame) : Except CallError Unit × Outlet :=
  match out.send frame.header with
  | (.error e, out) => (.error e, out)
  | (.ok (), out) => out.send frame.payload.toUTF8.data.toList

end Outlet

/-- Sends the frame of a message. Without a frame nothing is sent. -/
def Frame.writeTo {α : Type} [Wire α] (out : Outlet) (message : α) :
    Except CallError Unit × Outlet :=
  match write message with
  | .error e => (.error e, out)
  | .ok frame => out.sendFrame frame

end FileCluster
