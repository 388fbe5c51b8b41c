import FileCluster.Text.Numeral

/-!
Socket addresses and their written form.

An address of the fourth version is written as four decimal octets, one of the sixth as groups of
hexadecimal digits with the longest run of zero groups left out. A socket address adds a port, and
for the sixth version brackets and an optional scope. `SocketAddr.read?` accepts the whole grammar,
`SocketAddr.text` writes one form.
-/

namespace FileCluster

/-- An address of the fourth version: its four octets. -/
structure Ipv4 where
  a : UInt8
  b : UInt8
  c : UInt8
  d : UInt8
  deriving DecidableEq, Repr, Inhabited

/-- An address of the sixth version: its eight groups. -/
structure Ipv6 where
  groups : Vector UInt16 8
  deriving DecidableEq, Repr

/-- An address of either version. -/
inductive IpAddr where
  | v4 (ip : Ipv4)
  | v6 (ip : Ipv6)
  deriving DecidableEq, Repr

/-- An address with a port; the scope of a sixth version address is zero if it has none. -/
inductive SocketAddr where
  | v4 (ip : Ipv4) (port : UInt16)
  | v6 (ip : Ipv6) (port : UInt16) (scope : UInt32)
  deriving DecidableEq, Repr

namespace Ipv4

/-- The wildcard address. -/
def unspecified : Ipv4 := ⟨0, 0, 0, 0⟩

/-- The loopback address. -/
def localhost : Ipv4 := ⟨127, 0, 0, 1⟩

/-- Four decimal numbers between points. -/
def text (ip : Ipv4) : String :=
  toString ip.a ++ "." ++ toString ip.b ++ "." ++ toString ip.c ++ "." ++ toString ip.d

end Ipv4

namespace Ipv6

/-- The wildcard address. -/
def unspecified : Ipv6 := ⟨#v[0, 0, 0, 0, 0, 0, 0, 0]⟩

/-- The loopback address. -/
def localhost : Ipv6 := ⟨#v[0, 0, 0, 0, 0, 0, 0, 1]⟩

/-- The octets of the last two groups, if the others are those of an embedded address of the
fourth version. -/
def mapped? (ip : Ipv6) : Option Ipv4 :=
  match ip.groups.toList with
  | [0, 0, 0, 0, 0, 0xffff, g, h] =>
    some ⟨(g / 256).toUInt8, g.toUInt8, (h / 256).toUInt8, h.toUInt8⟩
  | _ => none

/-- Where a run of zero groups begins and how many groups it has. -/
structure ZeroRun where
  start : Nat
  length : Nat

/-- The first of the longest runs of zeros among the groups from position `at_` on, given the best
run so far and the one that reaches up to here. -/
def longestZeros (at_ : Nat) (best current : ZeroRun) : List UInt16 → ZeroRun
  | [] => best
  | g :: gs =>
    if g = 0 then
      let current :=
        if current.length = 0 then ⟨at_, 1⟩ else { current with length := current.length + 1 }
      let best := if best.length < current.length then current else best
      longestZeros (at_ + 1) best current gs
    else longestZeros (at_ + 1) best ⟨0, 0⟩ gs

/-- Groups in lower-case hexadecimal, between colons. -/
def groupsText (gs : List UInt16) : String :=
  ":".intercalate (gs.map fun g => String.ofList (Nat.toDigits 16 g.toNat))

/-- Hexadecimal groups, the first of the longest runs of at least two zero groups written as
nothing between two colons. -/
def text (ip : Ipv6) : String :=
  match ip.mapped? with
  | some v4 => "::ffff:" ++ v4.text
  | none =>
    let gs := ip.groups.toList
    let run := longestZeros 0 ⟨0, 0⟩ ⟨0, 0⟩ gs
    if 1 < run.length then
      groupsText (gs.take run.start) ++ "::" ++ groupsText (gs.drop (run.start + run.length))
    else groupsText gs

end Ipv6

/-- The written form of an address. -/
def IpAddr.text : IpAddr → String
  | .v4 ip => ip.text
  | .v6 ip => ip.text

namespace SocketAddr

/-- The address without its port. -/
def ip : SocketAddr → IpAddr
  | .v4 ip _ => .v4 ip
  | .v6 ip _ _ => .v6 ip

/-- The port. -/
def port : SocketAddr → UInt16
  | .v4 _ p => p
  | .v6 _ p _ => p

/-- The same address at another port and without a scope. -/
def withPort (p : UInt16) : SocketAddr → SocketAddr
  | .v4 ip _ => .v4 ip p
  | .v6 ip _ _ => .v6 ip p 0

/-- Any address of this machine, at a port. -/
def any (port : UInt16) : SocketAddr := .v4 .unspecified port

/-- The written form of a socket address. -/
def text : SocketAddr → String
  | .v4 ip p => ip.text ++ ":" ++ toString p
  | .v6 ip p scope =>
    let scopeText := if scope = 0 then "" else "%" ++ toString scope
    "[" ++ ip.text ++ scopeText ++ "]:" ++ toString p

/-- The address at which a listener can be reached from its own machine: the wildcard address
becomes the loopback address. -/
def reachable : SocketAddr → SocketAddr
  | .v4 ip p => .v4 (if ip = .unspecified then .localhost else ip) p
  | .v6 ip p scope => if ip = .unspecified then .v6 .localhost p 0 else .v6 ip p scope

/-! ## Reading -/

/-- A reader takes what it recognises from the front of a text and leaves the rest. -/
abbrev Scan (α : Type) := List Char → Option (α × List Char)

/-- One given character. -/
def given (c : Char) : Scan Unit
  | d :: cs => if c = d then some ((), cs) else none
  | [] => none

/-- A reader after a given character. -/
def after {α : Type} (c : Char) (scan : Scan α) : Scan α := fun cs =>
  match given c cs with
  | some (_, cs) => scan cs
  | none => none

/-- The value of a digit in base ten or sixteen. -/
def digitValue? (base : Nat) (c : Char) : Option Nat :=
  let n := c.toNat
  let d :=
    if 0x30 ≤ n ∧ n ≤ 0x39 then n - 0x30
    else if 0x61 ≤ n ∧ n ≤ 0x66 then n - 0x61 + 10
    else if 0x41 ≤ n ∧ n ≤ 0x46 then n - 0x41 + 10
    else 16
  if d < base then some d else none

/-- The digits in front of a text, and the rest. -/
def spanDigits (base : Nat) : List Char → List Nat × List Char
  | [] => ([], [])
  | c :: cs =>
    match digitValue? base c with
    | none => ([], c :: cs)
    | some d =>
      let (ds, rest) := spanDigits base cs
      (d :: ds, rest)

/-- A number of at least one digit and below a bound: at most `width` digits if there is a width,
and no zero in front of other digits unless that is allowed. -/
def number (base : Nat) (width : Option Nat) (leadingZero : Bool) (bound : Nat) : Scan Nat :=
  fun cs =>
    let (ds, rest) := spanDigits base cs
    let n := ds.foldl (fun acc d => acc * base + d) 0
    let tooLong := width.any (· < ds.length)
    let badZero := !leadingZero && ds.head? == some 0 && 1 < ds.length
    if ds.isEmpty || tooLong || badZero || bound ≤ n then none else some (n, rest)

/-- One decimal octet. -/
def octet : Scan UInt8 := fun cs =>
  (number 10 (some 3) false 256 cs).map fun (n, rest) => (UInt8.ofNat n, rest)

/-- Four octets between points. -/
def scanV4 : Scan Ipv4 := fun cs => do
  let (a, cs) ← octet cs
  let (b, cs) ← after '.' octet cs
  let (c, cs) ← after '.' octet cs
  let (d, cs) ← after '.' octet cs
  some (⟨a, b, c, d⟩, cs)

/-- One hexadecimal group. -/
def group : Scan UInt16 := fun cs =>
  (number 16 (some 4) true 65536 cs).map fun (n, rest) => (UInt16.ofNat n, rest)

/-- Groups as far as a text has them. -/
structure Groups where
  groups : List UInt16
  /-- whether the last two come from an embedded address of the fourth version -/
  embedded : Bool
  rest : List Char

/-- Reads at most `room` groups after `done`, the last group first, with colons between groups. An
address of the fourth version may stand for the last two if there is room. -/
def groups (room : Nat) (done : List UInt16) (cs : List Char) : Groups :=
  match room with
  | 0 => ⟨done.reverse, false, cs⟩
  | room + 1 =>
    let separated {α : Type} (scan : Scan α) : Scan α :=
      if done.isEmpty then scan else after ':' scan
    let v4 := if 0 < room then separated scanV4 cs else none
    match v4 with
    | some (ip, rest) =>
      let high := ip.a.toUInt16 * 256 + ip.b.toUInt16
      let low := ip.c.toUInt16 * 256 + ip.d.toUInt16
      ⟨(low :: high :: done).reverse, true, rest⟩
    | none =>
      match separated group cs with
      | some (g, rest) => groups room (g :: done) rest
      | none => ⟨done.reverse, false, cs⟩

/-- The address of eight groups. -/
def ofGroups? (gs : List UInt16) : Option Ipv6 :=
  if h : gs.length = 8 then some ⟨⟨gs.toArray, by simpa using h⟩⟩ else none

/-- Eight groups, or fewer with two adjacent colons where zero groups are left out. -/
def scanV6 : Scan Ipv6 := fun cs =>
  let head := groups 8 [] cs
  if head.groups.length = 8 then (ofGroups? head.groups).map (·, head.rest)
  else if head.embedded then none
  else
    match after ':' (given ':') head.rest with
    | none => none
    | some (_, cs) =>
      let tail := groups (7 - head.groups.length) [] cs
      let zeros := List.replicate (8 - head.groups.length - tail.groups.length) 0
      (ofGroups? (head.groups ++ zeros ++ tail.groups)).map (·, tail.rest)

/-- A colon and a port. -/
def scanPort : Scan UInt16 := fun cs =>
  (after ':' (number 10 none true UInt16.size) cs).map fun (n, rest) => (UInt16.ofNat n, rest)

/-- A percent sign and a scope, or nothing. -/
def scanScope (cs : List Char) : UInt32 × List Char :=
  match after '%' (number 10 none true UInt32.size) cs with
  | some (n, rest) => (UInt32.ofNat n, rest)
  | none => (0, cs)

/-- A socket address of the fourth version. -/
def scanSocketV4 : Scan SocketAddr := fun cs => do
  let (ip, cs) ← scanV4 cs
  let (port, cs) ← scanPort cs
  some (.v4 ip port, cs)

/-- A socket address of the sixth version. -/
def scanSocketV6 : Scan SocketAddr := fun cs => do
  let (ip, cs) ← after '[' scanV6 cs
  let (scope, cs) := scanScope cs
  let (_, cs) ← given ']' cs
  let (port, cs) ← scanPort cs
  some (.v6 ip port scope, cs)

/-- Reads a whole text as a socket address. -/
def read? (s : String) : Option SocketAddr :=
  let cs := s.toList
  match (scanSocketV4 cs).orElse fun _ => scanSocketV6 cs with
  | some (address, []) => some address
  | _ => none

/-- An IP address alone, as the host of an endpoint may be written. -/
def readIp? (s : String) : Option IpAddr :=
  match scanV4 s.toList with
  | some (ip, []) => some (.v4 ip)
  | _ =>
    match scanV6 s.toList with
    | some (ip, []) => some (.v6 ip)
    | _ => none

end SocketAddr

end FileCluster
