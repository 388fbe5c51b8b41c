import FileCluster.Network.Address
import FileCluster.IoError

/-!
The addresses that a host stands for.

A host is an address, a number that abbreviates an address of the fourth version, an address of the
sixth version with a numbered scope, or a name. The only name that is known is that of the machine
itself.
-/

namespace FileCluster.Host

open SocketAddr

/-- A number below `UInt32.size` in the base that its first digits announce: sixteen after `0x`,
eight after `0`, and ten otherwise. -/
def scanNumber : Scan Nat
  | '0' :: 'x' :: cs => number 16 none true UInt32.size cs
  | '0' :: 'X' :: cs => number 16 none true UInt32.size cs
  | '0' :: cs => number 8 none true UInt32.size ('0' :: cs)
  | cs => number 10 none true UInt32.size cs

/-- The number that the parts of an abbreviated address make, `above` being that of the parts
before and `room` how many parts there may be after the next one. Every part is an octet but the
last, which fills the octets that are left. -/
def readParts (room above : Nat) (cs : List Char) : Option Nat :=
  match scanNumber cs with
  | some (n, []) =>
    let width := 8 * (room + 1)
    if n >>> width = 0 then some (above <<< width + n) else none
  | some (n, '.' :: rest) =>
    match room with
    | 0 => none
    | room + 1 => if n < 256 then readParts room (above * 256 + n) rest else none
  | _ => none

/-- The address of the fourth version that a number stands for. -/
def v4OfNat (n : Nat) : Ipv4 :=
  ⟨UInt8.ofNat (n >>> 24), UInt8.ofNat (n >>> 16), UInt8.ofNat (n >>> 8), UInt8.ofNat n⟩

/-- Reads an abbreviated address: one to four numbers between points. -/
def readAbbreviated? (cs : List Char) : Option Ipv4 := (readParts 3 0 cs).map v4OfNat

/-- Reads an address of the sixth version and the number of a scope. -/
def readScoped? (cs : List Char) : Option Ipv6 :=
  match scanV6 cs with
  | some (ip, '%' :: scope) =>
    match number 10 none true UInt32.size scope with
    | some (_, []) => some ip
    | _ => none
  | _ => none

/-- The name of the machine itself. -/
def localName : String := "localhost"

/-- The addresses of a host, in the order in which they are tried. A name is the same in upper and
lower case. -/
def addresses (host : String) : Except IoError (List IpAddr) :=
  match readIp? host with
  | some ip => .ok [ip]
  | none =>
    if Char.ofNat 0 ∈ host.toList then .error .nulInName
    else
      match readAbbreviated? host.toList, readScoped? host.toList with
      | some ip, _ => .ok [.v4 ip]
      | none, some ip => .ok [.v6 ip]
      | none, none =>
        if host.toLower = localName then .ok [.v6 .localhost, .v4 .localhost]
        else .error .unknownHost

end FileCluster.Host
