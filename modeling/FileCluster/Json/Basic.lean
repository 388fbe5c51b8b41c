import FileCluster.Decimal.Binary64
import FileCluster.Sorted

/-!
JSON values.

A number is a whole number that fits 64 bits, or a floating-point number. An object is a list of
members. A value is canonical when every object in it has its members in increasing key order,
each key once; `Json.canonical` gives that form, and reading text gives canonical values only.
-/

namespace FileCluster

/-- A JSON number. Whole numbers from `-2 ^ 63` to `2 ^ 64 - 1` are exact, every other number is
a floating-point one. -/
inductive Json.Number where
  | int (n : Int) (inRange : -0x8000000000000000 ≤ n ∧ n ≤ 0xffffffffffffffff)
  | float (x : Binary64)
  deriving DecidableEq, Repr

/-- A JSON value. -/
inductive Json where
  | null
  | bool (b : Bool)
  | number (n : Json.Number)
  | string (s : String)
  | array (items : List Json)
  | object (members : List (String × Json))
  deriving Inhabited

namespace Json

/-- A 64-bit natural number as a JSON value. -/
def ofUInt64 (n : UInt64) : Json :=
  .number (.int n.toNat ⟨by omega, by have := n.toNat_lt; omega⟩)

/-- An integer as a JSON value: exact if it fits, else the nearest floating-point number. -/
def ofInt (n : Int) : Json :=
  if h : -0x8000000000000000 ≤ n ∧ n ≤ 0xffffffffffffffff then .number (.int n h)
  else .number (.float (Binary64.ofRatio (n < 0) n.natAbs 1))

/-- A natural number as a JSON value. -/
def ofNat (n : Nat) : Json := ofInt n

mutual

/-- The value with the members of every object in key order, the last of several members of one
key standing for all of them. -/
def canonical : Json → Json
  | .array items => .array (canonicalItems [] items)
  | .object members => .object (canonicalMembers [] members)
  | v => v

/-- The items in canonical form, after those already done, the last one first. -/
def canonicalItems (done : List Json) : List Json → List Json
  | [] => done.reverse
  | v :: rest => canonicalItems (canonical v :: done) rest

/-- The members in canonical form, merged into those already done. -/
def canonicalMembers (done : List (String × Json)) : List (String × Json) → List (String × Json)
  | [] => done
  | (k, v) :: rest => canonicalMembers (Sorted.insert k (canonical v) done) rest

end

mutual

/-- Every object in the value has its members in increasing key order. -/
def IsCanonical : Json → Prop
  | .array items => AllCanonical items
  | .object members => Sorted.Increasing members ∧ MembersCanonical members
  | _ => True

/-- Every item is canonical. -/
def AllCanonical : List Json → Prop
  | [] => True
  | v :: rest => IsCanonical v ∧ AllCanonical rest

/-- The value of every member is canonical. -/
def MembersCanonical : List (String × Json) → Prop
  | [] => True
  | (_, v) :: rest => IsCanonical v ∧ MembersCanonical rest

end

/-- The value of a member of an object. -/
def get? (key : String) : Json → Option Json
  | .object members => Sorted.lookup key members
  | _ => none

end Json

end FileCluster
