import FileCluster.Proofs.Remote.Transparent
import Mathlib.Data.List.Nodup

/-!
The wire format as a whole.

Every type that travels has one encoder and one decoder, and the decoder takes more spellings than
the encoder writes: an array in place of a record, members that nobody asked for, a path that is
not in its written form, an object for a case that holds nothing. A type round-trips when the values
withheld from the wire are those that tell of a failed call, when every other value is decoded from
what encodes it, and when every JSON value that decodes, in whatever spelling, gives a value that is
not withheld and comes back (`Wire.RoundTrips`). The errors never decode to a failed call, a stub is
taken from no JSON value that names another interface, and what a message carries is in canonical
form when the JSON value was, as every value read from text is. Main statement: `wire_roundTrips`.
-/

namespace FileCluster

open Json

namespace Wire

variable {α β : Type}

/-! ## What decoders accept -/

theorem bind_eq_ok {ε : Type} {x : Except ε α} {f : α → Except ε β} {b : β}
    (h : (x >>= f) = .ok b) : ∃ a, x = .ok a ∧ f a = .ok b := by
  cases x with
  | error e => exact nomatch h
  | ok a => exact ⟨a, rfl, h⟩

theorem bind_ne_ok {ε : Type} {x : Except ε α} {f : α → Except ε β} {b : β}
    (h : ∀ a, f a ≠ .ok b) : (x >>= f) ≠ .ok b := fun heq =>
  let ⟨a, _, ha⟩ := bind_eq_ok heq
  h a ha

theorem need_eq_ok {name : String} {o : Option α} {x : α} (h : need name o = .ok x) :
    o = some x := by
  cases o with
  | none => exact nomatch h
  | some y => exact congrArg some (Except.ok.inj h)

theorem field?_eq_some {members : List (String × Json)} {name : String}
    {decode : Json → Except DecodeError α} {x : α}
    (h : field? members name decode = .ok (some x)) :
    ∃ v, Sorted.lookup name members = some v ∧ decode v = .ok x := by
  unfold field? at h
  split at h
  · cases h
  · rename_i v hv
    cases hx : decode v with
    | error e =>
      rw [hx] at h
      cases h
    | ok y =>
      rw [hx] at h
      exact ⟨v, hv, hx.trans (congrArg Except.ok (Option.some.inj (Except.ok.inj h)))⟩

theorem element_eq_ok {items : List Json} {index : Nat} {expected : String}
    {decode : Json → Except DecodeError α} {x : α}
    (h : element items index expected decode = .ok x) :
    ∃ v, items[index]? = some v ∧ decode v = .ok x := by
  unfold element at h
  split at h
  · cases h
  · rename_i v hv
    exact ⟨v, hv, h⟩

theorem decodeString_eq_ok {v : Json} {s : String} (h : decodeString v = .ok s) :
    v = .string s := by
  unfold decodeString at h
  split at h
  · exact congrArg Json.string (Except.ok.inj h)
  · exact nomatch h

/-- A sequence of any values is the items of an array. -/
theorem decodeList_ok {v : Json} {items : List Json} (h : decodeList .ok v = .ok items) :
    v = .array items := by
  unfold decodeList at h
  split at h
  · rename_i all
    have hall : decodeItems .ok [] (all.map id) = .ok ([].reverse ++ all) :=
      decodeItems_map id (fun _ => rfl) [] all
    rw [List.map_id, h] at hall
    exact congrArg Json.array (Except.ok.inj hall).symm
  · exact nomatch h

theorem isCanonical_of_lookup {members : List (String × Json)} {name : String} {v : Json}
    (h : (Json.object members).IsCanonical) (hv : Sorted.lookup name members = some v) :
    v.IsCanonical := by
  rw [IsCanonical] at h
  exact membersCanonical_iff.mp h.2 (name, v) (Sorted.mem_of_lookup hv)

theorem isCanonical_of_getElem? {items : List Json} {index : Nat} {v : Json}
    (h : (Json.array items).IsCanonical) (hv : items[index]? = some v) : v.IsCanonical := by
  rw [IsCanonical] at h
  exact allCanonical_iff.mp h v (List.mem_of_getElem? hv)

theorem isCanonical_of_decodeList {v : Json} {items : List Json} (h : v.IsCanonical)
    (hitems : decodeList .ok v = .ok items) : ∀ w ∈ items, w.IsCanonical := by
  rw [decodeList_ok hitems, IsCanonical] at h
  exact allCanonical_iff.mp h

theorem map_canonical {items : List Json} (h : ∀ v ∈ items, v.IsCanonical) :
    items.map canonical = items :=
  (List.map_congr_left fun v hv => canonical_eq_self (h v hv)).trans (List.map_id items)

end Wire

open Wire

/-! ## Errors -/

/-- No JSON value decodes to a naming error that tells of a failed call. -/
theorem NamingError.decode_ne_call (v : Json) (c : CallError) :
    NamingError.decode v ≠ .ok (.call c) := by
  unfold NamingError.decode
  refine bind_ne_ok fun ⟨name, held⟩ => ?_
  dsimp only
  split
  case h_5 => exact fun h => nomatch h
  all_goals exact bind_ne_ok fun _ h => nomatch h

/-- No JSON value decodes to a storage error that tells of a failed call. -/
theorem StorageError.decode_ne_call (v : Json) (c : CallError) :
    StorageError.decode v ≠ .ok (.call c) := by
  have houtOfBounds : ∀ members, StorageError.decodeOutOfBounds members ≠ .ok (.call c) :=
    fun members => bind_ne_ok fun _ => bind_ne_ok fun _ => bind_ne_ok fun _ => bind_ne_ok fun _ =>
      bind_ne_ok fun path => bind_ne_ok fun offset => bind_ne_ok fun length =>
        bind_ne_ok fun size h => nomatch h
  unfold StorageError.decode
  refine bind_ne_ok fun ⟨name, held⟩ => ?_
  dsimp only
  split
  · exact bind_ne_ok fun _ h => nomatch h
  · exact bind_ne_ok fun members => houtOfBounds members
  · exact bind_ne_ok fun _ h => nomatch h
  · exact fun h => nomatch h

/-! ## Stubs -/

/-- The part of a stub's wire form that names the interface. -/
def Stub.interfacePart? : Json → Option Json
  | .object members => Sorted.lookup "interface" members
  | .array items => items[0]?
  | _ => none

/-- A stub is decoded only from a wire form that names its interface. -/
theorem Stub.interfacePart?_of_decode {I : Interface} {v : Json} {s : Stub I}
    (h : Stub.decode v = .ok s) : Stub.interfacePart? v = some (.string I.name) := by
  have hfields : ∀ {interface host : String} {port : UInt16},
      Stub.ofFields interface host port = .ok s → interface = I.name := by
    intro interface host port h
    unfold Stub.ofFields at h
    split at h
    · assumption
    · exact nomatch h
  unfold Stub.decode at h
  split at h
  · rename_i members
    obtain ⟨_, -, h⟩ := bind_eq_ok h
    obtain ⟨o, ho, h⟩ := bind_eq_ok h
    obtain ⟨_, -, h⟩ := bind_eq_ok h
    obtain ⟨interface, hneed, h⟩ := bind_eq_ok h
    obtain ⟨_, -, h⟩ := bind_eq_ok h
    obtain ⟨_, -, h⟩ := bind_eq_ok h
    rw [need_eq_ok hneed] at ho
    obtain ⟨w, hw, hstring⟩ := field?_eq_some ho
    exact hw.trans (by rw [decodeString_eq_ok hstring, hfields h])
  · rename_i items
    obtain ⟨interface, hinterface, h⟩ := bind_eq_ok h
    obtain ⟨_, -, h⟩ := bind_eq_ok h
    obtain ⟨_, -, h⟩ := bind_eq_ok h
    obtain ⟨_, -, h⟩ := bind_eq_ok h
    obtain ⟨w, hw, hstring⟩ := element_eq_ok hinterface
    exact hw.trans (by rw [decodeString_eq_ok hstring, hfields h])
  · exact nomatch h

/-! ## Messages -/

/-- The values that a call carries are canonical. -/
def Call.Canonical (c : Call) : Prop := ∀ v ∈ c.args, v.IsCanonical

/-- The value that a response carries is canonical. -/
def Response.Canonical (r : Response) : Prop := r.payload.IsCanonical

/-- The value that a fault carries, if it carries one, is canonical. -/
def Fault.Canonical : Fault → Prop
  | .application error => error.IsCanonical
  | .dispatch _ => True

theorem Call.canonical_of_decode {v : Json} {c : Call} (hv : v.IsCanonical)
    (h : Call.decode v = .ok c) : c.Canonical := by
  unfold Call.decode at h
  split at h
  · rename_i members
    obtain ⟨o, ho, h⟩ := bind_eq_ok h
    obtain ⟨_, -, h⟩ := bind_eq_ok h
    obtain ⟨_, -, h⟩ := bind_eq_ok h
    obtain ⟨_, -, h⟩ := bind_eq_ok h
    obtain ⟨_, -, h⟩ := bind_eq_ok h
    obtain ⟨args, hneed, h⟩ := bind_eq_ok h
    cases h
    rw [need_eq_ok hneed] at ho
    obtain ⟨w, hw, hargs⟩ := field?_eq_some ho
    exact isCanonical_of_decodeList (isCanonical_of_lookup hv hw) hargs
  · rename_i items
    obtain ⟨_, -, h⟩ := bind_eq_ok h
    obtain ⟨_, -, h⟩ := bind_eq_ok h
    obtain ⟨args, hargs, h⟩ := bind_eq_ok h
    obtain ⟨_, -, h⟩ := bind_eq_ok h
    cases h
    obtain ⟨w, hw, hargs⟩ := element_eq_ok hargs
    exact isCanonical_of_decodeList (isCanonical_of_getElem? hv hw) hargs
  · exact nomatch h

theorem Response.canonical_of_decode {v : Json} {r : Response} (hv : v.IsCanonical)
    (h : Response.decode v = .ok r) : r.Canonical := by
  unfold Response.decode at h
  split at h
  · rename_i members
    obtain ⟨_, -, h⟩ := bind_eq_ok h
    obtain ⟨o, ho, h⟩ := bind_eq_ok h
    obtain ⟨_, -, h⟩ := bind_eq_ok h
    obtain ⟨payload, hneed, h⟩ := bind_eq_ok h
    cases h
    rw [need_eq_ok hneed] at ho
    obtain ⟨w, hw, hpayload⟩ := field?_eq_some ho
    cases hpayload
    exact isCanonical_of_lookup hv hw
  · rename_i items
    obtain ⟨_, -, h⟩ := bind_eq_ok h
    obtain ⟨payload, hpayload, h⟩ := bind_eq_ok h
    obtain ⟨_, -, h⟩ := bind_eq_ok h
    cases h
    obtain ⟨w, hw, hpayload⟩ := element_eq_ok hpayload
    cases hpayload
    exact isCanonical_of_getElem? hv hw
  · exact nomatch h

/-- What a case holds is canonical where the whole value is. -/
theorem Wire.isCanonical_of_decodeCase {v w : Json} {name : String} (hv : v.IsCanonical)
    (h : decodeCase v = .ok (name, some w)) : w.IsCanonical := by
  unfold decodeCase at h
  split at h
  · cases h
  · rename_i key held
    cases h
    rw [IsCanonical] at hv
    exact membersCanonical_iff.mp hv.2 _ List.mem_cons_self
  · exact nomatch h
  · exact nomatch h

theorem Fault.canonical_of_decode {v : Json} {f : Fault} (hv : v.IsCanonical)
    (h : Fault.decode v = .ok f) : f.Canonical := by
  unfold Fault.decode at h
  obtain ⟨⟨name, held⟩, hcase, h⟩ := bind_eq_ok h
  dsimp only at h
  split at h
  · obtain ⟨error, herror, h⟩ := bind_eq_ok h
    cases h
    cases held with
    | none => exact nomatch herror
    | some w =>
      cases herror
      exact isCanonical_of_decodeCase hv hcase
  · obtain ⟨_, -, h⟩ := bind_eq_ok h
    cases h
    exact trivial
  · exact nomatch h

/-! ## Every wire type -/

/-- The types that travel. -/
inductive WireType where
  | path
  | stub (I : Interface)
  | namingError
  | storageError
  | fault
  | call
  | response
  | bool
  | number
  | bytes
  | names
  | paths
  | unit

namespace WireType

/-- The values of a type that travels. -/
abbrev Carried : WireType → Type
  | path => Path
  | stub I => Stub I
  | namingError => NamingError
  | storageError => StorageError
  | fault => Fault
  | call => Call
  | response => Response
  | bool => Bool
  | number => UInt64
  | bytes => ByteArray
  | names => NameSet
  | paths => List Path
  | unit => Unit

/-- How they travel. -/
@[reducible] def wire : (t : WireType) → Wire t.Carried
  | path => inferInstanceAs (Wire Path)
  | stub I => inferInstanceAs (Wire (Stub I))
  | namingError => inferInstanceAs (Wire NamingError)
  | storageError => inferInstanceAs (Wire StorageError)
  | fault => inferInstanceAs (Wire Fault)
  | call => inferInstanceAs (Wire Call)
  | response => inferInstanceAs (Wire Response)
  | bool => inferInstanceAs (Wire Bool)
  | number => inferInstanceAs (Wire UInt64)
  | bytes => inferInstanceAs (Wire ByteArray)
  | names => inferInstanceAs (Wire NameSet)
  | paths => inferInstanceAs (Wire (List Path))
  | unit => inferInstanceAs (Wire Unit)

/-- An error that tells of a failed call. -/
def TellsOfCall : (t : WireType) → t.Carried → Prop
  | namingError, e => ∃ c, e = .call c
  | storageError, e => ∃ c, e = .call c
  | _, _ => False

/-- The JSON values that a message carries are canonical, as every value is that has been read. -/
def Canonical : (t : WireType) → t.Carried → Prop
  | fault, f => Fault.Canonical f
  | call, c => Call.Canonical c
  | response, r => Response.Canonical r
  | _, _ => True

/-- What encodes a value decodes to it. -/
def ComesBack (t : WireType) (x : t.Carried) : Prop :=
  ∃ w, t.wire.encode x = .ok w ∧ t.wire.decode w.canonical = .ok x

/-- Encoders and decoders of a type fit together, whatever spelling is decoded. -/
structure RoundTrips (t : WireType) : Prop where
  /-- encoding fails for the errors that tell of a failed call, and for nothing else -/
  withheld : ∀ x, (∃ e, t.wire.encode x = .error e) ↔ t.TellsOfCall x
  /-- everything else comes back -/
  encoded : ∀ x, t.Canonical x → ¬t.TellsOfCall x → t.ComesBack x
  /-- what a JSON value decodes to does not tell of a failed call, and comes back -/
  decoded : ∀ v x, v.IsCanonical → t.wire.decode v = .ok x → ¬t.TellsOfCall x ∧ t.ComesBack x

theorem ComesBack.of_survives {t : WireType} {x : t.Carried} (h : Survives t.wire x) :
    t.ComesBack x :=
  let ⟨w, hw, _, hx⟩ := h
  ⟨w, hw, hx⟩

/-- A type whose values all survive, whatever they are, round-trips. -/
theorem RoundTrips.of_survives {t : WireType} (htells : ∀ x, ¬t.TellsOfCall x)
    (h : ∀ x, Survives t.wire x) : t.RoundTrips where
  withheld x := by
    obtain ⟨w, hw, -, -⟩ := h x
    exact ⟨fun ⟨_, he⟩ => (nomatch hw.symm.trans he), fun hx => (htells x hx).elim⟩
  encoded x _ _ := .of_survives (h x)
  decoded _ x _ _ := ⟨htells x, .of_survives (h x)⟩

/-- A type of messages round-trips if its messages with canonical values come back and decoding
gives no others. -/
theorem RoundTrips.of_canonical {t : WireType} (htells : ∀ x, ¬t.TellsOfCall x)
    (hencodes : ∀ x, ∃ w, t.wire.encode x = .ok w) (hback : ∀ x, t.Canonical x → t.ComesBack x)
    (hdecode : ∀ v x, v.IsCanonical → t.wire.decode v = .ok x → t.Canonical x) : t.RoundTrips where
  withheld x := by
    obtain ⟨w, hw⟩ := hencodes x
    exact ⟨fun ⟨_, he⟩ => (nomatch hw.symm.trans he), fun hx => (htells x hx).elim⟩
  encoded x hx _ := hback x hx
  decoded v x hv h := ⟨htells x, hback x (hdecode v x hv h)⟩

theorem call_comesBack {c : FileCluster.Call} (h : c.Canonical) : call.ComesBack c := by
  refine ⟨c.encode, rfl, (Call.decode_encode c).trans ?_⟩
  rw [map_canonical h]

theorem response_comesBack {r : Response} (h : r.Canonical) : response.ComesBack r := by
  refine ⟨r.encode, rfl, (Response.decode_encode r).trans ?_⟩
  rw [canonical_eq_self h]

theorem fault_comesBack {f : Fault} (h : f.Canonical) : fault.ComesBack f := by
  cases f with
  | application error =>
    refine ⟨_, rfl, ?_⟩
    have h : error.IsCanonical := h
    rw [Fault.encode, canonical_single, canonical_eq_self h]
    rfl
  | dispatch reason =>
    refine ⟨_, rfl, ?_⟩
    rw [Fault.encode, canonical_single, canonical_string]
    rfl

theorem namingError_roundTrips : namingError.RoundTrips where
  withheld e := by
    cases e with
    | call c => exact ⟨fun _ => ⟨c, rfl⟩, fun _ => ⟨_, rfl⟩⟩
    | _ => exact ⟨fun ⟨_, he⟩ => (nomatch he), fun ⟨_, hc⟩ => (nomatch hc)⟩
  encoded e _ he := .of_survives ((survives_namingError e).resolve_right he)
  decoded v e _ h := by
    have he : ¬∃ c, e = .call c := fun ⟨c, hc⟩ => NamingError.decode_ne_call v c (hc ▸ h)
    exact ⟨he, .of_survives ((survives_namingError e).resolve_right he)⟩

theorem storageError_roundTrips : storageError.RoundTrips where
  withheld e := by
    cases e with
    | call c => exact ⟨fun _ => ⟨c, rfl⟩, fun _ => ⟨_, rfl⟩⟩
    | _ => exact ⟨fun ⟨_, he⟩ => (nomatch he), fun ⟨_, hc⟩ => (nomatch hc)⟩
  encoded e _ he := .of_survives ((survives_storageError e).resolve_right he)
  decoded v e _ h := by
    have he : ¬∃ c, e = .call c := fun ⟨c, hc⟩ => StorageError.decode_ne_call v c (hc ▸ h)
    exact ⟨he, .of_survives ((survives_storageError e).resolve_right he)⟩

theorem roundTrips (t : WireType) : t.RoundTrips := by
  cases t with
  | namingError => exact namingError_roundTrips
  | storageError => exact storageError_roundTrips
  | fault =>
    exact .of_canonical (fun _ => id) (fun _ => ⟨_, rfl⟩) (fun _ => fault_comesBack)
      (fun _ _ => Fault.canonical_of_decode)
  | call =>
    exact .of_canonical (fun _ => id) (fun _ => ⟨_, rfl⟩) (fun _ => call_comesBack)
      (fun _ _ => Call.canonical_of_decode)
  | response =>
    exact .of_canonical (fun _ => id) (fun _ => ⟨_, rfl⟩) (fun _ => response_comesBack)
      (fun _ _ => Response.canonical_of_decode)
  | path => exact .of_survives (fun _ => id) survives_path
  | stub I => exact .of_survives (fun _ => id) survives_stub
  | bool => exact .of_survives (fun _ => id) survives_bool
  | number => exact .of_survives (fun _ => id) survives_uint64
  | bytes => exact .of_survives (fun _ => id) survives_bytes
  | names => exact .of_survives (fun _ => id) survives_names
  | paths => exact .of_survives (fun _ => id) survives_paths
  | unit => exact .of_survives (fun _ => id) survives_unit

/-- What is read from text was decoded from a canonical value. -/
theorem exists_decode_of_read? {t : WireType} {bytes : List UInt8} {x : t.Carried}
    (h : @Wire.read? _ t.wire bytes = some x) :
    ∃ v : Json, v.IsCanonical ∧ t.wire.decode v = .ok x := by
  unfold Wire.read? at h
  split at h
  · cases h
  · rename_i v hv
    split at h
    · rename_i y hy
      exact ⟨v, isCanonical_of_read? hv, hy.trans (congrArg Except.ok (Option.some.inj h))⟩
    · cases h

end WireType

/-- Interfaces of the cluster are told apart by their names. -/
theorem clusterInterfaces_distinct : (clusterInterfaces.map Interface.name).Nodup := by decide

/-- Every type round-trips, from JSON values and from text, and no JSON value is a stub of two
interfaces of the cluster. -/
theorem wire_roundTrips :
    (∀ t : WireType, t.RoundTrips) ∧
    (∀ (t : WireType) (bytes : List UInt8) (x : t.Carried), @Wire.read? _ t.wire bytes = some x →
      ¬t.TellsOfCall x ∧ t.ComesBack x) ∧
    ∀ I ∈ clusterInterfaces, ∀ J ∈ clusterInterfaces, ∀ (v : Json) (s : Stub I) (s' : Stub J),
      (WireType.stub I).wire.decode v = .ok s → (WireType.stub J).wire.decode v = .ok s' →
        I = J := by
  refine ⟨WireType.roundTrips, fun t bytes x hread => ?_, fun I hI J hJ v s s' hs hs' => ?_⟩
  · obtain ⟨v, hv, hx⟩ := WireType.exists_decode_of_read? hread
    exact t.roundTrips.decoded v x hv hx
  · have hpart := (Stub.interfacePart?_of_decode hs).symm.trans (Stub.interfacePart?_of_decode hs')
    have hname : I.name = J.name := Json.string.inj (Option.some.inj hpart)
    exact List.inj_on_of_nodup_map clusterInterfaces_distinct hI hJ hname

/-- A spelling that is never written: an object for a case that holds nothing. -/
example : NamingError.decode (.object [("NoStorageServers", .null)]) = .ok .noStorageServers := rfl

end FileCluster
