import FileCluster.Interfaces.Registration
import FileCluster.Interfaces.Service
import FileCluster.Proofs.Json.Canonical
import FileCluster.Proofs.Path.Text

/-!
Values of wire types survive their way over the wire.

A value survives when it is encoded as a plain JSON value whose canonical form decodes to the value
(`Wire.Survives`). Every value of every wire type does, except the errors that tell of a failed
call, which are not encoded at all.
-/

namespace FileCluster

open Json

namespace Wire

/-- Encoding succeeds, and what is read at the other end decodes to what was encoded. -/
def Survives {α : Type} (W : Wire α) (x : α) : Prop :=
  ∃ v, W.encode x = .ok v ∧ v.Plain 2 ∧ W.decode v.canonical = .ok x

/-! ## Scalars -/

theorem canonical_string (s : String) : (Json.string s).canonical = .string s := by
  simp [canonical]

theorem canonical_ofUInt64 (n : UInt64) : (ofUInt64 n).canonical = ofUInt64 n := by
  unfold ofUInt64
  simp [canonical]

theorem plain_string (levels : Nat) (s : String) : (Json.string s).Plain levels := by
  simp [Plain]

theorem plain_ofUInt64 (levels : Nat) (n : UInt64) : (ofUInt64 n).Plain levels := by
  unfold ofUInt64
  simp [Plain]

theorem decodeBelow_ofUInt64 {bound : Nat} (type : String) {n : UInt64} (h : n.toNat < bound) :
    decodeBelow bound type (ofUInt64 n) = .ok n.toNat := by
  unfold decodeBelow ofUInt64
  dsimp only
  rw [if_pos ⟨by omega, by omega⟩]
  rfl

theorem decodeUInt64_ofUInt64 (n : UInt64) : decodeUInt64 (ofUInt64 n) = .ok n := by
  unfold decodeUInt64
  rw [decodeBelow_ofUInt64 _ n.toNat_lt]
  exact congrArg Except.ok (UInt64.ofNat_toNat)

theorem decodeUInt16_ofUInt64 (n : UInt16) : decodeUInt16 (ofUInt64 n.toUInt64) = .ok n := by
  unfold decodeUInt16
  rw [decodeBelow_ofUInt64 _ (by rw [UInt16.toNat_toUInt64]; exact n.toNat_lt), UInt16.toNat_toUInt64]
  exact congrArg Except.ok (UInt16.ofNat_toNat)

theorem decodeByte_ofUInt64 (b : UInt8) : decodeByte (ofUInt64 b.toUInt64) = .ok b := by
  unfold decodeByte
  rw [decodeBelow_ofUInt64 _ (by rw [UInt8.toNat_toUInt64]; exact b.toNat_lt), UInt8.toNat_toUInt64]
  exact congrArg Except.ok (UInt8.ofNat_toNat)

theorem decodePath_text (p : Path) : decodePath (.string p.text) = .ok p := by
  unfold decodePath decodeString
  dsimp only
  rw [Path.parse_text]

theorem survives_bool (b : Bool) : Survives (inferInstanceAs (Wire Bool)) b :=
  ⟨.bool b, rfl, by simp [Plain], by simp [canonical, decode, decodeBool]⟩

theorem survives_unit (u : Unit) : Survives (inferInstanceAs (Wire Unit)) u :=
  ⟨.null, rfl, by simp [Plain], by simp [canonical, decode, decodeUnit]⟩

theorem survives_uint64 (n : UInt64) : Survives (inferInstanceAs (Wire UInt64)) n := by
  refine ⟨ofUInt64 n, rfl, plain_ofUInt64 2 n, ?_⟩
  rw [canonical_ofUInt64]
  exact decodeUInt64_ofUInt64 n

theorem survives_path (p : Path) : Survives (inferInstanceAs (Wire Path)) p := by
  refine ⟨.string p.text, rfl, plain_string 2 _, ?_⟩
  rw [canonical_string]
  exact decodePath_text p

/-! ## Sequences -/

theorem decodeItems_map {α : Type} {item : Json → Except DecodeError α} (write : α → Json)
    (h : ∀ x, item (write x) = .ok x) (done xs : List α) :
    decodeItems item done (xs.map write) = .ok (done.reverse ++ xs) := by
  induction xs generalizing done with
  | nil =>
    rw [List.map_nil, decodeItems, List.append_nil]
  | cons x xs ih =>
    rw [List.map_cons, decodeItems, h]
    dsimp only
    rw [ih]
    simp

theorem decodeList_map {α : Type} {item : Json → Except DecodeError α} (write : α → Json)
    (h : ∀ x, item (write x) = .ok x) (xs : List α) :
    decodeList item (.array (xs.map write)) = .ok xs :=
  decodeItems_map write h [] xs

/-- An array of scalars is plain and canonical. -/
theorem array_of_scalars {α : Type} (write : α → Json) (hplain : ∀ x levels, (write x).Plain levels)
    (hcanonical : ∀ x, (write x).canonical = write x) (xs : List α) :
    (∀ levels, (Json.array (xs.map write)).Plain (levels + 1)) ∧
      (Json.array (xs.map write)).canonical = .array (xs.map write) := by
  constructor
  · intro levels
    rw [Plain]
    refine ⟨by omega, plainItems_iff.mpr fun v hv => ?_⟩
    obtain ⟨x, -, rfl⟩ := List.mem_map.mp hv
    exact hplain x _
  · rw [canonical_array, List.map_map]
    exact congrArg Json.array (List.map_congr_left fun x _ => hcanonical x)

theorem array_of_paths (ps : List Path) :
    (∀ levels, (Json.array (ps.map fun p => .string p.text)).Plain (levels + 1)) ∧
      (Json.array (ps.map fun p => .string p.text)).canonical =
        .array (ps.map fun p => .string p.text) :=
  array_of_scalars _ (fun p levels => plain_string levels p.text) (fun p => canonical_string p.text)
    ps

theorem survives_paths (ps : List Path) : Survives (inferInstanceAs (Wire (List Path))) ps := by
  obtain ⟨hplain, hcanonical⟩ := array_of_paths ps
  refine ⟨_, rfl, hplain 1, ?_⟩
  rw [hcanonical]
  exact decodeList_map _ decodePath_text ps

theorem array_of_bytes (data : ByteArray) :
    (∀ levels, (Json.array (data.data.toList.map fun b => .ofUInt64 b.toUInt64)).Plain
      (levels + 1)) ∧
      (Json.array (data.data.toList.map fun b => .ofUInt64 b.toUInt64)).canonical =
        .array (data.data.toList.map fun b => .ofUInt64 b.toUInt64) :=
  array_of_scalars _ (fun b levels => plain_ofUInt64 levels b.toUInt64)
    (fun b => canonical_ofUInt64 b.toUInt64) data.data.toList

theorem decode_bytes (data : ByteArray) :
    Wire.decode (.array (data.data.toList.map fun b => .ofUInt64 b.toUInt64)) = .ok data :=
  congrArg (Except.map fun bytes => (⟨bytes.toArray⟩ : ByteArray))
    (decodeList_map _ decodeByte_ofUInt64 data.data.toList)

theorem survives_bytes (data : ByteArray) : Survives (inferInstanceAs (Wire ByteArray)) data := by
  obtain ⟨hplain, hcanonical⟩ := array_of_bytes data
  refine ⟨_, rfl, hplain 1, ?_⟩
  rw [hcanonical]
  exact decode_bytes data

/-- The names of a set make the set. -/
theorem ofList_names (s : NameSet) : NameSet.ofList s.names = s :=
  NameSet.ext_mem fun _ => NameSet.mem_ofList

theorem survives_names (s : NameSet) : Survives (inferInstanceAs (Wire NameSet)) s := by
  obtain ⟨hplain, hcanonical⟩ := array_of_scalars Json.string
    (fun n levels => plain_string levels n) canonical_string s.names
  refine ⟨_, rfl, hplain 1, ?_⟩
  rw [hcanonical]
  have hnames : decodeList decodeString (.array (s.names.map .string)) = .ok s.names :=
    decodeList_map Json.string (fun _ => rfl) s.names
  exact (congrArg (Except.map NameSet.ofList) hnames).trans (congrArg Except.ok (ofList_names s))

/-! ## Stubs -/

theorem canonical_stub {I : Interface} (s : Stub I) :
    s.encode.canonical = .object [("host", .string s.host), ("interface", .string I.name),
      ("port", .ofUInt64 s.port.toUInt64)] := by
  have hhost : "host" < "interface" := by decide
  have hhostPort : "host" < "port" := by decide
  have hinterface : "interface" < "port" := by decide
  have hlast : ∀ m ∈ [("host", Json.string s.host), ("interface", .string I.name)],
      m.1 < "port" :=
    List.forall_mem_cons.mpr ⟨hhostPort, List.forall_mem_singleton.mpr hinterface⟩
  unfold Stub.encode
  rw [canonical, canonicalMembers, canonicalMembers, canonicalMembers, canonicalMembers,
    canonical_string, canonical_string, canonical_ofUInt64, Sorted.insert, insert_first hhost,
    insert_last _ hlast]
  rfl

theorem plain_stub {I : Interface} (s : Stub I) (levels : Nat) : s.encode.Plain (levels + 1) := by
  unfold Stub.encode
  simp [Plain, PlainMembers, plain_ofUInt64]

theorem field?_of_lookup {α : Type} {members : List (String × Json)} {name : String} {v : Json}
    {x : α} {decode : Json → Except DecodeError α} (h : Sorted.lookup name members = some v)
    (hdecode : decode v = .ok x) : field? members name decode = .ok (some x) := by
  unfold field?
  rw [h]
  dsimp only
  rw [hdecode]
  rfl

theorem decode_stub {I : Interface} (s : Stub I) : Stub.decode s.encode.canonical = .ok s := by
  have hlookup : ∀ v w x : Json,
      Sorted.lookup "host" [("host", v), ("interface", w), ("port", x)] = some v ∧
      Sorted.lookup "interface" [("host", v), ("interface", w), ("port", x)] = some w ∧
      Sorted.lookup "port" [("host", v), ("interface", w), ("port", x)] = some x := by
    simp [Sorted.lookup]
  obtain ⟨hhost, hinterface, hport⟩ :=
    hlookup (.string s.host) (.string I.name) (ofUInt64 s.port.toUInt64)
  rw [canonical_stub]
  unfold Stub.decode
  dsimp only
  rw [field?_of_lookup hhost (x := s.host) rfl, field?_of_lookup hinterface (x := I.name) rfl,
    field?_of_lookup hport (decodeUInt16_ofUInt64 s.port)]
  exact if_pos rfl

theorem survives_stub {I : Interface} (s : Stub I) :
    Survives (inferInstanceAs (Wire (Stub I))) s :=
  ⟨s.encode, rfl, plain_stub s 1, decode_stub s⟩

/-! ## Errors -/

/-- An object with one member is canonical when its value is. -/
theorem canonical_single (k : String) (v : Json) :
    (Json.object [(k, v)]).canonical = .object [(k, v.canonical)] := by
  rw [canonical, canonicalMembers, canonicalMembers]
  rfl

theorem plain_single (k : String) {v : Json} {levels : Nat} (h : v.Plain levels) :
    (Json.object [(k, v)]).Plain (levels + 1) := by
  rw [Plain, PlainMembers, PlainMembers]
  exact ⟨by omega, h, trivial⟩

/-- Every naming error survives or tells of a failed call. -/
theorem survives_namingError (e : NamingError) :
    Survives (inferInstanceAs (Wire NamingError)) e ∨ ∃ c, e = .call c := by
  cases e with
  | call c => exact Or.inr ⟨c, rfl⟩
  | alreadyRegistered => exact Or.inl ⟨_, rfl, plain_string 2 _, by rw [canonical_string]; rfl⟩
  | noStorageServers => exact Or.inl ⟨_, rfl, plain_string 2 _, by rw [canonical_string]; rfl⟩
  | storageUnavailable reason =>
    refine Or.inl ⟨_, rfl, plain_single _ (plain_string 1 _), ?_⟩
    rw [canonical_single, canonical_string]
    rfl
  | notFound p =>
    refine Or.inl ⟨_, rfl, plain_single _ (plain_string 1 _), ?_⟩
    rw [canonical_single, canonical_string]
    exact congrArg (Except.map NamingError.notFound) (decodePath_text p)

theorem canonical_outOfBounds (p : Path) (offset length size : UInt64) :
    (Json.object [("path", .string p.text), ("offset", .ofUInt64 offset),
      ("length", .ofUInt64 length), ("size", .ofUInt64 size)]).canonical =
    .object [("length", .ofUInt64 length), ("offset", .ofUInt64 offset), ("path", .string p.text),
      ("size", .ofUInt64 size)] := by
  have hoffset : "offset" < "path" := by decide
  have hlength : "length" < "offset" := by decide
  have hlengthSize : "length" < "size" := by decide
  have hoffsetSize : "offset" < "size" := by decide
  have hpath : "path" < "size" := by decide
  have hlast : ∀ m ∈ [("length", ofUInt64 length), ("offset", ofUInt64 offset),
      ("path", .string p.text)], m.1 < "size" :=
    List.forall_mem_cons.mpr ⟨hlengthSize, List.forall_mem_cons.mpr
      ⟨hoffsetSize, List.forall_mem_singleton.mpr hpath⟩⟩
  rw [canonical, canonicalMembers, canonicalMembers, canonicalMembers, canonicalMembers,
    canonicalMembers, canonical_string, canonical_ofUInt64, canonical_ofUInt64, canonical_ofUInt64,
    Sorted.insert, insert_first hoffset, insert_first hlength,
    insert_last _ hlast]
  rfl

theorem decode_outOfBounds (p : Path) (offset length size : UInt64) :
    StorageError.decodeOutOfBounds [("length", .ofUInt64 length), ("offset", .ofUInt64 offset),
      ("path", .string p.text), ("size", .ofUInt64 size)] =
    .ok (.outOfBounds p offset length size) := by
  have hlookup : ∀ v w x y : Json,
      Sorted.lookup "length" [("length", v), ("offset", w), ("path", x), ("size", y)] = some v ∧
      Sorted.lookup "offset" [("length", v), ("offset", w), ("path", x), ("size", y)] = some w ∧
      Sorted.lookup "path" [("length", v), ("offset", w), ("path", x), ("size", y)] = some x ∧
      Sorted.lookup "size" [("length", v), ("offset", w), ("path", x), ("size", y)] = some y := by
    simp [Sorted.lookup]
  obtain ⟨hlength, hoffset, hpath, hsize⟩ :=
    hlookup (.ofUInt64 length) (.ofUInt64 offset) (.string p.text) (.ofUInt64 size)
  unfold StorageError.decodeOutOfBounds
  rw [field?_of_lookup hlength (decodeUInt64_ofUInt64 length),
    field?_of_lookup hoffset (decodeUInt64_ofUInt64 offset),
    field?_of_lookup hpath (decodePath_text p), field?_of_lookup hsize (decodeUInt64_ofUInt64 size)]
  rfl

/-- Every storage error survives or tells of a failed call. -/
theorem survives_storageError (e : StorageError) :
    Survives (inferInstanceAs (Wire StorageError)) e ∨ ∃ c, e = .call c := by
  cases e with
  | call c => exact Or.inr ⟨c, rfl⟩
  | notFound p =>
    refine Or.inl ⟨_, rfl, plain_single _ (plain_string 1 _), ?_⟩
    rw [canonical_single, canonical_string]
    exact congrArg (Except.map StorageError.notFound) (decodePath_text p)
  | outOfBounds p offset length size =>
    refine Or.inl ⟨_, rfl, plain_single _ ?_, ?_⟩
    · rw [Plain, plainMembers_iff]
      refine ⟨Nat.one_pos, ?_⟩
      simp only [List.forall_mem_cons, plain_string, plain_ofUInt64, true_and]
      exact fun m hm => absurd hm List.not_mem_nil
    · have hcase : ∀ members, StorageError.decode (.object [("OutOfBounds", .object members)]) =
          StorageError.decodeOutOfBounds members := by
        intro members
        simp [StorageError.decode, decodeCase, caseMembers, bind, Except.bind]
      rw [canonical_single, canonical_outOfBounds]
      exact (hcase _).trans (decode_outOfBounds p offset length size)
  | io reason =>
    refine Or.inl ⟨_, rfl, plain_single _ (plain_string 1 _), ?_⟩
    rw [canonical_single, canonical_string]
    rfl

end Wire

end FileCluster
