import FileCluster.Proofs.Remote.Transparent

/-!
Dispatchers follow their method tables.

The types of a method's parameters are told from their names in the table, whatever order a
dispatcher reads them in: one argument for each parameter, of the parameter's type
(`Argument.decodeAll?`). A dispatcher follows its table if it makes a request of exactly the
arguments that a method takes (`TypedInterface.FollowsTable`). Each of the four does
(`TypedInterface.followsTable_of_mem`).
-/

namespace FileCluster

open Json Wire

/-! ## Arguments and their types -/

/-- An argument of a call. -/
inductive Argument where
  | path (p : Path)
  | number (n : UInt64)
  | bytes (data : ByteArray)
  | paths (ps : List Path)
  | storage (s : StorageStub)
  | command (s : CommandStub)

namespace Argument

/-- Decodes a value as the type that goes by a name in signatures. -/
def decode? (type : String) (v : Json) : Option Argument :=
  match type with
  | "Path" => (Wire.decode v).toOption.map path
  | "u64" => (Wire.decode v).toOption.map number
  | "Vec<u8>" => (Wire.decode v).toOption.map bytes
  | "Vec<Path>" => (Wire.decode v).toOption.map paths
  | "StorageStub" => (Wire.decode v).toOption.map storage
  | "CommandStub" => (Wire.decode v).toOption.map command
  | _ => none

/-- Decodes as many values as there are types. -/
def decodeAll? : List String → List Json → Option (List Argument)
  | [], [] => some []
  | type :: types, v :: vs =>
    match decode? type v, decodeAll? types vs with
    | some a, some as => some (a :: as)
    | _, _ => none
  | _, _ => none

theorem decodeAll?_nil {vs : List Json} {as : List Argument} :
    decodeAll? [] vs = some as ↔ vs = [] ∧ as = [] := by
  cases vs <;> simp [decodeAll?, eq_comm]

/-- Values decode as a list of types if the first decodes as the first type, and so on. -/
theorem decodeAll?_cons {type : String} {types : List String} {vs : List Json}
    {as : List Argument} :
    decodeAll? (type :: types) vs = some as ↔
      ∃ v rest a more, vs = v :: rest ∧ decode? type v = some a ∧
        decodeAll? types rest = some more ∧ as = a :: more := by
  cases vs with
  | nil => simp [decodeAll?]
  | cons v rest =>
    rw [decodeAll?]
    constructor
    · intro h
      split at h
      next a more ha hmore => exact ⟨v, rest, a, more, rfl, ha, hmore, (Option.some.inj h).symm⟩
      next => exact nomatch h
    · rintro ⟨v', rest', a, more, hvs, ha, hmore, rfl⟩
      obtain ⟨rfl, rfl⟩ := List.cons.inj hvs
      rw [ha, hmore]

theorem map_toOption_eq_some {ε α : Type} {x : Except ε α} {f : α → Argument} {a : Argument} :
    x.toOption.map f = some a ↔ ∃ y, x = .ok y ∧ a = f y := by
  cases x with
  | error e => simp [Except.toOption]
  | ok y => simp [Except.toOption, eq_comm]

variable {v : Json} {a : Argument}

theorem decode?_path : decode? "Path" v = some a ↔ ∃ p, Wire.decode v = .ok p ∧ a = .path p :=
  map_toOption_eq_some

theorem decode?_number : decode? "u64" v = some a ↔ ∃ n, Wire.decode v = .ok n ∧ a = .number n :=
  map_toOption_eq_some

theorem decode?_bytes :
    decode? "Vec<u8>" v = some a ↔ ∃ data, Wire.decode v = .ok data ∧ a = .bytes data :=
  map_toOption_eq_some

theorem decode?_paths :
    decode? "Vec<Path>" v = some a ↔ ∃ ps, Wire.decode v = .ok ps ∧ a = .paths ps :=
  map_toOption_eq_some

theorem decode?_storage :
    decode? "StorageStub" v = some a ↔ ∃ s, Wire.decode v = .ok s ∧ a = .storage s :=
  map_toOption_eq_some

theorem decode?_command :
    decode? "CommandStub" v = some a ↔ ∃ s, Wire.decode v = .ok s ∧ a = .command s :=
  map_toOption_eq_some

end Argument

/-! ## Reading arguments -/

namespace Arguments

variable {α β : Type} {args : List Json}

theorem read_eq_ok {steps : StateT Arguments (Except CallError) α} {x : α} :
    read args steps = .ok x ↔ ∃ a, steps (ofList args) = .ok (x, a) := by
  unfold read
  cases steps (ofList args) with
  | error e => simp
  | ok y => simp [Prod.ext_iff]

/-- A step that takes an argument succeeds if there is one and it decodes. -/
theorem bind_take_eq_ok [Wire α] {f : α → StateT Arguments (Except CallError) β} {a : Arguments}
    {y : β × Arguments} :
    (take α >>= f) a = .ok y ↔
      ∃ v rest x, a.left = v :: rest ∧ Wire.decode v = .ok x ∧ f x ⟨rest, a.taken + 1⟩ = .ok y := by
  obtain ⟨left, taken⟩ := a
  constructor
  · intro h
    cases left with
    | nil => exact nomatch h
    | cons v rest =>
      cases hv : (Wire.decode v : Except DecodeError α) with
      | ok x =>
        rw [bind_take hv] at h
        exact ⟨v, rest, x, rfl, hv, h⟩
      | error e =>
        have hfail : (take α >>= f) ⟨v :: rest, taken⟩ = .error (.decode (.argument taken e)) := by
          show StateT.bind _ _ _ = _
          unfold StateT.bind take next
          dsimp only
          rw [hv]
          rfl
        exact nomatch hfail.symm.trans h
  · rintro ⟨v, rest, x, hleft, hv, h⟩
    obtain rfl : left = v :: rest := hleft
    rw [bind_take hv]
    exact h

/-- The last step succeeds if nothing is left. -/
theorem bind_close_eq_ok {f : Unit → StateT Arguments (Except CallError) β} {a : Arguments}
    {y : β × Arguments} :
    (close >>= f) a = .ok y ↔ a.left = [] ∧ f () a = .ok y := by
  obtain ⟨left, taken⟩ := a
  cases left with
  | nil => exact ⟨fun h => ⟨rfl, h⟩, fun h => h.2⟩
  | cons v rest => exact ⟨fun h => (nomatch h), fun h => (nomatch h.1)⟩

theorem pure_eq_ok {x y : α} {a b : Arguments} :
    (pure x : StateT Arguments (Except CallError) α) a = .ok (y, b) ↔ y = x ∧ b = a := by
  show Except.ok (x, a) = .ok (y, b) ↔ _
  simp [eq_comm]

end Arguments

/-! ## Tables -/

/-- An interface together with the values that its requests pass as arguments. -/
structure TypedInterface where
  interface : Interface
  values : interface.Request → List Argument

/-- The values that a command passes. -/
def CommandRequest.values (r : CommandRequest) : List Argument := [.path r.path]

/-- The values that a question or an order of a client passes. -/
def ServiceRequest.values (r : ServiceRequest) : List Argument := [.path r.path]

/-- The values that a registration passes. -/
def RegistrationRequest.values (r : RegistrationRequest) : List Argument :=
  [.storage r.storage, .command r.command, .paths r.paths]

/-- The values that a question about the data of a file passes. -/
def StorageRequest.values : StorageRequest → List Argument
  | .size p => [.path p]
  | .read p offset length => [.path p, .number offset, .number length]
  | .write p offset data => [.path p, .number offset, .bytes data]

def typedCommand : TypedInterface := ⟨commandInterface, CommandRequest.values⟩

def typedService : TypedInterface := ⟨serviceInterface, ServiceRequest.values⟩

def typedRegistration : TypedInterface := ⟨registrationInterface, RegistrationRequest.values⟩

def typedStorage : TypedInterface := ⟨storageInterface, StorageRequest.values⟩

/-- The interfaces of the cluster with the values of their requests. -/
def typedInterfaces : List TypedInterface :=
  [typedService, typedRegistration, typedStorage, typedCommand]

namespace TypedInterface

/-- A dispatcher makes a request of the arguments of a call exactly if they are what the method
takes, and the request is of that method and those arguments. -/
structure FollowsTable (T : TypedInterface) : Prop where
  names_distinct : ∀ m ∈ T.interface.methods, ∀ m' ∈ T.interface.methods, m.name = m'.name → m = m'
  read_eq_ok : ∀ name args r, T.interface.read name args = .ok r ↔
    name = (T.interface.method r).name ∧
      Argument.decodeAll? (T.interface.method r).params args = some (T.values r)
  request_of : ∀ m ∈ T.interface.methods, ∀ args values,
    Argument.decodeAll? m.params args = some values →
      ∃ r, T.interface.method r = m ∧ T.values r = values

end TypedInterface

/-! ## The four dispatchers -/

section Dispatchers

open Argument

variable {name : String} {args : List Json} {as : List Argument}

theorem Argument.decodeAll?_one {type : String} :
    decodeAll? [type] args = some as ↔
      ∃ v a, args = [v] ∧ decode? type v = some a ∧ as = [a] := by
  simp only [decodeAll?_cons, decodeAll?_nil]
  constructor
  · rintro ⟨v, rest, a, more, rfl, ha, ⟨rfl, rfl⟩, rfl⟩
    exact ⟨v, a, rfl, ha, rfl⟩
  · rintro ⟨v, a, rfl, ha, rfl⟩
    exact ⟨v, [], a, [], rfl, ha, ⟨rfl, rfl⟩, rfl⟩

theorem Argument.decodeAll?_three {type type' type'' : String} :
    decodeAll? [type, type', type''] args = some as ↔
      ∃ u v w a b c, args = [u, v, w] ∧ decode? type u = some a ∧ decode? type' v = some b ∧
        decode? type'' w = some c ∧ as = [a, b, c] := by
  rw [decodeAll?_cons]
  constructor
  · rintro ⟨u, rest, a, more, rfl, ha, hmore, rfl⟩
    obtain ⟨v, _, b, _, rfl, hb, hlast, rfl⟩ := decodeAll?_cons.mp hmore
    obtain ⟨w, c, rfl, hc, rfl⟩ := decodeAll?_one.mp hlast
    exact ⟨u, v, w, a, b, c, rfl, ha, hb, hc, rfl⟩
  · rintro ⟨u, v, w, a, b, c, rfl, ha, hb, hc, rfl⟩
    have hlast := decodeAll?_one.mpr ⟨w, c, rfl, hc, rfl⟩
    exact ⟨u, [v, w], a, [b, c], rfl, ha, decodeAll?_cons.mpr ⟨v, [w], b, [c], rfl, hb, hlast, rfl⟩,
      rfl⟩

theorem Argument.decodeAll?_path :
    decodeAll? ["Path"] args = some as ↔
      ∃ v p, args = [v] ∧ Wire.decode v = .ok p ∧ as = [.path p] := by
  rw [decodeAll?_one]
  constructor
  · rintro ⟨v, a, hargs, ha, has⟩
    obtain ⟨p, hp, rfl⟩ := decode?_path.mp ha
    exact ⟨v, p, hargs, hp, has⟩
  · rintro ⟨v, p, hargs, hp, has⟩
    exact ⟨v, _, hargs, decode?_path.mpr ⟨p, hp, rfl⟩, has⟩

theorem CommandRequest.read?_eq_ok {r : CommandRequest} :
    CommandRequest.read? name args = .ok r ↔
      name = r.method.name ∧ decodeAll? r.method.params args = some r.values := by
  have hparams : r.method.params = ["Path"] := by cases r <;> rfl
  unfold CommandRequest.read? CommandRequest.values
  simp only [Arguments.read_eq_ok, Arguments.bind_take_eq_ok, Arguments.bind_close_eq_ok, hparams,
    decodeAll?_path]
  constructor
  · rintro ⟨a, v, rest, p, hargs, hp, rfl, h⟩
    split at h
    case h_3 => exact nomatch h
    all_goals
      obtain ⟨rfl, -⟩ := Arguments.pure_eq_ok.mp h
      exact ⟨rfl, v, p, hargs, hp, rfl⟩
  · rintro ⟨rfl, v, p, rfl, hp, hvalues⟩
    obtain rfl : r.path = p := by simpa using hvalues
    refine ⟨⟨[], 1⟩, v, [], r.path, rfl, hp, rfl, ?_⟩
    cases r <;> rfl

theorem ServiceRequest.ofName?_eq_some {p : Path} {r : ServiceRequest} :
    ServiceRequest.ofName? name p = some r ↔ name = r.methodName ∧ p = r.path := by
  constructor
  · intro h
    unfold ofName? at h
    split at h
    case h_7 => exact nomatch h
    all_goals
      obtain rfl := Option.some.inj h
      exact ⟨rfl, rfl⟩
  · rintro ⟨rfl, rfl⟩
    cases r <;> rfl

theorem ServiceRequest.read?_eq_ok {r : ServiceRequest} :
    ServiceRequest.read? name args = .ok r ↔
      name = r.methodName ∧ decodeAll? ["Path"] args = some r.values := by
  unfold ServiceRequest.read? ServiceRequest.values
  simp only [Arguments.read_eq_ok, Arguments.bind_take_eq_ok, Arguments.bind_close_eq_ok,
    decodeAll?_path]
  constructor
  · rintro ⟨a, v, rest, p, hargs, hp, rfl, h⟩
    cases hr : ofName? name p with
    | none =>
      rw [hr] at h
      exact nomatch h
    | some r' =>
      rw [hr] at h
      obtain ⟨rfl, -⟩ := Arguments.pure_eq_ok.mp h
      obtain ⟨rfl, rfl⟩ := ofName?_eq_some.mp hr
      exact ⟨rfl, v, r.path, hargs, hp, rfl⟩
  · rintro ⟨rfl, v, p, rfl, hp, hvalues⟩
    obtain rfl : r.path = p := by simpa using hvalues
    refine ⟨⟨[], 1⟩, v, [], r.path, rfl, hp, rfl, ?_⟩
    rw [ofName?_eq_some.mpr ⟨rfl, rfl⟩]
    rfl

theorem RegistrationRequest.read?_eq_ok {r : RegistrationRequest} :
    RegistrationRequest.read? name args = .ok r ↔
      name = registerMethod.name ∧ decodeAll? registerMethod.params args = some r.values := by
  unfold registerMethod
  rw [decodeAll?_three]
  constructor
  · intro h
    unfold RegistrationRequest.read? at h
    split at h
    next hname =>
      simp only [Arguments.read_eq_ok, Arguments.bind_take_eq_ok, Arguments.bind_close_eq_ok,
        Arguments.pure_eq_ok] at h
      obtain ⟨a, u, _, storage, hargs, hu, v, _, command, rfl, hv, w, _, paths, rfl, hw, rfl, rfl,
        -⟩ := h
      exact ⟨hname, u, v, w, _, _, _, hargs, decode?_storage.mpr ⟨storage, hu, rfl⟩,
        decode?_command.mpr ⟨command, hv, rfl⟩, decode?_paths.mpr ⟨paths, hw, rfl⟩, rfl⟩
    next => exact nomatch h
  · rintro ⟨rfl, u, v, w, a, b, c, rfl, ha, hb, hc, hvalues⟩
    obtain ⟨storage, hu, rfl⟩ := decode?_storage.mp ha
    obtain ⟨command, hv, rfl⟩ := decode?_command.mp hb
    obtain ⟨paths, hw, rfl⟩ := decode?_paths.mp hc
    obtain rfl : r = ⟨storage, command, paths⟩ := by
      cases r
      simpa [RegistrationRequest.values] using hvalues
    exact read?_of_decode hu hv hw

theorem StorageRequest.read?_sound {r : StorageRequest}
    (h : StorageRequest.read? name args = .ok r) :
    name = r.method.name ∧ decodeAll? r.method.params args = some r.values := by
  unfold StorageRequest.read? at h
  simp only [Arguments.read_eq_ok, Arguments.bind_take_eq_ok] at h
  obtain ⟨a, u, rest, p, hargs, hu, h⟩ := h
  have hpath := decode?_path.mpr ⟨p, hu, rfl⟩
  split at h
  case h_1 =>
    simp only [Arguments.bind_close_eq_ok, Arguments.pure_eq_ok] at h
    obtain ⟨rfl, rfl, -⟩ := h
    exact ⟨rfl, decodeAll?_one.mpr ⟨u, _, hargs, hpath, rfl⟩⟩
  case h_2 =>
    simp only [Arguments.bind_take_eq_ok, Arguments.bind_close_eq_ok, Arguments.pure_eq_ok] at h
    obtain ⟨v, _, offset, rfl, hv, w, _, length, rfl, hw, rfl, rfl, -⟩ := h
    exact ⟨rfl, decodeAll?_three.mpr ⟨u, v, w, _, _, _, hargs, hpath,
      decode?_number.mpr ⟨offset, hv, rfl⟩, decode?_number.mpr ⟨length, hw, rfl⟩, rfl⟩⟩
  case h_3 =>
    simp only [Arguments.bind_take_eq_ok, Arguments.bind_close_eq_ok, Arguments.pure_eq_ok] at h
    obtain ⟨v, _, offset, rfl, hv, w, _, data, rfl, hw, rfl, rfl, -⟩ := h
    exact ⟨rfl, decodeAll?_three.mpr ⟨u, v, w, _, _, _, hargs, hpath,
      decode?_number.mpr ⟨offset, hv, rfl⟩, decode?_bytes.mpr ⟨data, hw, rfl⟩, rfl⟩⟩
  case h_4 => exact nomatch h

theorem StorageRequest.read?_complete {r : StorageRequest}
    (h : decodeAll? r.method.params args = some r.values) :
    StorageRequest.read? r.method.name args = .ok r := by
  cases r with
  | size p =>
    obtain ⟨u, p', rfl, hu, hvalues⟩ := decodeAll?_path.mp h
    obtain rfl : p = p' := by simpa [StorageRequest.values] using hvalues
    exact (read?_of_decode hu).1
  | read p offset length =>
    obtain ⟨u, v, w, _, _, _, rfl, ha, hb, hc, hvalues⟩ := decodeAll?_three.mp h
    obtain ⟨p', hu, rfl⟩ := decode?_path.mp ha
    obtain ⟨offset', hv, rfl⟩ := decode?_number.mp hb
    obtain ⟨length', hw, rfl⟩ := decode?_number.mp hc
    obtain ⟨rfl, rfl, rfl⟩ : p = p' ∧ offset = offset' ∧ length = length' := by
      simpa [StorageRequest.values] using hvalues
    exact (read?_of_decode hu).2.1 hv hw
  | write p offset data =>
    obtain ⟨u, v, w, _, _, _, rfl, ha, hb, hc, hvalues⟩ := decodeAll?_three.mp h
    obtain ⟨p', hu, rfl⟩ := decode?_path.mp ha
    obtain ⟨offset', hv, rfl⟩ := decode?_number.mp hb
    obtain ⟨data', hw, rfl⟩ := decode?_bytes.mp hc
    obtain ⟨rfl, rfl, rfl⟩ : p = p' ∧ offset = offset' ∧ data = data' := by
      simpa [StorageRequest.values] using hvalues
    exact (read?_of_decode hu).2.2 hv hw

end Dispatchers

theorem commandInterface_followsTable : typedCommand.FollowsTable where
  names_distinct := by decide
  read_eq_ok _ _ _ := CommandRequest.read?_eq_ok
  request_of m hm args values h := by
    replace hm : m = ⟨"create", ["Path"]⟩ ∨ m = ⟨"delete", ["Path"]⟩ := by
      simpa [typedCommand, commandInterface] using hm
    obtain rfl | rfl := hm <;> obtain ⟨v, p, -, -, rfl⟩ := Argument.decodeAll?_path.mp h
    · exact ⟨.create p, rfl, rfl⟩
    · exact ⟨.delete p, rfl, rfl⟩

theorem serviceInterface_followsTable : typedService.FollowsTable where
  names_distinct := by decide
  read_eq_ok _ _ _ := ServiceRequest.read?_eq_ok
  request_of m hm args values h := by
    obtain ⟨name, hname, rfl⟩ := List.mem_map.mp hm
    obtain ⟨v, p, -, -, rfl⟩ := Argument.decodeAll?_path.mp h
    simp only [List.mem_cons, List.not_mem_nil, or_false] at hname
    obtain rfl | rfl | rfl | rfl | rfl | rfl := hname
    · exact ⟨.isDirectory p, rfl, rfl⟩
    · exact ⟨.list p, rfl, rfl⟩
    · exact ⟨.createFile p, rfl, rfl⟩
    · exact ⟨.createDirectory p, rfl, rfl⟩
    · exact ⟨.delete p, rfl, rfl⟩
    · exact ⟨.getStorage p, rfl, rfl⟩

theorem registrationInterface_followsTable : typedRegistration.FollowsTable where
  names_distinct := by decide
  read_eq_ok _ _ _ := RegistrationRequest.read?_eq_ok
  request_of m hm args values h := by
    obtain rfl : m = registerMethod := List.mem_singleton.mp hm
    obtain ⟨u, v, w, _, _, _, -, ha, hb, hc, rfl⟩ := Argument.decodeAll?_three.mp h
    obtain ⟨storage, -, rfl⟩ := Argument.decode?_storage.mp ha
    obtain ⟨command, -, rfl⟩ := Argument.decode?_command.mp hb
    obtain ⟨paths, -, rfl⟩ := Argument.decode?_paths.mp hc
    exact ⟨⟨storage, command, paths⟩, rfl, rfl⟩

theorem storageInterface_followsTable : typedStorage.FollowsTable where
  names_distinct := by decide
  read_eq_ok _ _ _ := ⟨StorageRequest.read?_sound,
    fun ⟨hname, h⟩ => hname ▸ StorageRequest.read?_complete h⟩
  request_of m hm args values h := by
    replace hm : m = ⟨"size", ["Path"]⟩ ∨ m = ⟨"read", ["Path", "u64", "u64"]⟩ ∨
        m = ⟨"write", ["Path", "u64", "Vec<u8>"]⟩ := by
      simpa [typedStorage, storageInterface] using hm
    obtain rfl | rfl | rfl := hm
    · obtain ⟨v, p, -, -, rfl⟩ := Argument.decodeAll?_path.mp h
      exact ⟨.size p, rfl, rfl⟩
    all_goals
      obtain ⟨u, v, w, _, _, _, -, ha, hb, hc, rfl⟩ := Argument.decodeAll?_three.mp h
      obtain ⟨p, -, rfl⟩ := Argument.decode?_path.mp ha
      obtain ⟨offset, -, rfl⟩ := Argument.decode?_number.mp hb
    · obtain ⟨length, -, rfl⟩ := Argument.decode?_number.mp hc
      exact ⟨.read p offset length, rfl, rfl⟩
    · obtain ⟨data, -, rfl⟩ := Argument.decode?_bytes.mp hc
      exact ⟨.write p offset data, rfl, rfl⟩

theorem TypedInterface.followsTable_of_mem {T : TypedInterface} (h : T ∈ typedInterfaces) :
    T.interface.Faithful ∧ T.FollowsTable := by
  simp only [typedInterfaces, List.mem_cons, List.not_mem_nil, or_false] at h
  obtain rfl | rfl | rfl | rfl := h
  · exact ⟨serviceInterface_faithful, serviceInterface_followsTable⟩
  · exact ⟨registrationInterface_faithful, registrationInterface_followsTable⟩
  · exact ⟨storageInterface_faithful, storageInterface_followsTable⟩
  · exact ⟨commandInterface_faithful, commandInterface_followsTable⟩

end FileCluster
