import FileCluster.Proofs.Naming.Run
import Mathlib.Data.List.Rotate

/-!
Files are dealt out fairly.

Servers ask to be enrolled and files are placed, in any order (`Registry.Event`); a server may be
refused, and a placement fails while no server is registered. The turn is a count of placements that
no enrolment resets, so which server it falls to when a server has joined depends on all that was
placed before (`Registry.happen_place_after`). As long as no server joins, those chosen follow one
another round and round (`Registry.inTurn_choices`), which is fair to them over any stretch
(`Registry.InTurn.fair`). The naming service deals with its registry in this way, whatever storage
servers reply to the commands (`Naming.runBy_dealt`). Main statement: `placements_fair`.
-/

namespace FileCluster

namespace Registry

/-! ## Histories -/

/-- What a registry is asked. -/
inductive Event where
  /-- a server asks to be enrolled -/
  | enroll (o : Owner)
  /-- a file is to be placed -/
  | place

/-- The registry after an event, and the server that was chosen, if one was. -/
def happen (r : Registry) : Event → Registry × Option Owner
  | .enroll o =>
    match r.enroll o with
    | .error _ => (r, none)
    | .ok r' => (r', none)
  | .place =>
    match r.next with
    | .error _ => (r, none)
    | .ok (o, r') => (r', some o)

/-- The registry after events in turn. -/
def after (r : Registry) : List Event → Registry
  | [] => r
  | e :: es => (r.happen e).1.after es

/-- The servers chosen by events in turn. -/
def choices (r : Registry) : List Event → List Owner
  | [] => []
  | e :: es => (r.happen e).2.toList ++ (r.happen e).1.choices es

/-- The servers that are registered after some events, in the order of registration: of servers with
the same command stub it is the first. -/
def registered (events : List Event) : List Owner :=
  events.foldl (fun servers e =>
    match e with
    | .enroll o => if servers.any (·.command = o.command) then servers else servers ++ [o]
    | .place => servers) []

variable {r : Registry} {o : Owner} {past window es es' : List Event} {e : Event}

theorem after_append (r : Registry) (es es' : List Event) :
    r.after (es ++ es') = (r.after es).after es' := by
  induction es generalizing r with
  | nil => rfl
  | cons e es ih => exact ih (r.happen e).1

theorem choices_append (r : Registry) (es es' : List Event) :
    r.choices (es ++ es') = r.choices es ++ (r.after es).choices es' := by
  induction es generalizing r with
  | nil => rfl
  | cons e es ih =>
    show (r.happen e).2.toList ++ (r.happen e).1.choices (es ++ es') = _
    rw [ih, ← List.append_assoc]
    rfl

theorem choices_singleton (r : Registry) (e : Event) : r.choices [e] = (r.happen e).2.toList :=
  List.append_nil _

theorem registered_enroll (es : List Event) (o : Owner) :
    registered (es ++ [.enroll o]) =
      if (registered es).any (·.command = o.command) then registered es
      else registered es ++ [o] := by
  unfold registered
  rw [List.foldl_append]
  rfl

theorem registered_known (h : o.command ∈ (registered es).map Owner.command) :
    registered (es ++ [.enroll o]) = registered es := by
  rw [registered_enroll, if_pos]
  simpa using h

theorem registered_new (h : o.command ∉ (registered es).map Owner.command) :
    registered (es ++ [.enroll o]) = registered es ++ [o] := by
  rw [registered_enroll, if_neg]
  simpa using h

theorem registered_place (es : List Event) : registered (es ++ [.place]) = registered es := by
  unfold registered
  rw [List.foldl_append]
  rfl

/-- A server that is registered stays so, at its position. -/
theorem prefix_registered_append (es es' : List Event) :
    registered es <+: registered (es ++ es') := by
  induction es' using List.reverseRecOn with
  | nil => rw [List.append_nil]
  | append_singleton es' e ih =>
    rw [← List.append_assoc]
    cases e with
    | place =>
      rw [registered_place]
      exact ih
    | enroll o =>
      rw [registered_enroll]
      split
      · exact ih
      · exact ih.trans (List.prefix_append _ _)

theorem registered_eq_of_append (h : registered (past ++ (es ++ es')) = registered past) :
    registered (past ++ es) = registered past := by
  have hlater : registered (past ++ es) <+: registered (past ++ (es ++ es')) := by
    rw [← List.append_assoc]
    exact prefix_registered_append _ _
  rw [h] at hlater
  exact hlater.eq_of_length_le (prefix_registered_append past es).length_le

/-! ## What happens -/

theorem happen_enroll (r : Registry) (o : Owner) :
    r.happen (.enroll o) =
      (if o.command ∈ r.known then r
        else { r with known := o.command :: r.known, servers := r.servers ++ [o] }, none) := by
  unfold happen enroll
  by_cases hknown : o.command ∈ r.known
  · simp only [if_pos hknown]
  · simp only [if_neg hknown]

theorem happen_place (r : Registry) :
    r.happen .place =
      match r.servers[r.cursor.toNat % r.servers.length]? with
      | none => (r, none)
      | some o => ({ r with cursor := r.cursor + 1 }, some o) := by
  unfold happen next
  cases r.servers[r.cursor.toNat % r.servers.length]? <;> rfl

theorem next_eq_ok_iff : (∃ r', r.next = .ok (o, r')) ↔ (r.happen .place).2 = some o := by
  unfold happen
  cases h : r.next with
  | error e => simp
  | ok chosen => simp [Prod.ext_iff]

/-- What a fresh registry has become after events: the lists tell who has been enrolled, the cursor
how many files have been placed. -/
structure Recorded (events : List Event) : Prop where
  servers : (empty.after events).servers = registered events
  known : ∀ c, c ∈ (empty.after events).known ↔ c ∈ (registered events).map Owner.command
  distinct : ((registered events).map Owner.command).Nodup
  cursor : (empty.after events).cursor = UInt64.ofNat (empty.choices events).length

theorem Recorded.enroll (h : Recorded es) (o : Owner) : Recorded (es ++ [.enroll o]) := by
  have hafter : empty.after (es ++ [.enroll o]) = ((empty.after es).happen (.enroll o)).1 :=
    after_append _ _ _
  have hchoices : empty.choices (es ++ [.enroll o]) = empty.choices es := by
    rw [choices_append, choices_singleton, happen_enroll]
    exact List.append_nil _
  rw [happen_enroll] at hafter
  by_cases hknown : o.command ∈ (empty.after es).known
  · have hsame : registered (es ++ [.enroll o]) = registered es :=
      registered_known ((h.known _).mp hknown)
    rw [if_pos hknown] at hafter
    constructor <;> simp only [hafter, hchoices, hsame]
    exacts [h.servers, h.known, h.distinct, h.cursor]
  · have hnew : o.command ∉ (registered es).map Owner.command :=
      fun hm => hknown ((h.known _).mpr hm)
    have hmore : registered (es ++ [.enroll o]) = registered es ++ [o] := registered_new hnew
    rw [if_neg hknown] at hafter
    constructor <;> simp only [hafter, hchoices, hmore]
    case servers => rw [h.servers]
    case known =>
      intro c
      rw [List.mem_cons, h.known, List.map_append, List.mem_append, List.map_singleton,
        List.mem_singleton, or_comm]
    case distinct =>
      rw [List.map_append, List.map_singleton]
      exact List.nodup_append.mpr ⟨h.distinct, List.nodup_singleton _, fun a ha b hb hab =>
        hnew (List.mem_singleton.mp hb ▸ hab ▸ ha)⟩
    case cursor => exact h.cursor

theorem Recorded.place (h : Recorded es) : Recorded (es ++ [.place]) := by
  have hafter : empty.after (es ++ [.place]) = ((empty.after es).happen .place).1 :=
    after_append _ _ _
  have hchoices : empty.choices (es ++ [.place]) =
      empty.choices es ++ ((empty.after es).happen .place).2.toList := by
    rw [choices_append, choices_singleton]
  rw [happen_place] at hafter hchoices
  cases hturn : (empty.after es).servers[(empty.after es).cursor.toNat %
      (empty.after es).servers.length]? with
  | none =>
    rw [hturn] at hafter hchoices
    constructor <;> simp only [hafter, hchoices, registered_place, Option.toList, List.append_nil]
    exacts [h.servers, h.known, h.distinct, h.cursor]
  | some o =>
    rw [hturn] at hafter hchoices
    constructor <;> simp only [hafter, hchoices, registered_place]
    exacts [h.servers, h.known, h.distinct, by rw [h.cursor]; simp]

theorem recorded (events : List Event) : Recorded events := by
  induction events using List.reverseRecOn with
  | nil => exact ⟨rfl, fun c => Iff.rfl, List.nodup_nil, rfl⟩
  | append_singleton es e ih =>
    cases e with
    | enroll o => exact ih.enroll o
    | place => exact ih.place

/-- The next placement falls to the server whose position is the number of placements before,
counted round and round the servers that are registered by then. -/
theorem happen_place_after (hcount : (empty.choices past).length < UInt64.size) :
    ((empty.after past).happen .place).2 =
      (registered past)[(empty.choices past).length % (registered past).length]? := by
  have hrecorded := recorded past
  have hcursor : (empty.after past).cursor.toNat = (empty.choices past).length := by
    rw [hrecorded.cursor]
    exact UInt64.toNat_ofNat_of_lt' hcount
  rw [happen_place, hcursor, hrecorded.servers]
  split <;> rename_i hturn <;> rw [hturn]

/-! ## Servers chosen in turn -/

/-- The servers chosen are those at the positions that follow one another, round and round, from
`k` on. -/
def InTurn (servers : List Owner) (k : Nat) (chosen : List Owner) : Prop :=
  ∀ i < chosen.length, chosen[i]? = servers[(k + i) % servers.length]?

/-- What a part of the placements has to do to be fair to some servers. -/
structure Fair (servers part : List Owner) : Prop where
  /-- as many placements as there are servers choose each server once -/
  round : part.length = servers.length → part.Perm servers
  /-- no server is chosen more than once more often than another one -/
  even : ∀ o ∈ servers, ∀ o' ∈ servers, part.count o ≤ part.count o' + 1

section Turns

variable {servers chosen part : List Owner} {k : Nat}

theorem InTurn.concat (h : InTurn servers k chosen)
    (ho : servers[(k + chosen.length) % servers.length]? = some o) :
    InTurn servers k (chosen ++ [o]) := by
  intro i hi
  rw [List.length_append, List.length_singleton] at hi
  obtain hlt | rfl : i < chosen.length ∨ i = chosen.length := by omega
  · rw [List.getElem?_append_left hlt]
    exact h i hlt
  · rw [List.getElem?_concat_length, ho]

theorem InTurn.infix (h : InTurn servers k chosen) (hpart : part <:+: chosen) :
    ∃ k', InTurn servers k' part := by
  obtain ⟨before, later, rfl⟩ := hpart
  refine ⟨k + before.length, fun i hi => ?_⟩
  have hget := h (before.length + i) (by simp; omega)
  rw [List.append_assoc, List.getElem?_append_right (Nat.le_add_right _ _),
    Nat.add_sub_cancel_left, List.getElem?_append_left hi] at hget
  rw [hget, Nat.add_assoc]

/-- No more placements than there are servers go once round, from some server on. -/
theorem InTurn.eq_take_rotate (h : InTurn servers k chosen)
    (hle : chosen.length ≤ servers.length) :
    chosen = (servers.rotate k).take chosen.length := by
  refine List.ext_getElem? fun i => ?_
  by_cases hi : i < chosen.length
  · rw [h i hi, List.getElem?_take_of_lt hi, List.getElem?_rotate (by omega), Nat.add_comm]
  · rw [List.getElem?_eq_none (by omega), List.getElem?_take_eq_none (by omega)]

theorem InTurn.perm (h : InTurn servers k chosen) (hlength : chosen.length = servers.length) :
    chosen.Perm servers := by
  have hround := h.eq_take_rotate hlength.le
  rw [hlength, List.take_of_length_le (servers.length_rotate k).le] at hround
  rw [hround]
  exact List.rotate_perm servers k

/-- By induction on whole rounds: each chooses both servers once, and what is left chooses each at
most once. -/
theorem InTurn.count_le (h : InTurn servers k chosen) (hdistinct : servers.Nodup) {o o' : Owner}
    (ho : o ∈ servers) (ho' : o' ∈ servers) : chosen.count o ≤ chosen.count o' + 1 := by
  induction hlength : chosen.length using Nat.strongRecOn generalizing chosen k with
  | ind length ih =>
    subst hlength
    by_cases hle : chosen.length ≤ servers.length
    · have honce : chosen.Nodup := by
        rw [h.eq_take_rotate hle]
        exact (List.nodup_rotate.mpr hdistinct).sublist (List.take_sublist _ _)
      exact (List.nodup_iff_count_le_one.mp honce o).trans (Nat.le_add_left _ _)
    · have hpos : 0 < servers.length := List.length_pos_of_mem ho
      obtain ⟨k₁, hround⟩ := h.infix (List.take_prefix servers.length chosen).isInfix
      obtain ⟨k₂, hrest⟩ := h.infix (List.drop_suffix servers.length chosen).isInfix
      have hperm := hround.perm (by rw [List.length_take]; omega)
      have hlater := ih _ (by rw [List.length_drop]; omega) hrest rfl
      rw [← List.take_append_drop servers.length chosen, List.count_append, List.count_append,
        hperm.count_eq, hperm.count_eq, List.count_eq_one_of_mem hdistinct ho,
        List.count_eq_one_of_mem hdistinct ho']
      omega

theorem InTurn.fair (h : InTurn servers k chosen) (hdistinct : servers.Nodup)
    (hpart : part <:+: chosen) : Fair servers part := by
  obtain ⟨k', hpart⟩ := h.infix hpart
  exact ⟨hpart.perm, fun o ho o' ho' => hpart.count_le hdistinct ho ho'⟩

end Turns

/-- As long as no server joins, servers are chosen in turn, from the one on whose turn it was. -/
theorem inTurn_choices (hsame : registered (past ++ window) = registered past)
    (hcount : (empty.choices (past ++ window)).length ≤ UInt64.size) :
    InTurn (registered past) (empty.choices past).length ((empty.after past).choices window) := by
  induction window using List.reverseRecOn with
  | nil => exact fun i hi => absurd hi (Nat.not_lt_zero i)
  | append_singleton es e ih =>
    have hsame' : registered (past ++ es) = registered past := registered_eq_of_append hsame
    -- nothing but a placement chooses, and it does by the count of those before
    have hchosen : ∀ {o}, ((empty.after (past ++ es)).happen e).2 = some o → e = .place := by
      intro o ho
      cases e with
      | place => rfl
      | enroll o' =>
        rw [happen_enroll] at ho
        cases ho
    rw [← List.append_assoc, choices_append, choices_singleton, List.length_append] at hcount
    rw [choices_append, choices_singleton, ← after_append]
    cases hturn : ((empty.after (past ++ es)).happen e).2 with
    | none =>
      rw [Option.toList_none, List.append_nil]
      exact ih hsame' (by omega)
    | some o =>
      obtain rfl := hchosen hturn
      rw [hturn, Option.toList_some, List.length_singleton] at hcount
      rw [happen_place_after (by omega), hsame', choices_append, List.length_append] at hturn
      exact (ih hsame' (by omega)).concat hturn

end Registry

namespace Naming

/-! ## The service -/

/-- An order to make a file counts as a placement: the path is not the root, its parent is a
directory, nothing is there yet, and some server is registered. -/
structure Places (s : Naming) (p : Path) : Prop where
  nonroot : p ≠ .root
  parent : ∃ a, p.parent? = some a ∧ s.tree.isDirectory? a = some true
  free : s.tree.contains p = false
  served : s.registry.servers ≠ []

theorem exists_next_iff {r : Registry} : (∃ next, r.next = .ok next) ↔ r.servers ≠ [] := by
  unfold Registry.next
  constructor
  · rintro ⟨next, h⟩ hnone
    rw [hnone] at h
    cases h
  · intro h
    have hlt : r.cursor.toNat % r.servers.length < r.servers.length :=
      Nat.mod_lt _ (List.length_pos_of_ne_nil h)
    rw [List.getElem?_eq_getElem hlt]
    exact ⟨_, rfl⟩

theorem places_iff {s : Naming} {p : Path} : s.Places p ↔ ∃ next, s.placement p = .ok next := by
  simp only [placement_eq_ok_iff, requireParent_eq_ok_iff, Path.isRoot_eq_false_iff,
    exists_and_left, exists_next_iff]
  exact ⟨fun ⟨h₁, h₂, h₃, h₄⟩ => ⟨h₁, h₂, h₃, h₄⟩, fun ⟨h₁, h₂, h₃, h₄⟩ => ⟨h₁, h₂, h₃, h₄⟩⟩

instance (s : Naming) (p : Path) : Decidable (s.Places p) :=
  decidable_of_iff ((s.placement p).isOk = true) <| by
    rw [places_iff]
    cases s.placement p <;> simp [Except.isOk, Except.toBool]

/-- What the registry is asked in the course of an operation. -/
def asks (s : Naming) : Operation → List Registry.Event
  | .request (.createFile p) => if s.Places p then [.place] else []
  | .request _ => []
  | .register r => [.enroll ⟨r.storage, r.command⟩]

/-- What the registry is asked in the course of operations in turn. -/
def history (replies : Replies) (s : Naming) (past : List Event) :
    List Operation → List Registry.Event
  | [] => []
  | op :: ops =>
    s.asks op ++ history replies ((perform (record replies) s op).run past).1.2
      (((perform (record replies) s op).run past).2 ++
        [.answered ((perform (record replies) s op).run past).1.1]) ops

/-- The server that an event tells to make a file. -/
def Event.created? : Event → Option CommandStub
  | .commanded server (.create _) => some server
  | _ => none

/-- The servers told to make a file, one after the other. -/
def creates (seen : List Event) : List CommandStub := seen.filterMap Event.created?

variable {s : Naming} {p : Path}

/-- An order that counts as a placement takes the turn of the server that it tells to make the
file, whatever the server replies. -/
theorem createFile_of_places (h : s.Places p) (replies : Replies) (past : List Event) :
    ∃ o registry, s.registry.next = .ok (o, registry) ∧
      ((createFile (record replies) s p).run past).1.2.registry = registry ∧
      ((createFile (record replies) s p).run past).2 =
        past ++ [.commanded o.command (.create p)] := by
  obtain ⟨⟨o, registry⟩, hplace⟩ := places_iff.mp h
  obtain ⟨-, -, -, hnext⟩ := placement_eq_ok_iff.mp hplace
  refine ⟨o, registry, hnext, ?_, ?_⟩ <;> rw [createFile_eq, hplace]
  · show (s.placed p o registry (replies past o.command (.create p))).2.registry = registry
    cases replies past o.command (.create p) <;> rfl
  · rfl

/-- Any other order to make a file changes nothing, and no server hears of it. -/
theorem createFile_of_not_places (h : ¬s.Places p) (replies : Replies) (past : List Event) :
    ((createFile (record replies) s p).run past).1.2 = s ∧
      ((createFile (record replies) s p).run past).2 = past := by
  rw [createFile_eq]
  cases hplace : s.placement p with
  | error answer => exact ⟨rfl, rfl⟩
  | ok next => exact absurd (places_iff.mpr ⟨next, hplace⟩) h

theorem registry_register (s : Naming) (r : RegistrationRequest) :
    (s.register r).2.registry = (s.registry.happen (.enroll ⟨r.storage, r.command⟩)).1 := by
  unfold Naming.register Registry.happen
  dsimp only
  cases s.registry.enroll ⟨r.storage, r.command⟩ <;> rfl

theorem creates_append (seen seen' : List Event) :
    creates (seen ++ seen') = creates seen ++ creates seen' := List.filterMap_append

theorem creates_commandDeletes (replies : Replies) (p : Path) (owners : List Owner)
    (past : List Event) :
    creates ((commandDeletes (record replies) p owners).run past).2 = creates past := by
  induction owners generalizing past with
  | nil => rfl
  | cons o owners ih =>
    have hrest := ih (past ++ [.commanded o.command (.delete p)])
    rw [creates_append] at hrest
    exact hrest.trans (List.append_nil _)

theorem registry_createDirectory (s : Naming) (p : Path) :
    (s.createDirectory p).2.registry = s.registry := by
  unfold Naming.createDirectory
  split
  · rfl
  · split
    · rfl
    · split <;> rfl

/-- What has become of a naming service and of what was seen, if its registry was asked some
things. -/
structure Dealt (s : Naming) (past : List Event) (events : List Registry.Event) (s' : Naming)
    (seen : List Event) : Prop where
  registry : s'.registry = s.registry.after events
  creates : creates seen = creates past ++ (s.registry.choices events).map Owner.command

variable {past seen seen' : List Event} {events events' : List Registry.Event} {s' s'' : Naming}

theorem Dealt.of_eq (hregistry : s'.registry = s.registry)
    (hcreates : Naming.creates seen = Naming.creates past) : Dealt s past [] s' seen :=
  ⟨hregistry, hcreates.trans (List.append_nil _).symm⟩

theorem Dealt.trans (h : Dealt s past events s' seen) (h' : Dealt s' seen events' s'' seen') :
    Dealt s past (events ++ events') s'' seen' where
  registry := by rw [h'.registry, h.registry, Registry.after_append]
  creates := by
    rw [h'.creates, h.creates, h.registry, Registry.choices_append, List.map_append,
      List.append_assoc]

theorem createFile_dealt (s : Naming) (p : Path) (replies : Replies) (past : List Event) :
    Dealt s past (s.asks (.request (.createFile p)))
      ((createFile (record replies) s p).run past).1.2
      ((createFile (record replies) s p).run past).2 := by
  by_cases h : s.Places p
  · have hasks : s.asks (.request (.createFile p)) = [.place] := if_pos h
    obtain ⟨o, registry, hnext, hregistry, hseen⟩ := createFile_of_places h replies past
    have hhappen : s.registry.happen .place = (registry, some o) := by
      unfold Registry.happen
      rw [hnext]
    rw [hasks]
    refine ⟨?_, ?_⟩
    · rw [hregistry]
      exact (congrArg Prod.fst hhappen).symm
    · rw [hseen, creates_append, Registry.choices_singleton, hhappen]
      rfl
  · have hasks : s.asks (.request (.createFile p)) = [] := if_neg h
    obtain ⟨hs, hseen⟩ := createFile_of_not_places h replies past
    rw [hasks]
    exact .of_eq (congrArg Naming.registry hs) (congrArg Naming.creates hseen)

/-- Whatever storage servers reply, an operation asks the registry no more and no less. -/
theorem perform_dealt (s : Naming) (replies : Replies) (op : Operation) (past : List Event) :
    Dealt s past (s.asks op) ((perform (record replies) s op).run past).1.2
      ((perform (record replies) s op).run past).2 := by
  cases op with
  | register r =>
    refine ⟨s.registry_register r, ?_⟩
    show Naming.creates past = _
    unfold asks
    rw [Registry.choices_singleton, Registry.happen_enroll]
    exact (List.append_nil _).symm
  | request r =>
    cases r with
    | createFile p => exact createFile_dealt s p replies past
    | createDirectory p => exact .of_eq (s.registry_createDirectory p) rfl
    | delete p =>
      simp only [Naming.perform, answer, delete_eq]
      cases s.removal p with
      | error a => exact .of_eq rfl rfl
      | ok owners => exact .of_eq rfl (creates_commandDeletes replies p owners past)
    | isDirectory p => exact .of_eq rfl rfl
    | list p => exact .of_eq rfl rfl
    | getStorage p => exact .of_eq rfl rfl

theorem runBy_dealt (replies : Replies) (s : Naming) (ops : List Operation) (past : List Event) :
    Dealt s past (history replies s past ops) ((runBy (perform (record replies)) s ops).run past).1
      ((runBy (perform (record replies)) s ops).run past).2 := by
  induction ops generalizing s past with
  | nil => exact .of_eq rfl rfl
  | cons op ops ih =>
    have hanswered : ∀ seen a, Naming.creates (seen ++ [.answered a]) = Naming.creates seen := by
      intro seen a
      rw [creates_append]
      exact List.append_nil _
    have hstep := perform_dealt s replies op past
    rw [runBy_cons, history]
    exact Dealt.trans ⟨hstep.registry, (hanswered _ _).trans hstep.creates⟩ (ih _ _)

end Naming

/-! ## Fairness -/

open Registry Naming

/-- The registry holds the servers that were enrolled, and as long as fewer than `2 ^ 64` files have
been placed, the next one goes to the server at the position of their number, round and round; so
what is placed while no server joins is fair. An order to make a file is one placement or none, and
the servers that a naming service has told to make a file are those that its registry chose. -/
theorem placements_fair :
    (∀ past, (empty.after past).servers = registered past) ∧
    (∀ past, (empty.choices past).length < UInt64.size → ∀ o,
      (∃ r, (empty.after past).next = .ok (o, r)) ↔
        (registered past)[(empty.choices past).length % (registered past).length]? = some o) ∧
    (∀ past window, registered (past ++ window) = registered past →
      (empty.choices (past ++ window)).length ≤ UInt64.size →
        ∀ part, part <:+: (empty.after past).choices window → Fair (registered past) part) ∧
    (∀ (s : Naming) (p : Path) (replies : Replies) (past : List Naming.Event),
      (s.Places p → ∃ o registry, s.registry.next = .ok (o, registry) ∧
        ((createFile (record replies) s p).run past).1.2.registry = registry ∧
        ((createFile (record replies) s p).run past).2 =
          past ++ [.commanded o.command (.create p)]) ∧
      (¬s.Places p → ((createFile (record replies) s p).run past).1.2 = s ∧
        ((createFile (record replies) s p).run past).2 = past)) ∧
    ∀ (replies : Replies) (ops : List Operation),
      Dealt .empty [] (history replies .empty [] ops) (run replies ops).1 (run replies ops).2 := by
  refine ⟨fun past => (recorded past).servers, fun past hcount o => ?_,
    fun past window hsame hcount part hpart => ?_,
    fun s p replies past => ⟨fun h => createFile_of_places h replies past,
      fun h => createFile_of_not_places h replies past⟩,
    fun replies ops => runBy_dealt replies .empty ops []⟩
  · rw [next_eq_ok_iff, happen_place_after hcount]
  · have hdistinct : (registered past).Nodup := (recorded past).distinct.of_map
    exact (inTurn_choices hsame hcount).fair hdistinct hpart

/-- Two servers join one after the other, with files placed before, between and after, and one asks
again. -/
def joined : List Registry.Event :=
  let first : Owner := ⟨⟨"first", 7000⟩, ⟨"first", 7001⟩⟩
  let second : Owner := ⟨⟨"second", 7000⟩, ⟨"second", 7001⟩⟩
  [.place, .enroll first, .place, .enroll second, .enroll first, .place]

theorem placements_fair_joined :
    (empty.choices joined).length < UInt64.size ∧
    (∃ r, (empty.after joined).next = .ok (⟨⟨"first", 7000⟩, ⟨"first", 7001⟩⟩, r)) ∧
    registered (joined ++ [.place, .place, .place]) = registered joined ∧
    (empty.choices (joined ++ [.place, .place, .place])).length ≤ UInt64.size ∧
    Fair (registered joined) ((empty.after joined).choices [.place, .place, .place]) ∧
    ∃ s p, Places s p ∧ ∃ o registry, s.registry.next = .ok (o, registry) ∧
      ((createFile (record fun _ _ _ => .error (.call .noAddress)) s p).run []).2 =
        [.commanded o.command (.create p)] := by
  have hcount : (empty.choices joined).length < UInt64.size := by decide
  have hsame : registered (joined ++ [.place, .place, .place]) = registered joined := by decide
  have hcount' : (empty.choices (joined ++ [.place, .place, .place])).length ≤ UInt64.size := by decide
  let x : Path := ⟨["x"], fun _ hc => List.mem_singleton.mp hc ▸
    ⟨by decide, by decide, by decide, by decide⟩⟩
  have hplaces : Places ⟨.empty, empty.after joined⟩ x := by decide
  obtain ⟨-, hnext, hfair, hcreate, -⟩ := placements_fair
  refine ⟨hcount, (hnext joined hcount _).mpr (by decide), hsame, hcount',
    hfair joined _ hsame hcount' _ List.infix_rfl, _, _, hplaces, ?_⟩
  obtain ⟨o, registry, hturn, -, hseen⟩ := (hcreate _ _ _ []).1 hplaces
  exact ⟨o, registry, hturn, hseen⟩

end FileCluster
