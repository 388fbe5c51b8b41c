import FileCluster.Disk.Listing
import FileCluster.Proofs.Naming.Scan

/-!
What stands at the places of a disk.

`Disk.look` gives the entry at a place by itself, a directory without what it holds, so that a
change at one place leaves what is looked up at the places above as it was. `look_put` says what a
change does to every place; a disk whose directories all hold something has a file below each of
them (`Populated.exists_file`).
-/

namespace FileCluster

/-- An entry by itself: a directory without what it holds. -/
def Entry.bare : Entry → Entry
  | .directory _ => .emptyDirectory
  | e => e

/-- What stands at a place, by itself. -/
def Disk.look (d : Disk) (q : Place) : Option Entry := (d.get? q).map Entry.bare

/-- A place below another one. -/
def Beneath (place q : Place) : Prop := ∃ n rest, q = place ++ n :: rest

/-! ## Places of an entry -/

namespace Entry

theorem bare_eq_emptyDirectory_iff {e : Entry} :
    e.bare = .emptyDirectory ↔ e.isDirectory = true := by
  cases e <;> simp [bare, emptyDirectory, isDirectory]

theorem bare_of_not_isDirectory {e : Entry} (h : e.isDirectory = false) : e.bare = e := by
  cases e with
  | directory entries => cases h
  | _ => rfl

/-- Only a directory has something below it. -/
theorem get?_cons_eq_some {e x : Entry} {n : Name} {rest : Place}
    (h : e.get? (n :: rest) = some x) :
    ∃ entries e', e = .directory entries ∧ Sorted.lookup n entries = some e' ∧
      e'.get? rest = some x := by
  cases e with
  | directory entries =>
    rw [get?] at h
    cases hn : Sorted.lookup n entries with
    | none =>
      rw [hn] at h
      cases h
    | some e' =>
      rw [hn] at h
      exact ⟨entries, e', rfl, hn, h⟩
  | _ => cases h

theorem get?_directory_cons {entries : List (Name × Entry)} {n : Name} (rest : Place) :
    (directory entries).get? (n :: rest) = (Sorted.lookup n entries).bind (·.get? rest) := by
  rw [get?]
  cases Sorted.lookup n entries <;> rfl

theorem get?_append (e : Entry) (p q : Place) : e.get? (p ++ q) = (e.get? p).bind (·.get? q) := by
  induction p generalizing e with
  | nil => simp [get?]
  | cons n p ih =>
    cases e with
    | directory entries =>
      rw [List.cons_append, get?_directory_cons, get?_directory_cons, Option.bind_assoc]
      exact congrArg _ (funext fun e => ih e)
    | _ => rfl

/-- A change of a directory leaves a directory. -/
theorem put_directory (x : Option Entry) (entries : List (Name × Entry)) (place : Place) :
    ∃ entries', put x (.directory entries) place = .directory entries' := by
  unfold put
  split
  · cases x <;> exact ⟨_, rfl⟩
  · split <;> exact ⟨_, rfl⟩
  · exact ⟨entries, rfl⟩

/-- What a change in a directory that is there does to every place. -/
theorem get?_put {e : Entry} {dir : Place} {entries : List (Name × Entry)}
    (h : e.get? dir = some (.directory entries)) (x : Option Entry) (name : Name) (q : Place) :
    ((put x e (dir ++ [name])).get? q).map bare =
      if dir ++ [name] <+: q then (x.bind (·.get? (q.drop (dir.length + 1)))).map bare
      else (e.get? q).map bare := by
  induction dir generalizing e q with
  | nil =>
    cases h
    cases q with
    | nil => cases x <;> simp [put, get?, bare]
    | cons m q =>
      by_cases hm : m = name
      · subst hm
        have hpre : [m] <+: m :: q := ⟨q, rfl⟩
        cases x with
        | none => simp [put, get?_directory_cons, Sorted.lookup_erase_self, hpre]
        | some e => simp [put, get?_directory_cons, Sorted.lookup_insert_self, hpre]
      · have hpre : ¬[name] <+: m :: q := fun hp => hm (List.cons_prefix_cons.mp hp).1.symm
        cases x with
        | none => simp [put, get?_directory_cons, Sorted.lookup_erase_ne hm, hpre]
        | some e => simp [put, get?_directory_cons, Sorted.lookup_insert_ne hm, hpre]
  | cons n dir ih =>
    obtain ⟨es, e', rfl, hn, h'⟩ := get?_cons_eq_some h
    have hput : put x (.directory es) (n :: (dir ++ [name])) =
        .directory (Sorted.insert n (put x e' (dir ++ [name])) es) := by
      obtain ⟨m, rest, hcons⟩ := List.exists_cons_of_ne_nil (List.concat_ne_nil name dir)
      rw [hcons, put]
      · rw [hn]
      · exact nofun
    rw [List.cons_append, hput]
    cases q with
    | nil => simp [get?, bare]
    | cons m q =>
      by_cases hm : m = n
      · subst hm
        rw [get?_directory_cons, Sorted.lookup_insert_self, Option.bind_some, ih h',
          get?_directory_cons, hn]
        simp [List.cons_prefix_cons]
      · have hpre : ¬n :: (dir ++ [name]) <+: m :: q :=
          fun hp => hm (List.cons_prefix_cons.mp hp).1.symm
        rw [if_neg hpre, get?_directory_cons, Sorted.lookup_insert_ne hm, get?_directory_cons]

end Entry

/-! ## Looking at places -/

namespace Disk

variable {d : Disk} {q : Place}

theorem look_eq_directory_iff :
    d.look q = some .emptyDirectory ↔ ∃ entries, d.get? q = some (.directory entries) := by
  unfold look
  constructor
  · intro h
    obtain ⟨e, he, hbare⟩ := Option.map_eq_some_iff.mp h
    cases e with
    | directory entries => exact ⟨entries, he⟩
    | _ => cases hbare
  · rintro ⟨entries, h⟩
    rw [h]
    rfl

/-- What is no directory is looked up as it is. -/
theorem look_eq_some_iff {e : Entry} (h : e.isDirectory = false) :
    d.look q = some e ↔ d.get? q = some e := by
  unfold look
  constructor
  · intro hl
    obtain ⟨e', he', hbare⟩ := Option.map_eq_some_iff.mp hl
    cases e' with
    | directory entries =>
      subst hbare
      cases h
    | _ => exact hbare ▸ he'
  · intro hg
    rw [hg, Option.map_some, Entry.bare_of_not_isDirectory h]

theorem look_eq_none_iff : d.look q = none ↔ d.get? q = none := Option.map_eq_none_iff

theorem look_of_get? {e : Entry} (h : d.get? q = some e) : d.look q = some e.bare := by
  rw [look, h]
  rfl

theorem look_ne_none {e : Entry} (h : d.look q = some e) : d.look q ≠ none :=
  Option.ne_none_iff_exists'.mpr ⟨e, h⟩

/-- What is looked up is a directory without entries or no directory. -/
theorem look_eq_some {e : Entry} (h : d.look q = some e) :
    e = .emptyDirectory ∨ e.isDirectory = false := by
  obtain ⟨e', -, rfl⟩ := Option.map_eq_some_iff.mp h
  cases e' with
  | directory entries => exact Or.inl rfl
  | _ => exact Or.inr rfl

/-- Above whatever is there is a directory. -/
theorem look_above {n : Name} {rest : Place} {e : Entry} (h : d.look (q ++ n :: rest) = some e) :
    d.look q = some .emptyDirectory := by
  obtain ⟨e', he', -⟩ := Option.map_eq_some_iff.mp h
  rw [get?, Entry.get?_append] at he'
  obtain ⟨e'', hq, hrest⟩ := Option.bind_eq_some_iff.mp he'
  obtain ⟨entries, -, rfl, -⟩ := Entry.get?_cons_eq_some hrest
  exact look_eq_directory_iff.mpr ⟨entries, hq⟩

/-- Below what is no directory there is nothing. -/
theorem look_below (h : d.look q ≠ some .emptyDirectory) (n : Name) (rest : Place) :
    d.look (q ++ n :: rest) = none := by
  cases hl : d.look (q ++ n :: rest) with
  | none => rfl
  | some e => exact absurd (look_above hl) h

/-- Below where there is nothing there is nothing. -/
theorem look_beyond (h : d.look q = none) (rest : Place) : d.look (q ++ rest) = none := by
  cases rest with
  | nil => rwa [List.append_nil]
  | cons n rest => exact look_below (by rw [h]; exact nofun) n rest

/-- On the way to a directory there are directories. -/
theorem look_of_prefix {r : Place} (h : d.look r = some .emptyDirectory) (hq : q <+: r) :
    d.look q = some .emptyDirectory := by
  obtain ⟨rest, rfl⟩ := hq
  cases rest with
  | nil => rwa [List.append_nil] at h
  | cons n rest => exact look_above h

/-- On the way to whatever is there something is there. -/
theorem look_first {n : Name} {rest : Place} (h : d.look (q ++ n :: rest) ≠ none) :
    d.look (q ++ [n]) ≠ none := by
  intro hnone
  have hsplit : q ++ n :: rest = q ++ [n] ++ rest := by simp
  rw [hsplit] at h
  exact h (look_beyond hnone rest)

/-- The names in a directory are those of its entries. -/
theorem look_child {entries : List (Name × Entry)} (h : d.get? q = some (.directory entries))
    (n : Name) : d.look (q ++ [n]) ≠ none ↔ n ∈ entries.map Prod.fst := by
  have hchild : d.look (q ++ [n]) = (Sorted.lookup n entries).map Entry.bare := by
    rw [get?] at h
    rw [look, get?, Entry.get?_append, h, Option.bind_some, Entry.get?_directory_cons]
    cases Sorted.lookup n entries <;> rfl
  rw [hchild, ne_eq, Option.map_eq_none_iff, Sorted.lookup_eq_none_iff, List.mem_map]
  constructor
  · intro hsome
    exact Classical.byContradiction fun hno => hsome fun e he hn => hno ⟨e, he, hn⟩
  · rintro ⟨e, he, rfl⟩ hnone
    exact hnone e he rfl

/-- A directory has no entries when there is nothing directly below it. -/
theorem entries_eq_nil_iff {entries : List (Name × Entry)}
    (h : d.get? q = some (.directory entries)) : entries = [] ↔ ∀ n, d.look (q ++ [n]) = none := by
  constructor
  · rintro rfl n
    exact Classical.byContradiction fun hn => List.not_mem_nil ((look_child h n).mp hn)
  · intro hnone
    cases entries with
    | nil => rfl
    | cons e rest => exact absurd (hnone e.1) ((look_child h e.1).mpr List.mem_cons_self)

/-! ## Changes -/

theorem top_put (d : Disk) (place : Place) (x : Option Entry) :
    (d.put place x).top = Entry.put x d.top place := by
  obtain ⟨entries, h⟩ := Entry.put_directory x d.entries place
  unfold put top
  rw [h]

/-- What a change in a directory that is there does to every place. -/
theorem look_put {dir : Place} (h : d.look dir = some .emptyDirectory) (name : Name)
    (x : Option Entry) (q : Place) :
    (d.put (dir ++ [name]) x).look q =
      if dir ++ [name] <+: q then (x.bind (·.get? (q.drop (dir.length + 1)))).map Entry.bare
      else d.look q := by
  obtain ⟨entries, he⟩ := look_eq_directory_iff.mp h
  unfold look get?
  rw [top_put]
  exact Entry.get?_put he x name q

theorem look_remove {dir : Place} (h : d.look dir = some .emptyDirectory) (name : Name)
    (q : Place) :
    (d.put (dir ++ [name]) none).look q = if dir ++ [name] <+: q then none else d.look q := by
  rw [look_put h]
  rfl

/-- An entry with nothing below it, put where no directory is. -/
theorem look_add {dir : Place} {name : Name} {e : Entry} (h : d.look dir = some .emptyDirectory)
    (hfree : d.look (dir ++ [name]) ≠ some .emptyDirectory)
    (hleaf : ∀ n rest, e.get? (n :: rest) = none) (q : Place) :
    (d.put (dir ++ [name]) (some e)).look q =
      if q = dir ++ [name] then some e.bare else d.look q := by
  rw [look_put h]
  by_cases hpre : dir ++ [name] <+: q
  · obtain ⟨rest, rfl⟩ := hpre
    have hlen : (dir ++ [name]).length = dir.length + 1 := by simp
    rw [if_pos (List.prefix_append _ _), Option.bind_some, ← hlen, List.drop_left]
    cases rest with
    | nil => simp [Entry.get?]
    | cons n rest =>
      rw [hleaf, if_neg (by simp), look_below hfree]
      rfl
  · have hne : q ≠ dir ++ [name] := fun he => hpre (he ▸ List.prefix_refl _)
    rw [if_neg hpre, if_neg hne]

/-- A change of what a file holds shows at its place only. -/
theorem look_put_file {place : Place} {old : ByteArray}
    (hget : d.get? place = some (.file old)) (new : ByteArray) (q : Place) :
    (d.put place (some (.file new))).look q = if q = place then some (.file new) else d.look q := by
  have hlook : d.look place = some (.file old) := look_of_get? hget
  obtain rfl | ⟨dir, name, rfl⟩ := place.eq_nil_or_concat
  · cases hget
  · rw [List.concat_eq_append] at hlook ⊢
    refine look_add (look_above hlook) (fun he => ?_) (fun _ _ => rfl) q
    rw [hlook] at he
    cases he

/-! ## Directories that hold something -/

/-- Every directory below a place holds something. -/
def Populated (d : Disk) (place : Place) : Prop :=
  ∀ q, Beneath place q → d.look q = some .emptyDirectory → ∃ n, d.look (q ++ [n]) ≠ none

/-- Where all directories hold something there is something else than directories. -/
theorem exists_file_of_get? : ∀ {e : Entry},
    (∀ r entries, e.get? r = some (.directory entries) → entries ≠ []) →
      ∃ r x, e.get? r = some x ∧ x.isDirectory = false
  | .directory [], h => absurd rfl (h [] [] rfl)
  | .directory ((n, e) :: rest), h => by
    have hstep : ∀ r, (Entry.directory ((n, e) :: rest)).get? (n :: r) = e.get? r := by
      intro r
      simp [Entry.get?, Sorted.lookup]
    obtain ⟨r, x, hr, hx⟩ := exists_file_of_get? (e := e) fun r entries hr =>
      h (n :: r) entries ((hstep r).trans hr)
    exact ⟨n :: r, x, (hstep r).trans hr, hx⟩
  | .file content, _ => ⟨[], .file content, rfl, rfl⟩
  | .link target, _ => ⟨[], .link target, rfl, rfl⟩
  | .special, _ => ⟨[], .special, rfl, rfl⟩

/-- Below every directory that is below a populated place there is something else than
directories. -/
theorem Populated.exists_file {place : Place} (h : d.Populated place) (hq : Beneath place q)
    (hdir : d.look q ≠ none) : ∃ r e, d.look (q ++ r) = some e ∧ e.isDirectory = false := by
  cases hget : d.get? q with
  | none => exact absurd (look_eq_none_iff.mpr hget) hdir
  | some e =>
    have hbelow : ∀ r, d.get? (q ++ r) = e.get? r := by
      intro r
      rw [get?] at hget
      rw [get?, Entry.get?_append, hget, Option.bind_some]
    obtain ⟨r, x, hr, hx⟩ := exists_file_of_get? (e := e) fun r entries hr hnil => by
      have hdir' : d.get? (q ++ r) = some (.directory entries) := (hbelow r).trans hr
      obtain ⟨n, rest, rfl⟩ := hq
      obtain ⟨m, hm⟩ := h (place ++ n :: rest ++ r) ⟨n, rest ++ r, by simp⟩
        (look_eq_directory_iff.mpr ⟨entries, hdir'⟩)
      exact hm ((entries_eq_nil_iff hdir').mp hnil m)
    exact ⟨r, x, (look_eq_some_iff hx).mpr ((hbelow r).trans hr), hx⟩

/-- A place is populated if every directory below it has something else than directories below
it. -/
theorem Populated.of_files {place : Place}
    (h : ∀ q, Beneath place q → d.look q = some .emptyDirectory →
      ∃ r e, d.look (q ++ r) = some e ∧ e.isDirectory = false) : d.Populated place := by
  intro q hq hdir
  obtain ⟨r, e, he, hleaf⟩ := h q hq hdir
  cases r with
  | nil =>
    rw [List.append_nil, hdir] at he
    cases he
    cases hleaf
  | cons n r => exact ⟨n, look_first (look_ne_none he)⟩

end Disk

/-! ## The list of all entries -/

mutual

/-- What stands below an entry is among what is found below it, and so is what was found before. -/
theorem Entry.mem_flattenInto (found : List (Place × Entry)) (place : Place) : ∀ e : Entry,
    (∀ x ∈ found, x ∈ e.flattenInto found place) ∧
      ∀ n rest x, e.get? (n :: rest) = some x → (place ++ n :: rest, x) ∈ e.flattenInto found place
  | .directory entries => by
    rw [Entry.flattenInto]
    exact mem_flattenEntries found place entries
  | .file _ => ⟨fun _ hx => by rwa [Entry.flattenInto.eq_def], nofun⟩
  | .link _ => ⟨fun _ hx => by rwa [Entry.flattenInto.eq_def], nofun⟩
  | .special => ⟨fun _ hx => by rwa [Entry.flattenInto.eq_def], nofun⟩

theorem mem_flattenEntries (found : List (Place × Entry)) (place : Place) :
    ∀ entries : List (Name × Entry),
      (∀ x ∈ found, x ∈ flattenEntries found place entries) ∧
        ∀ n rest x, (Entry.directory entries).get? (n :: rest) = some x →
          (place ++ n :: rest, x) ∈ flattenEntries found place entries
  | [] => by
    refine ⟨fun x hx => by rwa [flattenEntries], fun n rest x h => ?_⟩
    cases h
  | (name, e) :: entries => by
    obtain ⟨hkept, hbelow⟩ :=
      Entry.mem_flattenInto ((place ++ [name], e) :: found) (place ++ [name]) e
    obtain ⟨hkept', hothers⟩ := mem_flattenEntries
      (e.flattenInto ((place ++ [name], e) :: found) (place ++ [name])) place entries
    rw [flattenEntries]
    refine ⟨fun x hx => hkept' x (hkept x (List.mem_cons_of_mem _ hx)), fun n rest x h => ?_⟩
    rw [Entry.get?_directory_cons, Sorted.lookup] at h
    split at h
    next hn =>
      subst hn
      rw [Option.bind_some] at h
      cases rest with
      | nil =>
        cases h
        exact hkept' _ (hkept _ List.mem_cons_self)
      | cons m rest =>
        have := hkept' _ (hbelow m rest x h)
        rwa [List.append_assoc, List.singleton_append] at this
    next =>
      rw [← Entry.get?_directory_cons] at h
      exact hothers n rest x h

end

/-- What stands below the top of a disk is among its entries. -/
theorem Disk.mem_flatten {d : Disk} {n : Name} {rest : Place} {x : Entry}
    (h : d.get? (n :: rest) = some x) : (n :: rest, x) ∈ d.top.flatten :=
  List.mem_reverse.mpr ((Entry.mem_flattenInto [] [] d.top).2 n rest x h)

end FileCluster
