import FileCluster.Proofs.Naming.Run

/-!
The naming service over a nested tree.

A catalog is the plain form of a naming service: a directory is a map from names to entries, an
entry is a directory or a file with its owner, and a path is looked up by walking along its
components (`Item.at?`). The definitions come first, then what each change of the nested tree means
for its look-up.
-/

namespace FileCluster

/-- What stands under a name: a file and the server that holds it, or a directory and its entries
in name order. -/
inductive Item where
  | file (owner : Owner)
  | folder (items : List (String × Item))

namespace Item

/-! ## The nested tree -/

/-- What walking along names leads to. -/
def at? : Item → List String → Option Item
  | i, [] => some i
  | .folder items, c :: rest =>
    match Sorted.lookup c items with
    | some i => i.at? rest
    | none => none
  | .file _, _ :: _ => none

/-- Puts an item at the end of a walk; directories missing on the way are made. -/
def put (i : Item) (cs : List String) (new : Item) : Item :=
  match i, cs with
  | _, [] => new
  | .folder items, c :: rest =>
    .folder (Sorted.insert c (((Sorted.lookup c items).getD (.folder [])).put rest new) items)
  | .file o, _ :: _ => .file o

/-- Takes away what stands at the end of a walk. -/
def remove : Item → List String → Item
  | i, [] => i
  | .folder items, c :: rest =>
    match Sorted.lookup c items with
    | none => .folder items
    | some i =>
      if rest.isEmpty then .folder (Sorted.erase c items)
      else .folder (Sorted.insert c (i.remove rest) items)
  | .file o, _ :: _ => .file o

/-- Whether a server's file can stand at the end of a walk: the walk comes to a name that is free,
or ends at this very file. -/
def hasRoom (o : Owner) : Item → List String → Bool
  | .file owner, [] => owner = o
  | .folder _, [] => false
  | .folder items, c :: rest =>
    match Sorted.lookup c items with
    | some i => i.hasRoom o rest
    | none => true
  | .file _, _ :: _ => false

mutual

/-- The files of an item at a place, each directory's entries in turn, with their places. -/
def files (place : List String) : Item → List (List String × Owner)
  | .file o => [(place, o)]
  | .folder items => filesOf place items

/-- The files of some entries of a directory. -/
def filesOf (place : List String) : List (String × Item) → List (List String × Owner)
  | [] => []
  | (c, i) :: rest => files (place ++ [c]) i ++ filesOf place rest

end

/-- Takes in the files that a server advertises, one after the other; the root is passed over. The
second part holds those for which there is no room. -/
def advertise (o : Owner) (top : Item) : List Path → Item × List Path
  | [] => (top, [])
  | p :: rest =>
    if p.isRoot then advertise o top rest
    else if top.hasRoom o p.components then advertise o (top.put p.components (.file o)) rest
    else
      let (top, clashing) := advertise o top rest
      (top, p :: clashing)

end Item

/-- A naming service over a nested tree: the top directory, the servers in the order of their
registration, and how many files have been dealt out to them. -/
structure Catalog where
  top : Item
  servers : List Owner
  dealt : Nat

namespace Catalog

/-- Nothing is there and no server has registered. -/
def empty : Catalog := ⟨.folder [], [], 0⟩

/-! ## Questions -/

/-- What stands at a path. -/
def entry? (k : Catalog) (p : Path) : Option Item := k.top.at? p.components

/-- Whether a path is a directory. -/
def isDirectory (k : Catalog) (p : Path) : Except NamingError Bool :=
  match k.entry? p with
  | some (.folder _) => .ok true
  | some (.file _) => .ok false
  | none => .error (.notFound p)

/-- The names of the entries of a directory. -/
def list (k : Catalog) (p : Path) : Except NamingError NameSet :=
  match k.entry? p with
  | some (.folder items) => .ok (.ofList (items.map Prod.fst))
  | _ => .error (.notFound p)

/-- Where the data of a file can be had. -/
def getStorage (k : Catalog) (p : Path) : Except NamingError StorageStub :=
  match k.entry? p with
  | some (.file o) => .ok o.storage
  | _ => .error (.notFound p)

/-- The parent of a path has to be a directory. -/
def requireParent (k : Catalog) (p : Path) : Except NamingError Unit :=
  match p.parent? with
  | none => .error (.notFound p)
  | some parent =>
    match k.entry? parent with
    | some (.folder _) => .ok ()
    | _ => .error (.notFound parent)

/-- The server whose turn it is, round and round in the order of registration; the count of files
dealt out starts again after `UInt64.size` of them. -/
def turn (k : Catalog) : Option Owner :=
  k.servers[k.dealt % UInt64.size % k.servers.length]?

/-! ## Orders -/

/-- Makes an empty directory. -/
def createDirectory (k : Catalog) (p : Path) : Except NamingError Bool × Catalog :=
  if p.isRoot then (.ok false, k)
  else
    match k.requireParent p with
    | .error e => (.error e, k)
    | .ok () =>
      if (k.entry? p).isSome then (.ok false, k)
      else (.ok true, { k with top := k.top.put p.components (.folder []) })

section Orders

variable {m : Type → Type} [Monad m]

/-- Makes an empty file on the server whose turn it is. -/
def createFile (command : Naming.Commander m) (k : Catalog) (p : Path) :
    m (Except NamingError Bool × Catalog) :=
  if p.isRoot then pure (.ok false, k)
  else
    match k.requireParent p with
    | .error e => pure (.error e, k)
    | .ok () =>
      if (k.entry? p).isSome then pure (.ok false, k)
      else
        match k.turn with
        | none => pure (.error .noStorageServers, k)
        | some owner => do
          let k := { k with dealt := k.dealt + 1 }
          match ← command owner.command (.create p) with
          | .ok _ => return (.ok true, { k with top := k.top.put p.components (.file owner) })
          | .error e =>
            return (.error (.storageUnavailable (owner.text ++ ": " ++ e.message)), k)

/-- Tells servers in turn to remove a path, each of them once; what they reply does not matter. -/
def tellEach (command : Naming.Commander m) (p : Path) (owners : List Owner) : m Unit :=
  owners.eraseDups.forM fun o => do
    let _ ← command o.command (.delete p)
    return ()

/-- Removes what stands at a path, once every server that holds a file of it has been told. -/
def delete (command : Naming.Commander m) (k : Catalog) (p : Path) :
    m (Except NamingError Bool × Catalog) :=
  if p.isRoot then pure (.ok false, k)
  else
    match k.requireParent p with
    | .error e => pure (.error e, k)
    | .ok () =>
      match k.entry? p with
      | none => pure (.error (.notFound p), k)
      | some i => do
        tellEach command p ((i.files p.components).map Prod.snd)
        return (.ok true, { k with top := k.top.remove p.components })

/-- Answers a request of a client. -/
def answer (command : Naming.Commander m) (k : Catalog) :
    (r : ServiceRequest) → m (Except NamingError r.Result × Catalog)
  | .isDirectory p => pure (k.isDirectory p, k)
  | .list p => pure (k.list p, k)
  | .createFile p => createFile command k p
  | .createDirectory p => pure (k.createDirectory p)
  | .delete p => delete command k p
  | .getStorage p => pure (k.getStorage p, k)

/-- Registers a server, unless its command stub is one of a registered server, and takes in the
files that it advertises. -/
def register (k : Catalog) (r : RegistrationRequest) : Except NamingError (List Path) × Catalog :=
  if k.servers.any (·.command = r.command) then (.error .alreadyRegistered, k)
  else
    let owner : Owner := ⟨r.storage, r.command⟩
    let (top, clashing) := k.top.advertise owner r.paths
    (.ok clashing, { k with top, servers := k.servers ++ [owner] })

/-- Carries out one operation. -/
def perform (command : Naming.Commander m) (k : Catalog) :
    Naming.Operation → m (Naming.Answer × Catalog)
  | .request r => do
    let (result, k) ← answer command k r
    return (.answered r result, k)
  | .register r =>
    let (result, k) := k.register r
    pure (.registered result, k)

end Orders

/-- The state of an empty catalog after some operations, and all that was seen of it. -/
def run (replies : Naming.Replies) (ops : List Naming.Operation) : Catalog × List Naming.Event :=
  (Naming.runBy (perform (Naming.record replies)) .empty ops).run []

end Catalog

namespace Item

/-! ## Look-up after a change -/

/-- Who holds an item, if it is a file. -/
def holder? : Item → Option Owner
  | .file o => some o
  | .folder _ => none

theorem at?_nil (i : Item) : i.at? [] = some i := by
  cases i <;> rfl

theorem at?_folder (items : List (String × Item)) (c : String) (cs : List String) :
    (Item.folder items).at? (c :: cs) = (Sorted.lookup c items).bind (·.at? cs) := by
  rw [at?]
  cases Sorted.lookup c items <;> rfl

theorem at?_append (i : Item) (cs ds : List String) :
    i.at? (cs ++ ds) = (i.at? cs).bind (·.at? ds) := by
  induction cs generalizing i with
  | nil => rw [at?_nil]; rfl
  | cons c cs ih =>
    cases i with
    | file o => rfl
    | folder items =>
      rw [List.cons_append, at?_folder, at?_folder]
      cases Sorted.lookup c items with
      | none => rfl
      | some i => exact ih i

/-- Nothing on the way along names is a file. -/
def ClearTo (i : Item) (cs : List String) : Prop :=
  ∀ ds, ds <+: cs → ds ≠ cs → ∀ o, i.at? ds ≠ some (.file o)

theorem ClearTo.child {items : List (String × Item)} {c : String} {cs : List String}
    (h : (Item.folder items).ClearTo (c :: cs)) :
    ((Sorted.lookup c items).getD (.folder [])).ClearTo cs := by
  intro ds hpre hne o hds
  cases hl : Sorted.lookup c items with
  | none =>
    rw [hl] at hds
    cases ds with
    | nil => cases hds
    | cons d ds => cases hds
  | some i =>
    rw [hl] at hds
    refine h (c :: ds) (List.cons_prefix_cons.mpr ⟨rfl, hpre⟩) (fun he => hne ?_) o ?_
    · exact (List.cons.inj he).2
    · rw [at?_folder, hl]
      exact hds

/-- What is to be put has nothing below it. -/
def IsLeaf (new : Item) : Prop := ∀ c cs, new.at? (c :: cs) = none

theorem isLeaf_file (o : Owner) : (Item.file o).IsLeaf := fun _ _ => rfl

theorem isLeaf_folder : (Item.folder []).IsLeaf := fun _ _ => rfl

theorem lookup_put (c d : String) (x : Item) (items : List (String × Item)) :
    Sorted.lookup d (Sorted.insert c x items) = if d = c then some x else Sorted.lookup d items := by
  split
  · rename_i h
    rw [h]
    exact Sorted.lookup_insert_self c x items
  · rename_i h
    exact Sorted.lookup_insert_ne h x items

/-- A leaf that is put stands at its place, everything above it is a directory, and the rest stays
as it was. -/
theorem holder?_put {new : Item} (hnew : new.IsLeaf) {i : Item} {cs : List String}
    (hclear : i.ClearTo cs) (ds : List String) :
    ((i.put cs new).at? ds).map holder? =
      if ds = cs then some new.holder?
      else if ds <+: cs then some none
      else if cs <+: ds then none
      else (i.at? ds).map holder? := by
  induction cs generalizing i ds with
  | nil =>
    rw [put]
    cases ds with
    | nil => rw [at?_nil, if_pos rfl]; rfl
    | cons d ds => rw [hnew]; simp
  | cons c cs ih =>
    cases i with
    | file o => exact absurd rfl (hclear [] List.nil_prefix (by simp) o)
    | folder items =>
      rw [put]
      cases ds with
      | nil => simp [at?, holder?]
      | cons d ds =>
        rw [at?_folder, lookup_put]
        simp only [List.cons_prefix_cons, List.cons.injEq, at?_folder]
        by_cases hdc : d = c
        · subst hdc
          rw [if_pos rfl, Option.bind_some, ih hclear.child]
          simp only [true_and]
          split
          · rfl
          · rename_i hne
            split
            · rfl
            · rename_i hpre
              split
              · rfl
              · cases Sorted.lookup d items with
                | some i => rfl
                | none =>
                  -- an empty directory made on the way has nothing else in it
                  cases ds with
                  | nil => exact absurd List.nil_prefix hpre
                  | cons e ds => rfl
        · simp [hdc, Ne.symm hdc]

/-- What is taken away is gone with all below it, and the rest stays as it was. -/
theorem holder?_remove {cs : List String} (hne : cs ≠ []) (i : Item) (ds : List String) :
    ((i.remove cs).at? ds).map holder? =
      if cs <+: ds then none else (i.at? ds).map holder? := by
  induction cs generalizing i ds with
  | nil => exact absurd rfl hne
  | cons c cs ih =>
    cases i with
    | file o =>
      rw [remove]
      cases ds with
      | nil => simp
      | cons d ds => simp [at?]
    | folder items =>
      rw [remove]
      cases ds with
      | nil =>
        rw [if_neg (by simp)]
        cases Sorted.lookup c items with
        | none => rfl
        | some i => dsimp only; split <;> rfl
      | cons d ds =>
        simp only [List.cons_prefix_cons, at?_folder items d ds]
        cases hl : Sorted.lookup c items with
        | none =>
          dsimp only
          rw [at?_folder]
          split
          · rename_i hdc
            rw [← hdc.1, hl]
            rfl
          · rfl
        | some i =>
          dsimp only
          split
          · rename_i hcs
            rw [List.isEmpty_iff] at hcs
            subst hcs
            rw [at?_folder]
            by_cases hdc : d = c
            · subst hdc
              rw [Sorted.lookup_erase_self, if_pos ⟨rfl, List.nil_prefix⟩]
              rfl
            · rw [Sorted.lookup_erase_ne hdc, if_neg fun h => hdc h.1.symm]
          · rename_i hcs
            have hcs' : cs ≠ [] := fun he => hcs (by rw [he]; rfl)
            rw [at?_folder, lookup_put]
            by_cases hdc : d = c
            · subst hdc
              rw [if_pos rfl, Option.bind_some, ih hcs', hl]
              simp only [true_and, Option.bind_some]
            · rw [if_neg hdc, if_neg fun h => hdc h.1.symm]

/-- There is room for a file where nothing stands and no file is on the way, or where it stands
already. -/
theorem hasRoom_iff {o : Owner} {i : Item} {cs : List String} :
    i.hasRoom o cs = true ↔ (i.at? cs = none ∧ i.ClearTo cs) ∨ i.at? cs = some (.file o) := by
  induction cs generalizing i with
  | nil =>
    cases i with
    | file o' => simp [hasRoom, at?]
    | folder items => simp [hasRoom, at?]
  | cons c cs ih =>
    cases i with
    | file o' =>
      have hblocked : ¬(Item.file o').ClearTo (c :: cs) :=
        fun h => h [] List.nil_prefix (by simp) o' rfl
      simp [hasRoom, at?, hblocked]
    | folder items =>
      have hclear : (Item.folder items).ClearTo (c :: cs) ↔
          ((Sorted.lookup c items).getD (.folder [])).ClearTo cs := by
        refine ⟨ClearTo.child, fun h ds hpre hne o' hds => ?_⟩
        cases ds with
        | nil => cases hds
        | cons d ds =>
          obtain ⟨rfl, hpre'⟩ := List.cons_prefix_cons.mp hpre
          rw [at?_folder] at hds
          cases hl : Sorted.lookup d items with
          | none => rw [hl] at hds; cases hds
          | some i =>
            rw [hl] at hds
            refine h ds hpre' (fun he => hne (he ▸ rfl)) o' ?_
            rw [hl]
            exact hds
      rw [hasRoom, at?_folder, hclear]
      cases Sorted.lookup c items with
      | some i => exact ih
      | none =>
        have hfree : (Item.folder []).ClearTo cs := by
          intro ds hpre hne o' hds
          cases ds <;> cases hds
        simp [hfree]

/-! ## Order of names -/

/-- Every directory at the end of a walk has its entries in strict name order. -/
def Ordered (i : Item) : Prop :=
  ∀ cs items, i.at? cs = some (.folder items) → Sorted.Increasing items

theorem ordered_file (o : Owner) : (Item.file o).Ordered := by
  intro cs items h
  cases cs <;> cases h

theorem ordered_folder_iff {items : List (String × Item)} :
    (Item.folder items).Ordered ↔
      Sorted.Increasing items ∧ ∀ c i, Sorted.lookup c items = some i → i.Ordered := by
  constructor
  · intro h
    refine ⟨h [] items rfl, fun c i hi cs items' hat => h (c :: cs) items' ?_⟩
    rw [at?_folder, hi]
    exact hat
  · rintro ⟨hinc, hbelow⟩ cs items' hat
    cases cs with
    | nil =>
      cases hat
      exact hinc
    | cons c cs =>
      rw [at?_folder] at hat
      obtain ⟨i, hi, hat⟩ := Option.bind_eq_some_iff.mp hat
      exact hbelow c i hi cs items' hat

theorem ordered_empty : (Item.folder []).Ordered :=
  ordered_folder_iff.mpr ⟨Sorted.Increasing.nil, fun _ _ h => by cases h⟩

theorem Ordered.insert {items : List (String × Item)} (h : (Item.folder items).Ordered) {x : Item}
    (hx : x.Ordered) (c : String) : (Item.folder (Sorted.insert c x items)).Ordered := by
  obtain ⟨hinc, hbelow⟩ := ordered_folder_iff.mp h
  refine ordered_folder_iff.mpr ⟨hinc.insert (fun _ _ _ => String.lt_trans)
    (fun _ _ => NameSet.lt_of_not_lt) c x, fun d i hi => ?_⟩
  rw [lookup_put] at hi
  split at hi
  · exact Option.some.inj hi ▸ hx
  · exact hbelow d i hi

theorem Ordered.put {i new : Item} (h : i.Ordered) (hnew : new.Ordered) (cs : List String) :
    (i.put cs new).Ordered := by
  induction cs generalizing i with
  | nil =>
    rw [Item.put]
    exact hnew
  | cons c cs ih =>
    cases i with
    | file o => exact h
    | folder items =>
      refine h.insert (ih ?_) c
      cases hl : Sorted.lookup c items with
      | none => exact ordered_empty
      | some i => exact (ordered_folder_iff.mp h).2 c i hl

theorem Ordered.remove {i : Item} (h : i.Ordered) (cs : List String) : (i.remove cs).Ordered := by
  induction cs generalizing i with
  | nil => cases i <;> exact h
  | cons c cs ih =>
    cases i with
    | file o => exact h
    | folder items =>
      obtain ⟨hinc, hbelow⟩ := ordered_folder_iff.mp h
      rw [Item.remove]
      split
      · exact h
      · rename_i i hl
        split
        · refine ordered_folder_iff.mpr ⟨hinc.erase c, fun d j hj => ?_⟩
          by_cases hdc : d = c
          · rw [hdc, Sorted.lookup_erase_self] at hj
            cases hj
          · rw [Sorted.lookup_erase_ne hdc] at hj
            exact hbelow d j hj
        · exact h.insert (ih (hbelow c i hl)) c

/-! ## Files in order -/

theorem lookup_of_mem {items : List (String × Item)} (h : Sorted.Increasing items) {c : String}
    {i : Item} : (c, i) ∈ items ↔ Sorted.lookup c items = some i :=
  (Sorted.lookup_eq_some_iff String.lt_irrefl h).symm

mutual

/-- The files listed are those that a walk leads to. -/
theorem mem_files {i : Item} (h : i.Ordered) {place cs : List String} {o : Owner} :
    (cs, o) ∈ i.files place ↔ ∃ ds, cs = place ++ ds ∧ i.at? ds = some (.file o) :=
  match i with
  | .file o' => by
    simp only [files, List.mem_singleton, Prod.mk.injEq]
    constructor
    · rintro ⟨rfl, rfl⟩
      exact ⟨[], by simp, rfl⟩
    · rintro ⟨ds, rfl, hds⟩
      cases ds with
      | nil => cases hds; simp
      | cons d ds => cases hds
  | .folder items => by
    obtain ⟨hinc, hbelow⟩ := ordered_folder_iff.mp h
    rw [files, mem_filesOf fun c i hi => hbelow c i ((lookup_of_mem hinc).mp hi)]
    constructor
    · rintro ⟨c, i, hi, ds, rfl, hds⟩
      refine ⟨c :: ds, rfl, ?_⟩
      rw [at?_folder, (lookup_of_mem hinc).mp hi]
      exact hds
    · rintro ⟨ds, rfl, hds⟩
      cases ds with
      | nil => cases hds
      | cons d ds =>
        rw [at?_folder] at hds
        obtain ⟨i, hi, hds⟩ := Option.bind_eq_some_iff.mp hds
        exact ⟨d, i, (lookup_of_mem hinc).mpr hi, ds, rfl, hds⟩

theorem mem_filesOf {items : List (String × Item)} (h : ∀ c i, (c, i) ∈ items → i.Ordered)
    {place cs : List String} {o : Owner} :
    (cs, o) ∈ filesOf place items ↔
      ∃ c i, (c, i) ∈ items ∧ ∃ ds, cs = place ++ c :: ds ∧ i.at? ds = some (.file o) :=
  match items with
  | [] => by simp [filesOf]
  | (c, i) :: rest => by
    rw [filesOf, List.mem_append, mem_files (h c i List.mem_cons_self),
      mem_filesOf fun d j hj => h d j (List.mem_cons_of_mem _ hj)]
    constructor
    · rintro (⟨ds, rfl, hds⟩ | ⟨d, j, hj, hds⟩)
      · exact ⟨c, i, List.mem_cons_self, ds, by simp, hds⟩
      · exact ⟨d, j, List.mem_cons_of_mem _ hj, hds⟩
    · rintro ⟨d, j, hj, ds, rfl, hds⟩
      rcases List.mem_cons.mp hj with he | hj
      · cases he
        exact Or.inl ⟨ds, by simp, hds⟩
      · exact Or.inr ⟨d, j, hj, ds, rfl, hds⟩

end

mutual

/-- The files come in path order. -/
theorem files_increasing {i : Item} (h : i.Ordered) (place : List String) :
    (i.files place).Pairwise fun a b => a.1 < b.1 :=
  match i with
  | .file o => by simp [files]
  | .folder items => by
    obtain ⟨hinc, hbelow⟩ := ordered_folder_iff.mp h
    exact filesOf_increasing hinc (fun c i hi => hbelow c i ((lookup_of_mem hinc).mp hi)) place

theorem filesOf_increasing {items : List (String × Item)} (hinc : Sorted.Increasing items)
    (h : ∀ c i, (c, i) ∈ items → i.Ordered) (place : List String) :
    (filesOf place items).Pairwise fun a b => a.1 < b.1 :=
  match items with
  | [] => by simp [filesOf]
  | (c, i) :: rest => by
    obtain ⟨hhead, htail⟩ := List.pairwise_cons.mp hinc
    have hrest : ∀ d j, (d, j) ∈ rest → j.Ordered := fun d j hj => h d j (List.mem_cons_of_mem _ hj)
    rw [filesOf, List.pairwise_append]
    refine ⟨files_increasing (h c i List.mem_cons_self) _, filesOf_increasing htail hrest place, ?_⟩
    rintro ⟨cs, o⟩ ha ⟨ds, o'⟩ hb
    obtain ⟨x, rfl, -⟩ := (mem_files (h c i List.mem_cons_self)).mp ha
    obtain ⟨d, j, hj, y, rfl, -⟩ := (mem_filesOf hrest).mp hb
    rw [List.append_assoc]
    refine List.append_left_lt (List.cons_lt_cons_iff.mpr (Or.inl ?_))
    exact hhead (d, j) hj

end

end Item

end FileCluster
