/-!
Paths of the file cluster.

A path is a list of components below the root. A component is a text that is not empty, is neither
`.` nor `..`, and holds neither the separator `/` nor the reserved character `:`; the type carries
the proof. `Path.parse` reads the written form, `Path.text` writes it, and `Path.child` extends a
path by one component.
-/

namespace FileCluster

/-- Why a text is not a path or a component, or why a path has no parent. -/
inductive PathError where
  | notAbsolute (text : String)
  | reservedCharacter (text : String)
  | invalidComponent (text : String)
  | relativeComponent (text : String)
  | root
  deriving DecidableEq, Repr

/-- The wording of a path error. -/
def PathError.message : PathError → String
  | .notAbsolute s => "path must begin with '/': '" ++ s ++ "'"
  | .reservedCharacter s => "path must not contain ':': '" ++ s ++ "'"
  | .invalidComponent s => "invalid path component: '" ++ s ++ "'"
  | .relativeComponent s => "path must not contain '.' or '..' components: '" ++ s ++ "'"
  | .root => "the root directory has no parent or last component"

namespace Path

/-- A component that stands for a place relative to another one. -/
def IsRelative (c : String) : Prop := c = "." ∨ c = ".."

instance (c : String) : Decidable (IsRelative c) := inferInstanceAs (Decidable (_ ∨ _))

/-- What a component of a path is. -/
structure IsComponent (c : String) : Prop where
  nonempty : c ≠ ""
  noSeparator : '/' ∉ c.toList
  noReserved : ':' ∉ c.toList
  notRelative : ¬IsRelative c

end Path

/-- A path: its components, the one nearest to the root first. -/
structure Path where
  components : List String
  valid : ∀ c ∈ components, Path.IsComponent c

namespace Path

/-- Paths with the same components are the same. -/
theorem ext {p q : Path} (h : p.components = q.components) : p = q := by
  cases p; cases q; cases h; rfl

theorem ext_iff {p q : Path} : p = q ↔ p.components = q.components :=
  ⟨fun h => h ▸ rfl, ext⟩

instance : DecidableEq Path := fun p q =>
  decidable_of_iff (p.components = q.components) ext_iff.symm

instance : Repr Path := ⟨fun p n => reprPrec p.components n⟩

/-- The root directory. -/
def root : Path := ⟨[], nofun⟩

instance : Inhabited Path := ⟨root⟩

/-- Whether a path is the root. -/
def isRoot (p : Path) : Bool := p.components.isEmpty

/-- The number of components. -/
def depth (p : Path) : Nat := p.components.length

/-! ## Written form -/

/-- The pieces of a text between separators, empty ones included. -/
def pieces : List Char → List (List Char)
  | [] => [[]]
  | c :: cs =>
    if c = '/' then [] :: pieces cs
    else
      match pieces cs with
      | [] => [[c]]
      | p :: ps => (c :: p) :: ps

/-- The pieces of a text that are not empty. -/
def componentsOf (s : String) : List String :=
  ((pieces s.toList).filter (· ≠ [])).map String.ofList

theorem separator_notMem_pieces (cs : List Char) : ∀ p ∈ pieces cs, '/' ∉ p := by
  induction cs with
  | nil => simp [pieces]
  | cons c cs ih =>
    simp only [pieces]
    split
    · simpa using ih
    · rename_i hc
      split
      · simpa using Ne.symm hc
      · rename_i p ps he
        rw [he] at ih
        intro q hq
        rcases List.mem_cons.1 hq with rfl | hq
        · simp [Ne.symm hc, ih p (List.mem_cons_self ..)]
        · exact ih q (List.mem_cons_of_mem _ hq)

theorem mem_of_mem_pieces {cs p : List Char} {c : Char} (hp : p ∈ pieces cs) (hc : c ∈ p) :
    c ∈ cs := by
  induction cs generalizing p with
  | nil => simp only [pieces, List.mem_singleton] at hp; subst hp; exact hc
  | cons d cs ih =>
    simp only [pieces] at hp
    split at hp
    · rcases List.mem_cons.1 hp with rfl | hp
      · cases hc
      · exact List.mem_cons_of_mem _ (ih hp hc)
    · split at hp
      · simp only [List.mem_singleton] at hp
        subst hp
        exact List.mem_cons.2 (.inl (List.mem_singleton.1 hc))
      · rename_i q qs he
        rcases List.mem_cons.1 hp with rfl | hp
        · rcases List.mem_cons.1 hc with rfl | hc
          · exact List.mem_cons_self ..
          · exact List.mem_cons_of_mem _ (ih (he ▸ List.mem_cons_self ..) hc)
        · exact List.mem_cons_of_mem _ (ih (he ▸ List.mem_cons_of_mem _ hp) hc)

/-- The pieces of a text without reserved characters and relative pieces are components. -/
theorem isComponent_of_mem_componentsOf {s : String} (reserved : ':' ∉ s.toList)
    (relative : ∀ c ∈ componentsOf s, ¬IsRelative c) : ∀ c ∈ componentsOf s, IsComponent c := by
  intro c hc
  have hrel := relative c hc
  obtain ⟨p, hp, rfl⟩ := List.mem_map.1 hc
  obtain ⟨hmem, hne⟩ := List.mem_filter.1 hp
  have hne : p ≠ [] := of_decide_eq_true hne
  refine ⟨fun h => hne ?_, ?_, ?_, hrel⟩
  · have := congrArg String.toList h
    simpa using this
  · simpa using separator_notMem_pieces _ p hmem
  · simpa using fun h => reserved (mem_of_mem_pieces hmem h)

/-- Reads the written form of a path: a separator in front, components between separators, empty
pieces without meaning. -/
def parse (s : String) : Except PathError Path :=
  if s.toList.head? ≠ some '/' then .error (.notAbsolute s)
  else if reserved : ':' ∈ s.toList then .error (.reservedCharacter s)
  else if relative : ∃ c ∈ componentsOf s, IsRelative c then .error (.relativeComponent s)
  else
    .ok ⟨componentsOf s, isComponent_of_mem_componentsOf reserved
      fun c hc h => relative ⟨c, hc, h⟩⟩

/-- The written form: a separator before every component, and a separator alone for the root. -/
def text (p : Path) : String :=
  match p.components with
  | [] => "/"
  | cs => cs.foldl (fun acc c => acc ++ "/" ++ c) ""

instance : ToString Path := ⟨text⟩

/-! ## Neighbours -/

/-- The path extended by one component. -/
def child (p : Path) (c : String) : Except PathError Path :=
  if bad : c = "" ∨ '/' ∈ c.toList ∨ ':' ∈ c.toList then .error (.invalidComponent c)
  else if relative : IsRelative c then .error (.relativeComponent c)
  else
    .ok ⟨p.components ++ [c], by
      intro d hd
      rcases List.mem_append.1 hd with hd | hd
      · exact p.valid d hd
      · rw [List.mem_singleton.1 hd]
        simp only [not_or] at bad
        exact ⟨bad.1, bad.2.1, bad.2.2, relative⟩⟩

/-- The path of the first `n` components. -/
def take (p : Path) (n : Nat) : Path :=
  ⟨p.components.take n, fun c hc => p.valid c (List.mem_of_mem_take hc)⟩

/-- The parent of a path that is not the root. -/
def parent? (p : Path) : Option Path :=
  if p.isRoot then none else some (p.take (p.depth - 1))

/-- The last component of a path that is not the root. -/
def last? (p : Path) : Option String := p.components.getLast?

/-- The proper prefixes of a path that are not the root, the shortest first. -/
def ancestors (p : Path) : List Path :=
  (List.range (p.depth - 1)).map fun n => p.take (n + 1)

/-- Whether `q` is a prefix of `p`, `p` itself included. -/
def startsWith (p q : Path) : Bool := q.components.isPrefixOf p.components

/-- The component that follows the strict prefix `q` in `p`. -/
def componentAfter? (p q : Path) : Option String :=
  if q.depth < p.depth && p.startsWith q then p.components[q.depth]? else none

/-! ## Order -/

/-- Paths are ordered by their components from the root on, and components by their characters. -/
instance : LT Path := ⟨fun p q => p.components < q.components⟩

instance : DecidableLT Path := fun p q =>
  inferInstanceAs (Decidable (p.components < q.components))

/-- How two paths are ordered. -/
def compare (p q : Path) : Ordering :=
  if p < q then .lt else if p = q then .eq else .gt

theorem lt_irrefl (p : Path) : ¬p < p := List.lt_irrefl p.components

theorem lt_trans {p q r : Path} (h : p < q) (h' : q < r) : p < r := List.lt_trans h h'

/-- Of two different paths one comes first. -/
theorem lt_of_not_lt {p q : Path} (hne : p ≠ q) (h : ¬p < q) : q < p := by
  apply Decidable.byContradiction
  intro h'
  exact hne (ext (List.le_antisymm h' h))

end Path

end FileCluster
