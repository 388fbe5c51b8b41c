import FileCluster.Disk.Lookup
import FileCluster.Path.Local
import FileCluster.Proofs.Disk.Look
import FileCluster.Proofs.Text.Utf8

/-!
Names on a local path.

The local path of a path of the cluster is read as the local path of the root followed by the names
of the components (`steps_toLocal`). A path fits below a root if the file system refuses neither its
local path as a whole (`Whole`) nor one of these names (`Short`); what lies above a path that fits
does too (`Fits.above`).
-/

namespace FileCluster

/-! ## Names of a path -/

namespace Path

/-- The names of a path's components on a local disk. -/
def names (p : Path) : List Name := p.components.map Text.encode

/-- The local path of a path below a root is not refused for the sake of a name: it holds no NUL
byte and neither it nor one of the components is too long. -/
structure Fits (root : String) (p : Path) : Prop where
  noNul : 0 ∉ Text.encode (p.toLocal root)
  length : (Text.encode (p.toLocal root)).length ≤ Disk.maxPath
  component : ∀ n ∈ p.names, n.length ≤ Disk.maxName

instance (root : String) (p : Path) : Decidable (p.Fits root) :=
  decidable_of_iff (0 ∉ Text.encode (p.toLocal root) ∧
      (Text.encode (p.toLocal root)).length ≤ Disk.maxPath ∧ ∀ n ∈ p.names, n.length ≤ Disk.maxName)
    ⟨fun h => ⟨h.1, h.2.1, h.2.2⟩, fun h => ⟨h.noNul, h.length, h.component⟩⟩

/-- The local path of a path below a root is not refused as a whole: it holds no NUL byte and is not
too long. -/
structure Whole (root : String) (p : Path) : Prop where
  noNul : 0 ∉ Text.encode (p.toLocal root)
  length : (Text.encode (p.toLocal root)).length ≤ Disk.maxPath

/-- No name of a path is too long for one. -/
def Short (p : Path) : Prop := ∀ n ∈ p.names, n.length ≤ Disk.maxName

theorem names_injective {p q : Path} (h : p.names = q.names) : p = q :=
  ext ((List.map_inj_right fun _ _ he => Text.encode_injective he).mp h)

theorem names_eq_nil_iff {p : Path} : p.names = [] ↔ p = root := by
  rw [names, List.map_eq_nil_iff, ext_iff]
  rfl

theorem names_isPrefix_iff {p q : Path} : p.names <+: q.names ↔ p.components <+: q.components := by
  refine ⟨fun h => ?_, fun h => h.map _⟩
  obtain ⟨cs, hcs, he⟩ := List.prefix_map_iff.mp h
  have hp : cs = p.components :=
    (List.map_inj_right fun _ _ he => Text.encode_injective he).mp he.symm
  exact hp ▸ hcs

/-- The first names of a path are those of a path above it. -/
theorem exists_of_prefix_names {p : Path} {ys : List Name} (h : ys <+: p.names) :
    ∃ a : Path, a.names = ys ∧ a.components <+: p.components := by
  obtain ⟨cs, hcs, rfl⟩ := List.prefix_map_iff.mp h
  exact ⟨⟨cs, fun c hc => p.valid c (hcs.subset hc)⟩, rfl, hcs⟩

/-- What a component's name is: not empty, without a slash, and no step to another place. -/
theorem name_of_mem {p : Path} {n : Name} (h : n ∈ p.names) :
    n ≠ [] ∧ 0x2f ∉ n ∧ n ≠ [0x2e] ∧ n ≠ [0x2e, 0x2e] := by
  obtain ⟨c, hc, rfl⟩ := List.mem_map.mp h
  have hvalid := p.valid c hc
  refine ⟨fun he => hvalid.nonempty (Text.encode_eq_nil_iff.mp he), fun hm => ?_, fun he => ?_,
    fun he => ?_⟩
  · exact hvalid.noSeparator ((Text.mem_encode_ascii (c := '/') (by decide)).mp hm)
  · exact hvalid.notRelative (Or.inl (Text.encode_injective he))
  · exact hvalid.notRelative (Or.inr (Text.encode_injective he))

theorem names_of_components {p a : Path} {c : String} (h : p.components = a.components ++ [c]) :
    p.names = a.names ++ [Text.encode c] := by
  rw [names, names, h, List.map_append]
  rfl

/-- The names of a path end in one below those of its parent. -/
theorem names_of_parent {p a : Path} (h : p.parent? = some a) : ∃ n, p.names = a.names ++ [n] := by
  obtain ⟨c, hc⟩ := parent?_eq_some h
  exact ⟨_, names_of_components hc⟩

end Path

namespace Disk

/-! ## Steps of a local path -/

/-- The steps of a local path are its names, and one to the same place if it ends in a slash. -/
theorem steps_eq (path : List UInt8) :
    ∃ ys, (ys = [] ∨ ys = [[0x2e]]) ∧ steps path = pathNames path ++ ys := by
  unfold steps
  dsimp only
  split
  · exact ⟨_, .inr rfl, rfl⟩
  · exact ⟨_, .inl rfl, (List.append_nil _).symm⟩

theorem splitPath_ne_nil (path : List UInt8) : splitPath path ≠ [] := by
  cases path with
  | nil => exact List.cons_ne_nil _ _
  | cons b path =>
    rw [splitPath]
    split
    · exact List.cons_ne_nil _ _
    · split <;> exact List.cons_ne_nil _ _

theorem splitPath_slash (path rest : List UInt8) :
    splitPath (path ++ 0x2f :: rest) = splitPath path ++ splitPath rest := by
  induction path with
  | nil => simp [splitPath]
  | cons b path ih =>
    rw [List.cons_append, splitPath, splitPath, ih]
    obtain ⟨n, ns, h⟩ := List.exists_cons_of_ne_nil (splitPath_ne_nil path)
    rw [h]
    split <;> rfl

theorem splitPath_name {n : Name} (h : 0x2f ∉ n) : splitPath n = [n] := by
  induction n with
  | nil => rfl
  | cons b n ih =>
    rw [List.mem_cons, not_or] at h
    rw [splitPath, if_neg (Ne.symm h.1), ih h.2]

theorem pathNames_slash (path rest : List UInt8) :
    pathNames (path ++ 0x2f :: rest) = pathNames path ++ pathNames rest := by
  unfold pathNames
  rw [splitPath_slash, List.filter_append]

theorem pathNames_name {n : Name} (h : 0x2f ∉ n) (hne : n ≠ []) : pathNames n = [n] := by
  unfold pathNames
  rw [splitPath_name h, List.filter_cons_of_pos (by simpa using hne)]
  rfl

theorem pathNames_nil : pathNames [] = [] := rfl

/-- One more component is one more name. -/
theorem pathNames_appendLocal (base : String) {c : String} (h : 0x2f ∉ Text.encode c)
    (hne : Text.encode c ≠ []) :
    pathNames (Text.encode (Path.appendLocal base c)) =
      pathNames (Text.encode base) ++ [Text.encode c] := by
  have hslash : Text.encode "/" = [0x2f] := rfl
  unfold Path.appendLocal
  split
  · rename_i hbase
    rw [Text.encode_append]
    rcases hbase with rfl | hlast
    · exact pathNames_name h hne
    · obtain ⟨cs, hcs⟩ := List.getLast?_eq_some_iff.mp hlast
      have hbase : base = String.ofList cs ++ "/" := by
        rw [← String.ofList_toList (s := base), hcs, String.ofList_append]
      rw [hbase, Text.encode_append, hslash, List.append_assoc, List.singleton_append,
        pathNames_slash, pathNames_slash, pathNames_nil, List.append_nil, pathNames_name h hne]
  · rw [Text.encode_append, Text.encode_append, hslash, List.append_assoc, List.singleton_append,
      pathNames_slash, pathNames_name h hne]

/-- The local path of a path below a root has the names of both. -/
theorem pathNames_toLocal (root : String) (p : Path) :
    pathNames (Text.encode (p.toLocal root)) = pathNames (Text.encode root) ++ p.names := by
  have general : ∀ (cs : List String) (base : String),
      (∀ n ∈ cs.map Text.encode, n ≠ [] ∧ 0x2f ∉ n) →
        pathNames (Text.encode (cs.foldl Path.appendLocal base)) =
          pathNames (Text.encode base) ++ cs.map Text.encode := by
    intro cs
    induction cs with
    | nil => intro base _; simp
    | cons c cs ih =>
      intro base h
      rw [List.map_cons, List.forall_mem_cons] at h
      rw [List.foldl_cons, ih _ h.2, pathNames_appendLocal base h.1.2 h.1.1]
      simp
  exact general p.components root fun n hn => ⟨(Path.name_of_mem hn).1, (Path.name_of_mem hn).2.1⟩

theorem toLocal_child (root : String) {p a : Path} {c : String}
    (h : p.components = a.components ++ [c]) :
    p.toLocal root = Path.appendLocal (a.toLocal root) c := by
  rw [Path.toLocal, h, List.foldl_append]
  rfl

theorem encode_appendLocal (base c : String) :
    ∃ sep, Text.encode (Path.appendLocal base c) = Text.encode base ++ sep ++ Text.encode c := by
  unfold Path.appendLocal
  split
  · exact ⟨[], by simp [Text.encode_append]⟩
  · exact ⟨Text.encode "/", by simp [Text.encode_append]⟩

/-- The steps of a local path below a root are the names of the root and those of the path. -/
theorem steps_toLocal (root : String) {p : Path} (h : p ≠ .root) :
    steps (Text.encode (p.toLocal root)) = pathNames (Text.encode root) ++ p.names := by
  obtain ⟨a, ha⟩ := Path.exists_parent h
  obtain ⟨c, hc⟩ := Path.parent?_eq_some ha
  obtain ⟨hne, hslash, -⟩ := Path.name_of_mem (p := p) (n := Text.encode c)
    (by rw [Path.names_of_components hc]; simp)
  obtain ⟨sep, hsep⟩ := encode_appendLocal (a.toLocal root) c
  have hlast : (Text.encode (p.toLocal root)).getLast? ≠ some 0x2f := by
    rw [toLocal_child root hc, hsep, List.getLast?_append, List.getLast?_eq_some_getLast hne]
    intro he
    exact hslash (Option.some.inj he ▸ List.getLast_mem hne)
  unfold steps
  rw [if_neg hlast]
  exact pathNames_toLocal root p

/-- The local path of a path below a root is not empty. -/
theorem isEmpty_toLocal (root : String) {p : Path} (h : p ≠ .root) :
    (Text.encode (p.toLocal root)).isEmpty = false := by
  rw [List.isEmpty_eq_false_iff]
  intro he
  have hsteps := steps_toLocal root h
  rw [he] at hsteps
  exact h (Path.names_eq_nil_iff.mp (List.append_eq_nil_iff.mp hsteps.symm).2)

end Disk

/-! ## Fitting -/

namespace Path

theorem encode_toLocal_isPrefix (root : String) {p a : Path}
    (h : a.components <+: p.components) :
    Text.encode (a.toLocal root) <+: Text.encode (p.toLocal root) := by
  obtain ⟨cs, hcs⟩ := h
  rw [toLocal, toLocal, ← hcs, List.foldl_append]
  generalize a.components.foldl appendLocal root = base
  clear hcs
  induction cs generalizing base with
  | nil => exact List.prefix_refl _
  | cons c cs ih =>
    obtain ⟨sep, hsep⟩ := Disk.encode_appendLocal base c
    refine List.IsPrefix.trans ?_ (ih (appendLocal base c))
    rw [hsep, List.append_assoc]
    exact List.prefix_append _ _

theorem depth_le_length_toLocal (root : String) (p : Path) :
    p.depth ≤ (Text.encode (p.toLocal root)).length := by
  have general : ∀ (cs : List String) (base : String), (∀ c ∈ cs, c ≠ "") →
      (Text.encode base).length + cs.length ≤
        (Text.encode (cs.foldl appendLocal base)).length := by
    intro cs
    induction cs with
    | nil => intro base _; exact Nat.le_refl _
    | cons c cs ih =>
      intro base h
      rw [List.forall_mem_cons] at h
      obtain ⟨sep, hsep⟩ := Disk.encode_appendLocal base c
      have hlen := congrArg List.length hsep
      have hpos : 0 < (Text.encode c).length :=
        List.length_pos_iff.mpr fun he => h.1 (Text.encode_eq_nil_iff.mp he)
      have hrest := ih (appendLocal base c) h.2
      rw [List.length_append, List.length_append] at hlen
      rw [List.length_cons, List.foldl_cons]
      omega
  have h := general p.components root fun c hc => (p.valid c hc).nonempty
  exact Nat.le_trans (Nat.le_add_left ..) h

/-- A path fits if its local path is not refused, neither as a whole nor for a name. -/
theorem fits_iff {root : String} {p : Path} : p.Fits root ↔ p.Whole root ∧ p.Short :=
  ⟨fun h => ⟨⟨h.noNul, h.length⟩, h.component⟩, fun h => ⟨h.1.noNul, h.1.length, h.2⟩⟩

theorem Fits.whole {root : String} {p : Path} (h : p.Fits root) : p.Whole root := (fits_iff.mp h).1

theorem Fits.short {root : String} {p : Path} (h : p.Fits root) : p.Short := (fits_iff.mp h).2

theorem Whole.above {root : String} {p a : Path} (h : p.Whole root)
    (ha : a.components <+: p.components) : a.Whole root where
  noNul hn := h.noNul ((encode_toLocal_isPrefix root ha).subset hn)
  length := Nat.le_trans (encode_toLocal_isPrefix root ha).length_le h.length

theorem Short.above {p a : Path} (h : p.Short) (ha : a.components <+: p.components) : a.Short :=
  fun n hn => h n ((names_isPrefix_iff.mpr ha).subset hn)

/-- What lies above a fitting path fits. -/
theorem Fits.above {root : String} {p a : Path} (h : p.Fits root)
    (ha : a.components <+: p.components) : a.Fits root :=
  fits_iff.mpr ⟨h.whole.above ha, h.short.above ha⟩

end Path

end FileCluster
