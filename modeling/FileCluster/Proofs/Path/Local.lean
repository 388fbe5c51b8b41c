import FileCluster.Path.Local
import FileCluster.Proofs.Path.Order
import FileCluster.Proofs.Path.Written

/-!
Local paths of paths.

Joining a local path to another one replaces the other one if it is absolute (`joinLocal`). No
component is absolute, empty or ends in a slash, so that below a root nothing is replaced, and one
slash is put between neighbours (`toLocal_eq`). What follows the root splits into the components
again (`componentsOf_beneath`). So the local path tells the path, and one path is a prefix of
another exactly if its local path is one up to a slash (`startsWith_iff_toLocal`).
-/

namespace FileCluster.Path

variable {p q : Path} {root base c : String} {cs : List String}

/-! ## Joining -/

/-- A local path joined to another one; an absolute one takes its place. -/
def joinLocal (base further : String) : String :=
  if further.toList.head? = some '/' then further else appendLocal base further

/-- What is put between a local path and a component. -/
def joint (base : String) : String :=
  if base = "" ∨ base.toList.getLast? = some '/' then "" else "/"

theorem appendLocal_eq (base c : String) : appendLocal base c = base ++ joint base ++ c := by
  unfold appendLocal joint
  split
  · rw [String.append_empty]
  · rfl

theorem IsComponent.head?_ne (h : IsComponent c) : c.toList.head? ≠ some '/' :=
  fun he => h.noSeparator (List.mem_of_mem_head? he)

theorem IsComponent.joinLocal_eq (h : IsComponent c) (base : String) :
    joinLocal base c = appendLocal base c := if_neg h.head?_ne

/-- What ends in a component neither is empty nor ends in a slash. -/
theorem IsComponent.joint_append (h : IsComponent c) (base : String) : joint (base ++ c) = "/" := by
  have hne : c.toList ≠ [] := fun he => h.nonempty (String.toList_eq_nil_iff.mp he)
  refine if_neg ?_
  rintro (hempty | hlast)
  · have := congrArg String.toList hempty
    rw [String.toList_append] at this
    exact hne (List.append_eq_nil_iff.mp this).2
  · rw [String.toList_append, List.getLast?_append, List.getLast?_eq_some_getLast hne] at hlast
    exact h.noSeparator (Option.some.inj hlast ▸ List.getLast_mem hne)

/-- Below a root nothing is replaced. -/
theorem toLocal_eq_join (root : String) (p : Path) :
    p.toLocal root = p.components.foldl joinLocal root := by
  have general : ∀ (cs : List String), (∀ c ∈ cs, IsComponent c) → ∀ base,
      cs.foldl appendLocal base = cs.foldl joinLocal base := by
    intro cs hcs
    induction cs with
    | nil => exact fun _ => rfl
    | cons c cs ih =>
      obtain ⟨hc, hcs⟩ := List.forall_mem_cons.mp hcs
      intro base
      rw [List.foldl_cons, List.foldl_cons, hc.joinLocal_eq]
      exact ih hcs _
  exact general p.components p.valid root

theorem foldl_appendLocal (hcs : ∀ x ∈ c :: cs, IsComponent x) (base : String) :
    (c :: cs).foldl appendLocal base = base ++ joint base ++ "/".intercalate (c :: cs) := by
  induction cs generalizing base c with
  | nil => rw [List.foldl_cons, List.foldl_nil, appendLocal_eq, String.intercalate_singleton]
  | cons d cs ih =>
    obtain ⟨hc, hcs⟩ := List.forall_mem_cons.mp hcs
    rw [List.foldl_cons, ih hcs, appendLocal_eq, hc.joint_append, String.intercalate_cons_cons]
    simp only [String.append_assoc]

/-! ## What follows the root -/

/-- What follows a local root in the local path of a path. -/
def beneath (root : String) (p : Path) : String :=
  if p = .root then "" else joint root ++ "/".intercalate p.components

/-- The local path of a path is the root and the components, one slash between neighbours. -/
theorem toLocal_eq (root : String) (p : Path) : p.toLocal root = root ++ beneath root p := by
  unfold toLocal beneath
  split
  · rename_i hp
    rw [hp, String.append_empty]
    rfl
  · rename_i hp
    obtain ⟨c, cs, hcs⟩ := List.exists_cons_of_ne_nil fun he => hp (ext he)
    have hvalid := p.valid
    rw [hcs] at hvalid ⊢
    rw [foldl_appendLocal hvalid, String.append_assoc]

/-- Components joined by slashes split into the components. -/
theorem splitOn_intercalate (hp : p ≠ .root) :
    ("/".intercalate p.components).toList.splitOn '/' = p.components.map String.toList := by
  have hne : p.components.map String.toList ≠ [] := fun he =>
    hp (ext (List.map_eq_nil_iff.mp he))
  rw [String.toList_intercalate]
  refine List.splitOn_intercalate '/' (fun l hl => ?_) hne
  obtain ⟨c, hc, rfl⟩ := List.mem_map.mp hl
  exact (p.valid c hc).noSeparator

theorem componentsOf_joint (base s : String) : componentsOf (joint base ++ s) = componentsOf s := by
  unfold joint
  split
  · rw [String.empty_append]
  · have hslash := componentsOf_slash "" s
    rwa [String.empty_append] at hslash

/-- What follows the root in a local path has the components of the path. -/
theorem componentsOf_beneath (root : String) (p : Path) :
    componentsOf (beneath root p) = p.components := by
  unfold beneath
  split
  · rename_i hp
    rw [hp]
    rfl
  · rename_i hp
    have hnonempty : ∀ l ∈ p.components.map String.toList, l ≠ [] := by
      intro l hl he
      obtain ⟨c, hc, rfl⟩ := List.mem_map.mp hl
      exact (p.valid c hc).nonempty (String.toList_eq_nil_iff.mp he)
    have hmap : (componentsOf ("/".intercalate p.components)).map String.toList =
        p.components.map String.toList := by
      rw [toList_componentsOf, splitOn_intercalate hp]
      exact List.filter_eq_self.mpr fun l hl => decide_eq_true (hnonempty l hl)
    rw [componentsOf_joint]
    exact (List.map_inj_right fun _ _ he => String.toList_inj.mp he).mp hmap

theorem components_of_toLocal {rest : String} (h : p.toLocal root = root ++ rest) :
    p.components = componentsOf rest := by
  rw [toLocal_eq] at h
  rw [← componentsOf_beneath root p, String.append_right_inj root |>.mp h]

/-! ## Which path a local path is of -/

theorem toLocal_injective (h : p.toLocal root = q.toLocal root) : p = q := by
  rw [toLocal_eq root q] at h
  exact ext ((components_of_toLocal h).trans (componentsOf_beneath root q))

/-- The local path of what is below a path continues that of the path after a slash. -/
theorem toLocal_of_append (hp : p ≠ .root) (h : q.components = p.components ++ cs) (hcs : cs ≠ []) :
    q.toLocal root = p.toLocal root ++ "/" ++ "/".intercalate cs := by
  have hp' : p.components ≠ [] := fun he => hp (ext he)
  have hq : q ≠ .root := by
    rintro rfl
    exact hp' (List.append_eq_nil_iff.mp h.symm).1
  rw [toLocal_eq, toLocal_eq, beneath, beneath, if_neg hp, if_neg hq, h,
    String.intercalate_append_of_ne_nil hp' hcs]
  simp only [String.append_assoc]

/-- A path is below another one exactly if its local path is the other one's or continues it after a
slash. -/
theorem startsWith_iff_toLocal (hp : p ≠ .root) (root : String) : q.startsWith p = true ↔
    q.toLocal root = p.toLocal root ∨ ∃ rest, q.toLocal root = p.toLocal root ++ "/" ++ rest := by
  rw [startsWith_iff]
  constructor
  · rintro ⟨cs, hcs⟩
    by_cases hempty : cs = []
    · subst hempty
      rw [List.append_nil] at hcs
      exact .inl (congrArg (toLocal root) (ext hcs).symm)
    · exact .inr ⟨_, toLocal_of_append hp hcs.symm hempty⟩
  · rintro (hsame | ⟨rest, hrest⟩)
    · obtain rfl := toLocal_injective hsame
      exact List.prefix_refl _
    · rw [toLocal_eq root p, String.append_assoc, String.append_assoc] at hrest
      rw [components_of_toLocal hrest, ← String.append_assoc, componentsOf_slash,
        componentsOf_beneath]
      exact List.prefix_append _ _

/-- The local path of a path below a local root: nothing replaces the root; the components follow
it, one slash between neighbours, and none after a root that is empty or ends in one; what follows
the root splits into the components again; and local paths tell paths apart, and prefixes from other
paths. -/
theorem local_form (root : String) :
    (∀ p : Path, p.toLocal root = p.components.foldl joinLocal root) ∧
    Path.root.toLocal root = root ∧
    (∀ p : Path, p ≠ .root →
      p.toLocal root =
        root ++ (if root = "" ∨ root.toList.getLast? = some '/' then "" else "/") ++
          "/".intercalate p.components ∧
      ("/".intercalate p.components).toList.splitOn '/' = p.components.map String.toList) ∧
    (∀ p : Path, ∃ rest, p.toLocal root = root ++ rest ∧
      (rest.toList.splitOn '/').filter (· ≠ []) = p.components.map String.toList) ∧
    (∀ p q : Path, p.toLocal root = q.toLocal root → p = q) ∧
    ∀ p q : Path, p ≠ .root → (q.startsWith p = true ↔
      q.toLocal root = p.toLocal root ∨
        ∃ rest, q.toLocal root = p.toLocal root ++ "/" ++ rest) := by
  refine ⟨toLocal_eq_join root, rfl, ?_, ?_, fun p q => toLocal_injective, ?_⟩
  · intro p hp
    refine ⟨?_, splitOn_intercalate hp⟩
    rw [toLocal_eq, beneath, if_neg hp, ← String.append_assoc]
    rfl
  · intro p
    refine ⟨beneath root p, toLocal_eq root p, ?_⟩
    rw [← toList_componentsOf, componentsOf_beneath]
  · intro p q hp
    exact startsWith_iff_toLocal hp root

/-- Below a root that ends in a slash: `/a/b` is below `/a` and continues it after a slash, while
`/a!` is beside it and does not. -/
theorem local_form_slashed :
    pathA ≠ .root ∧ belowA.toLocal "/srv/" = "/srv/a/b" ∧
      (∃ rest, "/srv/a/b" = pathA.toLocal "/srv/" ++ "/" ++ rest) ∧
      ¬∃ rest, besideA.toLocal "/srv/" = pathA.toLocal "/srv/" ++ "/" ++ rest := by
  have hne : pathA ≠ .root := by decide
  obtain ⟨-, -, hform, -, -, hstarts⟩ := local_form "/srv/"
  have hlocal : belowA.toLocal "/srv/" = "/srv/a/b" := (hform belowA (by decide)).1
  have hbelow := (hstarts pathA belowA hne).mp (by decide)
  have hbeside : besideA.startsWith pathA = false := by decide
  refine ⟨hne, hlocal, ?_, fun hrest => ?_⟩
  · rw [← hlocal]
    exact hbelow.resolve_left (by decide)
  · rw [(hstarts pathA besideA hne).mpr (.inr hrest)] at hbeside
    cases hbeside

end FileCluster.Path
