import FileCluster.Proofs.Path.Prefix
import FileCluster.Proofs.Path.Text
import FileCluster.Wire.Basic

/-!
Which texts are paths.

A text is read as a path exactly if a separator is in front, no reserved character is in it and none
of its pieces is relative; the components are then the pieces that are not empty (`exists_parse_iff`,
`components_of_parse`). Reading piece by piece and extending a path by a component accept the same
components: the child of a path is what is read when a separator and the component are written after
the path, if this is one component more (`child_eq_ok_iff_parse`). So whatever way a path was come by
(`Obtained`), its written form reads back as the path, and tells it from every other path.
-/

namespace FileCluster.Path

/-! ## Pieces -/

theorem pieces_eq_splitOn (cs : List Char) : pieces cs = cs.splitOn '/' := by
  induction cs with
  | nil => rfl
  | cons c cs ih =>
    rw [List.splitOn_eq_splitOnP] at ih ⊢
    rw [pieces, List.splitOnP_cons_eq_if_modifyHead, ih]
    by_cases hc : c = '/'
    · rw [if_pos hc, if_pos (by simpa using hc)]
    · rw [if_neg hc, if_neg (by simpa using hc)]
      obtain ⟨p, ps, hps⟩ := List.exists_cons_of_ne_nil (List.splitOnP_ne_nil (· == '/') cs)
      rw [hps]
      rfl

/-- The components of a text are its pieces that are not empty, in order. -/
theorem toList_componentsOf (s : String) :
    (componentsOf s).map String.toList = (s.toList.splitOn '/').filter (· ≠ []) := by
  unfold componentsOf
  rw [List.map_map, pieces_eq_splitOn]
  have hid : String.toList ∘ String.ofList = id := funext fun cs => String.toList_ofList
  rw [hid, List.map_id]

theorem mem_componentsOf_iff {s c : String} :
    c ∈ componentsOf s ↔ c.toList ∈ s.toList.splitOn '/' ∧ c ≠ "" := by
  have hmem : c ∈ componentsOf s ↔ c.toList ∈ (componentsOf s).map String.toList := by
    constructor
    · exact List.mem_map_of_mem
    · intro h
      obtain ⟨c', hc', he⟩ := List.mem_map.mp h
      exact String.toList_inj.mp he ▸ hc'
  rw [hmem, toList_componentsOf, List.mem_filter]
  simp

theorem pieces_slash (cs ds : List Char) : pieces (cs ++ '/' :: ds) = pieces cs ++ pieces ds := by
  rw [pieces_eq_splitOn, pieces_eq_splitOn, pieces_eq_splitOn]
  exact List.splitOnP_append_cons cs ds rfl

/-- What is written after a separator adds its own components. -/
theorem componentsOf_slash (s c : String) :
    componentsOf (s ++ "/" ++ c) = componentsOf s ++ componentsOf c := by
  have htext : (s ++ "/" ++ c).toList = s.toList ++ '/' :: c.toList := by simp
  unfold componentsOf
  rw [htext, pieces_slash, List.filter_append, List.map_append]

/-! ## Reading -/

theorem parse_eq_ok {s : String} {p : Path} (h : parse s = .ok p) :
    s.toList.head? = some '/' ∧ ':' ∉ s.toList ∧ (¬∃ c ∈ componentsOf s, IsRelative c) ∧
      p.components = componentsOf s := by
  unfold parse at h
  split at h
  · simp at h
  next habsolute =>
    split at h
    · simp at h
    next hreserved =>
      split at h
      · simp at h
      next hrelative =>
        refine ⟨Decidable.not_not.mp habsolute, hreserved, hrelative, ?_⟩
        exact (congrArg components (Except.ok.inj h)).symm

theorem components_of_parse {s : String} {p : Path} (h : parse s = .ok p) :
    p.components = componentsOf s := (parse_eq_ok h).2.2.2

/-- No component of a text is relative exactly if none of its pieces is. -/
theorem noRelative_iff (s : String) : (¬∃ c ∈ componentsOf s, IsRelative c) ↔
    ∀ piece ∈ s.toList.splitOn '/', piece ≠ ['.'] ∧ piece ≠ ['.', '.'] := by
  constructor
  · intro h piece hpiece
    have hof : (String.ofList piece).toList = piece := String.toList_ofList
    constructor
    · intro he
      subst he
      exact h ⟨".", mem_componentsOf_iff.mpr ⟨hpiece, by decide⟩, .inl rfl⟩
    · intro he
      subst he
      exact h ⟨"..", mem_componentsOf_iff.mpr ⟨hpiece, by decide⟩, .inr rfl⟩
  · intro h hex
    obtain ⟨c, hc, hrelative⟩ := hex
    obtain ⟨hdot, hup⟩ := h c.toList (mem_componentsOf_iff.mp hc).1
    rcases hrelative with he | he
    · exact hdot (congrArg String.toList he)
    · exact hup (congrArg String.toList he)

/-- A text is read as a path exactly if a separator is in front, no reserved character is in it and
none of its pieces is relative. -/
theorem exists_parse_iff (s : String) : (∃ p, parse s = .ok p) ↔
    s.toList.head? = some '/' ∧ ':' ∉ s.toList ∧
      ∀ piece ∈ s.toList.splitOn '/', piece ≠ ['.'] ∧ piece ≠ ['.', '.'] := by
  rw [← noRelative_iff]
  constructor
  · intro h
    obtain ⟨p, hp⟩ := h
    obtain ⟨habsolute, hreserved, hrelative, -⟩ := parse_eq_ok hp
    exact ⟨habsolute, hreserved, hrelative⟩
  · intro h
    obtain ⟨habsolute, hreserved, hrelative⟩ := h
    unfold parse
    rw [if_neg (not_not_intro habsolute), dif_neg hreserved, dif_neg hrelative]
    exact ⟨_, rfl⟩

/-! ## Written forms -/

/-- Different paths are written differently. -/
theorem text_injective {p q : Path} (h : p.text = q.text) : p = q := by
  have hread : Except.ok p = Except.ok (ε := PathError) q := by
    rw [← parse_text p, ← parse_text q, h]
  exact Except.ok.inj hread

/-- The ways to come by a path: reading a text or a JSON value, and going from a path to a child, to
the parent or to a directory above it. -/
inductive Obtained : Path → Prop
  | parse {s : String} {p : Path} (h : Path.parse s = .ok p) : Obtained p
  | decode {v : Json} {p : Path} (h : Wire.decodePath v = .ok p) : Obtained p
  | child {p q : Path} {c : String} (hp : Obtained p) (h : p.child c = .ok q) : Obtained q
  | parent {p a : Path} (hp : Obtained p) (h : p.parent? = some a) : Obtained a
  | ancestor {p a : Path} (hp : Obtained p) (h : a ∈ p.ancestors) : Obtained a

theorem head?_text (p : Path) : p.text.toList.head? = some '/' := (parse_eq_ok (parse_text p)).1

theorem reserved_notMem_text (p : Path) : ':' ∉ p.text.toList := (parse_eq_ok (parse_text p)).2.1

/-- A component is a text of one component, itself. -/
theorem componentsOf_component {c : String} (h : IsComponent c) : componentsOf c = [c] := by
  have hpieces : pieces c.toList = [c.toList] := by
    have happend := pieces_append (m := []) h.noSeparator rfl
    rwa [List.append_nil] at happend
  have hne : c.toList ≠ [] := fun he => h.nonempty (String.toList_eq_nil_iff.mp he)
  unfold componentsOf
  rw [hpieces, List.filter_cons_of_pos (by simpa using hne), List.filter_nil, List.map_singleton,
    String.ofList_toList]

/-- The child of a path is what is read when a separator and the component are written after the
path, if it has one component more, the one that was written. -/
theorem child_eq_ok_iff_parse {p q : Path} {c : String} : p.child c = .ok q ↔
    parse (p.text ++ "/" ++ c) = .ok q ∧ q.depth = p.depth + 1 ∧ q.last? = some c := by
  have hcomponents : componentsOf (p.text ++ "/" ++ c) = p.components ++ componentsOf c := by
    rw [componentsOf_slash, componentsOf_text]
  rw [child_eq_ok_iff]
  constructor
  · intro hq
    have hc : IsComponent c := q.valid c (by rw [hq]; simp)
    rw [componentsOf_component hc, ← hq] at hcomponents
    have hread : ∃ q', parse (p.text ++ "/" ++ c) = .ok q' := by
      rw [exists_parse_iff, ← noRelative_iff, hcomponents]
      refine ⟨?_, ?_, ?_⟩
      · have htext : (p.text ++ "/" ++ c).toList = p.text.toList ++ '/' :: c.toList := by simp
        rw [htext, List.head?_append, head?_text]
        rfl
      · simpa [reserved_notMem_text] using hc.noReserved
      · intro hex
        obtain ⟨x, hx, hrelative⟩ := hex
        exact (q.valid x hx).notRelative hrelative
    obtain ⟨q', hq'⟩ := hread
    have hsame : q' = q := ext ((components_of_parse hq').trans hcomponents)
    refine ⟨hsame ▸ hq', ?_, ?_⟩
    · simp [depth, hq]
    · simp [last?, hq]
  · intro h
    obtain ⟨hread, hdepth, hlast⟩ := h
    -- the components that are written after the path are one, and the last one is the text
    have hq : q.components = p.components ++ componentsOf c :=
      (components_of_parse hread).trans hcomponents
    have hlength : (componentsOf c).length = 1 := by
      have := congrArg List.length hq
      rw [List.length_append] at this
      unfold depth at hdepth
      omega
    obtain ⟨x, hx⟩ := List.length_eq_one_iff.mp hlength
    rw [hx] at hq
    rw [last?, hq, List.getLast?_concat] at hlast
    rw [hq, Option.some.inj hlast]

/-- Which texts are paths, and which paths they are; that every path there is can be come by, and its
written form reads back as the path and tells it from every other path; and that extending a path by a
component and reading the component after the path accept the same and come to the same. -/
theorem written_form :
    (∀ s : String, (∃ p, parse s = .ok p) ↔
      s.toList.head? = some '/' ∧ ':' ∉ s.toList ∧
        ∀ piece ∈ s.toList.splitOn '/', piece ≠ ['.'] ∧ piece ≠ ['.', '.']) ∧
    (∀ (s : String) (p : Path), parse s = .ok p →
      p.components.map String.toList = (s.toList.splitOn '/').filter (· ≠ [])) ∧
    (∀ p : Path, Obtained p ∧ parse p.text = .ok p) ∧
    (∀ p q : Path, p = q ↔ p.text = q.text) ∧
    ∀ (p q : Path) (c : String), p.child c = .ok q ↔
      parse (p.text ++ "/" ++ c) = .ok q ∧ q.depth = p.depth + 1 ∧ q.last? = some c := by
  refine ⟨exists_parse_iff, ?_, ?_, ?_, ?_⟩
  · intro s p h
    rw [components_of_parse h]
    exact toList_componentsOf s
  · intro p
    exact ⟨.parse (parse_text p), parse_text p⟩
  · intro p q
    exact ⟨congrArg text, text_injective⟩
  · intro p q c
    exact child_eq_ok_iff_parse

/-- Repeated separators and one at the end are read as if they were not there. -/
theorem written_form_slashes :
    ∃ p, parse "//a///b/" = .ok p ∧ p.components.map String.toList = [['a'], ['b']] := by
  obtain ⟨p, hp⟩ := (written_form.1 "//a///b/").mpr (by decide)
  refine ⟨p, hp, ?_⟩
  rw [written_form.2.1 _ p hp]
  decide

end FileCluster.Path
