import FileCluster.Path.Basic

/-!
The written form of a path reads back as the path (`parse_text`): the pieces of the text between
separators are the components.
-/

namespace FileCluster.Path

/-- The characters of the written form of components, a separator before each. -/
def slashed (cs : List String) : List Char := cs.flatMap fun c => '/' :: c.toList

theorem toList_text {p : Path} (h : p.components ≠ []) : p.text.toList = slashed p.components := by
  have general : ∀ (cs : List String) (acc : String),
      (cs.foldl (fun acc c => acc ++ "/" ++ c) acc).toList = acc.toList ++ slashed cs := by
    intro cs
    induction cs with
    | nil => simp [slashed]
    | cons c cs ih =>
      intro acc
      rw [List.foldl_cons, ih]
      simp [slashed]
  unfold text
  split
  · rename_i hnil
    exact absurd hnil h
  · rw [general]
    rfl

/-- A piece is not ended by other characters. -/
theorem pieces_append {w m h : List Char} {t : List (List Char)} (hw : '/' ∉ w)
    (hm : pieces m = h :: t) : pieces (w ++ m) = (w ++ h) :: t := by
  induction w with
  | nil => exact hm
  | cons c w ih =>
    rw [List.mem_cons, not_or] at hw
    rw [List.cons_append, pieces, if_neg (Ne.symm hw.1), ih hw.2]
    rfl

theorem pieces_slashed (cs : List String) (h : ∀ c ∈ cs, '/' ∉ c.toList) :
    pieces (slashed cs) = [] :: cs.map String.toList := by
  induction cs with
  | nil => rfl
  | cons c cs ih =>
    obtain ⟨hc, hcs⟩ := List.forall_mem_cons.mp h
    have hslashed : slashed (c :: cs) = '/' :: (c.toList ++ slashed cs) := by simp [slashed]
    rw [hslashed, pieces, if_pos rfl, pieces_append hc (ih hcs), List.append_nil]
    rfl

theorem componentsOf_text (p : Path) : componentsOf p.text = p.components := by
  by_cases hroot : p.components = []
  · have htext : p.text = "/" := by
      unfold text
      rw [hroot]
    rw [htext, hroot]
    rfl
  · have hne : (p.components.map String.toList).filter (· ≠ []) =
        p.components.map String.toList := by
      refine List.filter_eq_self.mpr fun l hl => ?_
      obtain ⟨c, hc, rfl⟩ := List.mem_map.mp hl
      have := (p.valid c hc).nonempty
      simpa using this
    unfold componentsOf
    rw [toList_text hroot, pieces_slashed _ fun c hc => (p.valid c hc).noSeparator,
      List.filter_cons_of_neg (by simp), hne, List.map_map]
    conv => rhs; rw [← List.map_id p.components]
    exact List.map_congr_left fun c _ => String.ofList_toList

/-- The written form of a path reads back as the path. -/
theorem parse_text (p : Path) : parse p.text = .ok p := by
  have hhead : p.text.toList.head? = some '/' := by
    by_cases hroot : p.components = []
    · unfold text
      rw [hroot]
      rfl
    · rw [toList_text hroot]
      obtain ⟨c, cs, hc⟩ := List.exists_cons_of_ne_nil hroot
      rw [hc]
      rfl
  have hreserved : ':' ∉ p.text.toList := by
    by_cases hroot : p.components = []
    · unfold text
      rw [hroot]
      decide
    · rw [toList_text hroot]
      unfold slashed
      rw [List.mem_flatMap]
      rintro ⟨c, hc, hmem⟩
      rcases List.mem_cons.mp hmem with he | hmem
      · cases he
      · exact (p.valid c hc).noReserved hmem
  have hrelative : ¬∃ c ∈ componentsOf p.text, IsRelative c := by
    rintro ⟨c, hc, hrel⟩
    rw [componentsOf_text] at hc
    exact (p.valid c hc).notRelative hrel
  unfold parse
  rw [if_neg (not_not_intro hhead), dif_neg hreserved, dif_neg hrelative]
  exact congrArg Except.ok (ext (componentsOf_text p))

end FileCluster.Path
