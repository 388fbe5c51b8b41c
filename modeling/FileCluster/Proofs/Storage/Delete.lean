import FileCluster.Proofs.Disk.Trail
import FileCluster.Proofs.Storage.Pruning

/-!
What removing does to the disk of a storage service.

`delete` does nothing, or it takes away what stands at a place and, the nearest first, the
directories above that are left empty (`delete_cases`). Below a root that is a directory without
links it takes away nothing else; and if the local path of the root leads to the root in the end, no
directory above the place is left that holds nothing (`Deleted`). So a root below which no directory
was empty stays so (`delete_spec`).
-/

namespace FileCluster

/-- An outcome is known by the value it gives. -/
theorem eq_ok_of_toOption {ε α : Type} {x : Except ε α} {a : α} (h : x.toOption = some a) :
    x = .ok a := by
  cases x with
  | error e => cases h
  | ok b => exact congrArg Except.ok (Option.some.inj h)

theorem exists_error_of_toOption {ε α : Type} {x : Except ε α} (h : x.toOption = none) :
    ∃ e, x = .error e := by
  cases x with
  | error e => exact ⟨e, rfl⟩
  | ok a => cases h

namespace Storage

open Disk

variable {d d' : Disk} {within : Place → Prop} {root : String} {R : Place} {p a : Path}

/-! ## Outcomes -/

/-- Removing changes nothing and does not affirm, or it affirms and takes away what the local path
leads to, and then prunes. -/
theorem delete_cases (root : String) (d : Disk) (p : Path) :
    ((delete root d p).1 ≠ .ok true ∧ (delete root d p).2 = d) ∨
      ∃ place e, p ≠ .root ∧ d.resolve false (p.toLocal root) = .ok (.found place e) ∧
        delete root d p = (.ok true, pruneAbove root (d.put place none) p) := by
  unfold delete
  split
  · exact .inl ⟨nofun, rfl⟩
  next hroot =>
    have hp : p ≠ .root := fun he => hroot (Path.isRoot_iff.mpr he)
    split
    · exact .inl ⟨nofun, rfl⟩
    · exact .inl ⟨nofun, rfl⟩
    next hentry =>
      unfold entry at hentry
      split at hentry
      next place e hr =>
        refine .inr ⟨place, e, hp, hr, ?_⟩
        unfold remove
        rw [hr]
      next => cases hentry
      next => cases hentry

/-! ## What is left -/

/-- A disk after something was removed at a path: what stood at its place and below is gone. All
else is as it was but emptied directories above the path, and those are gone if the root's local path
leads to the root. -/
structure Deleted (root : String) (d d' : Disk) (R : Place) (p : Path) : Prop where
  part : d'.PartOf d
  gone : ∀ q, R ++ p.names <+: q → d'.look q = none
  kept : ∀ q, ¬R ++ p.names <+: q →
    (∀ a ∈ p.ancestors, Emptied d R p a → q ≠ R ++ a.names) → d'.look q = d.look q
  pruned : d'.Leads root R → ∀ a ∈ p.ancestors, Emptied d R p a → d'.look (R ++ a.names) = none

/-- Taking away what stands at a path's place and pruning above it. -/
theorem Deleted.of_put (h : d.Encloses root R) (hp : p ≠ .root) (hfits : p.Fits root)
    (hthere : d.look (R ++ p.names) ≠ none) :
    Deleted root d (pruneAbove root (d.put (R ++ p.names) none) p) R p := by
  have hlook := look_removeAt hp hthere
  obtain ⟨e, he⟩ := Option.ne_none_iff_exists'.mp (mt look_eq_none_iff.mpr hthere)
  have hpart : (d.put (R ++ p.names) none).PartOf d := .put_none he
  have hcleared := pruneAbove_cleared h hpart hfits (.of_removed hthere hlook)
  have hiff : ∀ a : Path, Emptied (d.put (R ++ p.names) none) R p a ↔ Emptied d R p a :=
    fun a => emptied_iff (List.prefix_refl _) hlook fun q hq _ => .inr hq
  refine ⟨hcleared.part.trans hpart, fun q hq => ?_, fun q hq hne => ?_,
    fun hleads a ha hemptied => hcleared.gone hleads a ha ((hiff a).mpr hemptied)⟩
  · exact hcleared.part.look_eq_none (by rw [hlook, if_pos hq])
  · rw [hcleared.kept q fun a ha hemptied => hne a ha ((hiff a).mp hemptied), hlook, if_neg hq]

namespace Deleted

/-- What is gone stood at the path or below it, or was an emptied directory above it. -/
theorem cases_of_gone (h : Deleted root d d' R p) {q : Place} (hgone : d'.look q = none)
    (hthere : d.look q ≠ none) :
    R ++ p.names <+: q ∨ ∃ a ∈ p.ancestors, Emptied d R p a ∧ q = R ++ a.names := by
  by_cases hpre : R ++ p.names <+: q
  · exact .inl hpre
  · refine .inr (Classical.byContradiction fun hno => hthere ?_)
    rw [← hgone]
    exact (h.kept q hpre fun a ha hemptied he => hno ⟨a, ha, hemptied, he⟩).symm

/-- Nothing is changed but what is below the root. -/
theorem outside (h : Deleted root d d' R p) (hp : p ≠ .root) {q : Place} (hq : ¬Beneath R q) :
    d'.look q = d.look q := by
  refine h.kept q (fun hpre => hq ?_) fun a ha _ he => hq ?_
  · exact beneath_of_isPrefix (fun he => hp (Path.names_eq_nil_iff.mp he)) hpre
  · exact he ▸ beneath_names (Path.ne_root_of_mem_ancestors ha)

/-- A root whose local path does not go through places below it leads to the root then. -/
theorem leads (h : Deleted root d d' R p) (hp : p ≠ .root)
    (hanchored : d.Anchored (Beneath R) root R) : d'.Leads root R :=
  hanchored d' fun _ hq => h.outside hp hq

/-- What is gone of a directory that is left was the path or an emptied directory above it. -/
theorem child_of_gone (h : Deleted root d d' R p) {q : Place} {n : Name}
    (hleft : ¬R ++ p.names <+: q) (hgone : d'.look (q ++ [n]) = none)
    (hthere : d.look (q ++ [n]) ≠ none) :
    q ++ [n] <+: R ++ p.names ∧
      (q ++ [n] = R ++ p.names ∨ ∃ a, Emptied d R p a ∧ q ++ [n] = R ++ a.names) := by
  rcases h.cases_of_gone hgone hthere with hpre | ⟨a, ha, hemptied, he⟩
  · have heq := (List.prefix_concat_iff.mp hpre).resolve_right hleft
    exact ⟨heq ▸ List.prefix_refl _, .inl heq.symm⟩
  · have hpre := Path.names_isPrefix_iff.mpr (Path.mem_ancestors.mp ha).2.1
    exact ⟨he ▸ (List.prefix_append_right_inj R).mpr hpre, .inr ⟨a, hemptied, he⟩⟩

/-- A directory that is left with nothing in it has been emptied. -/
theorem emptied_of_empty (h : Deleted root d d' R p) (hleft : ¬R ++ p.names <+: R ++ a.names)
    (hnone : ∀ n, d'.look (R ++ a.names ++ [n]) = none) : Emptied d R p a := by
  rintro _ ⟨n, below, rfl⟩ hthere
  obtain ⟨hpre, he | ⟨b, hb, he⟩⟩ := h.child_of_gone hleft (hnone n) (look_first hthere)
  · exact .inr ⟨below, by rw [← he]; simp⟩
  · cases below with
    | nil => exact .inl hpre
    | cons m below => exact hb _ ⟨m, below, by rw [← he]; simp⟩ hthere

/-- A directory below the root that is left and held something holds something still. -/
theorem populated (h : Deleted root d d' R p) (hleads : d'.Leads root R) (hpop : d.Populated R) :
    d'.Populated R := by
  intro q hq hdir
  refine Classical.byContradiction fun hempty => ?_
  have hnone : ∀ n, d'.look (q ++ [n]) = none := fun n =>
    Classical.byContradiction fun hn => hempty ⟨n, hn⟩
  have hleft : ¬R ++ p.names <+: q := fun hpre => by
    rw [h.gone q hpre] at hdir
    cases hdir
  -- what the directory held is gone, so the directory lies above the path
  obtain ⟨n, hn⟩ := hpop q hq (h.part q _ hdir)
  have hchild := (h.child_of_gone hleft (hnone n) hn).1
  obtain ⟨m, rest, rfl⟩ := hq
  obtain ⟨a, ha, hap⟩ := Path.exists_of_prefix_names
    ((List.prefix_append_right_inj R).mp ((List.prefix_append _ [n]).trans hchild))
  rw [← ha] at hleft hnone hdir
  have hanc : a ∈ p.ancestors := by
    refine Path.mem_ancestors.mpr ⟨fun he => ?_, hap, fun he => ?_⟩
    · simp [Path.names, he] at ha
    · exact hleft (he ▸ List.prefix_refl _)
  rw [h.pruned hleads a hanc (h.emptied_of_empty hleft hnone)] at hdir
  cases hdir

end Deleted

/-- A disk with a file `/r/b/x/y`, and another one beside the directory `b`. -/
def deepFile : Disk :=
  ⟨[([0x72], .directory [([0x62], .directory [([0x78], .directory [([0x79], .file .empty)])]),
    ([0x6b], .file ⟨#[0x2a]⟩)])]⟩

/-- The path of the deep file below `/r`. -/
def deepPath : Path := ((Path.parse "/b/x/y").toOption).getD .root

theorem noLinks_deepFile : deepFile.NoLinks [[0x72]] := by
  have hall : ∀ x ∈ deepFile.top.flatten, (x.2.isDirectory || x.2.isFile) = true := by
    decide +kernel
  rintro q t ⟨n, rest, rfl⟩ hlink
  cases hall _ (mem_flatten ((look_eq_some_iff rfl).mp hlink))

/-- A disk after a change that takes away what stands at a path's place, and directories above that
are empty then. -/
structure Removed (d d' : Disk) (R : Place) (p : Path) : Prop where
  gone : ∀ q, R ++ p.names <+: q → d'.look q = none
  kept : ∀ q, ¬R ++ p.names <+: q → d'.look q = d.look q ∨
    d'.look q = none ∧ d.look q = some .emptyDirectory ∧ ∃ a ∈ p.ancestors, q = R ++ a.names
  populated : d.Populated R → d'.Populated R

/-- What is there is removed. -/
theorem delete_spec (hd : Rooted d within root R) (hp : p ≠ .root) (hfits : p.Fits root)
    (hthere : d.look (R ++ p.names) ≠ none) :
    ∃ d', delete root d p = (.ok true, d') ∧ Removed d d' R p := by
  obtain ⟨e, he⟩ := Option.ne_none_iff_exists'.mp (mt look_eq_none_iff.mpr hthere)
  have hfound := hd.encloses.resolve_found hp hfits he false
  have hdeleted := Deleted.of_put ⟨hd.leads, hd.noLinks⟩ hp hfits hthere
  have hleads := hd.anchored _ fun q hq => hdeleted.outside hp fun hb => hq (hd.within q hb)
  refine ⟨_, ?_, hdeleted.gone, fun q hq => ?_, hdeleted.populated hleads⟩
  · unfold delete entry remove
    rw [Path.isRoot_eq_false_iff.mpr hp, hfound]
    rfl
  · by_cases hemptied : ∃ a ∈ p.ancestors, Emptied d R p a ∧ q = R ++ a.names
    · obtain ⟨a, ha, hemptied, rfl⟩ := hemptied
      have hdir := look_above_path (look_of_get? he) ha
      exact .inr ⟨hdeleted.pruned hleads a ha hemptied, hdir, a, ha, rfl⟩
    · exact .inl (hdeleted.kept q hq fun a ha h he => hemptied ⟨a, ha, h, he⟩)

/-- Where there is nothing nothing is removed. -/
theorem delete_of_none (hd : Rooted d within root R) (hnone : d.look (R ++ p.names) = none) :
    (delete root d p).2 = d := by
  rcases delete_cases root d p with ⟨-, hsame⟩ | ⟨place, e, hp, hr, -⟩
  · exact hsame
  · obtain ⟨rfl, hget⟩ := hd.leads.place_of_resolve hp hd.noLinks hr
    rw [look_of_get? hget] at hnone
    cases hnone

/-- Whether there is something to remove or not, nothing is left at the path. -/
theorem delete_removed (hd : Rooted d within root R) (hp : p ≠ .root) (hfits : p.Fits root) :
    Removed d (delete root d p).2 R p := by
  by_cases hnone : d.look (R ++ p.names) = none
  · rw [delete_of_none hd hnone]
    refine ⟨fun q hq => ?_, fun _ _ => Or.inl rfl, id⟩
    obtain ⟨rest, rfl⟩ := hq
    exact look_beyond hnone rest
  · obtain ⟨d', hdelete, hremoved⟩ := delete_spec hd hp hfits hnone
    rw [hdelete]
    exact hremoved

theorem Removed.look_ne_none (h : Removed d d' R p) {q : Place} (hq : d'.look q ≠ none) :
    d.look q ≠ none := by
  by_cases hpre : R ++ p.names <+: q
  · exact absurd (h.gone q hpre) hq
  · rcases h.kept q hpre with hk | hk
    · exact hk ▸ hq
    · exact absurd hk.1 hq

theorem Removed.changed (h : Removed d d' R p) (hp : p ≠ .root) : ChangedBelow d d' R := by
  have hns : p.names ≠ [] := fun he => hp (Path.names_eq_nil_iff.mp he)
  refine ⟨fun q hq => ?_, fun q e he _ => ?_, h.populated⟩
  · rcases h.kept q fun hpre => hq (beneath_of_isPrefix hns hpre) with hk | ⟨-, -, a, ha, rfl⟩
    · exact hk
    · exact absurd (beneath_names (Path.ne_root_of_mem_ancestors ha)) hq
  · by_cases hpre : R ++ p.names <+: q
    · rw [h.gone q hpre] at he
      cases he
    · rcases h.kept q hpre with hk | hk
      · exact Or.inl (hk ▸ he)
      · rw [hk.1] at he
        cases he

/-- Removing leaves what is no directory as it was, save at the path and below it. -/
theorem Removed.look_eq_some_iff (h : Removed d d' R p) {q : Place} {e : Entry}
    (he : e.isDirectory = false) :
    d'.look q = some e ↔ d.look q = some e ∧ ¬R ++ p.names <+: q := by
  by_cases hpre : R ++ p.names <+: q
  · rw [h.gone q hpre]
    simp [hpre]
  · rcases h.kept q hpre with hk | ⟨hnone, hdir, -⟩
    · simp [hk, hpre]
    · rw [hnone, hdir]
      simp only [reduceCtorEq, Option.some.injEq, false_iff, not_and]
      rintro rfl
      cases he

/-- The files at a path and below it fewer. -/
theorem Removed.mirrors {files : Path → Prop} (h : Removed d d' R p) (hd : Mirrors d R files) :
    Mirrors d' R fun q => files q ∧ ¬p.components <+: q.components := by
  refine ⟨fun q => ?_, fun rest hrest => hd.named rest (h.look_ne_none hrest)⟩
  have hpre : R ++ p.names <+: R ++ q.names ↔ p.components <+: q.components := by
    rw [List.prefix_append_right_inj, Path.names_isPrefix_iff]
  rw [← hpre, ← hd.file q]
  constructor
  · rintro ⟨e, he, hleaf⟩
    obtain ⟨hold, hout⟩ := (h.look_eq_some_iff hleaf).mp he
    exact ⟨⟨e, hold, hleaf⟩, hout⟩
  · rintro ⟨⟨e, he, hleaf⟩, hout⟩
    exact ⟨e, (h.look_eq_some_iff hleaf).mpr ⟨he, hout⟩, hleaf⟩

end Storage

end FileCluster
