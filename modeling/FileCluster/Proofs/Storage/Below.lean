import FileCluster.Proofs.Disk.Descent
import FileCluster.Proofs.Disk.Trail

/-!
The places below a storage root.

Below a root that is a directory without links the local path of a path leads to the place of its
names (`Disk.Encloses`), and whether it comes upon a file on the way says whether one stands above
the path (`clear_iff`, `Disk.Descent.not_clear`). A storage service works below a root that moreover
stays where it is (`Rooted`). What the commands of the service have in common is that they change
nothing elsewhere, add nothing but regular files and directories, and leave no directory empty
(`ChangedBelow`).
-/

namespace FileCluster

open Disk

/-- A root that leads to a place whatever stands at places of some kind, those below it among them,
and without a link below it. -/
structure Rooted (d : Disk) (within : Place → Prop) (root : String) (R : Place) : Prop where
  anchored : d.Anchored within root R
  within : ∀ q, Beneath R q → within q
  noLinks : d.NoLinks R

/-- A change below a place that adds regular files and directories only and leaves no directory
empty. -/
structure ChangedBelow (d d' : Disk) (R : Place) : Prop where
  outside : ∀ q, ¬Beneath R q → d'.look q = d.look q
  leaf : ∀ q e, d'.look q = some e → e.isDirectory = false →
    d.look q = some e ∨ e.isFile = true
  populated : d.Populated R → d'.Populated R

theorem ChangedBelow.refl (d : Disk) (R : Place) : ChangedBelow d d R :=
  ⟨fun _ _ => rfl, fun _ _ h _ => Or.inl h, id⟩

theorem ChangedBelow.trans {d d₁ d₂ : Disk} {R : Place} (h : ChangedBelow d d₁ R)
    (h' : ChangedBelow d₁ d₂ R) : ChangedBelow d d₂ R where
  outside q hq := (h'.outside q hq).trans (h.outside q hq)
  leaf q e he hleaf := by
    rcases h'.leaf q e he hleaf with hold | hfile
    · exact h.leaf q e hold hleaf
    · exact Or.inr hfile
  populated hpop := h'.populated (h.populated hpop)

/-- Every directory above a path is there or can be made. -/
def Clear (d : Disk) (R : Place) (p : Path) : Prop :=
  ∀ a ∈ p.ancestors, d.look (R ++ a.names) ≠ none → d.look (R ++ a.names) = some .emptyDirectory

/-- Something that is no directory stands at a path's place. -/
def IsFileAt (d : Disk) (R : Place) (p : Path) : Prop :=
  ∃ e, d.look (R ++ p.names) = some e ∧ e.isDirectory = false

/-- The paths at whose places there is something that is no directory, and that all below a root
has a path. -/
structure Mirrors (d : Disk) (R : Place) (files : Path → Prop) : Prop where
  file : ∀ p, IsFileAt d R p ↔ files p
  named : ∀ rest, d.look (R ++ rest) ≠ none → ∃ p : Path, p.names = rest

variable {d d' : Disk} {within : Place → Prop} {root : String} {R : Place} {p a : Path}

/-! ## Places below a root -/

theorem beneath_of_isPrefix {ns q : Place} (hne : ns ≠ []) (h : R ++ ns <+: q) : Beneath R q := by
  obtain ⟨rest, rfl⟩ := h
  obtain ⟨n, ns, rfl⟩ := List.exists_cons_of_ne_nil hne
  exact ⟨n, ns ++ rest, by simp⟩

theorem beneath_names (hp : p ≠ .root) : Beneath R (R ++ p.names) :=
  beneath_of_isPrefix (fun he => hp (Path.names_eq_nil_iff.mp he)) (List.prefix_refl _)

/-- Above a directory there are directories. -/
theorem look_of_above {b : Path} (h : d.look (R ++ a.names) = some .emptyDirectory)
    (hb : b.components <+: a.components) : d.look (R ++ b.names) = some .emptyDirectory :=
  look_of_prefix h ((List.prefix_append_right_inj R).mpr (Path.names_isPrefix_iff.mpr hb))

/-- Above what stands at a path's place there are directories. -/
theorem look_above_path {e : Entry} (h : d.look (R ++ p.names) = some e) (ha : a ∈ p.ancestors) :
    d.look (R ++ a.names) = some .emptyDirectory := by
  obtain ⟨-, hpre, hne⟩ := Path.mem_ancestors.mp ha
  obtain ⟨b, hb⟩ := Path.exists_parent (p := p) <| by
    rintro rfl
    exact hne (Path.ext (List.prefix_nil.mp hpre))
  obtain ⟨n, hn⟩ := Path.names_of_parent hb
  rw [hn, ← List.append_assoc] at h
  exact look_of_above (look_above h) ((Path.prefix_parent_iff hb).mpr ⟨hpre, hne⟩)

namespace Disk.Encloses

/-- The local path of a path that fits leads to what stands at its place. -/
theorem resolve_found (h : d.Encloses root R) (hp : p ≠ .root) (hfits : p.Fits root)
    {e : Entry} (hget : d.get? (R ++ p.names) = some e) (follow : Bool) :
    d.resolve follow (p.toLocal root) = .ok (.found (R ++ p.names) e) := by
  refine h.leads.resolve_found hp hfits hget (fun t he => ?_) follow
  subst he
  exact h.noLinks _ t (beneath_names hp) ((look_eq_some_iff rfl).mpr hget)

/-- A path leads to a directory exactly if there is one at its place and the path fits. -/
theorem isDirectory_iff (h : d.Encloses root R) (hp : p ≠ .root) :
    d.isDirectory (p.toLocal root) = true ↔
      p.Fits root ∧ d.look (R ++ p.names) = some .emptyDirectory := by
  constructor
  · intro hdir
    obtain ⟨q, entries, hr⟩ := exists_leads hdir
    obtain ⟨rfl, hget⟩ := h.leads.place_of_resolve hp h.noLinks hr
    exact ⟨h.leads.fits_of_resolve h.noLinks hp hr, look_of_get? hget⟩
  · intro hdir
    obtain ⟨hfits, hlook⟩ := hdir
    obtain ⟨entries, hget⟩ := look_eq_directory_iff.mp hlook
    unfold Disk.isDirectory entry
    rw [h.resolve_found hp hfits hget true]
    rfl

/-- The entries of a directory can be read. -/
theorem readDirectory (h : d.Encloses root R) (hfits : p.Fits root)
    {entries : List (Name × Entry)} (hget : d.get? (R ++ p.names) = some (.directory entries)) :
    d.readDirectory (p.toLocal root) = .ok entries := by
  unfold Disk.readDirectory entry
  by_cases hp : p = .root
  · subst hp
    rw [Path.names_eq_nil_iff.mpr rfl, List.append_nil] at hget
    obtain ⟨entries', hr⟩ := h.leads
    have hsame : some (Entry.directory entries') = some (.directory entries) :=
      (get?_of_resolve hr).symm.trans hget
    cases hsame
    have hlocal : Path.root.toLocal root = root := rfl
    rw [hlocal, hr]
  · rw [h.resolve_found hp hfits hget true]

/-- A path leads to a regular file exactly if there is one at its place and the path fits. -/
theorem isFile_iff (h : d.Encloses root R) (hp : p ≠ .root) :
    d.isFile (p.toLocal root) = true ↔
      p.Fits root ∧ ∃ content, d.look (R ++ p.names) = some (.file content) := by
  rw [isFile_eq_true_iff]
  constructor
  · intro hfile
    obtain ⟨q, content, hr⟩ := hfile
    obtain ⟨rfl, hget⟩ := h.leads.place_of_resolve hp h.noLinks hr
    exact ⟨h.leads.fits_of_resolve h.noLinks hp hr, content, look_of_get? hget⟩
  · intro hfile
    obtain ⟨hfits, content, hlook⟩ := hfile
    have hget := (look_eq_some_iff rfl).mp hlook
    exact ⟨_, content, h.resolve_found hp hfits hget true⟩

end Disk.Encloses

namespace Rooted

theorem leads (h : Rooted d within root R) : d.Leads root R := h.anchored.leads

/-- A change at places of the kind that makes no links. -/
theorem change (h : Rooted d within root R) (hout : ∀ q, ¬within q → d'.look q = d.look q)
    (hlinks : ∀ q t, d'.look q = some (.link t) → d.look q = some (.link t)) :
    Rooted d' within root R where
  anchored := h.anchored.change hout
  within := h.within
  noLinks q t hq hl := h.noLinks q t hq (hlinks q t hl)

/-- Changes below any root of the kind leave a root where it is. -/
theorem changed {S : Place} (h : Rooted d within root R) (hd : ChangedBelow d d' S)
    (hS : ∀ q, Beneath S q → within q) : Rooted d' within root R := by
  refine h.change (fun q hq => hd.outside q fun hb => hq (hS q hb)) fun q t hl => ?_
  rcases hd.leaf q _ hl rfl with hold | hfile
  · exact hold
  · cases hfile

theorem encloses (h : Rooted d within root R) : d.Encloses root R := ⟨h.leads, h.noLinks⟩

end Rooted

/-! ## What stands above a path -/

/-- The directories above a path are there or can be made unless there is a file among them. -/
theorem clear_iff : Clear d R p ↔ ∀ a ∈ p.ancestors, ¬IsFileAt d R a := by
  constructor
  · intro h a ha hfile
    obtain ⟨e, he, hleaf⟩ := hfile
    have hdir := h a ha (look_ne_none he)
    rw [he] at hdir
    cases hdir
    cases hleaf
  · intro h a ha hthere
    obtain ⟨e, he⟩ := Option.ne_none_iff_exists'.mp hthere
    rcases look_eq_some he with rfl | hleaf
    · exact he
    · exact absurd ⟨e, he, hleaf⟩ (h a ha)

theorem not_clear_iff : ¬Clear d R p ↔ ∃ a ∈ p.ancestors, IsFileAt d R a := by
  rw [clear_iff]
  simp only [Classical.not_forall, Classical.not_not, exists_prop]

/-- A walk that does not come upon a file or a name that is too long has none above its end. -/
theorem Disk.Descent.clear {t : Except IoError Target} (h : Descent d R p.names t)
    (hfile : t ≠ .error .notADirectory) (hlong : t ≠ .error .nameTooLong) : Clear d R p := by
  intro a ha hthere
  have hpre : a.names <+: p.names := Path.names_isPrefix_iff.mpr (Path.mem_ancestors.mp ha).2.1
  generalize hns : p.names = ns at h hpre
  cases h with
  | found hget _ => exact look_above_path (hns ▸ look_of_get? hget) ha
  | missing dir hdir hnone _ => exact look_of_missing hdir hnone hpre hthere
  | nothing dir _ hdir hnone => exact look_of_missing hdir hnone hpre hthere
  | blocked => exact absurd rfl hfile
  | tooLong => exact absurd rfl hlong

/-- A walk that comes upon a file has it above its end. -/
theorem Disk.Descent.not_clear (h : Descent d R p.names (.error .notADirectory)) :
    ¬Clear d R p := by
  intro hclear
  generalize hns : p.names = ns at h
  cases h with
  | @blocked dir rest n e hrest hleaf hthere =>
    have hpre : dir ++ [n] <+: p.names := ⟨rest, by rw [hns]; simp⟩
    obtain ⟨a, ha, hap⟩ := Path.exists_of_prefix_names hpre
    rw [List.append_assoc, ← ha] at hthere
    refine clear_iff.mp hclear a (Path.mem_ancestors.mpr ⟨fun he => ?_, hap, fun he => ?_⟩)
      ⟨e, hthere, hleaf⟩
    · simp [Path.names, he] at ha
    · rw [he, hns] at ha
      simp [hrest] at ha

/-! ## Files and changes at a path's place -/

theorem IsFileAt.congr {d' : Disk} (h : d'.look (R ++ p.names) = d.look (R ++ p.names)) :
    IsFileAt d' R p ↔ IsFileAt d R p := by
  unfold IsFileAt
  rw [h]

theorem Mirrors.congr {files files' : Path → Prop} (h : Mirrors d R files)
    (hd : ∀ rest, d'.look (R ++ rest) = d.look (R ++ rest)) (hfiles : ∀ p, files' p ↔ files p) :
    Mirrors d' R files' where
  file p := by rw [IsFileAt.congr (hd _), h.file, hfiles]
  named rest hrest := h.named rest (hd rest ▸ hrest)

theorem IsFileAt.look_ne_none (h : IsFileAt d R p) : d.look (R ++ p.names) ≠ none := by
  obtain ⟨e, he, -⟩ := h
  exact Disk.look_ne_none he

theorem IsFileAt.ne_root (h : IsFileAt d R p) (hR : d.look R = some .emptyDirectory) :
    p ≠ .root := by
  rintro rfl
  obtain ⟨e, he, hleaf⟩ := h
  rw [Path.names_eq_nil_iff.mpr rfl, List.append_nil, hR] at he
  cases he
  cases hleaf

/-- Nothing that is no directory lies above anything else. -/
theorem IsFileAt.eq_of_isPrefix {q : Path} (hp : IsFileAt d R p) (hq : d.look (R ++ q.names) ≠ none)
    (h : p.names <+: q.names) : p = q := by
  obtain ⟨e, he, hleaf⟩ := hp
  obtain ⟨rest, hrest⟩ := h
  cases rest with
  | nil => exact Path.names_injective (by rw [← hrest, List.append_nil])
  | cons n rest =>
    rw [← hrest, ← List.append_assoc, look_below] at hq
    · exact absurd rfl hq
    · intro hdir
      rw [hdir] at he
      cases he
      cases hleaf

/-- What stands at a path's place stands in a directory. -/
theorem exists_directory (ha : a ≠ .root) (hthere : d.look (R ++ a.names) ≠ none) :
    ∃ dir n, R ++ a.names = dir ++ [n] ∧ d.look dir = some .emptyDirectory := by
  obtain ⟨b, hb⟩ := Path.exists_parent ha
  obtain ⟨n, hn⟩ := Path.names_of_parent hb
  have hplace : R ++ a.names = R ++ b.names ++ [n] := by rw [hn, List.append_assoc]
  obtain ⟨e, he⟩ := Option.ne_none_iff_exists'.mp hthere
  rw [hplace] at he
  exact ⟨R ++ b.names, n, hplace, look_above he⟩

/-- Taking away what stands at a path's place takes away all that stands below it. -/
theorem look_removeAt (ha : a ≠ .root) (hthere : d.look (R ++ a.names) ≠ none) (q : Place) :
    (d.put (R ++ a.names) none).look q = if R ++ a.names <+: q then none else d.look q := by
  obtain ⟨dir, n, hplace, hdir⟩ := exists_directory ha hthere
  rw [hplace]
  exact look_remove hdir n q

/-- Another entry in the place of one that is no directory. -/
theorem look_replaceAt {old : Entry} (ha : a ≠ .root) (hold : d.look (R ++ a.names) = some old)
    (hfile : old.isDirectory = false) (new : Entry) (hleaf : ∀ n rest, new.get? (n :: rest) = none)
    (q : Place) :
    (d.put (R ++ a.names) (some new)).look q =
      if q = R ++ a.names then some new.bare else d.look q := by
  obtain ⟨dir, n, hplace, hdir⟩ := exists_directory ha (look_ne_none hold)
  rw [hplace] at hold ⊢
  refine look_add hdir (fun he => ?_) hleaf q
  rw [hold] at he
  cases he
  cases hfile

end FileCluster
