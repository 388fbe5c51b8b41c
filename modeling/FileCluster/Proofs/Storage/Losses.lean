import FileCluster.Proofs.Disk.Parts
import FileCluster.Proofs.Naming.Merge
import FileCluster.Proofs.Storage.Listing
import FileCluster.Storage.Server

/-!
What a storage server can lose.

A storage service that removes a path takes away what stands there, and empty directories above it.
So a server that removes paths which are no directories takes away nothing else than those
(`StorageServer.removeAll_thinned`). The paths of a listing are no directories
(`Storage.leadsToLeaf_of_files`), and none of them lies above another
(`Storage.unnested_of_files`). All of this holds of any disk, with links and with any names.
-/

namespace FileCluster

open Disk

/-- Something was taken away: of all that is no directory, only what stood at places of a kind. -/
structure Thinned (d d' : Disk) (gone : Place → Prop) : Prop where
  part : d'.PartOf d
  kept : ∀ q e, d.look q = some e → e.isDirectory = false → gone q ∨ d'.look q = some e

variable {d d' : Disk} {gone : Place → Prop} {root : String}

theorem Thinned.refl (d : Disk) (gone : Place → Prop) : Thinned d d gone :=
  ⟨.refl d, fun _ _ h _ => .inr h⟩

theorem Thinned.mono {gone' : Place → Prop} (h : Thinned d d' gone) (hle : ∀ q, gone q → gone' q) :
    Thinned d d' gone' :=
  ⟨h.part, fun q e he hleaf => (h.kept q e he hleaf).imp_left (hle q)⟩

theorem Thinned.trans {d₁ d₂ : Disk} (h : Thinned d d₁ gone) (h' : Thinned d₁ d₂ gone) :
    Thinned d d₂ gone where
  part := h'.part.trans h.part
  kept q e he hleaf := (h.kept q e he hleaf).elim .inl fun he' => h'.kept q e he' hleaf

/-! ## Removing -/

/-- Where something stands with nothing below it but itself, it alone is taken away. -/
theorem Thinned.put_none {place : Place} {e : Entry} (h : d.get? place = some e)
    (hbelow : ∀ n rest, d.look (place ++ n :: rest) = none) :
    Thinned d (d.put place none) (· = place) where
  part := .put_none h
  kept q x hx _ := by
    by_cases hq : q = place
    · exact .inl hq
    · exact .inr ((look_put_none_ne h hbelow hq).trans hx)

theorem removeDirectory_thinned {path : String} (h : d.removeDirectory path = .ok d') :
    Thinned d d' fun _ => False := by
  unfold removeDirectory at h
  split at h
  case h_1 place hfound =>
    cases h
    have hget := get?_of_resolve hfound
    have hbelow : ∀ n rest, d.look (place ++ n :: rest) = none := fun n rest =>
      Classical.byContradiction fun hthere =>
        look_first hthere ((entries_eq_nil_iff hget).mp rfl n)
    have hput := Thinned.put_none hget hbelow
    refine ⟨hput.part, fun q e he hleaf => (hput.kept q e he hleaf).elim (fun hq => ?_) .inr⟩
    subst hq
    rw [look_of_get? hget] at he
    cases he
    cases hleaf
  all_goals cases h

namespace Storage

/-- Pruning takes away nothing but directories. -/
theorem pruneAll_thinned (ps : List Path) (d : Disk) :
    Thinned d (pruneAll root d ps) fun _ => False := by
  induction ps generalizing d with
  | nil => exact .refl d _
  | cons p ps ih =>
    rw [pruneAll]
    split
    · split
      next d' hremove => exact (removeDirectory_thinned hremove).trans (ih d')
      next => exact .refl d _
    · exact .refl d _

/-- Where a path leads, itself if it is a link. -/
def LeadsTo (root : String) (d : Disk) (p : Path) (q : Place) : Prop :=
  ∃ e, d.resolve false (p.toLocal root) = .ok (.found q e)

/-- A path that leads to no directory. -/
def LeadsToLeaf (root : String) (d : Disk) (p : Path) : Prop :=
  ∀ q e, d.resolve false (p.toLocal root) = .ok (.found q e) → e.isDirectory = false

/-- Removing a path that is no directory takes away nothing else that is none. -/
theorem delete_thinned {p : Path} (hleaf : LeadsToLeaf root d p) :
    Thinned d (delete root d p).2 (LeadsTo root d p) := by
  unfold delete
  split
  · exact .refl d _
  split
  · exact .refl d _
  · exact .refl d _
  next hentry =>
    unfold Disk.remove
    cases hr : d.resolve false (p.toLocal root) with
    | error cause => exact .refl d _
    | ok target =>
      cases target with
      | missing dir n => exact .refl d _
      | found place e =>
        have hget := get?_of_resolve hr
        have hbelow := look_below (d := d) (q := place) <| by
          rw [look_of_get? hget, ne_eq, Option.some.injEq, Entry.bare_eq_emptyDirectory_iff,
            hleaf place e hr]
          exact nofun
        refine .trans ((Thinned.put_none hget hbelow).mono ?_)
          ((pruneAll_thinned _ _).mono fun _ => False.elim)
        rintro q rfl
        exact ⟨e, hr⟩

end Storage

/-- A server that removes paths which are no directories takes away nothing else that is none. -/
theorem StorageServer.removeAll_thinned (ps : List Path) :
    ∀ {d : Disk}, (∀ p ∈ ps, Storage.LeadsToLeaf root d p) →
      Thinned d (removeAll root d ps) fun q => ∃ p ∈ ps, Storage.LeadsTo root d p q := by
  induction ps with
  | nil => exact fun _ => .refl _ _
  | cons p ps ih =>
    intro d hps
    obtain ⟨hp, hps⟩ := List.forall_mem_cons.mp hps
    have hfirst := Storage.delete_thinned hp
    -- what a path leads to afterwards it led to before
    have hback : ∀ {r : Path} {q e}, (Storage.delete root d p).2.resolve false (r.toLocal root) =
        .ok (.found q e) → ∃ e', d.resolve false (r.toLocal root) = .ok (.found q e') ∧
          e'.bare = e.bare := fun h => hfirst.part.resolve h
    have hrest := ih (d := (Storage.delete root d p).2) fun r hr q e h => by
      obtain ⟨e', he', hbare⟩ := hback h
      have hleaf := hps r hr q e' he'
      rw [Entry.bare_of_not_isDirectory hleaf] at hbare
      rw [← Bool.not_eq_true, ← Entry.bare_eq_emptyDirectory_iff, ← hbare]
      rintro rfl
      cases hleaf
    refine .trans (hfirst.mono fun q hq => ⟨p, List.mem_cons_self, hq⟩) (hrest.mono ?_)
    rintro q ⟨r, hr, e, he⟩
    obtain ⟨e', he', -⟩ := hback he
    exact ⟨r, List.mem_cons_of_mem _ hr, e', he'⟩

/-! ## Listing -/

/-- A path that is listed below another one: it is no directory, and whatever lies between the two
is one. -/
structure Listed (d : Disk) (root : String) (p x : Path) : Prop where
  below : p.names <+: x.names
  ne : x ≠ p
  leaf : d.isDirectory (x.toLocal root) = false
  between : ∀ a : Path, p.names <+: a.names → a.names <+: x.names → a ≠ p → a ≠ x →
    d.isDirectory (a.toLocal root) = true

/-- Between a path and its child there is nothing. -/
theorem between_child {p q a : Path} {n : Name} (hq : q.names = p.names ++ [n])
    (hpa : p.names <+: a.names) (haq : a.names <+: q.names) (hne : a ≠ p) : a = q := by
  obtain ⟨rest, hrest⟩ := hpa
  rw [hq, ← hrest, List.prefix_append_right_inj] at haq
  rcases List.prefix_cons_iff.mp haq with rfl | ⟨t, rfl, ht⟩
  · exact absurd (Path.names_injective (by rw [← hrest, List.append_nil])) hne
  · obtain rfl := List.prefix_nil.mp ht
    exact Path.names_injective (by rw [← hrest, hq])

/-- What is listed below a directory is listed below what it is a child of. -/
theorem Listed.of_child {p q x : Path} {n : Name} (hq : q.names = p.names ++ [n])
    (hdir : d.isDirectory (q.toLocal root) = true) (h : Listed d root q x) : Listed d root p x where
  below := (hq ▸ List.prefix_append _ _ : p.names <+: q.names).trans h.below
  ne := by
    rintro rfl
    have hlen := (hq ▸ h.below).length_le
    rw [List.length_append, List.length_singleton] at hlen
    omega
  leaf := h.leaf
  between a hpa hax hnep hnex := by
    by_cases hqa : q.names <+: a.names
    · by_cases haq : a = q
      · exact haq ▸ hdir
      · exact h.between a hqa hax haq hnex
    · -- both lie above the listed path, so one lies above the other
      rcases List.prefix_or_prefix_of_prefix h.below hax with hle | hle
      · exact absurd hle hqa
      · exact between_child hq hpa hle hnep ▸ hdir

theorem visitEntries_listed {p : Path}
    {visit : List Path → String → Path → Except ListError (List Path)}
    (ih : ∀ q found paths, visit found (q.toLocal root) q = .ok paths →
      ∀ x ∈ paths, x ∈ found ∨ Listed d root q x)
    {entries : List (Name × Entry)} {found paths : List Path}
    (h : d.visitEntries visit (p.toLocal root) p found entries = .ok paths) :
    ∀ x ∈ paths, x ∈ found ∨ Listed d root p x := by
  induction entries generalizing found with
  | nil =>
    cases h
    exact fun x hx => .inl hx
  | cons entry entries ihentries =>
    rw [visitEntries] at h
    split at h
    · cases h
    next q hq =>
      obtain ⟨hnames, hlocal⟩ := childOfName_eq_ok root hq
      dsimp only at h
      rw [hlocal] at h
      split at h
      next hdir =>
        split at h
        · cases h
        next between hvisit =>
          intro x hx
          rcases ihentries h x hx with hx | hx
          · exact (ih q found between hvisit x hx).imp_right (·.of_child hnames hdir)
          · exact .inr hx
      next hdir =>
        intro x hx
        rcases ihentries h x hx with hx | hx
        · rcases List.mem_cons.mp hx with rfl | hx
          · refine .inr ⟨hnames ▸ List.prefix_append _ _, ?_, Bool.eq_false_iff.mpr hdir, ?_⟩
            · rintro rfl
              exact absurd hnames (by simp)
            · exact fun a hpa hax hnep hnex => absurd (between_child hnames hpa hax hnep) hnex
          · exact .inl hx
        · exact .inr hx

theorem visitDirectory_listed (levels : Nat) :
    ∀ (p : Path) found paths, d.visitDirectory levels found (p.toLocal root) p = .ok paths →
      ∀ x ∈ paths, x ∈ found ∨ Listed d root p x := by
  induction levels with
  | zero =>
    intro p found paths h
    cases h
    exact fun x hx => .inl hx
  | succ levels ih =>
    intro p found paths h
    rw [visitDirectory] at h
    split at h
    · cases h
    · exact visitEntries_listed ih h

namespace Storage

theorem listed_of_files {paths : List Path} (h : files root d = .ok paths) :
    ∀ x ∈ paths, Listed d root .root x := by
  unfold files at h
  split at h
  case h_2 => cases h
  case h_1 hlist =>
    cases h
    unfold listFiles at hlist
    split at hlist
    · cases hlist
    split at hlist
    · cases hlist
    split at hlist
    · cases hlist
    next found hvisit =>
      cases hlist
      intro x hx
      rcases visitDirectory_listed _ .root [] found hvisit x (List.mem_mergeSort.mp hx) with hx | hx
      · cases hx
      · exact hx

/-- No listed path leads to a directory. -/
theorem leadsToLeaf_of_files {paths : List Path} (h : files root d = .ok paths) :
    ∀ p ∈ paths, LeadsToLeaf root d p :=
  fun p hp _ _ => isDirectory_of_resolve (listed_of_files h p hp).leaf

/-- No listed path lies above another one. -/
theorem unnested_of_files {paths : List Path} (h : files root d = .ok paths) : Unnested paths where
  notRoot p hp := (listed_of_files h p hp).ne
  apart p hp q hq hpre := by
    have hlisted := listed_of_files h p hp
    refine Classical.byContradiction fun hne => ?_
    have hdir := (listed_of_files h q hq).between p hlisted.below
      (Path.names_isPrefix_iff.mpr hpre) hlisted.ne hne
    rw [hlisted.leaf] at hdir
    cases hdir

end Storage

end FileCluster
