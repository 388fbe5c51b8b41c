import FileCluster.Proofs.Fleet.Run
import FileCluster.Proofs.Naming.Merge
import FileCluster.Proofs.Storage.Below

/-!
The invariant of a fleet.

The roots of the storage servers lie apart from each other (`Layout`). The invariant (`Inv`) says of
the places of the disk that below the root of a registered server the files are those that the tree
of the naming service puts down to it, that no directory there is empty, and that local paths still
lead where they did.
-/

namespace FileCluster

open Disk

variable {ι : Type}

/-! ## Places of the roots -/

/-- The places of the roots of storage servers, none of them at or below another one. -/
structure Layout (ι : Type) where
  place : ι → Place
  apart : ∀ i j, place i <+: place j → i = j

namespace Layout

/-- A place below one of the roots. -/
def Within (l : Layout ι) (q : Place) : Prop := ∃ i, Beneath (l.place i) q

/-- No place is below two roots. -/
theorem not_beneath {l : Layout ι} {i j : ι} (h : i ≠ j) (rest : Place) :
    ¬Beneath (l.place i) (l.place j ++ rest) := by
  rintro ⟨n, more, he⟩
  have hi : l.place i <+: l.place j ++ rest := ⟨n :: more, he.symm⟩
  rcases List.prefix_or_prefix_of_prefix hi (List.prefix_append (l.place j) rest) with hp | hp
  · exact h (l.apart i j hp)
  · exact h (l.apart j i hp).symm

end Layout

namespace Fleet

/-! ## The invariant -/

/-- The roots of a fleet on a disk: they are where they were, none of the directories below them is
empty, and there is nothing that is neither a directory nor a regular file but what was there in
the beginning. -/
structure Kept (base d : Disk) (l : Layout ι) (root : ι → String) : Prop where
  rooted : ∀ i, Rooted d l.Within (root i) (l.place i)
  populated : ∀ i, d.Populated (l.place i)
  leaf : ∀ q e, d.look q = some e → e.isDirectory = false →
    e.isFile = true ∨ base.look q = some e

/-- Below the roots of registered servers are the files that each owner is said to have. -/
def Mirrored (registered : List (Owner × ι)) (l : Layout ι) (d : Disk)
    (files : Owner → Path → Prop) : Prop :=
  ∀ o i, (o, i) ∈ registered → Mirrors d (l.place i) (files o)

/-- The files that a tree puts down to an owner. -/
def FileOf (t : Tree Owner) (o : Owner) (p : Path) : Prop := t.get? p = some (.file o)

/-- The invariant of a fleet: a sound naming service that knows the servers that registered; these
run, each registered once; their files are those of the tree; and they fit. -/
structure Inv (base : Disk) (l : Layout ι) (f : Fleet ι) : Prop where
  sound : f.naming.Sound
  servers : f.registered.map Prod.fst = f.naming.registry.servers
  running : ∀ o i, (o, i) ∈ f.registered → (f.servers i).isRunning = true
  once : (f.registered.map Prod.snd).Nodup
  kept : Kept base f.disk l f.root
  mirrored : Mirrored f.registered l f.disk (FileOf f.naming.tree)
  fits : ∀ o i, (o, i) ∈ f.registered → ∀ p, FileOf f.naming.tree o p → p.Fits (f.root i)

variable {base d d' : Disk} {l : Layout ι} {root : ι → String} {f : Fleet ι} {o : Owner} {i : ι}

/-! ## Changes of the disk -/

/-- A change below one root is none below another one. -/
theorem look_other (h : ChangedBelow d d' (l.place i)) {j : ι} (hne : i ≠ j) (rest : Place) :
    d'.look (l.place j ++ rest) = d.look (l.place j ++ rest) :=
  h.outside _ (Layout.not_beneath hne rest)

/-- A change below one root keeps all roots. -/
theorem Kept.changed (h : Kept base d l root) (hd : ChangedBelow d d' (l.place i)) :
    Kept base d' l root where
  rooted j := (h.rooted j).changed hd fun _ hq => ⟨i, hq⟩
  populated j := by
    by_cases hij : i = j
    · exact hij ▸ hd.populated (h.populated i)
    · intro q hq hdir
      obtain ⟨n, rest, rfl⟩ := hq
      rw [look_other hd hij] at hdir
      obtain ⟨m, hm⟩ := h.populated j _ ⟨n, rest, rfl⟩ hdir
      refine ⟨m, ?_⟩
      rw [List.append_assoc] at hm ⊢
      rwa [look_other hd hij]
  leaf q e he hleaf := by
    rcases hd.leaf q e he hleaf with hold | hfile
    · exact h.leaf q e hold hleaf
    · exact Or.inl hfile

theorem Mirrored.congr {registered : List (Owner × ι)} {files files' : Owner → Path → Prop}
    (h : Mirrored registered l d files) (hfiles : ∀ o q, files' o q ↔ files o q) :
    Mirrored registered l d files' :=
  fun o i hi => (h o i hi).congr (fun _ => rfl) (hfiles o)

/-! ## Who has registered -/

/-- Where all keys are different, looking for the key of an element finds the element. -/
theorem find?_key {α β : Type} [DecidableEq β] {k : α → β} {l : List α} (h : (l.map k).Nodup)
    {a : α} (ha : a ∈ l) : l.find? (fun b => k b = k a) = some a := by
  induction l with
  | nil => cases ha
  | cons b l ih =>
    rw [List.map_cons, List.nodup_cons] at h
    rcases List.mem_cons.mp ha with rfl | hmem
    · simp
    · have hne : k b ≠ k a := fun he => h.1 (he ▸ List.mem_map_of_mem hmem)
      rw [List.find?_cons_of_neg (by simpa using hne)]
      exact ih h.2 hmem

/-- Where all keys are different, elements with the same key are the same. -/
theorem eq_of_key {α β : Type} [DecidableEq β] {k : α → β} {l : List α} (h : (l.map k).Nodup)
    {a b : α} (ha : a ∈ l) (hb : b ∈ l) (hkey : k a = k b) : a = b := by
  have hfind := find?_key h ha
  rw [hkey, find?_key h hb] at hfind
  exact (Option.some.inj hfind).symm

namespace Inv

theorem commands (h : Inv base l f) : (f.registered.map fun e => e.1.command).Nodup := by
  have hdistinct := h.sound.distinct
  rw [← h.servers, List.map_map] at hdistinct
  exact hdistinct

/-- A command to a registered server is carried out below its root. -/
theorem command_eq (h : Inv base l f) (hi : (o, i) ∈ f.registered) (r : CommandRequest)
    (disk : Disk) : f.command o.command r disk = Storage.obey (f.root i) disk r := by
  have hfind : f.commanded? o.command = some i := by
    unfold commanded?
    rw [find?_key (k := fun e : Owner × ι => e.1.command) h.commands hi]
    rfl
  unfold command
  rw [hfind]

/-- Servers registered under one owner are the same. -/
theorem index_eq (h : Inv base l f) {j : ι} (hi : (o, i) ∈ f.registered)
    (hj : (o, j) ∈ f.registered) : i = j :=
  congrArg Prod.snd (eq_of_key (k := fun e : Owner × ι => e.1.command) h.commands hi hj rfl)

theorem owner_eq [DecidableEq ι] (h : Inv base l f) {o' : Owner} (hi : (o, i) ∈ f.registered)
    (hi' : (o', i) ∈ f.registered) : o = o' :=
  congrArg Prod.fst (eq_of_key (k := Prod.snd) h.once hi hi' rfl)

/-- Every server that the naming service knows has registered. -/
theorem exists_index (h : Inv base l f) (ho : o ∈ f.naming.registry.servers) :
    ∃ i, (o, i) ∈ f.registered := by
  rw [← h.servers, List.mem_map] at ho
  obtain ⟨⟨o', i⟩, hmem, rfl⟩ := ho
  exact ⟨i, hmem⟩

/-- A change below the root of a registered server changes the files of this server only. -/
theorem mirrored_change [DecidableEq ι] (h : Inv base l f) {files files' : Owner → Path → Prop}
    (hall : Mirrored f.registered l d files) (hi : (o, i) ∈ f.registered)
    (hd : ChangedBelow d d' (l.place i)) (hm : Mirrors d' (l.place i) (files' o))
    (hothers : ∀ o' q, o' ≠ o → (files' o' q ↔ files o' q)) :
    Mirrored f.registered l d' files' := by
  intro o' j hj
  by_cases hij : i = j
  · subst hij
    exact h.owner_eq hi hj ▸ hm
  · refine (hall o' j hj).congr (look_other hd hij) fun q => hothers o' q ?_
    rintro rfl
    exact hij (h.index_eq hi hj)

/-! ## The tree and the disk -/

/-- What stands below the root of a registered server lies above a file of the server, or is one. -/
theorem exists_file (h : Inv base l f) (hi : (o, i) ∈ f.registered) {p : Path} (hp : p ≠ .root)
    (hthere : f.disk.look (l.place i ++ p.names) ≠ none) :
    ∃ q, FileOf f.naming.tree o q ∧ p.components <+: q.components := by
  obtain ⟨rest, e, he, hleaf⟩ := (h.kept.populated i).exists_file (beneath_names hp) hthere
  rw [List.append_assoc] at he
  obtain ⟨q, hq⟩ := (h.mirrored o i hi).named _ (look_ne_none he)
  rw [← hq] at he
  refine ⟨q, ((h.mirrored o i hi).file q).mp ⟨e, he, hleaf⟩, ?_⟩
  exact Path.names_isPrefix_iff.mp ⟨rest, hq.symm⟩

/-- Where the tree has nothing there is nothing on the disk of a registered server. -/
theorem look_of_free (h : Inv base l f) (hi : (o, i) ∈ f.registered) {p : Path}
    (hfree : f.naming.tree.contains p = false) : f.disk.look (l.place i ++ p.names) = none := by
  obtain ⟨hp, hnone⟩ := h.sound.tree.contains_eq_false_iff.mp hfree
  refine Classical.byContradiction fun hthere => ?_
  obtain ⟨q, hq, hpre⟩ := h.exists_file hi hp hthere
  by_cases hpq : p = q
  · rw [hpq, hq] at hnone
    cases hnone
  · obtain ⟨o', ho'⟩ := h.sound.tree.above q _ p hq hp hpre hpq
    rw [ho'] at hnone
    cases hnone

/-- Above a path below a directory of the tree, the disk of a registered server has directories or
nothing. -/
theorem clear_of_parent (h : Inv base l f) (hi : (o, i) ∈ f.registered) {p : Path}
    (hparent : f.naming.requireParent p = .ok ()) : Clear f.disk (l.place i) p := by
  intro a ha hthere
  obtain ⟨b, hb, hdir⟩ := Naming.requireParent_eq_ok_iff.mp hparent
  obtain ⟨-, hpre, hap⟩ := Path.mem_ancestors.mp ha
  obtain ⟨o', ho'⟩ := h.sound.tree.above_child hb hdir a (Path.ne_root_of_mem_ancestors ha) hpre hap
  obtain ⟨e, he⟩ := Option.ne_none_iff_exists'.mp hthere
  rcases look_eq_some he with rfl | hleaf
  · exact he
  · have hfile : f.naming.tree.get? a = some (.file o) :=
      ((h.mirrored o i hi).file a).mp ⟨e, he, hleaf⟩
    rw [ho'] at hfile
    cases hfile

end Inv

end Fleet

end FileCluster
