import FileCluster.Proofs.Fleet.Invariant
import FileCluster.Proofs.Storage.Create
import FileCluster.Proofs.Storage.Data
import FileCluster.Proofs.Storage.Delete

/-!
What clients do to a fleet.

Making a file adds it to the tree and to the disk of one server; removing a path takes it away from
the tree and from the disk of every server that holds something there; the data of files change on
the disk only, and an empty directory is known to the tree only. Each keeps the invariant.
-/

namespace FileCluster.Fleet

open Disk

variable {ι : Type} {base d : Disk} {l : Layout ι} {f : Fleet ι} {o : Owner} {i : ι} {p : Path}

/-! ## Making files and directories -/

theorem ask_createFile {registry : Registry} (hplace : f.naming.placement p = .ok (o, registry)) :
    (f.ask (.createFile p)).2 =
      { f with
        naming := (f.naming.placed p o registry (f.command o.command (.create p) f.disk).1).2
        disk := (f.command o.command (.create p) f.disk).2 } := by
  unfold ask
  simp only [Naming.answer, Naming.createFile_eq, hplace]
  rfl

theorem ask_createFile_of_error {a : Except NamingError Bool}
    (hplace : f.naming.placement p = .error a) : (f.ask (.createFile p)).2 = f := by
  unfold ask
  simp only [Naming.answer, Naming.createFile_eq, hplace]
  rfl

/-- Making a file keeps the invariant, if its path fits where it is to be made. -/
theorem Inv.createFile [DecidableEq ι] (h : Inv base l f)
    (hfits : ∀ o registry i, f.naming.placement p = .ok (o, registry) → (o, i) ∈ f.registered →
      p.Fits (f.root i)) : Inv base l (f.ask (.createFile p)).2 := by
  cases hplace : f.naming.placement p with
  | error a =>
    rw [ask_createFile_of_error hplace]
    exact h
  | ok next =>
    obtain ⟨o, registry⟩ := next
    obtain ⟨hroot, hparent, hfree, hnext⟩ := Naming.placement_eq_ok_iff.mp hplace
    obtain ⟨hmem, hregistry⟩ := Naming.next_eq_ok hnext
    have hservers := congrArg Registry.servers hregistry
    obtain ⟨i, hi⟩ := h.exists_index hmem
    have hp := Path.isRoot_eq_false_iff.mp hroot
    have hpfits := hfits o registry i hplace hi
    have hnone := h.look_of_free hi hfree
    have hclear := h.clear_of_parent hi hparent
    obtain ⟨d', hcreate, hcreated⟩ :=
      Storage.create_spec (h.kept.rooted i) hp hpfits hclear hnone
    have hcommand : f.command o.command (.create p) f.disk = (.ok true, d') :=
      (h.command_eq hi _ _).trans hcreate
    obtain ⟨-, hget⟩ := h.sound.tree.contains_eq_false_iff.mp hfree
    -- the tree gains the same file as the disk
    have hfiles : ∀ o' q, FileOf (f.naming.tree.insert p (.file o)) o' q ↔
        FileOf f.naming.tree o' q ∨ o = o' ∧ q = p := by
      intro o' q
      unfold FileOf
      rw [Tree.file_insert_iff hget, Node.file.injEq]
    have hchanged := hcreated.changed hp
    rw [ask_createFile hplace, hcommand]
    exact {
      sound := h.sound.placed hplace (.ok true)
      servers := h.servers.trans hservers.symm
      running := h.running
      once := h.once
      kept := h.kept.changed hchanged
      mirrored := by
        refine h.mirrored_change h.mirrored hi hchanged ?_ fun o' q ho' => ?_
        · exact (hcreated.mirrors hnone hclear (h.mirrored o i hi)).congr (fun _ => rfl) fun q =>
            (hfiles o q).trans (by simp)
        · exact (hfiles o' q).trans (by simp [Ne.symm ho'])
      fits := by
        intro o' j hj q hq
        rcases (hfiles o' q).mp hq with hold | ⟨rfl, rfl⟩
        · exact h.fits o' j hj q hold
        · exact h.index_eq hi hj ▸ hpfits }

/-- Changes of the naming service that change neither servers nor files keep the invariant. -/
theorem Inv.withNaming (h : Inv base l f) {s : Naming} (hsound : s.Sound)
    (hservers : s.registry.servers = f.naming.registry.servers)
    (hfiles : ∀ o q, FileOf s.tree o q ↔ FileOf f.naming.tree o q) :
    Inv base l { f with naming := s } where
  sound := hsound
  servers := h.servers.trans hservers.symm
  running := h.running
  once := h.once
  kept := h.kept
  mirrored := h.mirrored.congr hfiles
  fits o i hi p hp := h.fits o i hi p ((hfiles o p).mp hp)

/-- Making a directory keeps the invariant. -/
theorem Inv.createDirectory (h : Inv base l f) (p : Path) :
    Inv base l (f.ask (.createDirectory p)).2 := by
  have hask : (f.ask (.createDirectory p)).2 =
      { f with naming := (f.naming.createDirectory p).2 } := rfl
  have hsound := h.sound.createDirectory p
  rw [hask]
  unfold Naming.createDirectory at hsound ⊢
  split
  · exact h
  · split
    · exact h
    · split
      · exact h
      · rename_i hroot _ hparent hfree
        rw [if_neg hroot, hparent] at hsound
        dsimp only at hsound
        rw [if_neg hfree] at hsound
        refine h.withNaming hsound rfl fun o q => ?_
        obtain ⟨-, hget⟩ := h.sound.tree.contains_eq_false_iff.mp (Bool.eq_false_iff.mpr hfree)
        unfold FileOf
        rw [Tree.file_insert_iff hget]
        simp

/-! ## Removing -/

theorem ask_delete {owners : List Owner} (hremoval : f.naming.removal p = .ok owners) :
    (f.ask (.delete p)).2 =
      { f with
        naming := { f.naming with tree := f.naming.tree.removeSubtree p }
        disk := ((Naming.commandDeletes f.command p owners).run f.disk).2 } := by
  unfold ask
  simp only [Naming.answer, Naming.delete_eq, hremoval]
  rfl

theorem ask_delete_of_error {a : Except NamingError Bool}
    (hremoval : f.naming.removal p = .error a) : (f.ask (.delete p)).2 = f := by
  unfold ask
  simp only [Naming.answer, Naming.delete_eq, hremoval]
  rfl

/-- Commands to remove a path take it away from the disks of the servers they are sent to. -/
theorem Inv.commandDeletes [DecidableEq ι] (h : Inv base l f) (hp : p ≠ .root) {owners : List Owner}
    (howners : ∀ o ∈ owners, ∃ i, (o, i) ∈ f.registered ∧ p.Fits (f.root i)) :
    ∀ d files, Kept base d l f.root → Mirrored f.registered l d files →
      Kept base ((Naming.commandDeletes f.command p owners).run d).2 l f.root ∧
      Mirrored f.registered l ((Naming.commandDeletes f.command p owners).run d).2
        fun o q => files o q ∧ ¬(o ∈ owners ∧ p.components <+: q.components) := by
  induction owners with
  | nil => exact fun d files hkept hall => ⟨hkept, hall.congr fun o q => by simp⟩
  | cons o owners ih =>
    intro d files hkept hall
    rw [List.forall_mem_cons] at howners
    obtain ⟨⟨i, hi, hfits⟩, howners⟩ := howners
    have hremoved := Storage.delete_removed (hkept.rooted i) hp hfits
    have hchanged := hremoved.changed hp
    have hcommand : f.command o.command (.delete p) d = Storage.delete (f.root i) d p :=
      h.command_eq hi _ _
    have hrun : ((Naming.commandDeletes f.command p (o :: owners)).run d).2 =
        ((Naming.commandDeletes f.command p owners).run (Storage.delete (f.root i) d p).2).2 := by
      rw [← hcommand]
      rfl
    have hfirst : Mirrored f.registered l (Storage.delete (f.root i) d p).2
        fun o' q => files o' q ∧ ¬(o' = o ∧ p.components <+: q.components) := by
      refine h.mirrored_change hall hi hchanged ?_ fun o' q ho' => by simp [ho']
      exact (hremoved.mirrors (hall o i hi)).congr (fun _ => rfl) fun q => by simp
    obtain ⟨hkept', hall'⟩ := ih howners _ _ (hkept.changed hchanged) hfirst
    rw [hrun]
    refine ⟨hkept', hall'.congr fun o' q => ?_⟩
    rw [List.mem_cons, or_and_right, not_or, and_assoc]

/-- Removing a path keeps the invariant. -/
theorem Inv.delete [DecidableEq ι] (h : Inv base l f) (p : Path) :
    Inv base l (f.ask (.delete p)).2 := by
  cases hremoval : f.naming.removal p with
  | error a =>
    rw [ask_delete_of_error hremoval]
    exact h
  | ok owners =>
    obtain ⟨hroot, -, -, rfl⟩ := Naming.removal_eq_ok_iff.mp hremoval
    have hp := Path.isRoot_eq_false_iff.mp hroot
    have howners : ∀ o ∈ Naming.holders (f.naming.tree.subtree p),
        ∃ i, (o, i) ∈ f.registered ∧ p.Fits (f.root i) := by
      intro o ho
      obtain ⟨q, hq, hpre⟩ := Naming.mem_holders_subtree.mp ho
      obtain ⟨i, hi⟩ := h.exists_index (h.sound.owner q _ o hq rfl)
      exact ⟨i, hi, (h.fits o i hi q hq).above hpre⟩
    obtain ⟨hkept, hall⟩ := h.commandDeletes hp howners f.disk _ h.kept h.mirrored
    -- a server that holds nothing there is told nothing, and loses nothing in the tree
    have hfiles : ∀ o q, FileOf (f.naming.tree.removeSubtree p) o q ↔ FileOf f.naming.tree o q ∧
        ¬(o ∈ Naming.holders (f.naming.tree.subtree p) ∧ p.components <+: q.components) := by
      intro o q
      unfold FileOf
      rw [Tree.get?_removeSubtree]
      by_cases hpre : p.components <+: q.components
      · rw [if_pos hpre]
        simp only [reduceCtorEq, hpre, and_true, false_iff, not_and, Decidable.not_not]
        exact fun hq => Naming.mem_holders_subtree.mpr ⟨q, hq, hpre⟩
      · simp [hpre]
    rw [ask_delete hremoval]
    exact {
      sound := h.sound.removeSubtree p
      servers := h.servers
      running := h.running
      once := h.once
      kept := hkept
      mirrored := hall.congr hfiles
      fits := fun o i hi q hq => h.fits o i hi q ((hfiles o q).mp hq).1 }

/-! ## The data of files -/

/-- Requests about the data of files keep the invariant. -/
theorem Inv.access [DecidableEq ι] (h : Inv base l f) (i : ι) (r : StorageRequest) :
    Inv base l (f.access i r).2 := by
  cases r with
  | size p => exact h
  | read p offset length => exact h
  | write p offset data =>
    have hwritten := Storage.write_spec (h.kept.rooted i) p offset data
    exact {
      sound := h.sound
      servers := h.servers
      running := h.running
      once := h.once
      kept := h.kept.changed hwritten.changed
      mirrored := by
        intro o j hj
        by_cases hij : i = j
        · subst hij
          exact hwritten.mirrors (h.mirrored o i hj)
        · exact (h.mirrored o j hj).congr (look_other hwritten.changed hij) fun _ => Iff.rfl
      fits := h.fits }

end FileCluster.Fleet
