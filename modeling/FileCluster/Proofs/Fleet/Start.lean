import FileCluster.Proofs.Fleet.Invariant
import FileCluster.Proofs.Storage.Delete
import FileCluster.Proofs.Storage.Listing

/-!
Starting a storage server.

A server that starts registers all files below its root. The naming service takes in those that do
not clash with its tree and hands back the others, and the server removes these; so afterwards its
disk and the tree agree. A server that does not come up, or is refused, changes neither.
-/

namespace FileCluster

open Disk

variable {ι : Type}

/-! ## Listed files -/

/-- The paths of what is no directory below a root lie apart. -/
theorem Mirrors.unnested {d : Disk} {R : Place} {ps : List Path} (h : Mirrors d R (· ∈ ps))
    (hR : d.look R = some .emptyDirectory) : Unnested ps where
  notRoot p hp := ((h.file p).mpr hp).ne_root hR
  apart p hp q hq hpre := by
    have hthere := ((h.file q).mpr hq).look_ne_none
    exact ((h.file p).mpr hp).eq_of_isPrefix hthere (Path.names_isPrefix_iff.mpr hpre)

/-- Removing paths one after the other takes all of them away. -/
theorem StorageServer.removeAll_spec {within : Place → Prop} {root : String} {R : Place}
    {ps : List Path} (hps : ∀ p ∈ ps, p ≠ .root ∧ p.Fits root) :
    ∀ d files, Rooted d within root R → Mirrors d R files →
      ChangedBelow d (removeAll root d ps) R ∧
      Mirrors (removeAll root d ps) R
        fun q => files q ∧ ∀ p ∈ ps, ¬p.components <+: q.components := by
  induction ps with
  | nil =>
    exact fun d files _ hm => ⟨.refl d R, hm.congr (fun _ => rfl) fun q => by simp⟩
  | cons p ps ih =>
    intro d files hd hm
    rw [List.forall_mem_cons] at hps
    obtain ⟨⟨hp, hfits⟩, hps⟩ := hps
    have hremoved := Storage.delete_removed hd hp hfits
    have hchanged := hremoved.changed hp
    obtain ⟨hchanged', hm'⟩ := ih hps _ _ (hd.changed hchanged hd.within) (hremoved.mirrors hm)
    refine ⟨hchanged.trans hchanged', hm'.congr (fun _ => rfl) fun q => ?_⟩
    rw [List.forall_mem_cons, and_assoc]

namespace Fleet

variable [DecidableEq ι] {base : Disk} {l : Layout ι} {f : Fleet ι} {o : Owner} {i : ι}

/-! ## Starts that fail -/

/-- Another state of a server keeps the invariant, if it keeps the root and runs if it has
registered. -/
theorem Inv.withServer (h : Inv base l f) {s : StorageServer} (hroot : s.root = f.root i)
    (hrunning : ∀ o, (o, i) ∈ f.registered → s.isRunning = true) (net : Network) :
    Inv base l { f with network := net, servers := f.setServer i s } where
  sound := h.sound
  servers := h.servers
  running o j hj := by
    show (f.setServer i s j).isRunning = true
    unfold setServer
    split
    · rename_i he
      exact hrunning o (he ▸ hj)
    · exact h.running o j hj
  once := h.once
  kept := by
    show Kept base f.disk l fun j => (f.setServer i s j).root
    rw [root_setServer hroot]
    exact h.kept
  mirrored := h.mirrored
  fits o j hj p hp := by
    show p.Fits ((fun j => (f.setServer i s j).root) j)
    rw [root_setServer hroot]
    exact h.fits o j hj p hp

/-- A server that is not ready to register keeps the invariant. -/
theorem Inv.announced (h : Inv base l f) (i : ι) (hostname : String)
    {reply : Except ServerError RegistrationRequest} {s : StorageServer} {net : Network}
    (ha : (f.servers i).announce hostname f.disk f.network = (reply, s, net)) :
    Inv base l { f with network := net, servers := f.setServer i s } := by
  have hroot := (f.servers i).root_announce hostname f.disk f.network
  rw [ha] at hroot
  refine h.withServer hroot (fun o hi => ?_) net
  have hrunning := h.running o i hi
  rw [StorageServer.announce_of_isRunning hrunning] at ha
  cases ha
  exact hrunning

/-! ## Starts that succeed -/

/-- A server that registers under a new owner, whose files are those of the tree then, keeps the
invariant. -/
theorem Inv.enrolled (h : Inv base l f) {naming : Naming} {disk : Disk} {s : StorageServer}
    {net : Network} (hi : ∀ o', (o', i) ∉ f.registered) (ho : o ∉ f.naming.registry.servers)
    (hroot : s.root = f.root i) (hrunning : s.isRunning = true) (hsound : naming.Sound)
    (hservers : naming.registry.servers = f.naming.registry.servers ++ [o])
    (hothers : ∀ o' q, o' ≠ o → (FileOf naming.tree o' q ↔ FileOf f.naming.tree o' q))
    (hd : ChangedBelow f.disk disk (l.place i))
    (hm : Mirrors disk (l.place i) (FileOf naming.tree o))
    (hfits : ∀ q, FileOf naming.tree o q → q.Fits (f.root i)) :
    Inv base l ⟨naming, disk, net, f.setServer i s, f.registered ++ [(o, i)]⟩ := by
  -- whoever registered before is another owner and another server
  have hbefore : ∀ o' j, (o', j) ∈ f.registered → o' ≠ o ∧ i ≠ j := by
    intro o' j hj
    constructor
    · rintro rfl
      exact ho (h.servers ▸ List.mem_map_of_mem hj)
    · rintro rfl
      exact hi o' hj
  have hwith := h.withServer hroot (fun o' hj => absurd hj (hi o')) net
  have hsplit : ∀ {P : Owner → ι → Prop}, (∀ o' j, (o', j) ∈ f.registered → P o' j) → P o i →
      ∀ o' j, (o', j) ∈ f.registered ++ [(o, i)] → P o' j := by
    intro P hold hlast o' j hj
    rcases List.mem_append.mp hj with hj | hj
    · exact hold o' j hj
    · cases List.mem_singleton.mp hj
      exact hlast
  exact {
    sound := hsound
    servers := by
      show (f.registered ++ [(o, i)]).map Prod.fst = naming.registry.servers
      rw [List.map_append, h.servers, hservers]
      rfl
    running := hsplit hwith.running <| by
      show (f.setServer i s i).isRunning = true
      rwa [setServer, if_pos rfl]
    once := by
      show ((f.registered ++ [(o, i)]).map Prod.snd).Nodup
      rw [List.map_append, List.nodup_append]
      refine ⟨h.once, by simp, fun j hj k hk => ?_⟩
      obtain ⟨⟨o', j'⟩, hmem, rfl⟩ := List.mem_map.mp hj
      cases List.mem_singleton.mp hk
      exact Ne.symm (hbefore o' j' hmem).2
    kept := hwith.kept.changed hd
    mirrored := by
      refine hsplit (fun o' j hj => ?_) hm
      obtain ⟨hne, hij⟩ := hbefore o' j hj
      exact (h.mirrored o' j hj).congr (look_other hd hij) fun q => hothers o' q hne
    fits := by
      show ∀ o' j, _ → ∀ p : Path, _ → p.Fits ((fun j => (f.setServer i s j).root) j)
      rw [root_setServer hroot]
      refine hsplit (fun o' j hj p hp => ?_) hfits
      exact h.fits o' j hj p ((hothers o' p (hbefore o' j hj).1).mp hp) }

/-- When a tree has taken in the files below a root and those that clash have been removed, the
files below the root are those of their owner. -/
theorem mirrors_merge {d : Disk} {within : Place → Prop} {root : String} {R : Place}
    {ps : List Path} {t : Tree Owner} (hd : Rooted d within root R) (hfit : AllFit d root R)
    (hm : Mirrors d R (· ∈ ps)) (hnew : ∀ q, ¬FileOf t o q) :
    ChangedBelow d (StorageServer.removeAll root d (t.merge o ps).2) R ∧
      Mirrors (StorageServer.removeAll root d (t.merge o ps).2) R (FileOf (t.merge o ps).1 o) := by
  have hps := hm.unnested hd.leads.look
  have hclashing : ∀ p, p ∈ (t.merge o ps).2 ↔ p ∈ ps ∧ t.clashes o p = true := by
    intro p
    rw [Tree.merge_clashing t o hps, List.mem_filter]
  have hfits : ∀ p ∈ (t.merge o ps).2, p ≠ .root ∧ p.Fits root := by
    intro p hp
    have hmem := ((hclashing p).mp hp).1
    exact ⟨hps.notRoot p hmem, hfit p ((hm.file p).mpr hmem).look_ne_none⟩
  obtain ⟨hchanged, hm'⟩ := StorageServer.removeAll_spec hfits d _ hd hm
  refine ⟨hchanged, hm'.congr (fun _ => rfl) fun q => ?_⟩
  unfold FileOf
  rw [Tree.file_merge_iff t o hps]
  constructor
  · rintro (hold | ⟨-, hq, hfree⟩)
    · exact absurd hold (hnew q)
    · refine ⟨hq, fun p hp hpre => ?_⟩
      obtain ⟨hmem, hc⟩ := (hclashing p).mp hp
      rw [hps.apart p hmem q hq hpre, hfree] at hc
      cases hc
  · rintro ⟨hq, hout⟩
    refine Or.inr ⟨rfl, hq, Bool.eq_false_iff.mpr fun hc => ?_⟩
    exact hout q ((hclashing q).mpr ⟨hq, hc⟩) (List.prefix_refl _)

/-- Starting a server keeps the invariant and changes the disk below its root only, if everything
there fits. -/
theorem Inv.start (h : Inv base l f) (hostname : String)
    (hfit : AllFit f.disk (f.root i) (l.place i)) :
    Inv base l (f.start i hostname).2 ∧
      ChangedBelow f.disk (f.start i hostname).2.disk (l.place i) := by
  obtain ⟨⟨reply, s, net⟩, ha⟩ :
    ∃ x, (f.servers i).announce hostname f.disk f.network = x := ⟨_, rfl⟩
  have hroot := (f.servers i).root_announce hostname f.disk f.network
  rw [ha] at hroot
  have hroot : s.root = f.root i := hroot
  cases reply with
  | error e =>
    rw [start_of_unready ha]
    exact ⟨h.announced i hostname ha, .refl _ _⟩
  | ok request =>
    obtain ⟨hbefore, hrunning, hfiles⟩ := StorageServer.announce_eq_ok ha
    -- a registered server would have been running
    have hi : ∀ o', (o', i) ∉ f.registered := by
      intro o' hj
      rw [h.running o' i hj] at hbefore
      cases hbefore
    rcases Naming.register_cases f.naming request with ⟨e, hr⟩ | ⟨registry, hnew, hservers, hr⟩
    · rw [start_of_refused ha hr]
      exact ⟨h.withServer ((s.root_stop net).trans hroot) (fun o' hj => absurd hj (hi o')) _,
        .refl _ _⟩
    · have hsound := h.sound.register request
      rw [hr] at hsound
      have ho : (⟨request.storage, request.command⟩ : Owner) ∉ f.naming.registry.servers :=
        fun hmem => hnew ((h.sound.known _).mpr (List.mem_map_of_mem hmem))
      have hnone : ∀ q, ¬FileOf f.naming.tree ⟨request.storage, request.command⟩ q :=
        fun q hq => ho (h.sound.owner q _ _ hq rfl)
      have hrooted := h.kept.rooted i
      have hm := Storage.mirrors_of_files hrooted hfit hfiles
      have hps := hm.unnested hrooted.leads.look
      obtain ⟨hchanged, hm'⟩ := mirrors_merge hrooted hfit hm hnone
      rw [start_of_registered ha hr, hroot]
      refine ⟨h.enrolled hi ho hroot hrunning hsound hservers (fun o' q ho' => ?_) hchanged hm'
        fun q hq => ?_, hchanged⟩
      · refine (Tree.file_merge_iff _ _ hps).trans ?_
        simp [FileOf, ho']
      · rcases (Tree.file_merge_iff _ _ hps).mp hq with hold | ⟨-, hmem, -⟩
        · exact absurd hold (hnone q)
        · exact hfit q ((hm.file q).mpr hmem).look_ne_none

end Fleet

end FileCluster
