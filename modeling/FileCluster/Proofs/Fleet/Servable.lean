import FileCluster.Proofs.Disk.Trail
import FileCluster.Proofs.Fleet.Created
import FileCluster.Proofs.Storage.Confinement
import FileCluster.Proofs.Storage.Losses

/-!
Which of the files that a server registers it can serve.

A server that starts registers whatever below its root is no directory, and removes what the naming
service hands back. But it serves regular files only, and a link that it has registered may lead
nowhere, or lead to, or through, what is removed. Main statement: of the files that the tree puts
down to a server that has just started, those can be served whose paths led to a regular file when
they were listed and have lost nothing on their way there (`recorded_servable_iff`); below a root
without links these are the regular files.
-/

namespace FileCluster.Fleet

open Disk

variable {ι : Type} {f f' : Fleet ι} {i : ι} {hostname : String}

/-! ## Starts that succeed -/

/-- What a start comes to that succeeds: the server registers the files that it has listed as a new
owner, and removes those that are handed back. -/
structure Started (f f' : Fleet ι) (i : ι) (o : Owner) (paths : List Path) : Prop where
  registered : f'.registered = f.registered ++ [(o, i)]
  new : o.command ∉ f.naming.registry.known
  files : Storage.files (f.root i) f.disk = .ok paths
  tree : f'.naming.tree = (f.naming.tree.merge o paths).1
  disk : f'.disk =
    StorageServer.removeAll (f.root i) f.disk (f.naming.tree.merge o paths).2
  root : f'.root i = f.root i

theorem exists_started [DecidableEq ι] (hok : (f.start i hostname).1 = .ok ()) :
    ∃ o paths, Started f (f.start i hostname).2 i o paths := by
  obtain ⟨⟨reply, s, net⟩, ha⟩ :
    ∃ x, (f.servers i).announce hostname f.disk f.network = x := ⟨_, rfl⟩
  have hroot := (f.servers i).root_announce hostname f.disk f.network
  rw [ha] at hroot
  have hroot : s.root = f.root i := hroot
  cases reply with
  | error e =>
    unfold start at hok
    rw [ha] at hok
    cases hok
  | ok request =>
    rcases Naming.register_cases f.naming request with ⟨e, hr⟩ | ⟨registry, hnew, -, hr⟩
    · unfold start at hok
      rw [ha] at hok
      dsimp only at hok
      rw [hr] at hok
      cases hok
    · obtain ⟨-, -, hfiles⟩ := StorageServer.announce_eq_ok ha
      refine ⟨⟨request.storage, request.command⟩, request.paths, ?_⟩
      rw [start_of_registered ha hr, hroot]
      exact ⟨rfl, hnew, hfiles, rfl, rfl, congrFun (root_setServer hroot) i⟩

variable {o : Owner} {paths : List Path} {p : Path}

/-- The tree puts down to the new owner what was listed and not handed back. -/
theorem Started.recorded_iff (hs : Started f f' i o paths) (h : f.Enrolled) :
    f'.naming.tree.get? p = some (.file o) ↔
      p ∈ paths ∧ p ∉ (f.naming.tree.merge o paths).2 := by
  have hunnested := Storage.unnested_of_files hs.files
  rw [hs.tree, Tree.file_merge_iff _ _ hunnested, Tree.merge_clashing _ _ hunnested,
    List.mem_filter]
  constructor
  · rintro (hold | ⟨-, hp, hclash⟩)
    · have hserver := h.sound.owner p _ o hold rfl
      exact absurd ((h.sound.known _).mpr (List.mem_map_of_mem hserver)) hs.new
    · exact ⟨hp, fun hmem => by simp [hclash] at hmem⟩
  · rintro ⟨hp, hnot⟩
    exact .inr ⟨rfl, hp, Bool.eq_false_iff.mpr fun hclash => hnot ⟨hp, hclash⟩⟩

/-- What is handed back was listed and leads to no directory, so that nothing else that is no
directory is removed. -/
theorem Started.thinned (hs : Started f f' i o paths) :
    Thinned f.disk f'.disk fun q => ∃ p ∈ (f.naming.tree.merge o paths).2,
      Storage.LeadsTo (f.root i) f.disk p q := by
  rw [hs.disk]
  refine StorageServer.removeAll_thinned _ fun p hp => ?_
  have hmem := (Tree.occupied_of_mem_merge (Storage.unnested_of_files hs.files) hp).1
  exact Storage.leadsToLeaf_of_files hs.files p hmem

/-! ## Serving -/

theorem isOk_size_eq (f : Fleet ι) (i : ι) (hp : p ≠ .root) :
    (f.access i (.size p)).1.isOk = f.disk.isFile (p.toLocal (f.root i)) :=
  Storage.isOk_size hp

/-- Below a root without links what is not handed back is left where it was. -/
theorem Started.isFile_of_noLinks (hs : Started f f' i o paths) {R : Place}
    (hanchored : f.disk.Anchored (Beneath R) (f.root i) R) (hlinks : f.disk.NoLinks R)
    (hp : p ≠ .root) (hnot : p ∉ (f.naming.tree.merge o paths).2)
    (hfile : f.disk.isFile (p.toLocal (f.root i)) = true) :
    f'.disk.isFile (p.toLocal (f.root i)) = true := by
  have hleads := hanchored.leads
  have hconfined : Confined f.disk f'.disk R := by
    rw [hs.disk]
    exact StorageServer.removeAll_confined ⟨hleads, hlinks⟩ _ (.refl hlinks)
  obtain ⟨q, content, hr⟩ := isFile_eq_true_iff.mp hfile
  obtain ⟨rfl, hget⟩ := hleads.place_of_resolve hp hlinks hr
  have hkept : f'.disk.get? (R ++ p.names) = some (.file content) := by
    rcases hs.thinned.kept _ _ (look_of_get? hget) rfl with ⟨q, hq, e, he⟩ | hkept
    · -- a path that led there would be the path itself
      have hq' : q ≠ .root := (Storage.unnested_of_files hs.files).notRoot q
        (Tree.occupied_of_mem_merge (Storage.unnested_of_files hs.files) hq).1
      obtain ⟨hplace, -⟩ := hleads.place_of_resolve hq' hlinks he
      exact absurd (Path.names_injective (List.append_cancel_left hplace) ▸ hq) hnot
    · exact (look_eq_some_iff rfl).mp hkept
  have hfits := hleads.fits_of_resolve hlinks hp hr
  exact isFile_eq_true_iff.mpr ⟨_, content,
    (hanchored _ hconfined.outside).resolve_found hp hfits hkept nofun true⟩

/-- A server that has been started has registered as an owner of its own. The size of a file that the
tree puts down to it can be had there exactly if the path led to a regular file when it was listed
and all that the path passed is still there; and if no link stands below the root, exactly if the
path led to a regular file. -/
theorem recorded_servable_iff [DecidableEq ι] (h : f.Reached)
    (hok : (f.start i hostname).1 = .ok ()) :
    ∃ o, (f.start i hostname).2.registered = f.registered ++ [(o, i)] ∧
      ∀ p, (f.start i hostname).2.naming.tree.get? p = some (.file o) →
        (((f.start i hostname).2.access i (.size p)).1.isOk = true ↔
          f.disk.isFile (p.toLocal (f.root i)) = true ∧
            ∀ q ∈ f.disk.trail (p.toLocal (f.root i)),
              (f.start i hostname).2.disk.look q ≠ none) ∧
        ∀ R, f.disk.Anchored (Beneath R) (f.root i) R → f.disk.NoLinks R →
          (((f.start i hostname).2.access i (.size p)).1.isOk = true ↔
            f.disk.isFile (p.toLocal (f.root i)) = true) := by
  obtain ⟨o, paths, hs⟩ := exists_started hok
  refine ⟨o, hs.registered, fun p hrecorded => ?_⟩
  obtain ⟨hp, hnot⟩ := (hs.recorded_iff h.enrolled).mp hrecorded
  have hne : p ≠ .root := (Storage.unnested_of_files hs.files).notRoot p hp
  rw [isOk_size_eq _ i hne, hs.root]
  have hpart : (f.start i hostname).2.disk.isFile (p.toLocal (f.root i)) = true ↔
      f.disk.isFile (p.toLocal (f.root i)) = true ∧
        ∀ q ∈ f.disk.trail (p.toLocal (f.root i)), (f.start i hostname).2.disk.look q ≠ none :=
    hs.thinned.part.isFile_iff
  exact ⟨hpart, fun R hanchored hlinks => ⟨fun hfile => (hpart.mp hfile).1,
    hs.isFile_of_noLinks hanchored hlinks hne hnot⟩⟩

/-! ## Roots with links -/

/-- A server whose root holds nothing but a link, on a disk with one file beside the root. -/
def withLink (target : List UInt8) : Fleet Unit where
  naming := .empty
  disk := ⟨[([0x61], .directory [([0x78], .link target)]), ([0x62], .file .empty)]⟩
  network := .empty
  servers _ := ⟨"/a", .new none, .new none, .clear⟩
  registered := []

/-- A link to the file beside the root can be served. -/
theorem recorded_servable_iff_withLink :
    (withLink [0x2f, 0x62]).Reached ∧
      ((withLink [0x2f, 0x62]).start () "127.0.0.1").1 = .ok () ∧
      (((withLink [0x2f, 0x62]).start () "127.0.0.1").2.access () (.size fileX)).1.isOk = true := by
  have hreached : (withLink [0x2f, 0x62]).Reached := .fresh rfl rfl
  have hok : ((withLink [0x2f, 0x62]).start () "127.0.0.1").1 = .ok () :=
    eq_ok_of_toOption (α := Unit) (by decide +kernel)
  have hregistered : ((withLink [0x2f, 0x62]).start () "127.0.0.1").2.registered =
      [(⟨⟨"127.0.0.1", 49152⟩, ⟨"127.0.0.1", 49153⟩⟩, ())] := by decide +kernel
  obtain ⟨o, ho, hservable⟩ := recorded_servable_iff (i := ()) hreached hok
  obtain ⟨rfl, -⟩ := Prod.mk.inj (List.singleton_inj.mp (ho.symm.trans hregistered))
  exact ⟨hreached, hok,
    (hservable fileX (by decide +kernel)).1.mpr ⟨by decide +kernel, by decide +kernel⟩⟩

/-- A file that was registered may be none that can be served: here a link that leads nowhere. -/
theorem recorded_unservable :
    ¬∀ (f : Fleet Unit) (hostname : String), f.Reached → (f.start () hostname).1 = .ok () →
      ∀ o, (o, ()) ∈ (f.start () hostname).2.registered →
        ∀ p, (f.start () hostname).2.naming.tree.get? p = some (.file o) →
          ((f.start () hostname).2.access () (.size p)).1.isOk = true := by
  intro hservable
  have hok : ((withLink [0x77]).start () "127.0.0.1").1 = .ok () :=
    eq_ok_of_toOption (α := Unit) (by decide +kernel)
  have hregistered : (⟨⟨"127.0.0.1", 49152⟩, ⟨"127.0.0.1", 49153⟩⟩, ()) ∈
      ((withLink [0x77]).start () "127.0.0.1").2.registered := by decide +kernel
  have hno : (((withLink [0x77]).start () "127.0.0.1").2.access () (.size fileX)).1.isOk = false :=
    by decide +kernel
  have hyes := hservable (withLink [0x77]) "127.0.0.1" (.fresh rfl rfl) hok _ hregistered fileX
    (by decide +kernel)
  cases hno.symm.trans hyes

/-- A disk with a directory that holds a file and a link to it. -/
def aliasDisk : Disk :=
  ⟨[([0x61], .directory [([0x78], .file .empty), ([0x79], .link [0x78])])]⟩

/-- A link that leads to a file leads nowhere when the file has been handed back. -/
example : (aliasDisk.isFile "/a/y" &&
    !(StorageServer.removeAll "/a" aliasDisk [fileX]).isFile "/a/y") = true := by decide +kernel

end FileCluster.Fleet
