import FileCluster.Proofs.Fleet.Orders
import FileCluster.Proofs.Fleet.Start

/-!
The naming service and the disks agree.

A fleet begins with roots that lie apart from each other, without links below them and with a file
below every directory there. Main statement: whatever its servers and clients do after that, the
files below the root of a registered storage server are the files that the tree of the naming
service puts down to it, and no directory there is left empty (`run_agrees`). The local path of a
root must not go through what a server may remove, and what is no directory must be a regular file;
where one of these fails the naming service and a disk may come apart (`run_disagrees`).
-/

namespace FileCluster.Fleet

open Disk

variable {ι : Type} {base : Disk} {l : Layout ι} {f : Fleet ι}

/-! ## What is assumed and what is claimed -/

/-- Nothing has registered yet. The local path of every root leads to its place; below the roots
there are no links, and a file below every directory. -/
structure Fresh (f : Fleet ι) (l : Layout ι) : Prop where
  naming : f.naming = .empty
  registered : f.registered = []
  leads : ∀ i, f.disk.Leads (f.root i) (l.place i)
  noLinks : ∀ i q t, Beneath (l.place i) q → f.disk.get? q ≠ some (.link t)
  populated : ∀ i q entries, Beneath (l.place i) q → f.disk.get? q = some (.directory entries) →
    ∃ below e, f.disk.get? (q ++ below) = some e ∧ e.isDirectory = false

/-- The local path of every root leads to its place whatever stands below the roots. A path such as
`/r/b/x/../..` does not: it leads to `/r` only as long as there is a directory `/r/b/x`. -/
def Steady (f : Fleet ι) (l : Layout ι) : Prop :=
  ∀ i, f.disk.Anchored l.Within (f.root i) (l.place i)

/-- The local file system refuses nothing that an operation asks of it for the sake of a name: not
what a starting server finds below its root, nor what a server is told to make. -/
def Admits (f : Fleet ι) (l : Layout ι) : Operation ι → Prop
  | .start i _ => AllFit f.disk (f.root i) (l.place i)
  | .ask (.createFile p) => ∀ o registry i, f.naming.placement p = .ok (o, registry) →
      (o, i) ∈ f.registered → p.Fits (f.root i)
  | _ => True

/-- The local file system refuses nothing for the sake of a name, during a run of operations. -/
def NamesFit [DecidableEq ι] (f : Fleet ι) (l : Layout ι) : List (Operation ι) → Prop
  | [] => True
  | op :: ops => f.Admits l op ∧ (f.perform op).NamesFit l ops

/-- The naming service and the disk agree: the servers known are those that registered; where there
is a file below the root of one of them, the tree has a file of that server, and the other way
round; and there is a file below every directory there. -/
structure Agrees (f : Fleet ι) (l : Layout ι) (isFile : Entry → Bool) : Prop where
  servers : f.registered.map Prod.fst = f.naming.registry.servers
  files : ∀ o i, (o, i) ∈ f.registered → ∀ rest,
    (∃ e, f.disk.get? (l.place i ++ rest) = some e ∧ isFile e = true) ↔
      ∃ p : Path, p.names = rest ∧ f.naming.tree.get? p = some (.file o)
  directories : ∀ o i, (o, i) ∈ f.registered → ∀ q entries, Beneath (l.place i) q →
    f.disk.get? q = some (.directory entries) →
      ∃ below e, f.disk.get? (q ++ below) = some e ∧ isFile e = true

/-! ## The invariant along a run -/

theorem Fresh.inv (h : f.Fresh l) (hsteady : f.Steady l) : Inv f.disk l f where
  sound := h.naming ▸ Naming.Sound.empty
  servers := by
    rw [h.registered, h.naming]
    rfl
  running o i hi := by
    rw [h.registered] at hi
    cases hi
  once := by
    rw [h.registered]
    exact List.nodup_nil
  kept := by
    refine ⟨fun i => ⟨hsteady i, fun q hq => ⟨i, hq⟩, fun q t hq hl => ?_⟩, fun i => ?_,
      fun q e he _ => Or.inr he⟩
    · exact h.noLinks i q t hq ((look_eq_some_iff rfl).mp hl)
    · refine Populated.of_files fun q hq hdir => ?_
      obtain ⟨entries, hget⟩ := look_eq_directory_iff.mp hdir
      obtain ⟨below, e, he, hleaf⟩ := h.populated i q entries hq hget
      exact ⟨below, e, (look_eq_some_iff hleaf).mpr he, hleaf⟩
  mirrored o i hi := by
    rw [h.registered] at hi
    cases hi
  fits o i hi := by
    rw [h.registered] at hi
    cases hi

/-- Every operation keeps the invariant, if the local file system refuses no name. -/
theorem Inv.perform [DecidableEq ι] (h : Inv base l f) {op : Operation ι} (hop : f.Admits l op) :
    Inv base l (f.perform op) := by
  cases op with
  | start i hostname => exact (h.start hostname hop).1
  | access i r => exact h.access i r
  | ask r =>
    cases r with
    | createFile p => exact h.createFile hop
    | createDirectory p => exact h.createDirectory p
    | delete p => exact h.delete p
    | isDirectory p => exact h
    | list p => exact h
    | getStorage p => exact h

/-- Every run keeps the invariant. -/
theorem Inv.run [DecidableEq ι] (h : Inv base l f) {ops : List (Operation ι)}
    (hfit : f.NamesFit l ops) : Inv base l (f.run ops) := by
  induction ops generalizing f with
  | nil => exact h
  | cons op ops ih => exact ih (h.perform hfit.1) hfit.2

/-! ## Agreement -/

/-- A fleet with the invariant agrees about files, whatever counts as one if all that is no
directory does. -/
theorem Inv.agrees (h : Inv base l f) {isFile : Entry → Bool}
    (hdir : ∀ e, isFile e = true → e.isDirectory = false)
    (hleaf : ∀ i rest e, f.disk.look (l.place i ++ rest) = some e → e.isDirectory = false →
      isFile e = true) : f.Agrees l isFile where
  servers := h.servers
  files o i hi rest := by
    have hm := h.mirrored o i hi
    constructor
    · rintro ⟨e, he, hfile⟩
      have hlook := (look_eq_some_iff (hdir e hfile)).mpr he
      obtain ⟨p, rfl⟩ := hm.named rest (look_ne_none hlook)
      exact ⟨p, rfl, (hm.file p).mp ⟨e, hlook, hdir e hfile⟩⟩
    · rintro ⟨p, rfl, hp⟩
      obtain ⟨e, he, hno⟩ := (hm.file p).mpr hp
      exact ⟨e, (look_eq_some_iff hno).mp he, hleaf i p.names e he hno⟩
  directories o i hi q entries hq hget := by
    have hthere : f.disk.look q ≠ none := by
      rw [look_of_get? hget]
      exact Option.some_ne_none _
    obtain ⟨below, e, he, hno⟩ := (h.kept.populated i).exists_file hq hthere
    refine ⟨below, e, (look_eq_some_iff hno).mp he, ?_⟩
    obtain ⟨n, rest, rfl⟩ := hq
    rw [List.append_assoc] at he
    exact hleaf i _ e he hno

/-- Where there are only files and directories in the beginning, there are only files and
directories. -/
theorem Inv.isFile_of_look (h : Inv base l f)
    (hspecial : ∀ i rest, base.get? (l.place i ++ rest) ≠ some .special) {i : ι} {rest : Place}
    {e : Entry} (he : f.disk.look (l.place i ++ rest) = some e) (hno : e.isDirectory = false) :
    e.isFile = true := by
  rcases h.kept.leaf _ e he hno with hfile | hbase
  · exact hfile
  · cases e with
    | file content => rfl
    | directory entries => cases hno
    | special => exact absurd ((look_eq_some_iff rfl).mp hbase) (hspecial i rest)
    | link t =>
      cases rest with
      | nil =>
        rw [List.append_nil, (h.kept.rooted i).leads.look] at he
        cases he
      | cons n rest => exact absurd he ((h.kept.rooted i).noLinks _ t ⟨n, rest, rfl⟩)

/-- After any operations on a fresh fleet with steady roots, the files below the root of a
registered storage server are those that the tree of the naming service puts down to it, and a file
is below every directory there. A file is all that is no directory; where there were no devices in
the beginning, these are regular files. -/
theorem run_agrees [DecidableEq ι] (h : f.Fresh l) (hsteady : f.Steady l)
    (ops : List (Operation ι)) (hfit : f.NamesFit l ops) :
    (f.run ops).Agrees l (fun e => !e.isDirectory) ∧
      ((∀ i rest, f.disk.get? (l.place i ++ rest) ≠ some .special) →
        (f.run ops).Agrees l Entry.isFile) := by
  have hinv := (h.inv hsteady).run hfit
  refine ⟨hinv.agrees (fun e he => ?_) fun i rest e he hno => ?_, fun hspecial => ?_⟩
  · rwa [Bool.not_eq_true'] at he
  · rw [hno]
    rfl
  · refine hinv.agrees (fun e he => ?_) fun i rest e => hinv.isFile_of_look hspecial
    cases e with
    | directory entries => cases he
    | _ => rfl

/-! ## Two servers -/

/-- A path of one component. -/
def single (c : String) (h : Path.IsComponent c) : Path :=
  ⟨[c], fun _ hc => List.mem_singleton.mp hc ▸ h⟩

/-- The path of a file. -/
def fileX : Path := single "x" ⟨by decide, by decide, by decide, by decide⟩

/-- Two servers on one machine, each with a file of the same path below its root. -/
def twoServers : Fleet Bool where
  naming := .empty
  disk := ⟨[([0x61], .directory [([0x78], .file .empty)]),
    ([0x62], .directory [([0x78], .file .empty)])]⟩
  network := .empty
  servers first := ⟨if first then "/a" else "/b", .new none, .new none, .clear⟩
  registered := []

/-- The places of their roots. -/
def twoRoots : Layout Bool where
  place first := if first then [[0x61]] else [[0x62]]
  apart := by decide

/-- Both start, so that the file of the second is handed back; a file is made, and the one that was
there is removed. -/
def twoStarts : List (Operation Bool) :=
  [.start true "127.0.0.1", .start false "127.0.0.1",
    .ask (.createFile (single "y" ⟨by decide, by decide, by decide, by decide⟩)),
    .ask (.delete (single "x" ⟨by decide, by decide, by decide, by decide⟩))]

/-- There is but one file below each root. -/
theorem get?_twoServers {first : Bool} {n : Name} {rest : Place} {e : Entry}
    (h : twoServers.disk.get? (twoRoots.place first ++ n :: rest) = some e) :
    n = [0x78] ∧ rest = [] ∧ e = .file .empty := by
  have h : (Entry.directory [([0x78], .file .empty)]).get? (n :: rest) = some e := by
    cases first <;> exact h
  rw [Entry.get?_directory_cons, Sorted.lookup] at h
  split at h
  · rename_i hn
    cases rest with
    | nil =>
      cases h
      exact ⟨hn, rfl, rfl⟩
    | cons m rest => cases h
  · cases h

theorem steady_twoServers : twoServers.Steady twoRoots := by
  have hout : ∀ n : Name, ¬twoRoots.Within [n] := by
    rintro n ⟨j, m, rest, he⟩
    cases j <;> cases he
  have hanchored : ∀ r : Path, r.Fits "/" → twoServers.disk.look r.names = some .emptyDirectory →
      (∃ n, r.names = [n]) →
      twoServers.disk.Anchored twoRoots.Within (r.toLocal "/") r.names := by
    rintro r hfits hdir ⟨n, hn⟩
    exact .of_toLocal hfits hdir (hn ▸ hout n)
  intro first
  cases first with
  | true =>
    exact hanchored (single "a" ⟨by decide, by decide, by decide, by decide⟩) (by decide) rfl
      ⟨_, rfl⟩
  | false =>
    exact hanchored (single "b" ⟨by decide, by decide, by decide, by decide⟩) (by decide) rfl
      ⟨_, rfl⟩

theorem fresh_twoServers : twoServers.Fresh twoRoots where
  naming := rfl
  registered := rfl
  leads first := (steady_twoServers first).leads
  noLinks first q t := by
    rintro ⟨n, rest, rfl⟩ hl
    cases (get?_twoServers hl).2.2
  populated first q entries := by
    rintro ⟨n, rest, rfl⟩ hget
    cases (get?_twoServers hget).2.2

/-- Everything below the roots fits. -/
theorem allFit_twoServers (first : Bool) :
    AllFit twoServers.disk (twoServers.root first) (twoRoots.place first) := by
  cases first <;> exact allFit_of_mem [.root, fileX] (by decide +kernel) (by decide +kernel)

/-- The first start leaves what is below the other root as it was. -/
theorem namesFit_twoStarts : twoServers.NamesFit twoRoots twoStarts := by
  have hfirst := (fresh_twoServers.inv steady_twoServers).start (i := true) "127.0.0.1"
    (allFit_twoServers true)
  refine ⟨allFit_twoServers true, fun p hp => ?_, fun _ _ first _ _ => ?_, trivial, trivial⟩
  · rw [root_perform]
    refine allFit_twoServers false p ?_
    rwa [← look_other hfirst.2 (by decide)]
  · rw [root_perform, root_perform]
    cases first <;> decide

/-- Both servers register, and the tree has the new file and no longer the old one. -/
theorem run_agrees_twoServers :
    twoServers.Fresh twoRoots ∧ twoServers.Steady twoRoots ∧
      twoServers.NamesFit twoRoots twoStarts ∧
      (twoServers.run twoStarts).registered.map Prod.snd = [true, false] ∧
      (twoServers.run twoStarts).naming.tree.nodes.map (fun e => e.1.components) = [["y"]] ∧
      (twoServers.run twoStarts).Agrees twoRoots Entry.isFile := by
  refine ⟨fresh_twoServers, steady_twoServers, namesFit_twoStarts, by decide +kernel,
    by decide +kernel, ?_⟩
  refine (run_agrees fresh_twoServers steady_twoServers twoStarts namesFit_twoStarts).2
    fun first rest hl => ?_
  cases rest with
  | nil => cases first <;> cases hl
  | cons n rest => cases (get?_twoServers hl).2.2

/-! ## Where they come apart -/

/-- A machine with one server. -/
def alone (root : String) (disk : Disk) : Fleet Unit where
  naming := .empty
  disk := disk
  network := .empty
  servers _ := ⟨root, .new none, .new none, .clear⟩
  registered := []

/-- The place of its root, `/r`. -/
def rootR : Layout Unit where
  place _ := [[0x72]]
  apart _ _ _ := rfl

/-- A server with one file, `/r/b/x/y`, whose root goes through the directory of the file. -/
def winding : Fleet Unit :=
  alone "/r/b/x/../.."
    ⟨[([0x72], .directory [([0x62], .directory [([0x78], .directory [([0x79], .file .empty)])])])]⟩

/-- The server starts, and the file is removed. -/
def removal : List (Operation Unit) :=
  [.start () "127.0.0.1", .ask (.delete Storage.deepPath)]

/-- A server with a device below its root. -/
def withDevice : Fleet Unit := alone "/r" ⟨[([0x72], .directory [([0x78], .special)])]⟩

/-- Below the winding root are two directories and the file. -/
theorem get?_winding {q : Place} {e : Entry} (hq : Beneath [[0x72]] q)
    (h : winding.disk.get? q = some e) :
    q = [[0x72], [0x62]] ∨ q = [[0x72], [0x62], [0x78]] ∨ e.isFile = true := by
  have hall : ∀ x ∈ winding.disk.top.flatten, x.1 = [[0x72]] ∨ x.1 = [[0x72], [0x62]] ∨
      x.1 = [[0x72], [0x62], [0x78]] ∨ x.2.isFile = true := by decide +kernel
  obtain ⟨n, rest, rfl⟩ := hq
  exact (hall _ (mem_flatten h)).resolve_left (by simp)

theorem fresh_winding : winding.Fresh rootR where
  naming := rfl
  registered := rfl
  leads _ := ⟨_, rfl⟩
  noLinks _ q t hq h := by
    rcases get?_winding hq h with rfl | rfl | hfile
    · cases h
    · cases h
    · cases hfile
  populated _ q entries hq h := by
    rcases get?_winding hq h with rfl | rfl | hfile
    · exact ⟨[[0x78], [0x79]], _, rfl, rfl⟩
    · exact ⟨[[0x79]], _, rfl, rfl⟩
    · cases hfile

theorem get?_winding_ne_special (i : Unit) (rest : Place) :
    winding.disk.get? (rootR.place i ++ rest) ≠ some .special := by
  intro h
  cases rest with
  | nil => cases h
  | cons n rest =>
    rcases get?_winding ⟨n, rest, rfl⟩ h with hq | hq | hfile
    · cases hq
      cases h
    · cases hq
      cases h
    · cases hfile

theorem namesFit_removal : winding.NamesFit rootR removal :=
  ⟨allFit_of_mem (.root :: Storage.deepPath :: Storage.deepPath.ancestors) (by decide +kernel)
    (by decide +kernel), trivial, trivial⟩

/-- Below the root with the device is nothing else. -/
theorem get?_withDevice {q : Place} {e : Entry} (hq : Beneath [[0x72]] q)
    (h : withDevice.disk.get? q = some e) : e = .special := by
  have hall : ∀ x ∈ withDevice.disk.top.flatten, x.1 = [[0x72]] ∨ x.1 = [[0x72], [0x78]] := by
    decide +kernel
  obtain ⟨n, rest, rfl⟩ := hq
  rcases hall _ (mem_flatten h) with hroot | hdevice
  · simp at hroot
  · rw [show [[0x72]] ++ n :: rest = [[0x72], [0x78]] from hdevice] at h
    exact (Option.some.inj h).symm

theorem fresh_withDevice : withDevice.Fresh rootR where
  naming := rfl
  registered := rfl
  leads _ := ⟨_, rfl⟩
  noLinks _ q t hq h := by cases get?_withDevice hq h
  populated _ q entries hq h := by cases get?_withDevice hq h

theorem steady_withDevice : withDevice.Steady rootR := by
  have hout : ¬rootR.Within [[0x72]] := by
    rintro ⟨_, n, rest, he⟩
    cases he
  exact fun _ => .of_toLocal (r := single "r" ⟨by decide, by decide, by decide, by decide⟩)
    (by decide) rfl hout

theorem namesFit_withDevice (hostname : String) :
    withDevice.NamesFit rootR [.start () hostname] :=
  ⟨allFit_of_mem [.root, fileX] (by decide +kernel) (by decide +kernel), trivial⟩

/-- The directory that held the directory of the file is left, with no file on the disk. -/
theorem not_agrees_winding : ¬(winding.run removal).Agrees rootR Entry.isFile := by
  intro hagrees
  have hregistered : () ∈ (winding.run removal).registered.map Prod.snd := by decide +kernel
  have hleft : ((winding.run removal).disk.get? [[0x72], [0x62]]).any Entry.isDirectory = true := by
    decide +kernel
  have hnone : ∀ x ∈ (winding.run removal).disk.top.flatten, x.2.isFile = false := by
    decide +kernel
  obtain ⟨⟨o, i⟩, hi, -⟩ := List.mem_map.mp hregistered
  rw [Option.any_eq_true] at hleft
  obtain ⟨e, hget, hdir⟩ := hleft
  cases e with
  | directory entries =>
    obtain ⟨below, e, he, hfile⟩ := hagrees.directories o i hi _ entries ⟨[0x62], [], rfl⟩ hget
    cases (hnone _ (mem_flatten he)).symm.trans hfile
  | _ => cases hdir

/-- The tree has the device as a file of the server. -/
theorem not_agrees_withDevice :
    ¬(withDevice.run [.start () "127.0.0.1"]).Agrees rootR Entry.isFile := by
  intro hagrees
  have hlisted : ∃ e ∈ (withDevice.run [.start () "127.0.0.1"]).registered,
      (withDevice.run [.start () "127.0.0.1"]).naming.tree.get? fileX = some (.file e.1) := by
    decide +kernel
  have hnone : ∀ x ∈ (withDevice.run [.start () "127.0.0.1"]).disk.top.flatten,
      x.2.isFile = false := by decide +kernel
  obtain ⟨⟨o, i⟩, hi, hlisted⟩ := hlisted
  obtain ⟨e, he, hfile⟩ := (hagrees.files o i hi fileX.names).mpr ⟨fileX, rfl, hlisted⟩
  cases (hnone _ (mem_flatten he)).symm.trans hfile

/-- The naming service and a disk come apart where a root goes through what is removed, and where
there is a device. When the file `/r/b/x/y` is removed below `/r/b/x/../..`, the directory `/r/b` is
left with nothing in it; a device gets into the tree as if it were a file. -/
theorem run_disagrees :
    (winding.Fresh rootR ∧ winding.NamesFit rootR removal ∧
      (∀ i rest, winding.disk.get? (rootR.place i ++ rest) ≠ some .special) ∧
      (winding.run removal).registered.map Prod.snd = [()] ∧
      ((winding.start () "127.0.0.1").2.ask (.delete Storage.deepPath)).1 = .ok true ∧
      ¬(winding.run removal).Agrees rootR Entry.isFile) ∧
    withDevice.Fresh rootR ∧ withDevice.NamesFit rootR [.start () "127.0.0.1"] ∧
      withDevice.Steady rootR ∧
      (withDevice.run [.start () "127.0.0.1"]).registered.map Prod.snd = [()] ∧
      ¬(withDevice.run [.start () "127.0.0.1"]).Agrees rootR Entry.isFile :=
  ⟨⟨fresh_winding, namesFit_removal, get?_winding_ne_special, by decide +kernel,
      eq_ok_of_toOption (by decide +kernel), not_agrees_winding⟩,
    fresh_withDevice, namesFit_withDevice _, steady_withDevice, by decide +kernel,
    not_agrees_withDevice⟩

end FileCluster.Fleet
