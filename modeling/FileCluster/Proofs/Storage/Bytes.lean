import FileCluster.Proofs.Disk.Contents
import FileCluster.Proofs.Storage.Data

/-!
Files as arrays of bytes.

A write lays its data over what a file holds (`overlay`), which is told byte by byte, and a read
gives a stretch of it (`slice`). Main statement: after any writes that succeed a file answers as the
array does over whose bytes their data have been laid in turn, and nothing else has changed
(`becomes_overlays`).
-/

namespace FileCluster

/-! ## Laying data over a content -/

/-- A content with data laid over it from an offset on, byte by byte: where the data do not reach
the content stays, and zeros fill what neither has. No data leave the content alone. -/
def overlay (old : ByteArray) (offset : Nat) (data : ByteArray) : ByteArray :=
  if data.size = 0 then old
  else
    ⟨Array.ofFn fun i : Fin (max old.size (offset + data.size)) =>
      if h : offset ≤ i ∧ i < offset + data.size then data[i - offset]
      else if h : i < old.size then old[i] else 0⟩

variable {old data : ByteArray} {offset : Nat}

theorem overlay_of_empty (h : data.size = 0) : overlay old offset data = old := if_pos h

theorem size_overlay (h : data.size ≠ 0) :
    (overlay old offset data).size = max old.size (offset + data.size) := by
  unfold overlay
  rw [if_neg h]
  exact Array.size_ofFn

theorem size_overlay_lt (hold : old.size < 0x10000000000000000)
    (hoffset : offset < 0x8000000000000000) (hdata : data.size ≤ 0x8000000000000000) :
    (overlay old offset data).size < 0x10000000000000000 := by
  by_cases h : data.size = 0
  · rw [overlay_of_empty h]
    exact hold
  · rw [size_overlay h]
    omega

theorem getElem_overlay (h : data.size ≠ 0) {i : Nat} (hi : i < (overlay old offset data).size) :
    (overlay old offset data)[i] =
      if h : offset ≤ i ∧ i < offset + data.size then data[i - offset]
      else if h : i < old.size then old[i] else 0 := by
  unfold overlay at hi ⊢
  simp only [if_neg h] at hi ⊢
  exact Array.getElem_ofFn _

namespace Disk

/-- The zeros between the end of a content and an offset. -/
def gap (old : ByteArray) (offset : Nat) : ByteArray := ⟨Array.replicate (offset - old.size) 0⟩

theorem size_gap (old : ByteArray) (offset : Nat) : (gap old offset).size = offset - old.size :=
  Array.size_replicate

theorem getElem_gap {i : Nat} (hi : i < (gap old offset).size) : (gap old offset)[i] = 0 :=
  Array.getElem_replicate _

/-- What is overwritten, filled up to the offset. -/
theorem size_filled (old : ByteArray) (offset : Nat) :
    (old.extract 0 offset ++ gap old offset).size = offset := by
  rw [ByteArray.size_append, ByteArray.size_extract, size_gap]
  omega

theorem getElem_filled {i : Nat} (hi : i < (old.extract 0 offset ++ gap old offset).size) :
    (old.extract 0 offset ++ gap old offset)[i] = if h : i < old.size then old[i] else 0 := by
  have hlt : i < offset := Nat.lt_of_lt_of_eq hi (size_filled old offset)
  by_cases h : i < old.size
  · have hleft : i < (old.extract 0 offset).size := by
      rw [ByteArray.size_extract]
      omega
    rw [dif_pos h, ByteArray.getElem_append_left hleft, ByteArray.getElem_extract]
    exact getElem_congr_idx (Nat.zero_add i)
  · have hright : (old.extract 0 offset).size ≤ i := by
      rw [ByteArray.size_extract]
      omega
    rw [dif_neg h, ByteArray.getElem_append_right hright, getElem_gap]

theorem overwrite_eq_append (h : data.size ≠ 0) :
    overwrite old offset data =
      old.extract 0 offset ++ gap old offset ++ data ++
        old.extract (offset + data.size) old.size := if_neg h

theorem overwrite_eq_overlay (old : ByteArray) (offset : Nat) (data : ByteArray) :
    overwrite old offset data = overlay old offset data := by
  by_cases h : data.size = 0
  · rw [overlay_of_empty h]
    exact if_pos h
  have hfilled := size_filled old offset
  have hsize : (overwrite old offset data).size = (overlay old offset data).size := by
    rw [size_overlay h, overwrite_eq_append h, ByteArray.size_append, ByteArray.size_append,
      hfilled, ByteArray.size_extract]
    omega
  refine ByteArray.ext_getElem hsize fun i hi hi' => ?_
  have hend : (old.extract 0 offset ++ gap old offset ++ data).size = offset + data.size := by
    rw [ByteArray.size_append, hfilled]
  rw [getElem_overlay h]
  simp only [overwrite_eq_append h]
  by_cases hlt : i < offset + data.size
  · rw [ByteArray.getElem_append_left (Nat.lt_of_lt_of_eq hlt hend.symm)]
    by_cases hge : offset ≤ i
    · rw [dif_pos ⟨hge, hlt⟩,
        ByteArray.getElem_append_right (Nat.le_trans (Nat.le_of_eq hfilled) hge)]
      exact getElem_congr_idx (congrArg (i - ·) hfilled)
    · rw [dif_neg fun hin => hge hin.1,
        ByteArray.getElem_append_left
          (Nat.lt_of_lt_of_eq (Nat.lt_of_not_le hge) hfilled.symm), getElem_filled]
  · have hold : i < old.size := by
      rw [size_overlay h] at hi'
      omega
    rw [dif_neg fun hin => hlt hin.2, dif_pos hold,
      ByteArray.getElem_append_right (Nat.le_trans (Nat.le_of_eq hend) (Nat.le_of_not_lt hlt)),
      ByteArray.getElem_extract]
    refine getElem_congr_idx ?_
    rw [hend]
    omega

end Disk

namespace Storage

open Disk

variable {d d' : Disk} {root : String} {R : Place} {p : Path}

/-! ## The content of a file -/

/-- A file has a content if its local path leads to a regular file. -/
theorem content_eq_ok_iff :
    content root d p = .ok c ↔
      p ≠ .root ∧ ∃ q, d.resolve true (p.toLocal root) = .ok (.found q (.file c)) := by
  by_cases hp : p = .root
  · unfold content
    rw [if_pos (Path.isRoot_iff.mpr hp)]
    exact iff_of_false nofun fun h => h.1 hp
  · unfold content entry
    rw [if_neg (mt Path.isRoot_iff.mp hp)]
    constructor
    · intro h
      refine ⟨hp, ?_⟩
      cases hr : d.resolve true (p.toLocal root) with
      | error cause =>
        rw [hr] at h
        cases h
      | ok target =>
        rw [hr] at h
        cases target with
        | missing dir n => cases h
        | found q e =>
          cases e with
          | file c' =>
            cases h
            exact ⟨q, rfl⟩
          | _ => cases h
    · rintro ⟨-, q, hr⟩
      rw [hr]

/-- What has no content is not found. -/
theorem content_eq_error (h : ∀ c, content root d p ≠ .ok c) :
    content root d p = .error (.notFound p) := by
  cases hc : content root d p with
  | ok c => exact absurd hc (h c)
  | error e =>
    unfold content at hc
    split at hc
    · exact hc.symm
    · split at hc
      · cases hc
      · exact hc.symm

/-- The content of a file whose local path leads to the same place, where nothing has changed. -/
theorem content_congr (hsame : d.SameForm d') (hc : content root d p = .ok c)
    (hkept : ∀ q, d.resolve true (p.toLocal root) = .ok (.found q (.file c)) →
      d'.look q = d.look q) : content root d' p = .ok c := by
  obtain ⟨hp, q, hr⟩ := content_eq_ok_iff.mp hc
  obtain ⟨e, hr', -⟩ := hsame.resolve hr
  have hlook := hkept q hr
  rw [look_of_get? (get?_of_resolve hr)] at hlook
  have hget := (look_eq_some_iff rfl).mp hlook
  rw [get?_of_resolve hr'] at hget
  cases hget
  exact content_eq_ok_iff.mpr ⟨hp, q, hr'⟩

/-- Below a root without links a change of contents at other places leaves a file as it was. -/
theorem content_of_kept (hleads : d.Leads root R) (hlinks : d.NoLinks R) (hsame : d.SameForm d')
    (hkept : d'.look (R ++ p.names) = d.look (R ++ p.names)) :
    content root d' p = content root d p := by
  by_cases h : ∃ c, content root d p = .ok c
  · obtain ⟨c, hc⟩ := h
    rw [hc]
    refine content_congr hsame hc fun q hr => ?_
    rw [(hleads.place_of_resolve (content_eq_ok_iff.mp hc).1 hlinks hr).1]
    exact hkept
  · rw [not_exists] at h
    rw [content_eq_error h]
    refine content_eq_error fun c hc => h c ?_
    refine content_congr hsame.symm hc fun q hr => ?_
    rw [((hsame.leads hleads).place_of_resolve (content_eq_ok_iff.mp hc).1 (hsame.noLinks hlinks)
      hr).1]
    exact hkept.symm

/-! ## Writing -/

/-- A write to a file lays its data over the content; only offsets that no file has are refused. -/
theorem write_of_content {q : Place} (hp : p ≠ .root)
    (hr : d.resolve true (p.toLocal root) = .ok (.found q (.file c))) (offset : UInt64)
    (data : ByteArray) :
    write root d p offset data =
      if 0x8000000000000000 ≤ offset.toNat then (.error (.ofIo .invalidArgument), d)
      else (.ok (), d.put q (some (.file (overlay c offset.toNat data)))) := by
  unfold write writeFile
  rw [content_eq_ok_iff.mpr ⟨hp, q, hr⟩, hr]
  dsimp only
  by_cases hfar : 0x8000000000000000 ≤ offset.toNat
  · rw [if_pos hfar, if_pos hfar]
  · rw [if_neg hfar, if_neg hfar, overwrite_eq_overlay]

/-- A content with data laid over it in turn. -/
def overlays (c : ByteArray) (writes : List (UInt64 × ByteArray)) : ByteArray :=
  writes.foldl (fun c w => overlay c w.1.toNat w.2) c

theorem overlays_cons (c : ByteArray) (offset : UInt64) (data : ByteArray)
    (rest : List (UInt64 × ByteArray)) :
    overlays c ((offset, data) :: rest) = overlays (overlay c offset.toNat data) rest := rfl

/-- Files stay small enough for their lengths to be told. -/
theorem size_overlays_lt {writes : List (UInt64 × ByteArray)} (hc : c.size < 0x10000000000000000)
    (hnear : ∀ w ∈ writes, w.1.toNat < 0x8000000000000000)
    (hdata : ∀ w ∈ writes, w.2.size ≤ 0x8000000000000000) :
    (overlays c writes).size < 0x10000000000000000 := by
  induction writes generalizing c with
  | nil => exact hc
  | cons w writes ih =>
    rw [List.forall_mem_cons] at hnear hdata
    exact ih (size_overlay_lt hc hnear.1 hdata.1) hnear.2 hdata.2

/-- Writes to a file in turn, each of which succeeds, lead from one disk to another. -/
inductive Writes (root : String) (p : Path) : Disk → List (UInt64 × ByteArray) → Disk → Prop
  | none (d : Disk) : Writes root p d [] d
  | write {d d' d'' : Disk} {offset : UInt64} {data : ByteArray} {rest : List (UInt64 × ByteArray)}
      (first : write root d p offset data = (.ok (), d')) (later : Writes root p d' rest d'') :
      Writes root p d ((offset, data) :: rest) d''

/-- What writes to the file at a place come to, from one disk to another. -/
structure Overlaid (root : String) (p : Path) (q : Place) (d : Disk)
    (writes : List (UInt64 × ByteArray)) (d' : Disk) (c : ByteArray) : Prop where
  near : ∀ w ∈ writes, w.1.toNat < 0x8000000000000000
  resolve : d'.resolve true (p.toLocal root) = .ok (.found q (.file (overlays c writes)))
  sameForm : d.SameForm d'
  elsewhere : ∀ r, r ≠ q → d'.look r = d.look r

theorem overlaid_of_write {q : Place} (hp : p ≠ .root)
    (hr : d.resolve true (p.toLocal root) = .ok (.found q (.file c))) {offset : UInt64}
    (h : write root d p offset data = (.ok (), d')) :
    Overlaid root p q d [(offset, data)] d' c := by
  have hget := get?_of_resolve hr
  rw [write_of_content hp hr] at h
  split at h
  · cases h
  · rename_i hnear
    cases h
    have hsame := SameForm.put_file hget (overlay c offset.toNat data)
    have hlook := look_put_file hget (overlay c offset.toNat data)
    obtain ⟨e, hr', -⟩ := hsame.resolve hr
    have hnew : (d.put q (some (.file (overlay c offset.toNat data)))).get? q =
        some (.file (overlay c offset.toNat data)) := by
      refine (look_eq_some_iff rfl).mp ?_
      rw [hlook, if_pos rfl]
    rw [get?_of_resolve hr'] at hnew
    cases hnew
    refine ⟨?_, hr', hsame, fun r hne => by rw [hlook, if_neg hne]⟩
    intro w hw
    rw [List.mem_singleton.mp hw]
    exact Nat.lt_of_not_le hnear

theorem overlaid_of_writes {writes : List (UInt64 × ByteArray)} {q : Place} (hp : p ≠ .root)
    (hr : d.resolve true (p.toLocal root) = .ok (.found q (.file c)))
    (h : Writes root p d writes d') : Overlaid root p q d writes d' c := by
  induction h generalizing c with
  | none d => exact ⟨fun _ hw => absurd hw List.not_mem_nil, hr, .refl d, fun _ _ => rfl⟩
  | write first later ih =>
    have hfirst := overlaid_of_write hp hr first
    have hlater := ih hfirst.resolve
    exact
      { near := List.forall_mem_cons.mpr ⟨hfirst.near _ (List.mem_singleton_self _), hlater.near⟩
        resolve := hlater.resolve
        sameForm := hfirst.sameForm.trans hlater.sameForm
        elsewhere := fun r hne => (hlater.elsewhere r hne).trans (hfirst.elsewhere r hne) }

/-! ## Reading -/

/-- The bytes of a content from an offset on. -/
def slice (bytes : ByteArray) (offset length : Nat) (h : offset + length ≤ bytes.size) :
    ByteArray :=
  ⟨Array.ofFn fun i : Fin length => bytes[offset + i]⟩

theorem extract_eq_slice {offset length : Nat} (h : offset + length ≤ c.size) :
    c.extract offset (offset + length) = slice c offset length h := by
  have hsize : (slice c offset length h).size = length := Array.size_ofFn
  have hextract : (c.extract offset (offset + length)).size = length := by
    rw [ByteArray.size_extract]
    omega
  refine ByteArray.ext_getElem (hextract.trans hsize.symm) fun i hi hi' => ?_
  rw [ByteArray.getElem_extract]
  unfold slice at hi' ⊢
  exact (Array.getElem_ofFn hi').symm

theorem size_of_content (hc : content root d p = .ok c) (hsmall : c.size < 0x10000000000000000) :
    ∃ n, size root d p = .ok n ∧ n.toNat = c.size := by
  unfold size
  rw [hc]
  exact ⟨_, rfl, UInt64.toNat_ofNat_of_lt' hsmall⟩

/-- The end of bytes is a word exactly if the sum does not wrap. -/
theorem stop?_eq_some {offset length : UInt64}
    (h : offset.toNat + length.toNat < 0x10000000000000000) :
    ∃ stop, stop? offset length = some stop ∧ stop.toNat = offset.toNat + length.toNat := by
  have hsum : (offset + length).toNat = offset.toNat + length.toNat := by
    rw [UInt64.toNat_add, Nat.mod_eq_of_lt h]
  refine ⟨offset + length, ?_, hsum⟩
  unfold stop?
  refine if_neg fun hlt => ?_
  rw [UInt64.lt_iff_toNat_lt, hsum] at hlt
  omega

theorem stop?_eq_none {offset length : UInt64}
    (h : 0x10000000000000000 ≤ offset.toNat + length.toNat) :
    stop? offset length = none := by
  have hoffset := offset.toNat_lt
  have hlength := length.toNat_lt
  have hsum : (offset + length).toNat = offset.toNat + length.toNat - 0x10000000000000000 := by
    rw [UInt64.toNat_add]
    omega
  unfold stop?
  refine if_pos ?_
  rw [UInt64.lt_iff_toNat_lt, hsum]
  omega

/-- Bytes are read exactly if all of them are there, whether or not the sum wraps. -/
theorem read_of_content (hc : content root d p = .ok c) (hsmall : c.size < 0x10000000000000000)
    (offset length : UInt64) :
    read root d p offset length =
      if h : offset.toNat + length.toNat ≤ c.size then .ok (slice c offset.toNat length.toNat h)
      else .error (.outOfBounds p offset length (UInt64.ofNat c.size)) := by
  unfold read
  rw [hc]
  dsimp only
  by_cases hword : offset.toNat + length.toNat < 0x10000000000000000
  · obtain ⟨stop, hstop, hsum⟩ := stop?_eq_some hword
    rw [hstop]
    dsimp only
    by_cases h : offset.toNat + length.toNat ≤ c.size
    · rw [if_neg (by omega), dif_pos h, hsum, extract_eq_slice h]
    · rw [if_pos (by omega), dif_neg h]
  · rw [stop?_eq_none (Nat.le_of_not_lt hword), dif_neg (by omega)]

/-! ## A file as an array of bytes -/

/-- What a file below a root has become, and what has become of the rest of the disk. Lengths are
told in words; no file is longer than they can tell. -/
structure Becomes (root : String) (R : Place) (p : Path) (d d' : Disk) (c : ByteArray) : Prop where
  /-- it holds the bytes -/
  content : content root d' p = .ok c
  /-- its size is their number -/
  size : c.size < 0x10000000000000000 → ∃ n, size root d' p = .ok n ∧ n.toNat = c.size
  /-- bytes are read exactly if all of them are there, whether or not the sum is a word -/
  read : c.size < 0x10000000000000000 → ∀ offset length, read root d' p offset length =
    if h : offset.toNat + length.toNat ≤ c.size then .ok (slice c offset.toNat length.toNat h)
    else .error (.outOfBounds p offset length (UInt64.ofNat c.size))
  /-- asking for the size or for bytes changes nothing -/
  idle : ∀ r : StorageRequest, (∀ p offset data, r ≠ .write p offset data) →
    (answer root d' r).2 = d'
  /-- nothing else on the disk has changed -/
  elsewhere : ∀ q, q ≠ R ++ p.names → d'.look q = d.look q
  /-- every other path has the content that it had, if any -/
  others : ∀ p', p' ≠ p → Storage.content root d' p' = Storage.content root d p'

theorem answer_of_not_write {r : StorageRequest} (h : ∀ p offset data, r ≠ .write p offset data)
    (root : String) (d : Disk) : (answer root d r).2 = d := by
  cases r with
  | size p => rfl
  | read p offset length => rfl
  | write p offset data => exact absurd rfl (h p offset data)

theorem becomes_of_overlaid (hleads : d.Leads root R) (hlinks : d.NoLinks R) (hp : p ≠ .root)
    {q : Place} (hr : d.resolve true (p.toLocal root) = .ok (.found q (.file c)))
    {writes : List (UInt64 × ByteArray)} (h : Overlaid root p q d writes d' c) :
    Becomes root R p d d' (overlays c writes) := by
  obtain ⟨rfl, -⟩ := hleads.place_of_resolve hp hlinks hr
  have hnew := content_eq_ok_iff.mpr ⟨hp, _, h.resolve⟩
  exact
    { content := hnew
      size := size_of_content hnew
      read := read_of_content hnew
      idle := fun r hr => answer_of_not_write hr root d'
      elsewhere := h.elsewhere
      others := fun p' hp' => content_of_kept hleads hlinks h.sameForm
        (h.elsewhere _ fun he => hp' (Path.names_injective (List.append_cancel_left he))) }

/-- Whatever is written to a file, it becomes the array of bytes that lays the data over the old
content in turn. -/
theorem becomes_overlays (hleads : d.Leads root R) (hlinks : d.NoLinks R)
    (hc : content root d p = .ok c) {writes : List (UInt64 × ByteArray)}
    (h : Writes root p d writes d') :
    Becomes root R p d d' (overlays c writes) ∧
      (c.size < 0x10000000000000000 → (∀ w ∈ writes, w.2.size ≤ 0x8000000000000000) →
        (overlays c writes).size < 0x10000000000000000) := by
  obtain ⟨hp, q, hr⟩ := content_eq_ok_iff.mp hc
  have hoverlaid := overlaid_of_writes hp hr h
  exact ⟨becomes_of_overlaid hleads hlinks hp hr hoverlaid,
    fun hsmall hdata => size_overlays_lt hsmall hoverlaid.near hdata⟩

/-- A disk with one file below one directory. -/
def oneFile (c : ByteArray) : Disk := ⟨[([0x61], .directory [([0x78], .file c)])]⟩

theorem leads_oneFile (c : ByteArray) : (oneFile c).Leads "/a" [[0x61]] :=
  ⟨[([0x78], .file c)], rfl⟩

theorem noLinks_oneFile (c : ByteArray) : (oneFile c).NoLinks [[0x61]] := by
  rintro _ t ⟨n, rest, rfl⟩ hl
  have hget : (Entry.directory [([0x78], .file c)]).get? (n :: rest) = some (.link t) :=
    (look_eq_some_iff rfl).mp hl
  rw [Entry.get?_directory_cons, Sorted.lookup] at hget
  split at hget
  · cases rest <;> cases hget
  · cases hget

/-- The path of the file. -/
def pathX : Path :=
  ⟨["x"], fun _ hc => List.mem_singleton.mp hc ▸ ⟨by decide, by decide, by decide, by decide⟩⟩

/-- A write that leaves a gap, one of nothing, and one over the old end. -/
def someWrites : List (UInt64 × ByteArray) := [(3, ⟨#[4, 5]⟩), (9, ⟨#[]⟩), (0, ⟨#[6, 7]⟩)]

/-- The disk after the writes. -/
def writtenDisk : Disk :=
  someWrites.foldl (fun d w => (write "/a" d pathX w.1 w.2).2) (oneFile ⟨#[1]⟩)

theorem becomes_overlays_someWrites :
    (oneFile ⟨#[1]⟩).Leads "/a" [[0x61]] ∧ (oneFile ⟨#[1]⟩).NoLinks [[0x61]] ∧
      content "/a" (oneFile ⟨#[1]⟩) pathX = .ok ⟨#[1]⟩ ∧
      Writes "/a" pathX (oneFile ⟨#[1]⟩) someWrites writtenDisk ∧
      Becomes "/a" [[0x61]] pathX (oneFile ⟨#[1]⟩) writtenDisk ⟨#[6, 7, 0, 4, 5]⟩ := by
  have hc : content "/a" (oneFile ⟨#[1]⟩) pathX = .ok ⟨#[1]⟩ := rfl
  have hw : Writes "/a" pathX (oneFile ⟨#[1]⟩) someWrites writtenDisk :=
    .write rfl (.write rfl (.write rfl (.none _)))
  have hbytes : overlays ⟨#[1]⟩ someWrites = ⟨#[6, 7, 0, 4, 5]⟩ := by decide
  have hbecomes := (becomes_overlays (leads_oneFile _) (noLinks_oneFile _) hc hw).1
  rw [hbytes] at hbecomes
  exact ⟨leads_oneFile _, noLinks_oneFile _, hc, hw, hbecomes⟩

end Storage

end FileCluster
