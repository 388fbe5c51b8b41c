import FileCluster.Client
import FileCluster.Proofs.Storage.Bytes

/-!
The pieces in which data is moved.

Pieces follow one another without a gap and end where the data ends (`mem_piecesFrom`,
`length_piecesFrom`). Laid over a content in turn they come to the data followed by what the content
has beyond (`overlays_pieces`); read in turn they come to the whole content (`join_pieces`).
-/

namespace FileCluster

namespace Client

variable {size offset length : Nat}

/-! ## Where the pieces lie -/

theorem piecesFrom_of_le (h : size ≤ offset) : piecesFrom size offset = [] := by
  rw [piecesFrom, if_neg (Nat.not_lt.mpr h)]

theorem piecesFrom_of_lt (h : offset < size) :
    piecesFrom size offset =
      (offset, min pieceSize (size - offset)) ::
        piecesFrom size (offset + min pieceSize (size - offset)) := by
  rw [piecesFrom, if_pos h]

theorem pieceSize_pos : 0 < pieceSize := by decide

/-- No piece is empty or too long, and none goes beyond the end. -/
theorem mem_piecesFrom {piece : Nat × Nat} (h : piece ∈ piecesFrom size offset) :
    offset ≤ piece.1 ∧ 0 < piece.2 ∧ piece.2 ≤ pieceSize ∧ piece.1 + piece.2 ≤ size := by
  induction offset using piecesFrom.induct size with
  | case1 offset hlt length ih =>
    have hpos := pieceSize_pos
    rw [piecesFrom_of_lt hlt, List.mem_cons] at h
    rcases h with rfl | h
    · dsimp only
      omega
    · have hlater := ih h
      omega
  | case2 offset hge =>
    rw [piecesFrom_of_le (Nat.le_of_not_lt hge)] at h
    cases h

theorem length_piecesFrom (size offset : Nat) :
    (piecesFrom size offset).length = (size - offset + (pieceSize - 1)) / pieceSize := by
  induction offset using piecesFrom.induct size with
  | case1 offset hlt length ih =>
    rw [piecesFrom_of_lt hlt, List.length_cons, ih]
    unfold length pieceSize
    omega
  | case2 offset hge =>
    rw [piecesFrom_of_le (Nat.le_of_not_lt hge), Nat.sub_eq_zero_of_le (Nat.le_of_not_lt hge)]
    decide

/-- Every so many bytes a piece begins. -/
theorem exists_piece {k : Nat} (h : offset + k * pieceSize < size) :
    ∃ length, (offset + k * pieceSize, length) ∈ piecesFrom size offset := by
  induction k generalizing offset with
  | zero =>
    rw [Nat.zero_mul, Nat.add_zero] at h ⊢
    rw [piecesFrom_of_lt h]
    exact ⟨_, List.mem_cons_self⟩
  | succ k ih =>
    have hsplit : offset + (k + 1) * pieceSize = offset + pieceSize + k * pieceSize := by
      rw [Nat.succ_mul]
      omega
    rw [hsplit] at h ⊢
    have hfull : min pieceSize (size - offset) = pieceSize := by omega
    obtain ⟨length, hmem⟩ := ih h
    have hpos := pieceSize_pos
    rw [piecesFrom_of_lt (by omega), hfull]
    exact ⟨length, List.mem_cons_of_mem _ hmem⟩

/-! ## Writing pieces -/

variable {data old : ByteArray}

/-- The data up to an offset, and what the old content has from there on. -/
def patched (data old : ByteArray) (offset : Nat) : ByteArray :=
  data.extract 0 offset ++ old.extract offset old.size

theorem patched_zero (data old : ByteArray) : patched data old 0 = old := by
  unfold patched
  rw [ByteArray.extract_same, ByteArray.extract_zero_size, ByteArray.empty_append]

theorem patched_size (data old : ByteArray) :
    patched data old data.size = data ++ old.extract data.size old.size := by
  unfold patched
  rw [ByteArray.extract_zero_size]

theorem size_patched (h : offset ≤ data.size) (old : ByteArray) :
    (patched data old offset).size = offset + (old.size - offset) := by
  unfold patched
  rw [ByteArray.size_append, ByteArray.size_extract, ByteArray.size_extract]
  omega

theorem extract_patched_before (h : offset ≤ data.size) (old : ByteArray) :
    (patched data old offset).extract 0 offset = data.extract 0 offset := by
  have hfront : (data.extract 0 offset).size = offset := by
    rw [ByteArray.size_extract]
    omega
  have hsplit := ByteArray.extract_append_size_left (a := data.extract 0 offset)
    (b := old.extract offset old.size) (i := 0)
  rw [ByteArray.extract_zero_size, hfront] at hsplit
  exact hsplit

theorem extract_patched_after (h : offset ≤ data.size) (old : ByteArray) (length : Nat) :
    (patched data old offset).extract (offset + length) (patched data old offset).size =
      old.extract (offset + length) old.size := by
  have hfront : (data.extract 0 offset).size = offset := by
    rw [ByteArray.size_extract]
    omega
  rw [size_patched h]
  unfold patched
  have hnone : (data.extract 0 offset).extract (offset + length) (offset + (old.size - offset)) =
      .empty := by
    rw [ByteArray.extract_eq_empty_iff, hfront]
    omega
  rw [ByteArray.extract_append, hnone, ByteArray.empty_append, hfront, ByteArray.extract_extract,
    Nat.add_sub_cancel_left, Nat.add_sub_cancel_left]
  have hend : min (offset + (old.size - offset)) old.size = old.size := by omega
  rw [hend]

/-- A piece of the data laid over what the pieces before it have come to. -/
theorem overlay_patched (hpos : 0 < length) (hend : offset + length ≤ data.size) :
    overlay (patched data old offset) offset (data.extract offset (offset + length)) =
      patched data old (offset + length) := by
  have hwithin : offset ≤ data.size := Nat.le_trans (Nat.le_add_right offset length) hend
  have hpiece : (data.extract offset (offset + length)).size = length := by
    rw [ByteArray.size_extract]
    omega
  have hgap : Disk.gap (patched data old offset) offset = .empty := by
    rw [← ByteArray.size_eq_zero_iff, Disk.size_gap, size_patched hwithin]
    omega
  rw [← Disk.overwrite_eq_overlay, Disk.overwrite_eq_append (by omega), hpiece,
    extract_patched_before hwithin, extract_patched_after hwithin, hgap, ByteArray.append_empty,
    ← ByteArray.extract_eq_extract_append_extract offset (Nat.zero_le _) (Nat.le_add_right _ _)]
  rfl

/-- The writes that carry pieces of some data. -/
def writesOf (data : ByteArray) (pieces : List (Nat × Nat)) : List (UInt64 × ByteArray) :=
  pieces.map fun piece => (UInt64.ofNat piece.1, data.extract piece.1 (piece.1 + piece.2))

theorem writesOf_cons (data : ByteArray) (offset length : Nat) (rest : List (Nat × Nat)) :
    writesOf data ((offset, length) :: rest) =
      (UInt64.ofNat offset, data.extract offset (offset + length)) :: writesOf data rest := rfl

/-- Data whose pieces all begin where a file can be written is no longer than a file can be. -/
theorem size_le_of_near
    (h : ∀ w ∈ writesOf data (pieces data.size), w.1.toNat < 0x8000000000000000) :
    data.size ≤ 0x8000000000000000 := by
  refine Nat.le_of_not_lt fun hlong => ?_
  have hstart : 0 + 0x80000000000 * pieceSize = 0x8000000000000000 := by decide
  have hstarts : 0 + 0x80000000000 * pieceSize < data.size := hstart.symm ▸ hlong
  obtain ⟨length, hmem⟩ := exists_piece hstarts
  rw [hstart] at hmem
  have hfar : ¬(UInt64.ofNat (0x8000000000000000)).toNat < 0x8000000000000000 := by decide
  exact hfar (h _ (List.mem_map_of_mem hmem))

/-- The pieces from an offset on put the rest of the data in place, as long as their offsets are
words. -/
theorem overlays_piecesFrom (hwords : data.size ≤ 0x10000000000000000)
    (hoffset : offset ≤ data.size) (old : ByteArray) :
    Storage.overlays (patched data old offset) (writesOf data (piecesFrom data.size offset)) =
      patched data old data.size := by
  induction offset using piecesFrom.induct data.size with
  | case1 offset hlt length ih =>
    have hpos := pieceSize_pos
    have hlength : length = min pieceSize (data.size - offset) := rfl
    have hword : (UInt64.ofNat offset).toNat = offset :=
      UInt64.toNat_ofNat_of_lt' (Nat.lt_of_lt_of_le hlt hwords)
    rw [piecesFrom_of_lt hlt, ← hlength, writesOf_cons, Storage.overlays_cons, hword,
      overlay_patched (by omega) (by omega)]
    exact ih (by omega)
  | case2 offset hge =>
    rw [piecesFrom_of_le (Nat.le_of_not_lt hge), Nat.le_antisymm hoffset (Nat.le_of_not_lt hge)]
    rfl

/-- Data that is written in pieces comes to stand before what the old content has beyond it. -/
theorem overlays_pieces (hwords : data.size ≤ 0x10000000000000000) (old : ByteArray) :
    Storage.overlays old (writesOf data (pieces data.size)) =
      data ++ old.extract data.size old.size := by
  have h := overlays_piecesFrom hwords (Nat.zero_le _) old
  rw [patched_zero, patched_size] at h
  exact h

/-! ## Reading pieces -/

/-- What pieces of a content come to one after the other. -/
def join (c out : ByteArray) (pieces : List (Nat × Nat)) : ByteArray :=
  pieces.foldl (fun out piece => out ++ c.extract piece.1 (piece.1 + piece.2)) out

theorem join_cons (c out : ByteArray) (offset length : Nat) (rest : List (Nat × Nat)) :
    join c out ((offset, length) :: rest) =
      join c (out ++ c.extract offset (offset + length)) rest := rfl

theorem join_piecesFrom (c out : ByteArray) (h : offset ≤ c.size) :
    join c out (piecesFrom c.size offset) = out ++ c.extract offset c.size := by
  induction offset using piecesFrom.induct c.size generalizing out with
  | case1 offset hlt length ih =>
    have hlength : length = min pieceSize (c.size - offset) := rfl
    rw [piecesFrom_of_lt hlt, ← hlength, join_cons, ih _ (by omega), ByteArray.append_assoc,
      ← ByteArray.extract_eq_extract_append_extract (offset + length) (Nat.le_add_right _ _)
        (by omega)]
  | case2 offset hge =>
    rw [piecesFrom_of_le (Nat.le_of_not_lt hge), Nat.le_antisymm h (Nat.le_of_not_lt hge),
      ByteArray.extract_same, ByteArray.append_empty]
    rfl

/-- The pieces of a content come to the content. -/
theorem join_pieces (c : ByteArray) : join c .empty (pieces c.size) = c := by
  unfold pieces
  rw [join_piecesFrom c .empty (Nat.zero_le _), ByteArray.extract_zero_size, ByteArray.empty_append]

/-- A piece of a file is there to be read. -/
theorem read_piece {root : String} {d : Disk} {p : Path} {c : ByteArray}
    (hc : Storage.content root d p = .ok c) (hsmall : c.size < 0x10000000000000000)
    (h : offset + length ≤ c.size) :
    Storage.read root d p (UInt64.ofNat offset) (UInt64.ofNat length) =
      .ok (c.extract offset (offset + length)) := by
  have hword : ∀ n, n ≤ c.size → (UInt64.ofNat n).toNat = n := fun n hn =>
    UInt64.toNat_ofNat_of_lt' (Nat.lt_of_le_of_lt hn hsmall)
  have hoffset := hword offset (by omega)
  have hlength := hword length (by omega)
  have hthere : (UInt64.ofNat offset).toNat + (UInt64.ofNat length).toNat ≤ c.size := by omega
  rw [Storage.read_of_content hc hsmall, dif_pos hthere, ← Storage.extract_eq_slice, hoffset,
    hlength]

end Client

end FileCluster
