import FileCluster.Proofs.Storage.Below
import FileCluster.Storage.Service

/-!
What requests about the data of files do to the disk of a storage service.

Only a write changes anything, and only the content of one regular file below the root
(`write_spec`).
-/

namespace FileCluster.Storage

open Disk

variable {d d' : Disk} {within : Place → Prop} {root : String} {R : Place} {p : Path}

/-- A write changes the content of a regular file below the root, if anything. -/
structure Written (d d' : Disk) (R : Place) : Prop where
  kept : ∀ q, d'.look q = d.look q ∨
    Beneath R q ∧ ∃ old new, d.look q = some (.file old) ∧ d'.look q = some (.file new)

theorem Written.refl (d : Disk) (R : Place) : Written d d R := ⟨fun _ => Or.inl rfl⟩

theorem write_spec (hd : Rooted d within root R) (p : Path) (offset : UInt64) (data : ByteArray) :
    Written d (write root d p offset data).2 R := by
  unfold write
  split
  · exact .refl d R
  · rename_i hcontent
    split
    · rename_i d' hwrite
      have hp : p ≠ .root := by
        rintro rfl
        cases hcontent
      unfold writeFile at hwrite
      split at hwrite
      · rename_i place old hr
        split at hwrite
        · cases hwrite
        · cases hwrite
          obtain ⟨rfl, hget⟩ := hd.leads.place_of_resolve hp hd.noLinks hr
          have hold : d.look (R ++ p.names) = some (.file old) := look_of_get? hget
          have hlook := look_replaceAt hp hold rfl (.file (overwrite old offset.toNat data))
            (fun _ _ => rfl)
          refine ⟨fun q => ?_⟩
          by_cases hq : q = R ++ p.names
          · subst hq
            exact Or.inr ⟨beneath_names hp, old, _, hold, by rw [hlook, if_pos rfl]; rfl⟩
          · exact Or.inl (by rw [hlook, if_neg hq])
      · cases hwrite
      · cases hwrite
        exact .refl d R
      · cases hwrite
      · cases hwrite
    · exact .refl d R

/-- A write leaves what is no regular file as it was. -/
theorem Written.look_eq_some_iff (h : Written d d' R) {q : Place} {e : Entry}
    (he : e.isFile = false) : d'.look q = some e ↔ d.look q = some e := by
  rcases h.kept q with hk | ⟨-, old, new, hold, hnew⟩
  · rw [hk]
  · rw [hold, hnew]
    constructor
    · rintro ⟨⟩
      cases he
    · rintro ⟨⟩
      cases he

theorem Written.look_eq_none_iff (h : Written d d' R) {q : Place} :
    d'.look q = none ↔ d.look q = none := by
  rcases h.kept q with hk | ⟨-, old, new, hold, hnew⟩
  · rw [hk]
  · simp [hold, hnew]

/-- The same files. -/
theorem Written.mirrors {files : Path → Prop} (h : Written d d' R) (hd : Mirrors d R files) :
    Mirrors d' R files := by
  refine ⟨fun q => ?_, fun rest hrest => hd.named rest (mt h.look_eq_none_iff.mpr hrest)⟩
  rw [← hd.file q]
  unfold IsFileAt
  rcases h.kept (R ++ q.names) with hk | ⟨-, old, new, hold, hnew⟩
  · rw [hk]
  · exact iff_of_true ⟨_, hnew, rfl⟩ ⟨_, hold, rfl⟩

theorem Written.changed (h : Written d d' R) : ChangedBelow d d' R where
  outside q hq := by
    rcases h.kept q with hk | hk
    · exact hk
    · exact absurd hk.1 hq
  leaf q e he _ := by
    rcases h.kept q with hk | ⟨-, old, new, -, hnew⟩
    · exact Or.inl (hk ▸ he)
    · rw [hnew] at he
      cases he
      exact Or.inr rfl
  populated hpop q hq hdir := by
    obtain ⟨n, hn⟩ := hpop q hq ((h.look_eq_some_iff rfl).mp hdir)
    exact ⟨n, mt h.look_eq_none_iff.mp hn⟩

end FileCluster.Storage
