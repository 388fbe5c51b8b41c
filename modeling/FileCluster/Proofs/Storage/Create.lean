import FileCluster.Proofs.Storage.Below
import FileCluster.Storage.Service

/-!
What making a file does to the disk of a storage service.

Below a root that is a directory without links, making the directories above a path makes those that
are missing, from the top down to the first name that is too long (`createDirectories_open`), or
nothing if a file is in the way or a local path is refused as a whole
(`createDirectories_not_open`). `create` makes a file at a free place, and those of the directories
above it that are missing (`create_spec`); it makes nothing else, and the directories that it makes
hold something.
-/

namespace FileCluster

open Disk

variable {d d' : Disk} {within : Place → Prop} {root : String} {R : Place} {p a : Path}

/-! ## Making directories -/

theorem createDirectory_missing {path : String} {dir : Place} {n : Name}
    (h : d.resolveNew path = .ok (.missing dir n)) :
    d.createDirectory path = .ok (d.put (dir ++ [n]) (some .emptyDirectory)) := by
  unfold createDirectory putNew
  rw [h]

theorem createDirectory_found {path : String} {q : Place} {e : Entry}
    (h : d.resolveNew path = .ok (.found q e)) : d.createDirectory path = .error .fileExists := by
  unfold createDirectory putNew
  rw [h]

theorem createDirectory_error {path : String} {cause : IoError}
    (h : d.resolveNew path = .error cause) : d.createDirectory path = .error cause := by
  unfold createDirectory putNew
  rw [h]

/-- Where nothing is found there is no directory. -/
theorem isDirectory_of_error {path : String} {cause : IoError}
    (h : d.resolveNew path = .error cause) : d.isDirectory path = false := by
  rw [← Bool.not_eq_true]
  intro hdir
  obtain ⟨q, e, hr⟩ := found_of_isDirectory hdir
  rw [h] at hr
  cases hr

section

variable {path : String} {parents : List String} {cause : IoError} {d₁ : Disk}

/-- A directory that is there need not be made. -/
theorem createDirectories_there {q : Place} {e : Entry}
    (h : d.resolveNew path = .ok (.found q e)) (hdir : d.isDirectory path = true) :
    d.createDirectories (path :: parents) = (.ok (), d) := by
  rw [createDirectories, createDirectory_found h]
  simp [hdir]

/-- No directory is made where there is something else. -/
theorem createDirectories_occupied {q : Place} {e : Entry}
    (h : d.resolveNew path = .ok (.found q e)) (hno : d.isDirectory path = false) :
    d.createDirectories (path :: parents) = (.error .fileExists, d) := by
  rw [createDirectories, createDirectory_found h]
  simp [hno]

theorem createDirectories_made (h : d.createDirectory path = .ok d') :
    d.createDirectories (path :: parents) = (.ok (), d') := by
  rw [createDirectories, h]

/-- Nothing is made if the first path is refused, unless because nothing is there. -/
theorem createDirectories_refused (h : d.resolveNew path = .error cause)
    (hcause : cause ≠ .noSuchFile) :
    d.createDirectories (path :: parents) = (.error cause, d) := by
  rw [createDirectories, createDirectory_error h]
  split
  next he => cases he
  next he => exact absurd (Except.error.inj he) hcause
  next he =>
    cases he
    simp [isDirectory_of_error h]

/-- The directories above are made first, if they are missing. -/
theorem createDirectories_after (h : d.resolveNew path = .error .noSuchFile)
    (habove : d.createDirectories parents = (.ok (), d₁))
    (hmade : d₁.createDirectory path = .ok d') :
    d.createDirectories (path :: parents) = (.ok (), d') := by
  rw [createDirectories, createDirectory_error h]
  dsimp only
  rw [habove]
  dsimp only
  rw [hmade]

/-- The path is not made if the directories above cannot be. -/
theorem createDirectories_above_failed (h : d.resolveNew path = .error .noSuchFile)
    (habove : d.createDirectories parents = (.error cause, d₁)) :
    d.createDirectories (path :: parents) = (.error cause, d₁) := by
  rw [createDirectories, createDirectory_error h]
  dsimp only
  rw [habove]

/-- The directories above stay made if the path cannot be. -/
theorem createDirectories_after_refused (h : d.resolveNew path = .error .noSuchFile)
    (habove : d.createDirectories parents = (.ok (), d₁))
    (hrefused : d₁.resolveNew path = .error cause) :
    d.createDirectories (path :: parents) = (.error cause, d₁) := by
  rw [createDirectories, createDirectory_error h]
  dsimp only
  rw [habove]
  dsimp only
  rw [createDirectory_error hrefused]
  simp [isDirectory_of_error hrefused]

end

namespace Storage

theorem directoriesAbove_of_parent (root : String) (ha : p.parent? = some a) (hne : a ≠ .root) :
    directoriesAbove root p = a.toLocal root :: directoriesAbove root a := by
  unfold directoriesAbove
  rw [Path.ancestors_of_child ha hne, List.reverse_append]
  rfl

theorem directoriesAbove_of_root (ha : p.parent? = some .root) (hne : root ≠ "") :
    ∃ above, directoriesAbove root p = root :: above := by
  have hlen : root.length ≠ 0 := by
    intro he
    exact hne (String.ext (List.length_eq_zero_iff.mp (by simpa using he)))
  obtain ⟨fuel, hfuel⟩ := Nat.exists_eq_succ_of_ne_zero hlen
  unfold directoriesAbove
  rw [Path.ancestors_of_root ha, hfuel, localParents, if_neg hne]
  cases localParent? root <;> exact ⟨_, rfl⟩

/-- The directories above a path can be made, as far as no name is too long. -/
structure Open (root : String) (d : Disk) (R : Place) (p : Path) : Prop where
  clear : Clear d R p
  whole : ∀ a ∈ p.ancestors, a.Whole root

/-- The directories above a path as they are after a change that makes them, as far as no name is
too long. -/
structure MadeAbove (d d' : Disk) (R : Place) (p : Path) : Prop where
  above : ∀ a ∈ p.ancestors, a.Short → d'.look (R ++ a.names) = some .emptyDirectory
  elsewhere : ∀ q, (∀ a ∈ p.ancestors, a.Short → q ≠ R ++ a.names) → d'.look q = d.look q
  same : (∀ a ∈ p.ancestors, a.Short → d.look (R ++ a.names) ≠ none) → d' = d

theorem Open.parent (h : Open root d R p) (ha : p.parent? = some a) (hne : a ≠ .root) :
    Open root d R a where
  clear b hb := h.clear b (by simp [Path.ancestors_of_child ha hne, hb])
  whole b hb := h.whole b (by simp [Path.ancestors_of_child ha hne, hb])

/-- No name above a path is too long if none of its parent is. -/
theorem short_ancestors_iff (ha : p.parent? = some a) (hne : a ≠ .root) :
    (∀ x ∈ p.ancestors, x.Short) ↔ a.Short := by
  constructor
  · intro hshort
    exact hshort a (Path.parent_mem_ancestors ha hne)
  · intro hshort x hx
    exact hshort.above (Path.prefix_parent_of_mem ha hx)

namespace MadeAbove

/-- Nothing needs to be made if it is there. -/
theorem of_there (h : ∀ a ∈ p.ancestors, a.Short → d.look (R ++ a.names) = some .emptyDirectory) :
    MadeAbove d d R p :=
  ⟨h, fun _ _ => rfl, fun _ => rfl⟩

/-- What stands at the path itself is left alone. -/
theorem look_self (h : MadeAbove d d' R p) : d'.look (R ++ p.names) = d.look (R ++ p.names) := by
  refine h.elsewhere _ fun a ha _ he => ?_
  obtain rfl := Path.names_injective (List.append_cancel_left he)
  exact (Path.mem_ancestors.mp ha).2.2 rfl

/-- Nothing needs to be made above a path whose parent is there. -/
theorem of_parent (ha : p.parent? = some a)
    (hdir : d.look (R ++ a.names) = some .emptyDirectory) : MadeAbove d d R p :=
  .of_there fun _ hb _ => look_of_above hdir (Path.prefix_parent_of_mem ha hb)

theorem look_parent (h : MadeAbove d d' R p) (hR : d'.look R = some .emptyDirectory)
    (ha : p.parent? = some a) (hshort : a.Short) :
    d'.look (R ++ a.names) = some .emptyDirectory := by
  by_cases hroot : a = .root
  · subst hroot
    rwa [Path.names_eq_nil_iff.mpr rfl, List.append_nil]
  · exact h.above a (Path.parent_mem_ancestors ha hroot) hshort

/-- A parent with a name that is too long is not made. -/
theorem skip (h : MadeAbove d d' R a) (ha : p.parent? = some a) (hne : a ≠ .root)
    (hlong : ¬a.Short) : MadeAbove d d' R p := by
  have hiff : ∀ b : Path, b.Short → (b ∈ p.ancestors ↔ b ∈ a.ancestors) := by
    intro b hb
    have hother : b ≠ a := by
      rintro rfl
      exact hlong hb
    simp [Path.ancestors_of_child ha hne, hother]
  constructor
  · intro b hb hshort
    exact h.above b ((hiff b hshort).mp hb) hshort
  · intro q hq
    exact h.elsewhere q fun b hb hshort => hq b ((hiff b hshort).mpr hb) hshort
  · intro hthere
    exact h.same fun b hb hshort => hthere b ((hiff b hshort).mpr hb) hshort

/-- With the directories above the parent there and the parent made, all is made. -/
theorem add {d₁ : Disk} {b : Path} {n : Name} (h : MadeAbove d d₁ R a) (ha : p.parent? = some a)
    (hne : a ≠ .root) (hshort : a.Short) (hn : a.names = b.names ++ [n])
    (hdir : d₁.look (R ++ b.names) = some .emptyDirectory)
    (hfree : d.look (R ++ a.names) = none) :
    MadeAbove d (d₁.put (R ++ b.names ++ [n]) (some .emptyDirectory)) R p := by
  have hmem := Path.ancestors_of_child ha hne
  have hplace : R ++ b.names ++ [n] = R ++ a.names := by rw [hn, List.append_assoc]
  have hlook : ∀ q, (d₁.put (R ++ b.names ++ [n]) (some .emptyDirectory)).look q =
      if q = R ++ a.names then some .emptyDirectory else d₁.look q := by
    intro q
    rw [look_add hdir (by rw [hplace, h.look_self, hfree]; exact nofun) (fun _ _ => rfl), hplace]
    rfl
  constructor
  · intro x hx hxshort
    rw [hlook]
    split
    · rfl
    next hother =>
      rw [hmem, List.mem_append, List.mem_singleton] at hx
      rcases hx with hx | rfl
      · exact h.above x hx hxshort
      · exact absurd rfl hother
  · intro q hq
    rw [hlook, if_neg (hq a (by simp [hmem]) hshort)]
    exact h.elsewhere q fun x hx => hq x (by simp [hmem, hx])
  · intro hthere
    exact absurd hfree (hthere a (by simp [hmem]) hshort)

end MadeAbove

/-- What making the directories above an open path comes to: they are made as far as no name is too
long, and this succeeds if none is. -/
structure Made (d : Disk) (R : Place) (p : Path) (outcome : Except IoError Unit × Disk) : Prop where
  above : MadeAbove d outcome.2 R p
  ok_iff : outcome.1 = .ok () ↔ ∀ a ∈ p.ancestors, a.Short

/-- The parent is made after the directories above it, unless its name is too long. -/
theorem Made.after (h : d.Encloses root R) (ha : p.parent? = some a) (hne : a ≠ .root)
    (hwhole : a.Whole root) (hr : d.resolve false (a.toLocal root) = .error .noSuchFile)
    (hfree : d.look (R ++ a.names) = none)
    (hmade : Made d R a (d.createDirectories (directoriesAbove root a))) :
    Made d R p (d.createDirectories (a.toLocal root :: directoriesAbove root a)) := by
  have hall := short_ancestors_iff ha hne
  have hnew := resolveNew_toLocal root d hne
  have hd₁ := h.createDirectories (directoriesAbove root a)
  generalize hfirst : d.createDirectories (directoriesAbove root a) = outcome at hmade hd₁
  obtain ⟨answer, d₁⟩ := outcome
  obtain ⟨hspec, hok⟩ := hmade
  by_cases hshort : a.Short
  · obtain rfl : answer = .ok () :=
      hok.mpr fun x hx => hshort.above (Path.mem_ancestors.mp hx).2.1
    obtain ⟨b, hb⟩ := Path.exists_parent hne
    obtain ⟨n, hn⟩ := Path.names_of_parent hb
    have hdir := hspec.look_parent hd₁.leads.look hb
      (hshort.above ((Path.prefix_parent_iff hb).mp (List.prefix_refl _)).1)
    have hmissing := hd₁.leads.resolve_missing (Path.fits_iff.mpr ⟨hwhole, hshort⟩) hn hdir
      (hspec.look_self.trans hfree) false
    rw [createDirectories_after (hnew.trans hr) hfirst
      (createDirectory_missing ((resolveNew_toLocal root d₁ hne).trans hmissing))]
    exact ⟨hspec.add ha hne hshort hn hdir hfree, iff_of_true rfl (hall.mpr hshort)⟩
  · have hskip := hspec.skip ha hne hshort
    cases answer with
    | error cause =>
      rw [createDirectories_above_failed (hnew.trans hr) hfirst]
      exact ⟨hskip, iff_of_false nofun (mt hall.mp hshort)⟩
    | ok =>
      obtain ⟨cause, hrefused⟩ := hd₁.resolve_of_not_short hne hshort false
      rw [createDirectories_after_refused (hnew.trans hr) hfirst
        ((resolveNew_toLocal root d₁ hne).trans hrefused)]
      exact ⟨hskip, iff_of_false nofun (mt hall.mp hshort)⟩

/-- The parent is there or made at once, or it is made after the directories above it, or its local
path comes upon a name that is too long. -/
theorem Made.parent (h : d.Encloses root R) (ha : p.parent? = some a) (hne : a ≠ .root)
    (hopen : Open root d R p)
    (hmade : Made d R a (d.createDirectories (directoriesAbove root a))) :
    Made d R p (d.createDirectories (a.toLocal root :: directoriesAbove root a)) := by
  have hall := short_ancestors_iff ha hne
  have hnew := resolveNew_toLocal root d hne
  have hmem := Path.parent_mem_ancestors ha hne
  have hwhole := hopen.whole a hmem
  have hdescent := h.resolve_descent hne hwhole false
  have hfree := hdescent.look_eq_none
  have hfile : d.resolve false (a.toLocal root) ≠ .error .notADirectory := fun he =>
    (he ▸ hdescent).not_clear (hopen.parent ha hne).clear
  generalize hr : d.resolve false (a.toLocal root) = t at hdescent hfile hfree
  generalize hns : a.names = ns at hdescent
  cases hdescent with
  | found hget hlength =>
    subst hns
    have hdir := hopen.clear a hmem (look_ne_none (look_of_get? hget))
    have hthere := (h.isDirectory_iff hne).mpr ⟨Path.fits_iff.mpr ⟨hwhole, hlength⟩, hdir⟩
    rw [createDirectories_there (hnew.trans hr) hthere]
    exact ⟨.of_parent ha hdir, iff_of_true rfl (hall.mpr hlength)⟩
  | @missing dir m hdir hnone hlength =>
    have hshort : a.Short := by
      unfold Path.Short
      rwa [hns]
    obtain ⟨b, hb⟩ := Path.exists_parent hne
    obtain ⟨n, hn⟩ := Path.names_of_parent hb
    obtain ⟨rfl, hm⟩ := List.append_inj' (hn.symm.trans hns) rfl
    obtain rfl : n = m := by simpa using hm
    rw [createDirectories_made (createDirectory_missing (hnew.trans hr))]
    exact ⟨(MadeAbove.of_parent hb hdir).add ha hne hshort hn hdir (hfree (.inr ⟨_, _, rfl⟩)),
      iff_of_true rfl (hall.mpr hshort)⟩
  | nothing => exact .after h ha hne hwhole hr (hfree (.inl rfl)) hmade
  | blocked => exact absurd rfl hfile
  | @tooLong dir rest m hdir hlong =>
    have hnot : ∀ x : Path, dir ++ [m] <+: x.names → ¬x.Short := by
      intro x hx hshort
      have := hshort m (hx.subset (by simp))
      omega
    rw [createDirectories_refused (hnew.trans hr) nofun]
    refine ⟨.of_there fun x hx hshort => ?_, ?_⟩
    · have hpre := Path.names_isPrefix_iff.mpr (Path.prefix_parent_of_mem ha hx)
      rw [hns] at hpre
      rcases prefix_before_or_through hpre with hpre | hpre
      · exact look_of_prefix hdir ((List.prefix_append_right_inj R).mpr hpre)
      · exact absurd hshort (hnot x hpre)
    · exact iff_of_false nofun (mt hall.mp (hnot a ⟨rest, by simp [hns]⟩))

/-- Making the directories above a path makes those that are missing and whose names are not too
long, and nothing else; it succeeds if no name is too long. -/
theorem createDirectories_open (h : d.Encloses root R) (p : Path) :
    p ≠ .root → Open root d R p → Made d R p (d.createDirectories (directoriesAbove root p)) := by
  induction p using Path.induction_parent with
  | hroot => exact fun h => absurd rfl h
  | hchild p a ha ih =>
    intro _ hopen
    by_cases hne : a = .root
    · subst hne
      have hnone := Path.ancestors_of_root ha
      obtain ⟨above, hlist⟩ := directoriesAbove_of_root ha h.leads.ne_empty
      obtain ⟨q, e, hr⟩ := h.leads.resolveNew_root
      rw [hlist, createDirectories_there hr h.leads.isDirectory]
      exact ⟨.of_there (by simp [hnone]), by simp [hnone]⟩
    · rw [directoriesAbove_of_parent root ha hne]
      exact .parent h ha hne hopen (ih hne (hopen.parent ha hne))

/-- If the directories above a path are not open, nothing is made. -/
theorem createDirectories_not_open (h : d.Encloses root R) (hp : p ≠ .root)
    (hno : ¬Open root d R p) :
    ∃ cause, d.createDirectories (directoriesAbove root p) = (.error cause, d) := by
  obtain ⟨a, ha⟩ := Path.exists_parent hp
  by_cases hroot : a = .root
  · have hnone := Path.ancestors_of_root (hroot ▸ ha)
    exact absurd ⟨by simp [Clear, hnone], by simp [hnone]⟩ hno
  rw [directoriesAbove_of_parent root ha hroot]
  have hnew := resolveNew_toLocal root d hroot
  by_cases hwhole : a.Whole root
  · have hblocked : ¬Clear d R p := fun hclear =>
      hno ⟨hclear, fun x hx => hwhole.above (Path.prefix_parent_of_mem ha hx)⟩
    have hdescent := h.resolve_descent hroot hwhole false
    have hnotGone : ¬Gone (d.resolve false (a.toLocal root)) := fun hgone =>
      hblocked fun x hx => hdescent.look_of_gone hgone
        (Path.names_isPrefix_iff.mpr (Path.prefix_parent_of_mem ha hx))
    cases hr : d.resolve false (a.toLocal root) with
    | error cause =>
      refine ⟨cause, createDirectories_refused (hnew.trans hr) fun he => hnotGone ?_⟩
      exact .inl (he ▸ hr)
    | ok target =>
      cases target with
      | found q e =>
        refine ⟨_, createDirectories_occupied (hnew.trans hr) ?_⟩
        rw [← Bool.not_eq_true]
        intro hdir
        have hlook := ((h.isDirectory_iff hroot).mp hdir).2
        exact hblocked fun x hx _ => look_of_above hlook (Path.prefix_parent_of_mem ha hx)
      | missing dir n => exact absurd (.inr ⟨dir, n, hr⟩) hnotGone
  · obtain ⟨cause, hcause, hrefused⟩ := resolve_of_not_whole hroot hwhole
    exact ⟨cause, createDirectories_refused (hnew.trans (hrefused d false)) hcause⟩

/-- Making the directories above a path that fits makes those that are missing, and nothing else. -/
theorem createDirectories_spec (h : d.Encloses root R) (hp : p ≠ .root) (hfits : p.Fits root)
    (hclear : Clear d R p) :
    ∃ d', d.createDirectories (directoriesAbove root p) = (.ok (), d') ∧ MadeAbove d d' R p := by
  have hshort : ∀ a ∈ p.ancestors, a.Short := fun a ha =>
    hfits.short.above (Path.mem_ancestors.mp ha).2.1
  have hmade := createDirectories_open h p hp
    ⟨hclear, fun a ha => hfits.whole.above (Path.mem_ancestors.mp ha).2.1⟩
  exact ⟨_, Prod.ext (hmade.ok_iff.mpr hshort) rfl, hmade.above⟩

/-! ## Making a file -/

/-- A disk after a change that makes an empty file with the directories above it. -/
structure Created (d d' : Disk) (R : Place) (p : Path) : Prop where
  file : d'.look (R ++ p.names) = some (.file .empty)
  above : ∀ a ∈ p.ancestors, d'.look (R ++ a.names) = some .emptyDirectory
  elsewhere : ∀ q, q ≠ R ++ p.names → (∀ a ∈ p.ancestors, q ≠ R ++ a.names) →
    d'.look q = d.look q

/-- A file that is not there is made. -/
theorem create_spec (hd : Rooted d within root R) (hp : p ≠ .root) (hfits : p.Fits root)
    (hclear : Clear d R p) (hfree : d.look (R ++ p.names) = none) :
    ∃ d', create root d p = (.ok true, d') ∧ Created d d' R p := by
  obtain ⟨a, ha⟩ := Path.exists_parent hp
  obtain ⟨n, hn⟩ := Path.names_of_parent ha
  obtain ⟨d₁, hmade, hspec⟩ := createDirectories_spec hd.encloses hp hfits hclear
  have hd₁ := hd.encloses.createDirectories (directoriesAbove root p)
  rw [hmade] at hd₁
  have hplace : R ++ a.names ++ [n] = R ++ p.names := by rw [hn, List.append_assoc]
  have hshort : ∀ b ∈ p.ancestors, b.Short := fun b hb =>
    hfits.short.above (Path.mem_ancestors.mp hb).2.1
  have hdir := hspec.look_parent hd₁.leads.look ha
    (hfits.short.above ((Path.prefix_parent_iff ha).mp (List.prefix_refl _)).1)
  have hne : ∀ b ∈ p.ancestors, R ++ p.names ≠ R ++ b.names := fun b hb he =>
    (Path.mem_ancestors.mp hb).2.2 (Path.names_injective (List.append_cancel_left he)).symm
  have hfree₁ : d₁.look (R ++ p.names) = none := hspec.look_self.trans hfree
  have hmissing := hd₁.leads.resolve_missing hfits hn hdir hfree₁ false
  have hfile : d₁.createFile (p.toLocal root) =
      .ok (d₁.put (R ++ a.names ++ [n]) (some (.file .empty))) := by
    unfold createFile createNew putNew
    rw [hmissing]
  have hlook : ∀ q, (d₁.put (R ++ a.names ++ [n]) (some (.file .empty))).look q =
      if q = R ++ p.names then some (.file .empty) else d₁.look q := by
    intro q
    rw [look_add hdir (by rw [hplace, hfree₁]; exact nofun) (fun _ _ => rfl), hplace]
    rfl
  refine ⟨d₁.put (R ++ a.names ++ [n]) (some (.file .empty)), ?_, ?_, fun b hb => ?_,
    fun q hq hb => ?_⟩
  · unfold create
    rw [Path.isRoot_eq_false_iff.mpr hp, hmade]
    simp only [Bool.false_eq_true, if_false, hfile]
  · rw [hlook, if_pos rfl]
  · rw [hlook, if_neg (Ne.symm (hne b hb)), hspec.above b hb (hshort b hb)]
  · rw [hlook, if_neg hq, hspec.elsewhere q fun a ha _ => hb a ha]

/-- Every place is that of the file, that of a directory above it, or as it was. -/
theorem Created.look_cases (h : Created d d' R p) (q : Place) :
    q = R ++ p.names ∨ (∃ a ∈ p.ancestors, q = R ++ a.names) ∨
      q ≠ R ++ p.names ∧ d'.look q = d.look q := by
  by_cases hfile : q = R ++ p.names
  · exact Or.inl hfile
  · by_cases habove : ∃ a ∈ p.ancestors, q = R ++ a.names
    · exact Or.inr (Or.inl habove)
    · exact Or.inr (Or.inr ⟨hfile, h.elsewhere q hfile fun a ha he => habove ⟨a, ha, he⟩⟩)

theorem Created.look_ne_none (h : Created d d' R p) {q : Place} (hq : d.look q ≠ none) :
    d'.look q ≠ none := by
  rcases h.look_cases q with rfl | ⟨a, ha, rfl⟩ | ⟨-, hsame⟩
  · rw [h.file]
    exact Option.some_ne_none _
  · rw [h.above a ha]
    exact Option.some_ne_none _
  · rwa [hsame]

/-- A populated root stays so when a file is made. -/
theorem Created.populated (h : Created d d' R p) (hpop : d.Populated R) : d'.Populated R := by
  intro q hq hdir
  rcases h.look_cases q with rfl | ⟨a, ha, rfl⟩ | ⟨-, hsame⟩
  · rw [h.file] at hdir
    cases hdir
  · -- the directory holds the next one, or the file
    obtain ⟨-, hpre, hne⟩ := Path.mem_ancestors.mp ha
    obtain ⟨rest, hrest⟩ := Path.names_isPrefix_iff.mpr hpre
    cases rest with
    | nil => exact absurd (Path.names_injective ((List.append_nil _).symm.trans hrest)) hne
    | cons n rest =>
      have hbelow : d'.look (R ++ a.names ++ n :: rest) ≠ none := by
        rw [List.append_assoc, hrest, h.file]
        exact Option.some_ne_none _
      exact ⟨n, look_first hbelow⟩
  · rw [hsame] at hdir
    obtain ⟨n, hn⟩ := hpop q hq hdir
    exact ⟨n, h.look_ne_none hn⟩

theorem Created.changed (h : Created d d' R p) (hp : p ≠ .root) : ChangedBelow d d' R := by
  refine ⟨fun q hq => h.elsewhere q ?_ fun a ha he => ?_, fun q e he hleaf => ?_, h.populated⟩
  · rintro rfl
    exact hq (beneath_names hp)
  · exact hq (he ▸ beneath_names (Path.ne_root_of_mem_ancestors ha))
  · rcases h.look_cases q with rfl | ⟨a, ha, rfl⟩ | ⟨-, hsame⟩
    · rw [h.file] at he
      cases he
      exact Or.inr rfl
    · rw [h.above a ha] at he
      cases he
      cases hleaf
    · exact Or.inl (hsame ▸ he)

/-- Making a file makes one file and leaves what else is no directory as it was. -/
theorem Created.look_eq_some_iff (h : Created d d' R p)
    (hfree : d.look (R ++ p.names) = none) (hclear : Clear d R p) {q : Place} {e : Entry}
    (he : e.isDirectory = false) :
    d'.look q = some e ↔ d.look q = some e ∨ q = R ++ p.names ∧ e = .file .empty := by
  rcases h.look_cases q with rfl | ⟨a, ha, rfl⟩ | ⟨hne, hsame⟩
  · rw [h.file, hfree]
    simp [eq_comm]
  · have hne : R ++ a.names ≠ R ++ p.names := fun heq =>
      (Path.mem_ancestors.mp ha).2.2 (Path.names_injective (List.append_cancel_left heq))
    have hold : d.look (R ++ a.names) ≠ some e := by
      intro hl
      have hdir := hclear a ha (Disk.look_ne_none hl)
      rw [hl] at hdir
      cases hdir
      cases he
    rw [h.above a ha]
    simp only [Option.some.injEq, hold, hne, false_and, or_self, iff_false]
    rintro rfl
    cases he
  · rw [hsame]
    simp [hne]

/-- One file more. -/
theorem Created.mirrors {files : Path → Prop} (h : Created d d' R p)
    (hfree : d.look (R ++ p.names) = none) (hclear : Clear d R p) (hd : Mirrors d R files) :
    Mirrors d' R fun q => files q ∨ q = p := by
  refine ⟨fun q => ?_, fun rest hrest => ?_⟩
  · rw [← hd.file q]
    constructor
    · rintro ⟨e, he, hleaf⟩
      rcases (h.look_eq_some_iff hfree hclear hleaf).mp he with hold | ⟨hq, -⟩
      · exact Or.inl ⟨e, hold, hleaf⟩
      · exact Or.inr (Path.names_injective (List.append_cancel_left hq))
    · rintro (⟨e, he, hleaf⟩ | rfl)
      · exact ⟨e, (h.look_eq_some_iff hfree hclear hleaf).mpr (Or.inl he), hleaf⟩
      · exact ⟨_, h.file, rfl⟩
  · rcases h.look_cases (R ++ rest) with hq | ⟨a, -, hq⟩ | ⟨-, hsame⟩
    · exact ⟨p, (List.append_cancel_left hq).symm⟩
    · exact ⟨a, (List.append_cancel_left hq).symm⟩
    · exact hd.named rest (hsame ▸ hrest)

end Storage

end FileCluster
