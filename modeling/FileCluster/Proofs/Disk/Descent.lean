import FileCluster.Proofs.Disk.Confined

/-!
What a local path below a root comes to.

Where no link stands below a directory, a walk from there down names comes to one of five things
(`Descent`): to what stands at their place, to a name that the last directory does not have, to a name
on the way that is not there, to something on the way that has nothing below it, or to a name that is
too long. The local path of a path below a root does the same with the names of the path, unless it
is refused as a whole (`Encloses.resolve_descent`). Below a root that is not there, nothing is there
(`resolve_beyond_nothing`).
-/

namespace FileCluster

namespace Disk

variable {d : Disk} {follow : Bool} {place : Place} {root : String} {R : Place} {p : Path}

/-! ## Walking down names -/

/-- What a walk down names comes to, where no link is below. -/
inductive Descent (d : Disk) (place : Place) : List Name → Except IoError Target → Prop
  /-- something stands at the place of the names -/
  | found {ns : List Name} {e : Entry} (hget : d.get? (place ++ ns) = some e)
      (hlength : ∀ m ∈ ns, m.length ≤ maxName) : Descent d place ns (.ok (.found (place ++ ns) e))
  /-- the last name is missing in its directory -/
  | missing (dir : List Name) {n : Name} (hdir : d.look (place ++ dir) = some .emptyDirectory)
      (hnone : d.look (place ++ dir ++ [n]) = none)
      (hlength : ∀ m ∈ dir ++ [n], m.length ≤ maxName) :
      Descent d place (dir ++ [n]) (.ok (.missing (place ++ dir) n))
  /-- a name on the way is missing -/
  | nothing (dir : List Name) {rest : List Name} {n : Name} (hrest : rest ≠ [])
      (hdir : d.look (place ++ dir) = some .emptyDirectory)
      (hnone : d.look (place ++ dir ++ [n]) = none) :
      Descent d place (dir ++ n :: rest) (.error .noSuchFile)
  /-- on the way there is something that has nothing below it -/
  | blocked (dir : List Name) {rest : List Name} {n : Name} {e : Entry} (hrest : rest ≠ [])
      (hleaf : e.isDirectory = false) (hthere : d.look (place ++ dir ++ [n]) = some e) :
      Descent d place (dir ++ n :: rest) (.error .notADirectory)
  /-- a name is too long -/
  | tooLong (dir : List Name) {rest : List Name} {n : Name}
      (hdir : d.look (place ++ dir) = some .emptyDirectory) (hlong : maxName < n.length) :
      Descent d place (dir ++ n :: rest) (.error .nameTooLong)

/-- A walk from a directory in another one goes on below that. -/
theorem Descent.below {n : Name} {ns : List Name} {t : Except IoError Target}
    (h : Descent d (place ++ [n]) ns t) (hn : n.length ≤ maxName) :
    Descent d place (n :: ns) t := by
  have hsplit : ∀ ys, place ++ [n] ++ ys = place ++ n :: ys := fun ys => by simp
  cases h with
  | found hget hlength =>
    rw [hsplit] at hget ⊢
    exact .found hget (List.forall_mem_cons.mpr ⟨hn, hlength⟩)
  | missing dir hdir hnone hlength =>
    rw [hsplit] at hdir hnone ⊢
    exact .missing (n :: dir) hdir hnone (List.forall_mem_cons.mpr ⟨hn, hlength⟩)
  | nothing dir hrest hdir hnone =>
    rw [hsplit] at hdir hnone
    exact .nothing (n :: dir) hrest hdir hnone
  | blocked dir hrest hleaf hthere =>
    rw [hsplit] at hthere
    exact .blocked (n :: dir) hrest hleaf hthere
  | tooLong dir hdir hlong =>
    rw [hsplit] at hdir
    exact .tooLong (n :: dir) hdir hlong

/-- Where no link is below, a walk down names from a directory comes to one of these. -/
theorem descent_walk {onLink : Place → List Name → Except IoError Target} {ns : List Name}
    (hns : ∀ n ∈ ns, n ≠ [0x2e] ∧ n ≠ [0x2e, 0x2e]) (hplace : d.look place = some .emptyDirectory)
    (hlinks : d.NoLinks place) : Descent d place ns (walk d follow onLink place ns) := by
  induction ns generalizing place with
  | nil =>
    obtain ⟨entries, hget⟩ := look_eq_directory_iff.mp hplace
    rw [walk, hget]
    have hfound : Descent d place [] (.ok (.found (place ++ []) (.directory entries))) :=
      .found (by rwa [List.append_nil]) (by simp)
    rwa [List.append_nil] at hfound
  | cons n ns ih =>
    obtain ⟨hn, hns⟩ := List.forall_mem_cons.mp hns
    have hhere : d.look (place ++ []) = some .emptyDirectory := by rwa [List.append_nil]
    by_cases hlong : maxName < n.length
    · rw [walk_nameTooLong hn.1 hn.2 hlong]
      exact .tooLong [] hhere hlong
    have hname : IsName n := ⟨hn.1, hn.2, Nat.not_lt.mp hlong⟩
    cases hget : d.get? (place ++ [n]) with
    | none =>
      have hnone : d.look (place ++ [] ++ [n]) = none := by
        rw [List.append_nil]
        exact look_eq_none_iff.mpr hget
      cases ns with
      | nil =>
        rw [walk_missing hname hget]
        have hmissing := Descent.missing [] hhere hnone (by simpa using hname.length)
        rwa [List.append_nil] at hmissing
      | cons m ns =>
        rw [walk_noSuchFile hname hget]
        exact .nothing [] (by simp) hhere hnone
    | some e =>
      have hlook : d.look (place ++ [n]) = some e.bare := look_of_get? hget
      by_cases hdir : e.isDirectory = true
      · rw [Entry.bare_eq_emptyDirectory_iff.mpr hdir] at hlook
        obtain ⟨entries, hget'⟩ := look_eq_directory_iff.mp hlook
        rw [walk_into hname hget']
        refine (ih hns hlook fun q t hq => hlinks q t ?_).below hname.length
        obtain ⟨m, rest, rfl⟩ := hq
        exact ⟨n, m :: rest, by simp⟩
      · have hleaf : e.isDirectory = false := by simpa using hdir
        rw [Entry.bare_of_not_isDirectory hleaf] at hlook
        have hlink : ∀ t, e ≠ .link t := by
          intro t he
          exact hlinks _ t ⟨n, [], rfl⟩ (he ▸ hlook)
        cases ns with
        | nil =>
          rw [walk_last hname hget hlink]
          exact .found hget (by simpa using hname.length)
        | cons m ns =>
          rw [walk_notADirectory hname hget hleaf hlink]
          exact .blocked [] (by simp) hleaf (by rwa [List.append_nil])

/-- Whatever lies on the way down some names comes before one of them or is reached through it. -/
theorem prefix_before_or_through {dir ys rest : List Name} {n : Name}
    (hys : ys <+: dir ++ n :: rest) : ys <+: dir ∨ dir ++ [n] <+: ys := by
  have hn : dir ++ [n] <+: dir ++ n :: rest := ⟨rest, by simp⟩
  rcases List.prefix_or_prefix_of_prefix hys hn with hpre | hpre
  · rcases List.prefix_concat_iff.mp hpre with rfl | hdir
    · exact .inr (List.prefix_refl _)
    · exact .inl hdir
  · exact .inr hpre

/-- On the way to a name that is missing in its directory, and below it, there is a directory or
nothing. -/
theorem look_of_missing {dir ys rest : List Name} {n : Name}
    (hdir : d.look (place ++ dir) = some .emptyDirectory)
    (hnone : d.look (place ++ dir ++ [n]) = none) (hys : ys <+: dir ++ n :: rest)
    (hthere : d.look (place ++ ys) ≠ none) : d.look (place ++ ys) = some .emptyDirectory := by
  rcases prefix_before_or_through hys with hpre | ⟨more, rfl⟩
  · exact look_of_prefix hdir ((List.prefix_append_right_inj place).mpr hpre)
  · rw [← List.append_assoc, ← List.append_assoc] at hthere
    exact absurd (look_beyond hnone more) hthere

/-- Nothing is found, and it is not refused for another cause. -/
def Gone (t : Except IoError Target) : Prop :=
  t = .error .noSuchFile ∨ ∃ dir n, t = .ok (.missing dir n)

/-- On the way to where nothing is found there are only directories. -/
theorem Descent.look_of_gone {ys ns : List Name} {t : Except IoError Target}
    (h : Descent d place ns t) (hgone : Gone t) (hys : ys <+: ns)
    (hthere : d.look (place ++ ys) ≠ none) : d.look (place ++ ys) = some .emptyDirectory := by
  cases h with
  | found => simp [Gone] at hgone
  | missing dir hdir hnone _ => exact look_of_missing hdir hnone hys hthere
  | nothing dir _ hdir hnone => exact look_of_missing hdir hnone hys hthere
  | blocked => simp [Gone] at hgone
  | tooLong => simp [Gone] at hgone

/-- Where nothing is found there is nothing. -/
theorem Descent.look_eq_none {ns : List Name} {t : Except IoError Target}
    (h : Descent d place ns t) (hgone : Gone t) : d.look (place ++ ns) = none := by
  have hbeyond : ∀ {dir rest : List Name} {n : Name}, d.look (place ++ dir ++ [n]) = none →
      d.look (place ++ (dir ++ n :: rest)) = none := by
    intro dir rest n hnone
    have hsplit : place ++ (dir ++ n :: rest) = place ++ dir ++ [n] ++ rest := by simp
    rw [hsplit]
    exact look_beyond hnone rest
  cases h with
  | found => simp [Gone] at hgone
  | missing dir _ hnone _ => exact hbeyond hnone
  | nothing dir _ _ hnone => exact hbeyond hnone
  | blocked => simp [Gone] at hgone
  | tooLong => simp [Gone] at hgone

/-! ## Local paths below a root -/

/-- The local path of a path is refused as a whole, for the same cause on every disk. -/
theorem resolve_of_not_whole (hp : p ≠ .root) (h : ¬p.Whole root) :
    ∃ cause, cause ≠ .noSuchFile ∧
      ∀ (d : Disk) follow, d.resolve follow (p.toLocal root) = .error cause := by
  have hempty : ¬(Text.encode (p.toLocal root)).isEmpty = true := by
    rw [isEmpty_toLocal root hp]
    exact Bool.false_ne_true
  by_cases hnul : 0 ∈ Text.encode (p.toLocal root)
  · refine ⟨.nulInName, by simp, fun d follow => ?_⟩
    unfold resolve lookUp
    exact if_pos hnul
  · have hlong : maxPath < (Text.encode (p.toLocal root)).length := by
      apply Nat.lt_of_not_le
      intro hlength
      exact h ⟨hnul, hlength⟩
    refine ⟨.nameTooLong, by simp, fun d follow => ?_⟩
    unfold resolve lookUp
    exact (if_neg hnul).trans ((if_neg hempty).trans (if_pos hlong))

/-- What the local path of a path that is not refused as a whole comes to. -/
theorem Encloses.resolve_descent (h : d.Encloses root R) (hp : p ≠ .root) (hwhole : p.Whole root)
    (follow : Bool) : Descent d R p.names (d.resolve follow (p.toLocal root)) := by
  obtain ⟨links, hr⟩ := h.leads.resolve_of_whole hp hwhole follow
  rw [hr, walkLinks_eq]
  exact descent_walk (fun n hn => (Path.name_of_mem hn).2.2) h.leads.look h.noLinks

/-- A path with a name that is too long leads nowhere. -/
theorem Encloses.resolve_of_not_short (h : d.Encloses root R) (hp : p ≠ .root) (hlong : ¬p.Short)
    (follow : Bool) : ∃ cause, d.resolve follow (p.toLocal root) = .error cause := by
  by_cases hwhole : p.Whole root
  · have hdescent := h.resolve_descent hp hwhole follow
    unfold Path.Short at hlong
    generalize p.names = ns at hlong hdescent
    generalize d.resolve follow (p.toLocal root) = t at hdescent
    cases hdescent with
    | found _ hlength => exact absurd hlength hlong
    | missing dir _ _ hlength => exact absurd hlength hlong
    | nothing => exact ⟨_, rfl⟩
    | blocked => exact ⟨_, rfl⟩
    | tooLong => exact ⟨_, rfl⟩
  · obtain ⟨cause, -, hcause⟩ := resolve_of_not_whole hp hwhole
    exact ⟨cause, hcause d follow⟩

/-! ## Below a root that is not there -/

theorem entry_eq_noSuchFile_iff {path : String} :
    d.entry follow path = .error .noSuchFile ↔ Gone (d.resolve follow path) := by
  unfold entry Gone
  cases d.resolve follow path with
  | error cause => simp
  | ok t => cases t <;> simp

/-- Where a walk comes to nothing, walking on from there comes to nothing. -/
theorem walk_beyond_nothing {onLink onLink' : Place → List Name → Except IoError Target}
    {ys ns : List Name} (hys : ys = [] ∨ ys = [[0x2e]]) (hns : ns ≠ [])
    (hlink : ∀ place xs, d.look place = some .emptyDirectory → Gone (onLink place (xs ++ ys)) →
      onLink' place (xs ++ ns) = .error .noSuchFile)
    {xs : List Name} (hplace : d.look place = some .emptyDirectory)
    (h : Gone (walk d true onLink place (xs ++ ys))) :
    walk d follow onLink' place (xs ++ ns) = .error .noSuchFile := by
  have hmore : ∀ zs : List Name, (zs ++ ns).isEmpty = false := by
    intro zs
    simp [hns]
  induction xs generalizing place with
  | nil =>
    -- the walk is at a directory, so it has not come to nothing
    obtain ⟨entries, hget⟩ := look_eq_directory_iff.mp hplace
    have hfound : walk d true onLink place ([] ++ ys) = .ok (.found place (.directory entries)) := by
      obtain rfl | rfl := hys <;> simp [walk, hget]
    rw [hfound] at h
    simp [Gone] at h
  | cons step xs ih =>
    rw [List.cons_append] at h ⊢
    cases (PartOf.refl d).firstStep place step with
    | on next hnext hstep _ =>
      rw [hstep] at h ⊢
      exact ih (hnext hplace) h
    | link target base hbase hstep _ =>
      rw [hstep, if_neg (by simp), ← List.append_assoc] at h
      rw [hstep, if_neg (by simp [hmore]), ← List.append_assoc]
      exact hlink base _ (hbase hplace) h
    | leaf e hstep _ =>
      rw [hstep] at h
      split at h <;> simp [Gone] at h
    | missing hname hnone hstep =>
      rw [hstep, if_neg (by simp [hmore])]
    | tooLong hstep =>
      rw [hstep] at h
      simp [Gone] at h

/-- Below a root that is not there nothing is there. -/
theorem resolve_beyond_nothing (hroot : root ≠ "") (h : d.entry true root = .error .noSuchFile)
    (hp : p ≠ .root) (hwhole : p.Whole root) (follow : Bool) :
    d.resolve follow (p.toLocal root) = .error .noSuchFile := by
  have hns : p.names ≠ [] := fun he => hp (Path.names_eq_nil_iff.mp he)
  rw [entry_eq_noSuchFile_iff] at h
  unfold resolve lookUp at h
  dsimp only at h
  rw [resolve_eq_walkLinks d hp hwhole]
  split at h
  · simp [Gone] at h
  split at h
  next hempty => exact absurd (Text.encode_eq_nil_iff.mp (List.isEmpty_iff.mp hempty)) hroot
  split at h
  · simp [Gone] at h
  obtain ⟨ys, hys, hsteps⟩ := steps_eq (Text.encode root)
  rw [hsteps] at h
  refine walkLinks_relation (Q := fun onLink onLink' => ∀ place xs,
    d.look place = some .emptyDirectory → Gone (onLink place (xs ++ ys)) →
      onLink' place (xs ++ p.names) = .error .noSuchFile) ?_ ?_ maxLinks [] _ rfl h
  · intro place xs _ hgone
    simp [Gone] at hgone
  · intro onLink onLink' hlink place xs hplace hgone
    exact walk_beyond_nothing hys hns hlink hplace hgone

end Disk

end FileCluster
