import FileCluster.Proofs.Disk.Parts

/-!
Changes that stay below a directory.

A disk is confined to a directory of another one if they differ only below it and it has no link
there (`Confined`). A local path that led to the directory may itself pass through places below it,
as `/a/b/..` does, and then leads elsewhere or nowhere when these have changed; but all that the
local path of a path below it leads to now stands below the directory
(`Confined.leadsBelow_toLocal`), and all that is missing at one of the local paths above it is
missing below the directory as well (`Confined.missesBelow_of_prefix`). So a change made at the
first kind of path, or a directory made at the second, stays below the directory.
-/

namespace FileCluster.Disk

variable {d d' d'' : Disk} {follow : Bool} {R place : Place} {root : String} {p : Path}

/-- The disks differ only below a place, and no link stands below it on the second one. -/
structure Confined (d d' : Disk) (R : Place) : Prop where
  outside : ∀ q, ¬Beneath R q → d'.look q = d.look q
  noLinks : d'.NoLinks R

/-- A local path leads to a directory without links below it. -/
structure Encloses (d : Disk) (root : String) (R : Place) : Prop where
  leads : d.Leads root R
  noLinks : d.NoLinks R

/-- What is found stands below a place, and what is missing is missing there. -/
def LeadsBelow (R : Place) : Except IoError Target → Prop
  | .ok (.found q _) => Beneath R q
  | .ok (.missing dir n) => Beneath R (dir ++ [n])
  | .error _ => True

/-- What is missing is missing below a place. -/
def MissesBelow (R : Place) : Except IoError Target → Prop
  | .ok (.missing dir n) => Beneath R (dir ++ [n])
  | _ => True

theorem LeadsBelow.misses {t : Except IoError Target} (h : LeadsBelow R t) : MissesBelow R t := by
  cases t with
  | error cause => trivial
  | ok t => cases t with
    | found q e => trivial
    | missing dir n => exact h

theorem Confined.refl (h : d.NoLinks R) : Confined d d R := ⟨fun _ _ => rfl, h⟩

theorem not_beneath_self (R : Place) : ¬Beneath R R := by
  rintro ⟨n, rest, h⟩
  cases List.self_eq_append_right.mp h

/-- The directory itself stays. -/
theorem Confined.look_root (hc : Confined d d' R) (h : d.Encloses root R) :
    d'.look R = some .emptyDirectory :=
  (hc.outside R (not_beneath_self R)).trans h.leads.look

/-! ## Walking on both disks -/

/-- What the first step of a walk comes to on a disk and on one that is confined to a directory. -/
inductive ConfinedStep (d d' : Disk) (R place : Place) (step : Name) : Prop
  /-- it leads to a place to go on from -/
  | on (next : Place)
      (h : ∀ follow onLink rest,
        walk d follow onLink place (step :: rest) = walk d follow onLink next rest)
      (h' : ∀ follow onLink rest,
        walk d' follow onLink place (step :: rest) = walk d' follow onLink next rest)
  /-- there is a link -/
  | link (target : List UInt8) (base : Place)
      (h : ∀ follow onLink rest, walk d follow onLink place (step :: rest) =
        if rest.isEmpty && !follow then .ok (.found (place ++ [step]) (.link target))
        else onLink base (steps target ++ rest))
      (h' : ∀ follow onLink rest, walk d' follow onLink place (step :: rest) =
        if rest.isEmpty && !follow then .ok (.found (place ++ [step]) (.link target))
        else onLink base (steps target ++ rest))
  /-- there is no directory on the second disk, where there was one -/
  | gone (h' : ∀ follow onLink rest, LeadsBelow R (walk d' follow onLink place (step :: rest)))
  /-- there is no directory on the first one -/
  | nowhere (h : ∀ onLink rest q entries,
      walk d true onLink place (step :: rest) ≠ .ok (.found q (.directory entries)))

theorem Confined.firstStep (hc : Confined d d' R) (hd : d.NoLinks R) (place : Place)
    (step : Name) : ConfinedStep d d' R place step := by
  by_cases hdot : step = [0x2e]
  · exact .on place (fun _ _ _ => by rw [walk, if_pos hdot])
      fun _ _ _ => by rw [walk, if_pos hdot]
  by_cases hup : step = [0x2e, 0x2e]
  · exact .on place.dropLast (fun _ _ _ => by rw [walk, if_neg hdot, if_pos hup])
      fun _ _ _ => by rw [walk, if_neg hdot, if_pos hup]
  by_cases hlen : maxName < step.length
  · refine .nowhere fun _ _ _ _ => ?_
    simp [walk, hdot, hup, hlen]
  have hstep : ∀ (d : Disk) follow onLink rest, walk d follow onLink place (step :: rest) = _ :=
    fun d follow onLink rest => by rw [walk, if_neg hdot, if_neg hup, if_neg hlen]
  cases hget : d.get? (place ++ [step]) with
  | none =>
    refine .nowhere fun _ _ _ _ => ?_
    rw [hstep, hget]
    dsimp only
    split <;> simp
  | some e =>
    cases e with
    | link target =>
      have hlook : d.look (place ++ [step]) = some (.link target) := (look_eq_some_iff rfl).mpr hget
      have hget' : d'.get? (place ++ [step]) = some (.link target) := by
        rw [← look_eq_some_iff rfl, hc.outside _ fun hb => hd _ target hb hlook]
        exact hlook
      exact .link target _ (fun _ _ _ => by rw [hstep, hget]) fun _ _ _ => by rw [hstep, hget']
    | directory entries =>
      have hgone : (∀ entries', d'.get? (place ++ [step]) ≠ some (.directory entries')) →
          Beneath R (place ++ [step]) := fun hno => Classical.byContradiction fun hb => by
        have hlook := (hc.outside _ hb).trans (look_of_get? hget)
        obtain ⟨entries', hget'⟩ := look_eq_directory_iff.mp hlook
        exact hno entries' hget'
      cases hget' : d'.get? (place ++ [step]) with
      | none =>
        have hb := hgone fun _ => by simp [hget']
        refine .gone fun _ _ rest => ?_
        rw [hstep, hget']
        dsimp only
        split
        · exact hb
        · trivial
      | some e' =>
        cases e' with
        | directory entries' =>
          exact .on (place ++ [step]) (fun _ _ _ => by rw [hstep, hget])
            fun _ _ _ => by rw [hstep, hget']
        | link target =>
          have hb := hgone fun _ => by simp [hget']
          exact absurd ((look_eq_some_iff rfl).mpr hget') (hc.noLinks _ target hb)
        | _ =>
          have hb := hgone fun _ => by simp [hget']
          refine .gone fun _ _ rest => ?_
          rw [hstep, hget']
          dsimp only
          split
          · exact hb
          · trivial
    | _ =>
      refine .nowhere fun _ _ _ _ => ?_
      rw [hstep, hget]
      dsimp only
      split <;> simp

/-- A walk that began like one to the directory, as it is on the second disk: it comes to what the
rest of it comes to, or stays below the directory. -/
theorem Confined.walk (hc : Confined d d' R) (hd : d.NoLinks R)
    {onLink onLink' : Place → List Name → Except IoError Target} {entries : List (Name × Entry)}
    {Q : Except IoError Target → Prop} {ys ns : List Name} (hbelow : ∀ t, LeadsBelow R t → Q t)
    (hfound : ns = [] → ∀ q e, Q (.ok (.found q e)))
    (hend : ∀ place, walk d true onLink place ys = .ok (.found R (.directory entries)) →
      Q (walk d' follow onLink' place ns))
    (hlink : ∀ place xs, onLink place (xs ++ ys) = .ok (.found R (.directory entries)) →
      Q (onLink' place (xs ++ ns)))
    {xs : List Name}
    (h : walk d true onLink place (xs ++ ys) = .ok (.found R (.directory entries))) :
    Q (Disk.walk d' follow onLink' place (xs ++ ns)) := by
  induction xs generalizing place with
  | nil => exact hend place h
  | cons step xs ih =>
    rw [List.cons_append] at h ⊢
    cases hc.firstStep hd place step with
    | on next hstep hstep' =>
      rw [hstep] at h
      rw [hstep']
      exact ih h
    | link target base hstep hstep' =>
      rw [hstep, if_neg (by simp), ← List.append_assoc] at h
      rw [hstep']
      split
      · rename_i hlast
        have hempty : (xs ++ ns).isEmpty = true := (Bool.and_eq_true_iff.mp hlast).1
        exact hfound (List.append_eq_nil_iff.mp (List.isEmpty_iff.mp hempty)).2 _ _
      · rw [← List.append_assoc]
        exact hlink _ _ h
    | gone hstep' => exact hbelow _ (hstep' _ _ _)
    | nowhere hstep => exact absurd h (hstep _ _ _ _)

theorem Confined.walkLinks (hc : Confined d d' R) (hd : d.NoLinks R)
    {entries : List (Name × Entry)} {Q : Except IoError Target → Prop} {ys ns : List Name}
    (hbelow : ∀ t, LeadsBelow R t → Q t) (hfound : ns = [] → ∀ q e, Q (.ok (.found q e)))
    (hend : ∀ onLink onLink' place,
      Disk.walk d true onLink place ys = .ok (.found R (.directory entries)) →
        Q (Disk.walk d' follow onLink' place ns))
    {links : Nat} {xs : List Name}
    (h : walkLinks d true links place (xs ++ ys) = .ok (.found R (.directory entries))) :
    Q (Disk.walkLinks d' follow links place (xs ++ ns)) := by
  refine walkLinks_relation (Q := fun onLink onLink' => ∀ place xs,
    onLink place (xs ++ ys) = .ok (.found R (.directory entries)) → Q (onLink' place (xs ++ ns)))
      ?_ ?_ links place xs h
  · intro place xs h
    cases h
  · intro onLink onLink' hlink place xs h
    exact hc.walk hd hbelow hfound (hend onLink onLink') hlink h

/-! ## Local paths below and above the directory -/

/-- Where nothing below is a link, walking down names comes upon what is missing only on the way to
their place. -/
theorem place_of_walk_missing {onLink : Place → List Name → Except IoError Target} {ns : List Name}
    (hns : ∀ n ∈ ns, n ≠ [0x2e] ∧ n ≠ [0x2e, 0x2e]) (hlinks : d.NoLinks place) {dir : Place}
    {n : Name} (h : Disk.walk d follow onLink place ns = .ok (.missing dir n)) :
    dir ++ [n] = place ++ ns := by
  induction ns generalizing place with
  | nil =>
    rw [Disk.walk] at h
    split at h <;> cases h
  | cons m ns ih =>
    rw [List.forall_mem_cons] at hns
    have hsplit : place ++ m :: ns = place ++ [m] ++ ns := by simp
    rw [Disk.walk, if_neg hns.1.1, if_neg hns.1.2] at h
    split at h
    · cases h
    · split at h
      · split at h
        · rename_i hempty
          cases h
          rw [List.isEmpty_iff.mp hempty]
        · cases h
      · rw [hsplit]
        refine ih hns.2 (fun q t hq => hlinks q t ?_) h
        obtain ⟨k, rest, rfl⟩ := hq
        exact ⟨m, k :: rest, by simp⟩
      · rename_i target hget
        exact absurd ((look_eq_some_iff rfl).mpr hget) (hlinks _ target ⟨m, [], rfl⟩)
      · split at h <;> cases h

theorem leadsBelow_of_walk {onLink : Place → List Name → Except IoError Target} {ns : List Name}
    (hns : ∀ n ∈ ns, n ≠ [0x2e] ∧ n ≠ [0x2e, 0x2e]) (hne : ns ≠ []) (hlinks : d.NoLinks R) :
    LeadsBelow R (Disk.walk d follow onLink R ns) := by
  have hbeneath : Beneath R (R ++ ns) := by
    obtain ⟨n, rest, rfl⟩ := List.exists_cons_of_ne_nil hne
    exact ⟨n, rest, rfl⟩
  cases h : Disk.walk d follow onLink R ns with
  | error cause => trivial
  | ok t =>
    cases t with
    | found q e =>
      obtain ⟨rfl, -⟩ := place_of_walk hns hlinks h
      exact hbeneath
    | missing dir n =>
      show Beneath R (dir ++ [n])
      rw [place_of_walk_missing hns hlinks h]
      exact hbeneath

/-- The local path of a path leads below the directory or nowhere. -/
theorem Confined.leadsBelow_toLocal (hc : Confined d d' R) (h : d.Encloses root R)
    (hp : p ≠ .root) (follow : Bool) : LeadsBelow R (d'.resolve follow (p.toLocal root)) := by
  obtain ⟨entries, hwalk⟩ := h.leads.walk
  obtain ⟨cause, hcause⟩ | hresolve := resolve_cases (p.toLocal root)
  · rw [hcause]
    trivial
  · rw [hresolve, steps_toLocal root hp]
    rw [← List.append_nil (pathNames _)] at hwalk
    refine hc.walkLinks h.noLinks (fun _ => id) (fun he => absurd (Path.names_eq_nil_iff.mp he) hp)
      (fun onLink onLink' place hend => ?_) hwalk
    -- the walk to the directory has come to it, and the names of the path go on from there
    rw [Disk.walk] at hend
    split at hend
    · cases hend
      exact leadsBelow_of_walk (fun n hn => (Path.name_of_mem hn).2.2)
        (fun he => hp (Path.names_eq_nil_iff.mp he)) hc.noLinks
    · cases hend

/-- A directory on the way to the directory is not missing unless it is below it. -/
theorem Confined.missesBelow_of_prefix (hc : Confined d d' R) (h : d.Encloses root R) {s : String}
    (hs : pathNames (Text.encode s) <+: pathNames (Text.encode root)) :
    MissesBelow R (d'.resolveNew s) := by
  obtain ⟨entries, hwalk⟩ := h.leads.walk
  obtain ⟨ys, hys⟩ := hs
  have hnone : ∀ onLink place, MissesBelow R (Disk.walk d' false onLink place []) := by
    intro onLink place
    rw [Disk.walk]
    split <;> trivial
  unfold resolveNew
  obtain ⟨cause, hcause⟩ | hlookUp := lookUp_cases pathNames s
  · rw [hcause]
    trivial
  · rw [hlookUp, ← List.append_nil (pathNames (Text.encode s))]
    rw [← hys] at hwalk
    exact hc.walkLinks h.noLinks (fun _ => LeadsBelow.misses) (fun _ _ _ => trivial)
      (fun _ onLink' place _ => hnone onLink' place) hwalk

/-! ## Single changes -/

theorem Confined.putNew (hc : Confined d d' R) {read : List UInt8 → List Name} {path : String}
    {e : Entry} (hpath : MissesBelow R (d'.lookUp read false path))
    (hleaf : ∀ n rest, e.get? (n :: rest) = none) (hnot : ∀ t, e.bare ≠ .link t)
    (h : d'.putNew e (d'.lookUp read false path) = .ok d'') : Confined d d'' R := by
  obtain ⟨dir, name, hmissing, -, hlook⟩ := look_putNew h hleaf
  rw [hmissing] at hpath
  have hb : Beneath R (dir ++ [name]) := hpath
  constructor
  · intro q hq
    have hne : q ≠ dir ++ [name] := fun he => hq (he ▸ hb)
    rw [hlook, if_neg hne, hc.outside q hq]
  · intro q t hq hl
    rw [hlook] at hl
    split at hl
    · exact hnot t (Option.some.inj hl)
    · exact hc.noLinks q t hq hl

theorem Confined.put_none (hc : Confined d d' R) {e : Entry} (hget : d'.get? place = some e)
    (hb : Beneath R place) : Confined d (d'.put place none) R := by
  constructor
  · intro q hq
    rw [look_put_none hget, if_neg, hc.outside q hq]
    rintro ⟨-, rest, rfl⟩
    obtain ⟨n, ns, rfl⟩ := hb
    exact hq ⟨n, ns ++ rest, by simp⟩
  · intro q t hq hl
    rw [look_put_none hget] at hl
    split at hl
    · cases hl
    · exact hc.noLinks q t hq hl

theorem Confined.put_file (hc : Confined d d' R) {old new : ByteArray}
    (hget : d'.get? place = some (.file old)) (hb : Beneath R place) :
    Confined d (d'.put place (some (.file new))) R := by
  have hlook := look_put_file hget new
  constructor
  · intro q hq
    have hne : q ≠ place := fun he => hq (he ▸ hb)
    rw [hlook, if_neg hne, hc.outside q hq]
  · intro q t hq hl
    rw [hlook] at hl
    split at hl
    · cases hl
    · exact hc.noLinks q t hq hl

theorem Confined.remove (hc : Confined d d' R) {path : String}
    (hpath : LeadsBelow R (d'.resolve false path)) (h : d'.remove path = .ok d'') :
    Confined d d'' R := by
  unfold Disk.remove at h
  split at h
  next q e hr =>
    cases h
    rw [hr] at hpath
    exact hc.put_none (get?_of_resolve hr) hpath
  next => cases h
  next => cases h

theorem Confined.removeDirectory (hc : Confined d d' R) {path : String}
    (hpath : LeadsBelow R (d'.resolve false path)) (h : d'.removeDirectory path = .ok d'') :
    Confined d d'' R := by
  unfold Disk.removeDirectory at h
  split at h
  case h_1 q hr =>
    cases h
    rw [hr] at hpath
    exact hc.put_none (get?_of_resolve hr) hpath
  all_goals cases h

theorem Confined.writeFile (hc : Confined d d' R) {path : String} {offset : Nat} {data : ByteArray}
    (hpath : LeadsBelow R (d'.resolve true path)) (h : d'.writeFile path offset data = .ok d'') :
    Confined d d'' R := by
  unfold Disk.writeFile at h
  split at h
  next q content hr =>
    split at h
    · cases h
    · cases h
      rw [hr] at hpath
      exact hc.put_file (get?_of_resolve hr) hpath
  next => cases h
  next =>
    cases h
    exact hc
  next => cases h
  next => cases h

/-- Making directories at paths where nothing is missing but below the directory. -/
theorem Confined.createDirectories (paths : List String)
    (hpaths : ∀ s ∈ paths, ∀ d', Confined d d' R → MissesBelow R (d'.resolveNew s))
    (hc : Confined d d' R) : Confined d (d'.createDirectories paths).2 R := by
  apply createDirectories_induction (Q := fun d' => Confined d d' R)
  · intro s hs d₁ d₂ hc₁ hmade
    exact hc₁.putNew (hpaths s hs d₁ hc₁) (fun _ _ => rfl) (fun _ he => by cases he) hmade
  · exact hc

/-! ## Additions -/

/-- A local path that leads to a directory without links below it does so when something has been
added to the disk, links apart. -/
theorem Encloses.grown (h : d.Encloses root R) (hpart : d.PartOf d')
    (hlinks : ∀ q t, d'.look q = some (.link t) → d.look q = some (.link t)) :
    d'.Encloses root R where
  leads := by
    obtain ⟨entries, hr⟩ := h.leads
    obtain ⟨e, hr', hbare⟩ := hpart.resolve hr
    cases e with
    | directory entries' => exact ⟨entries', hr'⟩
    | _ => cases hbare
  noLinks q t hq hl := h.noLinks q t hq (hlinks q t hl)

/-- Making directories leaves the root where it is. -/
theorem Encloses.createDirectories (h : d.Encloses root R) (paths : List String) :
    (d.createDirectories paths).2.Encloses root R := by
  refine h.grown (.createDirectories paths d) fun q t hl => ?_
  rcases look_createDirectories paths d hl with hold | he
  · exact hold
  · cases he

end FileCluster.Disk
