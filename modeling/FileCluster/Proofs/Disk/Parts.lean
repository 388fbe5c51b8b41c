import FileCluster.Disk.Change
import FileCluster.Proofs.Disk.Walk

/-!
Disks of which one is part of another.

A disk is part of another one if whatever stands on it stands on the other as well (`PartOf`): so it
is after something was removed, and before something was made. What a path leads to on the part it
leads to on the whole (`PartOf.resolve`), through links and all. An entry made where a path led to
nothing is what the path leads to then (`lookUp_putNew`). Making several directories adds
directories and nothing else, whether it ends well or fails (`PartOf.createDirectories`,
`look_createDirectories`).
-/

namespace FileCluster.Disk

variable {d d' : Disk} {follow : Bool} {place : Place} {step : Name}

/-- Whatever stands at a place of the one disk stands there on the other. -/
def PartOf (d d' : Disk) : Prop := ∀ q e, d.look q = some e → d'.look q = some e

theorem PartOf.refl (d : Disk) : d.PartOf d := fun _ _ h => h

theorem PartOf.trans {d₁ d₂ d₃ : Disk} (h : d₁.PartOf d₂) (h' : d₂.PartOf d₃) : d₁.PartOf d₃ :=
  fun q e he => h' q e (h q e he)

/-! ## Walking on a part and on the whole -/

/-- What the first step of a walk comes to on a part and on the whole. -/
inductive SharedStep (d d' : Disk) (place : Place) (step : Name) : Prop
  /-- it leads to a place to go on from -/
  | on (next : Place)
      (hnext : d.look place = some .emptyDirectory → d.look next = some .emptyDirectory)
      (h : ∀ follow onLink rest,
        walk d follow onLink place (step :: rest) = walk d follow onLink next rest)
      (h' : ∀ follow onLink rest,
        walk d' follow onLink place (step :: rest) = walk d' follow onLink next rest)
  /-- there is a link -/
  | link (target : List UInt8) (base : Place)
      (hbase : d.look place = some .emptyDirectory → d.look base = some .emptyDirectory)
      (h : ∀ follow onLink rest, walk d follow onLink place (step :: rest) =
        if rest.isEmpty && !follow then .ok (.found (place ++ [step]) (.link target))
        else onLink base (steps target ++ rest))
      (h' : ∀ follow onLink rest, walk d' follow onLink place (step :: rest) =
        if rest.isEmpty && !follow then .ok (.found (place ++ [step]) (.link target))
        else onLink base (steps target ++ rest))
  /-- there is something that has nothing below it -/
  | leaf (e : Entry)
      (h : ∀ follow onLink rest, walk d follow onLink place (step :: rest) =
        if rest.isEmpty then .ok (.found (place ++ [step]) e) else .error .notADirectory)
      (h' : ∀ follow onLink rest, walk d' follow onLink place (step :: rest) =
        if rest.isEmpty then .ok (.found (place ++ [step]) e) else .error .notADirectory)
  /-- there is nothing on the part -/
  | missing (hname : IsName step) (hnone : d.look (place ++ [step]) = none)
      (h : ∀ follow onLink rest, walk d follow onLink place (step :: rest) =
        if rest.isEmpty then .ok (.missing place step) else .error .noSuchFile)
  /-- the name is too long -/
  | tooLong (h : ∀ follow onLink rest,
      walk d follow onLink place (step :: rest) = .error .nameTooLong)

theorem look_dropLast (h : d.look place = some .emptyDirectory) :
    d.look place.dropLast = some .emptyDirectory := by
  obtain rfl | ⟨dir, n, rfl⟩ := place.eq_nil_or_concat
  · exact h
  · rw [List.concat_eq_append] at h ⊢
    rw [List.dropLast_concat]
    exact look_above h

theorem PartOf.firstStep (hpart : d.PartOf d') (place : Place) (step : Name) :
    SharedStep d d' place step := by
  by_cases hdot : step = [0x2e]
  · exact .on place id (fun _ _ _ => by rw [walk, if_pos hdot])
      fun _ _ _ => by rw [walk, if_pos hdot]
  by_cases hup : step = [0x2e, 0x2e]
  · exact .on place.dropLast look_dropLast
      (fun _ _ _ => by rw [walk, if_neg hdot, if_pos hup])
      fun _ _ _ => by rw [walk, if_neg hdot, if_pos hup]
  by_cases hlen : maxName < step.length
  · exact .tooLong fun _ _ _ => by rw [walk, if_neg hdot, if_neg hup, if_pos hlen]
  have hstep : ∀ (d : Disk) follow onLink rest, walk d follow onLink place (step :: rest) = _ :=
    fun d follow onLink rest => by rw [walk, if_neg hdot, if_neg hup, if_neg hlen]
  cases hget : d.get? (place ++ [step]) with
  | none =>
    exact .missing ⟨hdot, hup, Nat.not_lt.mp hlen⟩ (look_eq_none_iff.mpr hget)
      fun _ _ _ => by rw [hstep, hget]
  | some e =>
    have hlook := hpart _ _ (look_of_get? hget)
    have hsame : e.isDirectory = false → d'.get? (place ++ [step]) = some e := fun hleaf =>
      (look_eq_some_iff hleaf).mp (Entry.bare_of_not_isDirectory hleaf ▸ hlook)
    cases e with
    | directory entries =>
      obtain ⟨entries', hget'⟩ := look_eq_directory_iff.mp hlook
      exact .on (place ++ [step]) (fun _ => look_eq_directory_iff.mpr ⟨entries, hget⟩)
        (fun _ _ _ => by rw [hstep, hget]) fun _ _ _ => by rw [hstep, hget']
    | link target =>
      have hbase : d.look place = some .emptyDirectory →
          d.look (if target.head? = some 0x2f then [] else place) = some .emptyDirectory := by
        intro hplace
        split
        · rfl
        · exact hplace
      exact .link target _ hbase (fun _ _ _ => by rw [hstep, hget])
        fun _ _ _ => by rw [hstep, hsame rfl]
    | _ =>
      exact .leaf _ (fun _ _ _ => by rw [hstep, hget]) fun _ _ _ => by rw [hstep, hsame rfl]

theorem PartOf.walk (hpart : d.PartOf d')
    {onLink onLink' : Place → List Name → Except IoError Target}
    (hlink : ∀ place xs q e, onLink place xs = .ok (.found q e) →
      ∃ e', onLink' place xs = .ok (.found q e'))
    {xs : List Name} {q : Place} {e : Entry}
    (h : walk d follow onLink place xs = .ok (.found q e)) :
    ∃ e', Disk.walk d' follow onLink' place xs = .ok (.found q e') := by
  induction xs generalizing place with
  | nil =>
    rw [Disk.walk] at h
    cases hget : d.get? place with
    | none =>
      rw [hget] at h
      cases h
    | some x =>
      rw [hget] at h
      cases h
      obtain ⟨e', he', -⟩ := Option.map_eq_some_iff.mp (hpart _ _ (look_of_get? hget))
      exact ⟨e', by rw [Disk.walk, he']⟩
  | cons step xs ih =>
    cases hpart.firstStep place step with
    | on next hnext hd hd' =>
      rw [hd] at h
      rw [hd']
      exact ih h
    | link target base hbase hd hd' =>
      rw [hd] at h
      rw [hd']
      by_cases hend : (xs.isEmpty && !follow) = true
      · rw [if_pos hend] at h ⊢
        cases h
        exact ⟨_, rfl⟩
      · rw [if_neg hend] at h ⊢
        exact hlink _ _ _ _ h
    | leaf x hd hd' =>
      rw [hd] at h
      rw [hd']
      exact ⟨e, h⟩
    | missing hname hnone hd =>
      rw [hd] at h
      split at h <;> cases h
    | tooLong hd =>
      rw [hd] at h
      cases h

theorem PartOf.walkLinks (hpart : d.PartOf d') {links : Nat} {xs : List Name} {q : Place}
    {e : Entry} (h : walkLinks d follow links place xs = .ok (.found q e)) :
    ∃ e', Disk.walkLinks d' follow links place xs = .ok (.found q e') := by
  refine walkLinks_relation (Q := fun onLink onLink' => ∀ place xs q e,
    onLink place xs = .ok (.found q e) → ∃ e', onLink' place xs = .ok (.found q e'))
      ?_ ?_ links place xs q e h
  · intro place xs q e h
    cases h
  · intro onLink onLink' hlink place xs q e h
    exact hpart.walk hlink h

/-- Whether a path is looked at from the top at all does not depend on the disk. -/
theorem lookUp_cases (read : List UInt8 → List Name) (path : String) :
    (∃ cause, ∀ (d : Disk) follow, d.lookUp read follow path = .error cause) ∨
      ∀ (d : Disk) follow, d.lookUp read follow path =
        Disk.walkLinks d follow maxLinks [] (read (Text.encode path)) := by
  by_cases hnul : 0 ∈ Text.encode path
  · exact .inl ⟨_, fun d follow => by unfold lookUp; exact if_pos hnul⟩
  by_cases hempty : (Text.encode path).isEmpty = true
  · exact .inl ⟨_, fun d follow => by
      unfold lookUp
      exact (if_neg hnul).trans (if_pos hempty)⟩
  by_cases hlong : maxPath < (Text.encode path).length
  · exact .inl ⟨_, fun d follow => by
      unfold lookUp
      exact (if_neg hnul).trans ((if_neg hempty).trans (if_pos hlong))⟩
  · exact .inr fun d follow => by
      unfold lookUp
      exact (if_neg hnul).trans ((if_neg hempty).trans (if_neg hlong))

theorem resolve_cases (path : String) :
    (∃ cause, ∀ (d : Disk) follow, d.resolve follow path = .error cause) ∨
      ∀ (d : Disk) follow,
        d.resolve follow path = Disk.walkLinks d follow maxLinks [] (steps (Text.encode path)) :=
  lookUp_cases steps path

/-- What a path leads to on a part, it leads to on the whole. -/
theorem PartOf.resolve (hpart : d.PartOf d') {path : String} {q : Place} {e : Entry}
    (h : d.resolve follow path = .ok (.found q e)) :
    ∃ e', d'.resolve follow path = .ok (.found q e') ∧ e'.bare = e.bare := by
  have hresolve : ∃ e', d'.resolve follow path = .ok (.found q e') := by
    obtain ⟨cause, hcause⟩ | hwalk := resolve_cases path
    · rw [hcause] at h
      cases h
    · rw [hwalk] at h ⊢
      exact hpart.walkLinks h
  obtain ⟨e', he'⟩ := hresolve
  have hlook := hpart _ _ (look_of_get? (get?_of_resolve h))
  rw [look_of_get? (get?_of_resolve he')] at hlook
  exact ⟨e', he', Option.some.inj hlook⟩

/-! ## Links at the end -/

/-- What is found at the end without following links is found when they are followed, unless it is
a link. -/
theorem walk_followed {onLink onLink' : Place → List Name → Except IoError Target} {q : Place}
    {e : Entry} (hnot : ∀ t, e ≠ .link t)
    (hlink : ∀ place xs, onLink place xs = .ok (.found q e) → onLink' place xs = .ok (.found q e))
    {xs : List Name} (h : walk d false onLink place xs = .ok (.found q e)) :
    walk d true onLink' place xs = .ok (.found q e) := by
  induction xs generalizing place with
  | nil => exact h
  | cons step xs ih =>
    cases firstStep d place step with
    | on next hstep =>
      rw [hstep] at h ⊢
      exact ih h
    | link target base hget hstep =>
      rw [hstep] at h
      rw [hstep, if_neg (by simp)]
      split at h
      · cases h
        exact absurd rfl (hnot target)
      · exact hlink _ _ h
    | leaf e' hleaf hget hstep =>
      rw [hstep] at h ⊢
      exact h
    | nothing hstep => exact absurd h (hstep _ _ _ _ _)

theorem walkLinks_followed {links : Nat} {q : Place} {e : Entry} (hnot : ∀ t, e ≠ .link t)
    {xs : List Name} (h : walkLinks d false links place xs = .ok (.found q e)) :
    walkLinks d true links place xs = .ok (.found q e) := by
  refine walkLinks_relation (Q := fun onLink onLink' => ∀ place xs,
    onLink place xs = .ok (.found q e) → onLink' place xs = .ok (.found q e)) ?_ ?_ links place xs h
  · intro place xs h
    cases h
  · intro onLink onLink' hlink place xs h
    exact walk_followed hnot hlink h

theorem resolve_followed {path : String} {q : Place} {e : Entry} (hnot : ∀ t, e ≠ .link t)
    (h : d.resolve false path = .ok (.found q e)) : d.resolve true path = .ok (.found q e) := by
  obtain ⟨cause, hcause⟩ | hwalk := resolve_cases path
  · rw [hcause] at h
    cases h
  · rw [hwalk] at h ⊢
    exact walkLinks_followed hnot h

/-- A path without a directory at its end does not lead to one when links are not followed. -/
theorem isDirectory_of_resolve {path : String} (hno : d.isDirectory path = false) {q : Place}
    {e : Entry} (h : d.resolve false path = .ok (.found q e)) : e.isDirectory = false := by
  cases e with
  | directory entries =>
    have hfollowed := resolve_followed (fun t he => by cases he) h
    unfold Disk.isDirectory entry at hno
    rw [hfollowed] at hno
    exact hno
  | _ => rfl

/-! ## Removing and making -/

/-- Taking away what is found takes away what is below it. The top directory stays. -/
theorem look_put_none {e : Entry} (h : d.get? place = some e) (q : Place) :
    (d.put place none).look q = if place ≠ [] ∧ place <+: q then none else d.look q := by
  obtain rfl | ⟨dir, n, rfl⟩ := place.eq_nil_or_concat
  · rw [if_neg (fun h => h.1 rfl)]
    rfl
  · rw [List.concat_eq_append] at h ⊢
    rw [look_remove (look_above (look_of_get? h))]
    simp

theorem PartOf.put_none {e : Entry} (h : d.get? place = some e) : (d.put place none).PartOf d := by
  intro q x hx
  rw [look_put_none h] at hx
  split at hx
  · cases hx
  · exact hx

/-- Taking away what has nothing below it takes away nothing else. -/
theorem look_put_none_ne {e : Entry} (h : d.get? place = some e)
    (hbelow : ∀ n rest, d.look (place ++ n :: rest) = none) {q : Place} (hq : q ≠ place) :
    (d.put place none).look q = d.look q := by
  rw [look_put_none h]
  split
  · rename_i hpre
    obtain ⟨rest, rfl⟩ := hpre.2
    cases rest with
    | nil => exact absurd (List.append_nil place) hq
    | cons n rest => exact (hbelow n rest).symm
  · rfl

/-- A walk to a missing name leads to a directory that does not have the name. -/
theorem look_of_walk_missing {onLink : Place → List Name → Except IoError Target} {dir : Place}
    {name : Name}
    (hlink : ∀ place xs, d.look place = some .emptyDirectory →
      onLink place xs = .ok (.missing dir name) →
        d.look dir = some .emptyDirectory ∧ d.look (dir ++ [name]) = none)
    {xs : List Name} (hplace : d.look place = some .emptyDirectory)
    (h : walk d follow onLink place xs = .ok (.missing dir name)) :
    d.look dir = some .emptyDirectory ∧ d.look (dir ++ [name]) = none := by
  induction xs generalizing place with
  | nil =>
    rw [walk] at h
    split at h <;> cases h
  | cons step xs ih =>
    cases (PartOf.refl d).firstStep place step with
    | on next hnext hd _ =>
      rw [hd] at h
      exact ih (hnext hplace) h
    | link target base hbase hd _ =>
      rw [hd] at h
      split at h
      · cases h
      · exact hlink _ _ (hbase hplace) h
    | leaf e hd _ =>
      rw [hd] at h
      split at h <;> cases h
    | missing hname hnone hd =>
      rw [hd] at h
      split at h
      · cases h
        exact ⟨hplace, hnone⟩
      · cases h
    | tooLong hd =>
      rw [hd] at h
      cases h

theorem look_of_walkLinks_missing {links : Nat} {dir : Place} {name : Name} {xs : List Name}
    (hplace : d.look place = some .emptyDirectory)
    (h : walkLinks d follow links place xs = .ok (.missing dir name)) :
    d.look dir = some .emptyDirectory ∧ d.look (dir ++ [name]) = none := by
  refine walkLinks_induction (Q := fun onLink => ∀ place xs, d.look place = some .emptyDirectory →
    onLink place xs = .ok (.missing dir name) →
      d.look dir = some .emptyDirectory ∧ d.look (dir ++ [name]) = none)
    ?_ ?_ links place xs hplace h
  · intro place xs _ h
    cases h
  · intro onLink hlink place xs hplace h
    exact look_of_walk_missing hlink hplace h

theorem look_of_lookUp_missing {read : List UInt8 → List Name} {path : String} {dir : Place}
    {name : Name} (h : d.lookUp read follow path = .ok (.missing dir name)) :
    d.look dir = some .emptyDirectory ∧ d.look (dir ++ [name]) = none := by
  obtain ⟨cause, hcause⟩ | hwalk := lookUp_cases read path
  · rw [hcause] at h
    cases h
  · rw [hwalk] at h
    exact look_of_walkLinks_missing rfl h

/-- What is made where a path leads to nothing is found there, whether links are followed or not. -/
theorem PartOf.walk_made {onLink onLink' : Place → List Name → Except IoError Target}
    (hpart : d.PartOf d') {dir : Place} {name : Name} {e : Entry} (hnot : ∀ t, e ≠ .link t)
    (hmade : d'.get? (dir ++ [name]) = some e)
    (hlink : ∀ place xs, onLink place xs = .ok (.missing dir name) →
      onLink' place xs = .ok (.found (dir ++ [name]) e))
    {xs : List Name} (h : Disk.walk d false onLink place xs = .ok (.missing dir name)) :
    Disk.walk d' follow onLink' place xs = .ok (.found (dir ++ [name]) e) := by
  induction xs generalizing place with
  | nil =>
    rw [Disk.walk] at h
    split at h <;> cases h
  | cons step xs ih =>
    cases hpart.firstStep place step with
    | on next hnext hd hd' =>
      rw [hd] at h
      rw [hd']
      exact ih h
    | link target base hbase hd hd' =>
      rw [hd] at h
      rw [hd']
      -- a link at the end would have been found
      by_cases hend : xs.isEmpty = true
      · rw [if_pos (by simp [hend])] at h
        cases h
      · rw [if_neg (by simp [hend])] at h ⊢
        exact hlink _ _ h
    | leaf x hd hd' =>
      rw [hd] at h
      split at h <;> cases h
    | missing hname hnone hd =>
      rw [hd] at h
      split at h
      · rename_i hend
        cases h
        rw [List.isEmpty_iff.mp hend]
        exact walk_last hname hmade hnot
      · cases h
    | tooLong hd =>
      rw [hd] at h
      cases h

theorem PartOf.walkLinks_made (hpart : d.PartOf d') {dir : Place} {name : Name} {e : Entry}
    (hnot : ∀ t, e ≠ .link t) (hmade : d'.get? (dir ++ [name]) = some e) {links : Nat}
    {xs : List Name} (h : Disk.walkLinks d false links place xs = .ok (.missing dir name)) :
    Disk.walkLinks d' follow links place xs = .ok (.found (dir ++ [name]) e) := by
  refine walkLinks_relation (Q := fun onLink onLink' => ∀ place xs,
    onLink place xs = .ok (.missing dir name) →
      onLink' place xs = .ok (.found (dir ++ [name]) e)) ?_ ?_ links place xs h
  · intro place xs h
    cases h
  · intro onLink onLink' hlink place xs h
    exact hpart.walk_made hnot hmade hlink h

section

variable {read : List UInt8 → List Name} {path : String} {e : Entry}

/-- Putting an entry where a path leads to nothing adds that entry. -/
theorem look_putNew (h : d.putNew e (d.lookUp read false path) = .ok d')
    (hleaf : ∀ n rest, e.get? (n :: rest) = none) :
    ∃ dir name, d.lookUp read false path = .ok (.missing dir name) ∧
      d.look (dir ++ [name]) = none ∧
      ∀ q, d'.look q = if q = dir ++ [name] then some e.bare else d.look q := by
  unfold putNew at h
  split at h
  next dir name hmissing =>
    cases h
    obtain ⟨hdir, hnone⟩ := look_of_lookUp_missing hmissing
    exact ⟨dir, name, hmissing, hnone, look_add hdir (by rw [hnone]; exact nofun) hleaf⟩
  next => cases h
  next => cases h

theorem PartOf.putNew (h : d.putNew e (d.lookUp read false path) = .ok d')
    (hleaf : ∀ n rest, e.get? (n :: rest) = none) : d.PartOf d' := by
  obtain ⟨dir, name, -, hnone, hlook⟩ := look_putNew h hleaf
  intro q x hx
  rw [hlook, if_neg]
  · exact hx
  · rintro rfl
    rw [hnone] at hx
    cases hx

/-- What was put at a path is found there, with nothing below it. -/
theorem lookUp_putNew (h : d.putNew e (d.lookUp read false path) = .ok d')
    (hleaf : ∀ n rest, e.get? (n :: rest) = none) (hnot : ∀ t, e ≠ .link t) (follow : Bool) :
    ∃ q e', d'.lookUp read follow path = .ok (.found q e') ∧ e'.bare = e.bare ∧
      ∀ n rest, d'.look (q ++ n :: rest) = none := by
  have hpart := PartOf.putNew h hleaf
  obtain ⟨dir, name, hmissing, hnone, hlook⟩ := look_putNew h hleaf
  have hmade := (hlook (dir ++ [name])).trans (if_pos rfl)
  obtain ⟨e', hget, hbare⟩ := Option.map_eq_some_iff.mp hmade
  have hnot' : ∀ t, e' ≠ .link t := by
    rintro t rfl
    cases e with
    | link t' => exact hnot t' rfl
    | _ => cases hbare
  refine ⟨dir ++ [name], e', ?_, hbare, fun n rest => ?_⟩
  · obtain ⟨cause, hcause⟩ | hwalk := lookUp_cases read path
    · rw [hcause] at hmissing
      cases hmissing
    · rw [hwalk] at hmissing ⊢
      exact hpart.walkLinks_made hnot' hget hmissing
  · rw [hlook, if_neg (by simp), look_below (by rw [hnone]; exact nofun)]

end

/-! ## Making several directories -/

/-- What every directory that is made keeps, making several keeps as well, even when it fails. -/
theorem createDirectories_induction {Q : Disk → Prop} {paths : List String}
    (hmade : ∀ s ∈ paths, ∀ d d' : Disk, Q d → d.createDirectory s = .ok d' → Q d') {d : Disk}
    (h : Q d) : Q (d.createDirectories paths).2 := by
  induction paths generalizing d with
  | nil => exact h
  | cons path parents ih =>
    obtain ⟨hpath, hparents⟩ := List.forall_mem_cons.mp hmade
    have habove := ih hparents h
    rw [createDirectories]
    split
    next hfirst => exact hpath _ _ h hfirst
    next =>
      split
      next he =>
        rw [he] at habove
        exact habove
      next d₁ he =>
        rw [he] at habove
        split
        next hagain => exact hpath _ _ habove hagain
        next => split <;> exact habove
    next => split <;> exact h

/-- Making directories takes nothing away. -/
theorem PartOf.createDirectories (paths : List String) (d : Disk) :
    d.PartOf (d.createDirectories paths).2 := by
  apply createDirectories_induction (Q := d.PartOf)
  · intro s _ d₁ d₂ hpart hmade
    exact hpart.trans (.putNew hmade fun _ _ => rfl)
  · exact .refl d

/-- Making directories adds nothing but directories. -/
theorem look_createDirectories (paths : List String) (d : Disk) {q : Place} {e : Entry}
    (h : (d.createDirectories paths).2.look q = some e) :
    d.look q = some e ∨ e = .emptyDirectory := by
  apply createDirectories_induction
    (Q := fun d' => ∀ q e, d'.look q = some e → d.look q = some e ∨ e = .emptyDirectory)
  · intro s _ d₁ d₂ hold hmade q e he
    obtain ⟨dir, name, -, -, hlook⟩ := look_putNew hmade fun _ _ => rfl
    rw [hlook] at he
    split at he
    · exact .inr (Option.some.inj he).symm
    · exact hold q e he
  · exact fun q e he => .inl he
  · exact h

end FileCluster.Disk
