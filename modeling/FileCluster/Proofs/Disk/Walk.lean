import FileCluster.Proofs.Disk.Names

/-!
Where local paths below a root lead.

A root's local path may go through links and relative steps; where it leads to a directory, the
local path of a path below the root goes on from there down the names of the path
(`Leads.resolve_toLocal`). Where no link stands below, the names are the place that is found
(`Leads.resolve_found`, `Leads.resolve_missing`), and nothing else is (`Leads.place_of_resolve`).
-/

namespace FileCluster.Disk

variable {d : Disk} {follow : Bool}

/-! ## Single steps -/

variable {onLink : Place → List Name → Except IoError Target} {place : Place} {step : Name}
  {rest : List Name}

/-- A step that is a name and not too long for one. -/
structure IsName (n : Name) : Prop where
  notDot : n ≠ [0x2e]
  notUp : n ≠ [0x2e, 0x2e]
  length : n.length ≤ maxName

theorem walk_into {entries : List (Name × Entry)} (h : IsName step)
    (hget : d.get? (place ++ [step]) = some (.directory entries)) :
    walk d follow onLink place (step :: rest) = walk d follow onLink (place ++ [step]) rest := by
  rw [walk, if_neg h.notDot, if_neg h.notUp, if_neg (Nat.not_lt.mpr h.length), hget]

theorem walk_missing (h : IsName step) (hget : d.get? (place ++ [step]) = none) :
    walk d follow onLink place [step] = .ok (.missing place step) := by
  rw [walk, if_neg h.notDot, if_neg h.notUp, if_neg (Nat.not_lt.mpr h.length), hget]
  rfl

theorem walk_noSuchFile {n : Name} (h : IsName step) (hget : d.get? (place ++ [step]) = none) :
    walk d follow onLink place (step :: n :: rest) = .error .noSuchFile := by
  rw [walk, if_neg h.notDot, if_neg h.notUp, if_neg (Nat.not_lt.mpr h.length), hget]
  rfl

theorem walk_last {e : Entry} (h : IsName step) (hget : d.get? (place ++ [step]) = some e)
    (hlink : ∀ t, e ≠ .link t) :
    walk d follow onLink place [step] = .ok (.found (place ++ [step]) e) := by
  rw [walk, if_neg h.notDot, if_neg h.notUp, if_neg (Nat.not_lt.mpr h.length), hget]
  cases e with
  | directory entries =>
    dsimp only
    rw [walk, hget]
  | link t => exact absurd rfl (hlink t)
  | _ => rfl

theorem walk_notADirectory {n : Name} {e : Entry} (h : IsName step)
    (hget : d.get? (place ++ [step]) = some e) (hleaf : e.isDirectory = false)
    (hlink : ∀ t, e ≠ .link t) :
    walk d follow onLink place (step :: n :: rest) = .error .notADirectory := by
  rw [walk, if_neg h.notDot, if_neg h.notUp, if_neg (Nat.not_lt.mpr h.length), hget]
  cases e with
  | directory entries => cases hleaf
  | link t => exact absurd rfl (hlink t)
  | _ => rfl

theorem walk_nameTooLong (hdot : step ≠ [0x2e]) (hup : step ≠ [0x2e, 0x2e])
    (hlong : maxName < step.length) :
    walk d follow onLink place (step :: rest) = .error .nameTooLong := by
  rw [walk, if_neg hdot, if_neg hup, if_pos hlong]

/-- What the first step of a walk comes to, whatever comes after it. -/
inductive FirstStep (d : Disk) (place : Place) (step : Name) : Prop
  /-- it leads to a place to go on from -/
  | on (next : Place) (h : ∀ follow onLink rest,
      walk d follow onLink place (step :: rest) = walk d follow onLink next rest)
  /-- there is a link -/
  | link (target : List UInt8) (base : Place)
      (hget : d.get? (place ++ [step]) = some (.link target)) (h : ∀ follow onLink rest,
      walk d follow onLink place (step :: rest) =
        if rest.isEmpty && !follow then .ok (.found (place ++ [step]) (.link target))
        else onLink base (steps target ++ rest))
  /-- there is something that has nothing below it -/
  | leaf (e : Entry) (hleaf : e.isDirectory = false) (hget : d.get? (place ++ [step]) = some e)
      (h : ∀ follow onLink rest, walk d follow onLink place (step :: rest) =
        if rest.isEmpty then .ok (.found (place ++ [step]) e) else .error .notADirectory)
  /-- there is nothing -/
  | nothing (h : ∀ follow onLink rest q e,
      walk d follow onLink place (step :: rest) ≠ .ok (.found q e))

theorem firstStep (d : Disk) (place : Place) (step : Name) : FirstStep d place step := by
  by_cases hdot : step = [0x2e]
  · exact .on place fun follow onLink rest => by rw [walk, if_pos hdot]
  · by_cases hup : step = [0x2e, 0x2e]
    · exact .on place.dropLast fun follow onLink rest => by rw [walk, if_neg hdot, if_pos hup]
    · by_cases hlen : maxName < step.length
      · refine .nothing fun follow onLink rest q e => ?_
        rw [walk, if_neg hdot, if_neg hup, if_pos hlen]
        exact nofun
      · have hstep : ∀ follow onLink rest, walk d follow onLink place (step :: rest) = _ :=
          fun follow onLink rest => by rw [walk, if_neg hdot, if_neg hup, if_neg hlen]
        cases hget : d.get? (place ++ [step]) with
        | none =>
          refine .nothing fun follow onLink rest q e => ?_
          rw [hstep, hget]
          dsimp only
          split <;> exact nofun
        | some e =>
          cases e with
          | directory entries =>
            exact .on (place ++ [step]) fun follow onLink rest => by rw [hstep, hget]
          | link target =>
            exact .link target _ hget fun follow onLink rest => by rw [hstep, hget]
          | _ => exact .leaf _ rfl hget fun follow onLink rest => by rw [hstep, hget]

/-! ## Walking on from a directory -/

/-- A walk to a directory can be walked on, if this holds of the links on the way. -/
theorem walk_append {onLink' : Place → List Name → Except IoError Target}
    {Q : Place → Except IoError Target → Prop} {ns : List Name} (hns : ns ≠ [])
    (hend : ∀ R, Q R (walk d follow onLink' R ns))
    (hlink : ∀ place xs R entries, onLink place xs = .ok (.found R (.directory entries)) →
      Q R (onLink' place (xs ++ ns)))
    {xs : List Name} {R : Place} {entries : List (Name × Entry)}
    (h : walk d true onLink place xs = .ok (.found R (.directory entries))) :
    Q R (walk d follow onLink' place (xs ++ ns)) := by
  induction xs generalizing place with
  | nil =>
    rw [walk] at h
    split at h
    · cases h
      exact hend _
    · cases h
  | cons step xs ih =>
    rw [List.cons_append]
    cases firstStep d place step with
    | on next hstep =>
      rw [hstep] at h ⊢
      exact ih h
    | link target base hget hstep =>
      have hmore : ¬((xs ++ ns).isEmpty && !follow) = true := by simp [hns]
      rw [hstep, if_neg (by simp)] at h
      rw [hstep, if_neg hmore, ← List.append_assoc]
      exact hlink _ _ _ _ h
    | leaf e hleaf hget hstep =>
      rw [hstep] at h
      split at h
      · cases h
        cases hleaf
      · cases h
    | nothing hstep => exact absurd h (hstep _ _ _ _ _)

/-- What walking through at most so many links does with a link. -/
def linkStep (d : Disk) (follow : Bool) : (links : Nat) → Place → List Name → Except IoError Target
  | 0 => fun _ _ => .error .tooManyLinks
  | links + 1 => walkLinks d follow links

theorem walkLinks_eq (links : Nat) (place : Place) (rest : List Name) :
    walkLinks d follow links place rest = walk d follow (linkStep d follow links) place rest := by
  cases links <;> rfl

/-- What holds of a walk if it holds of what is done with links holds of walks through any number of
links. -/
theorem walkLinks_induction {Q : (Place → List Name → Except IoError Target) → Prop}
    (hnone : Q fun _ _ => .error .tooManyLinks) (hwalk : ∀ onLink, Q onLink → Q (walk d follow onLink))
    (links : Nat) : Q (walkLinks d follow links) := by
  induction links with
  | zero => exact hwalk _ hnone
  | succ links ih => exact hwalk _ ih

/-- The same of two walks. -/
theorem walkLinks_relation {d d' : Disk} {follow follow' : Bool}
    {Q : (Place → List Name → Except IoError Target) →
      (Place → List Name → Except IoError Target) → Prop}
    (hnone : Q (fun _ _ => .error .tooManyLinks) fun _ _ => .error .tooManyLinks)
    (hwalk : ∀ onLink onLink', Q onLink onLink' →
      Q (walk d follow onLink) (walk d' follow' onLink')) (links : Nat) :
    Q (walkLinks d follow links) (walkLinks d' follow' links) := by
  induction links with
  | zero => exact hwalk _ _ hnone
  | succ links ih => exact hwalk _ _ ih

/-- A walk to a directory can be walked on, whether links at the end are followed or not. -/
theorem walkLinks_append {ns : List Name} (hns : ns ≠ []) {links : Nat} {xs : List Name}
    {R : Place} {entries : List (Name × Entry)}
    (h : walkLinks d true links place xs = .ok (.found R (.directory entries))) :
    ∃ left, walkLinks d follow links place (xs ++ ns) = walkLinks d follow left R ns := by
  induction links generalizing place xs R entries with
  | zero =>
    rw [walkLinks_eq] at h ⊢
    exact walk_append (Q := fun R t => ∃ left, t = walkLinks d follow left R ns) hns
      (fun R => ⟨0, rfl⟩) (fun _ _ _ _ h => by cases h) h
  | succ links ih =>
    rw [walkLinks_eq] at h ⊢
    exact walk_append (Q := fun R t => ∃ left, t = walkLinks d follow left R ns) hns
      (fun R => ⟨links + 1, rfl⟩) (fun _ _ _ _ h => ih h) h

/-- A step to the same place at the end makes no difference to a walk to a directory. -/
theorem walk_of_dot {R : Place} {entries : List (Name × Entry)}
    (hlink : ∀ place xs, onLink place (xs ++ [[0x2e]]) = .ok (.found R (.directory entries)) →
      onLink place xs = .ok (.found R (.directory entries)))
    {xs : List Name}
    (h : walk d true onLink place (xs ++ [[0x2e]]) = .ok (.found R (.directory entries))) :
    walk d true onLink place xs = .ok (.found R (.directory entries)) := by
  induction xs generalizing place with
  | nil => rwa [List.nil_append, walk, if_pos rfl] at h
  | cons step xs ih =>
    rw [List.cons_append] at h
    cases firstStep d place step with
    | on next hstep =>
      rw [hstep] at h ⊢
      exact ih h
    | link target base hget hstep =>
      rw [hstep, if_neg (by simp), ← List.append_assoc] at h
      rw [hstep, if_neg (by simp)]
      exact hlink _ _ h
    | leaf e hleaf hget hstep =>
      rw [hstep, if_neg (by simp)] at h
      cases h
    | nothing hstep => exact absurd h (hstep _ _ _ _ _)

theorem walkLinks_of_dot {R : Place} {entries : List (Name × Entry)} {links : Nat} {xs : List Name}
    (h : walkLinks d true links place (xs ++ [[0x2e]]) = .ok (.found R (.directory entries))) :
    walkLinks d true links place xs = .ok (.found R (.directory entries)) := by
  refine walkLinks_induction (Q := fun onLink => ∀ place xs,
    onLink place (xs ++ [[0x2e]]) = .ok (.found R (.directory entries)) →
      onLink place xs = .ok (.found R (.directory entries))) ?_ ?_ links place xs h
  · intro place xs h
    cases h
  · intro onLink hlink place xs h
    exact walk_of_dot hlink h

/-- What a walk finds is there. -/
theorem get?_of_walk
    (hlink : ∀ place xs q e, onLink place xs = .ok (.found q e) → d.get? q = some e)
    {xs : List Name} {q : Place} {e : Entry}
    (h : walk d follow onLink place xs = .ok (.found q e)) : d.get? q = some e := by
  induction xs generalizing place with
  | nil =>
    rw [walk] at h
    split at h
    · rename_i hget
      cases h
      exact hget
    · cases h
  | cons step xs ih =>
    cases firstStep d place step with
    | on next hstep =>
      rw [hstep] at h
      exact ih h
    | link target base hget hstep =>
      rw [hstep] at h
      split at h
      · cases h
        exact hget
      · exact hlink _ _ _ _ h
    | leaf e' hleaf hget hstep =>
      rw [hstep] at h
      split at h
      · cases h
        exact hget
      · cases h
    | nothing hstep => exact absurd h (hstep _ _ _ _ _)

theorem get?_of_walkLinks {links : Nat} {xs : List Name} {q : Place} {e : Entry}
    (h : walkLinks d follow links place xs = .ok (.found q e)) : d.get? q = some e := by
  refine walkLinks_induction (Q := fun onLink => ∀ place xs q e,
    onLink place xs = .ok (.found q e) → d.get? q = some e) ?_ ?_ links place xs q e h
  · intro place xs q e h
    cases h
  · intro onLink hlink place xs q e h
    exact get?_of_walk hlink h

/-- What is found when a link at the end is followed is there, or the link is, when it is not. -/
theorem walk_unfollowed {onLink' : Place → List Name → Except IoError Target}
    (hlink : ∀ place xs, (∃ q e, onLink place xs = .ok (.found q e)) →
      ∃ q e, onLink' place xs = .ok (.found q e))
    {xs : List Name} (h : ∃ q e, walk d true onLink place xs = .ok (.found q e)) :
    ∃ q e, walk d false onLink' place xs = .ok (.found q e) := by
  obtain ⟨q, e, h⟩ := h
  induction xs generalizing place with
  | nil =>
    rw [walk] at h ⊢
    exact ⟨q, e, h⟩
  | cons step xs ih =>
    cases firstStep d place step with
    | on next hstep =>
      rw [hstep] at h ⊢
      exact ih h
    | link target base hget hstep =>
      rw [hstep, if_neg (by simp)] at h
      rw [hstep]
      split
      · exact ⟨_, _, rfl⟩
      · exact hlink _ _ ⟨q, e, h⟩
    | leaf e' hleaf hget hstep =>
      rw [hstep] at h ⊢
      exact ⟨q, e, h⟩
    | nothing hstep => exact absurd h (hstep _ _ _ _ _)

theorem walkLinks_unfollowed {links : Nat} {xs : List Name}
    (h : ∃ q e, walkLinks d true links place xs = .ok (.found q e)) :
    ∃ q e, walkLinks d false links place xs = .ok (.found q e) := by
  refine walkLinks_relation (Q := fun onLink onLink' => ∀ place xs,
    (∃ q e, onLink place xs = .ok (.found q e)) → ∃ q e, onLink' place xs = .ok (.found q e))
      ?_ ?_ links place xs h
  · rintro place xs ⟨q, e, h⟩
    cases h
  · intro onLink onLink' hlink place xs h
    exact walk_unfollowed hlink h

/-! ## Walking down names -/

theorem isName_of_fits {root : String} {p : Path} (h : p.Fits root) : ∀ n ∈ p.names, IsName n :=
  fun n hn => ⟨(Path.name_of_mem hn).2.2.1, (Path.name_of_mem hn).2.2.2, h.component n hn⟩

/-- Names of directories are walked down. -/
theorem walk_directories {dir : List Name} (h : ∀ n ∈ dir, IsName n)
    (hdir : d.look (place ++ dir) = some .emptyDirectory) (rest : List Name) :
    walk d follow onLink place (dir ++ rest) = walk d follow onLink (place ++ dir) rest := by
  induction dir generalizing place with
  | nil => simp
  | cons n dir ih =>
    rw [List.forall_mem_cons] at h
    have hsplit : place ++ n :: dir = place ++ [n] ++ dir := by simp
    have hn : d.look (place ++ [n]) = some .emptyDirectory := by
      rw [hsplit] at hdir
      cases dir with
      | nil => simpa using hdir
      | cons m dir => exact look_above hdir
    obtain ⟨entries, hget⟩ := look_eq_directory_iff.mp hn
    rw [List.cons_append, walk_into h.1 hget, ih h.2 (hsplit ▸ hdir), hsplit]

/-- Nothing below a place is a link. -/
def NoLinks (d : Disk) (place : Place) : Prop := ∀ q t, Beneath place q → d.look q ≠ some (.link t)

/-- Where nothing below is a link, walking down names finds only what stands at their place. -/
theorem place_of_walk {ns : List Name} (hns : ∀ n ∈ ns, n ≠ [0x2e] ∧ n ≠ [0x2e, 0x2e])
    (hlinks : d.NoLinks place) {q : Place} {e : Entry}
    (h : walk d follow onLink place ns = .ok (.found q e)) :
    q = place ++ ns ∧ d.get? q = some e := by
  induction ns generalizing place with
  | nil =>
    rw [walk] at h
    split at h
    · rename_i hget
      cases h
      exact ⟨by simp, hget⟩
    · cases h
  | cons n ns ih =>
    rw [List.forall_mem_cons] at hns
    have hsplit : place ++ n :: ns = place ++ [n] ++ ns := by simp
    rw [walk, if_neg hns.1.1, if_neg hns.1.2] at h
    split at h
    · cases h
    · split at h
      · split at h <;> cases h
      · rw [hsplit]
        refine ih hns.2 (fun q t hq => hlinks q t ?_) h
        obtain ⟨m, rest, rfl⟩ := hq
        exact ⟨n, m :: rest, by simp⟩
      · rename_i target hget
        exact absurd ((look_eq_some_iff rfl).mpr hget) (hlinks _ target ⟨n, [], rfl⟩)
      · rename_i hget
        split at h
        · rename_i hempty
          cases h
          rw [List.isEmpty_iff] at hempty
          subst hempty
          exact ⟨rfl, hget⟩
        · cases h

/-! ## Local paths below a root -/

/-- A local path leads to a directory at a place. -/
def Leads (d : Disk) (root : String) (place : Place) : Prop :=
  ∃ entries, d.resolve true root = .ok (.found place (.directory entries))

variable {root : String} {R : Place} {p : Path}

theorem Leads.walk (h : d.Leads root R) : ∃ entries,
    walkLinks d true maxLinks [] (pathNames (Text.encode root)) =
      .ok (.found R (.directory entries)) := by
  obtain ⟨entries, h⟩ := h
  refine ⟨entries, ?_⟩
  unfold resolve lookUp at h
  dsimp only at h
  split at h
  · cases h
  · split at h
    · cases h
    · split at h
      · cases h
      · unfold steps at h
        dsimp only at h
        split at h
        · exact walkLinks_of_dot h
        · exact h

/-- Where a root leads there is a directory. -/
theorem Leads.look (h : d.Leads root R) : d.look R = some .emptyDirectory := by
  obtain ⟨entries, hwalk⟩ := h.walk
  exact look_eq_directory_iff.mpr ⟨entries, get?_of_walkLinks hwalk⟩

theorem Leads.isDirectory (h : d.Leads root R) : d.isDirectory root = true := by
  obtain ⟨entries, h⟩ := h
  unfold Disk.isDirectory entry
  rw [h]
  rfl

theorem exists_leads (h : d.isDirectory root = true) : ∃ R, d.Leads root R := by
  unfold Disk.isDirectory entry at h
  split at h
  next e he =>
    split at he
    next q e' hr =>
      cases he
      cases e with
      | directory entries => exact ⟨q, entries, hr⟩
      | _ => cases h
    next => cases he
    next => cases he
  next => cases h

theorem Leads.ne_empty (h : d.Leads root R) : root ≠ "" := by
  rintro rfl
  obtain ⟨entries, h⟩ := h
  cases h

/-- Where a root leads no directory can be made: something stands there, be it a link. -/
theorem Leads.resolveNew_root (h : d.Leads root R) :
    ∃ q e, d.resolveNew root = .ok (.found q e) := by
  obtain ⟨entries, hwalk⟩ := h.walk
  have hfound := walkLinks_unfollowed ⟨R, _, hwalk⟩
  obtain ⟨entries, h⟩ := h
  unfold resolve lookUp at h
  unfold resolveNew lookUp
  dsimp only at h ⊢
  split at h
  · cases h
  · rename_i hnul
    rw [if_neg hnul]
    split at h
    · cases h
    · rename_i hempty
      rw [if_neg hempty]
      split at h
      · cases h
      · rename_i hlen
        rw [if_neg hlen]
        exact hfound

theorem found_of_isDirectory {path : String} (h : d.isDirectory path = true) :
    ∃ q e, d.resolveNew path = .ok (.found q e) := by
  obtain ⟨R, hleads⟩ := exists_leads h
  exact hleads.resolveNew_root

/-- The local path of a path below a root does not end in a slash. -/
theorem resolveNew_toLocal (root : String) (d : Disk) (hp : p ≠ .root) :
    d.resolveNew (p.toLocal root) = d.resolve false (p.toLocal root) := by
  unfold resolveNew resolve lookUp
  dsimp only
  rw [steps_toLocal root hp, pathNames_toLocal]

/-- What a local path leads to is there. -/
theorem get?_of_resolve {path : String} {q : Place} {e : Entry}
    (h : d.resolve follow path = .ok (.found q e)) : d.get? q = some e := by
  unfold resolve lookUp at h
  dsimp only at h
  split at h
  · cases h
  · split at h
    · cases h
    · split at h
      · cases h
      · exact get?_of_walkLinks h

/-- The local path of a path below a root leads down the path's names. -/
theorem Leads.resolve_toLocal (h : d.Leads root R) (hp : p ≠ .root) (follow : Bool) :
    (∃ cause, d.resolve follow (p.toLocal root) = .error cause) ∨
      ∃ links, d.resolve follow (p.toLocal root) = walkLinks d follow links R p.names := by
  obtain ⟨entries, hwalk⟩ := h.walk
  have hns : p.names ≠ [] := fun he => hp (Path.names_eq_nil_iff.mp he)
  unfold resolve lookUp
  dsimp only
  split
  · exact Or.inl ⟨_, rfl⟩
  · split
    · exact Or.inl ⟨_, rfl⟩
    · split
      · exact Or.inl ⟨_, rfl⟩
      · rw [steps_toLocal root hp]
        exact Or.inr (walkLinks_append hns hwalk)

/-- The local path of a path that is not refused as a whole is walked down from the top. -/
theorem resolve_eq_walkLinks (d : Disk) (hp : p ≠ .root) (hwhole : p.Whole root) (follow : Bool) :
    d.resolve follow (p.toLocal root) =
      walkLinks d follow maxLinks [] (pathNames (Text.encode root) ++ p.names) := by
  have hempty := isEmpty_toLocal root hp
  unfold resolve lookUp
  dsimp only
  rw [if_neg hwhole.noNul, if_neg (by rw [hempty]; exact Bool.false_ne_true),
    if_neg (Nat.not_lt.mpr hwhole.length), steps_toLocal root hp]

/-- The local path of a path that is not refused as a whole leads down the path's names. -/
theorem Leads.resolve_of_whole (h : d.Leads root R) (hp : p ≠ .root) (hwhole : p.Whole root)
    (follow : Bool) :
    ∃ links, d.resolve follow (p.toLocal root) = walkLinks d follow links R p.names := by
  obtain ⟨entries, hwalk⟩ := h.walk
  have hns : p.names ≠ [] := fun he => hp (Path.names_eq_nil_iff.mp he)
  rw [resolve_eq_walkLinks d hp hwhole]
  exact walkLinks_append hns hwalk

/-- The local path of a path that fits below a root leads down the path's names. -/
theorem Leads.resolve_of_fits (h : d.Leads root R) (hp : p ≠ .root) (hfits : p.Fits root)
    (follow : Bool) :
    ∃ links, d.resolve follow (p.toLocal root) = walkLinks d follow links R p.names :=
  h.resolve_of_whole hp hfits.whole follow

/-- Where nothing below a root is a link, the local path of a path leads nowhere but to its
place. -/
theorem Leads.place_of_resolve (h : d.Leads root R) (hp : p ≠ .root) (hlinks : d.NoLinks R)
    {q : Place} {e : Entry} (hr : d.resolve follow (p.toLocal root) = .ok (.found q e)) :
    q = R ++ p.names ∧ d.get? q = some e := by
  rcases h.resolve_toLocal hp follow with ⟨cause, he⟩ | ⟨links, he⟩
  · rw [he] at hr
    cases hr
  · rw [he, walkLinks_eq] at hr
    exact place_of_walk (fun n hn => (Path.name_of_mem hn).2.2) hlinks hr

/-- The local path of a path that fits leads to what stands at its place. -/
theorem Leads.resolve_found (h : d.Leads root R) (hp : p ≠ .root) (hfits : p.Fits root)
    {e : Entry} (hget : d.get? (R ++ p.names) = some e) (hlink : ∀ t, e ≠ .link t)
    (follow : Bool) : d.resolve follow (p.toLocal root) = .ok (.found (R ++ p.names) e) := by
  obtain ⟨links, hr⟩ := h.resolve_of_fits hp hfits follow
  obtain ⟨a, ha⟩ := Path.exists_parent hp
  obtain ⟨n, hn⟩ := Path.names_of_parent ha
  have hnames := isName_of_fits hfits
  rw [hn, ← List.append_assoc] at hget
  rw [hn] at hnames
  have hdir : d.look (R ++ a.names) = some .emptyDirectory := look_above (look_of_get? hget)
  rw [hr, walkLinks_eq, hn, walk_directories (fun m hm => hnames m (by simp [hm])) hdir,
    walk_last (hnames n (by simp)) hget hlink, List.append_assoc]

/-- The local path of a path that fits leads to its name in the directory above, if there is nothing
of that name. -/
theorem Leads.resolve_missing (h : d.Leads root R) (hfits : p.Fits root) {a : Path} {n : Name}
    (hn : p.names = a.names ++ [n]) (habove : d.look (R ++ a.names) = some .emptyDirectory)
    (hfree : d.look (R ++ p.names) = none) (follow : Bool) :
    d.resolve follow (p.toLocal root) = .ok (.missing (R ++ a.names) n) := by
  have hp : p ≠ .root := by
    rintro rfl
    exact absurd hn.symm (by simp [Path.names, Path.root])
  obtain ⟨links, hr⟩ := h.resolve_of_fits hp hfits follow
  have hnames := isName_of_fits hfits
  rw [hn] at hnames
  rw [hn, ← List.append_assoc] at hfree
  rw [hr, walkLinks_eq, hn, walk_directories (fun m hm => hnames m (by simp [hm])) habove,
    walk_missing (hnames n (by simp)) (look_eq_none_iff.mp hfree)]

/-! ## Roots that stay where they are -/

/-- A local path leads to a directory at a place, whatever stands at places of some kind. -/
def Anchored (d : Disk) (within : Place → Prop) (root : String) (R : Place) : Prop :=
  ∀ d' : Disk, (∀ q, ¬within q → d'.look q = d.look q) → d'.Leads root R

variable {within : Place → Prop}

theorem Anchored.leads (h : d.Anchored within root R) : d.Leads root R := h d fun _ _ => rfl

/-- Changes at places of the kind leave a local path anchored. -/
theorem Anchored.change (h : d.Anchored within root R) {d' : Disk}
    (hd : ∀ q, ¬within q → d'.look q = d.look q) : d'.Anchored within root R :=
  fun d'' hd'' => h d'' fun q hq => (hd'' q hq).trans (hd q hq)

theorem leads_slash (d : Disk) : d.Leads "/" [] := ⟨d.entries, rfl⟩

/-- A local path that names a directory from the top down leads there, whatever stands at places of
a kind that the directory is not of. -/
theorem Anchored.of_toLocal {r : Path} (hfits : r.Fits "/")
    (hdir : d.look r.names = some .emptyDirectory) (hout : ¬within r.names) :
    d.Anchored within (r.toLocal "/") r.names := by
  intro d' hd
  by_cases hr : r = .root
  · subst hr
    exact leads_slash d'
  · obtain ⟨entries, hget⟩ := look_eq_directory_iff.mp ((hd _ hout).trans hdir)
    exact ⟨entries, (leads_slash d').resolve_found hr hfits hget nofun true⟩

end FileCluster.Disk
