import FileCluster.Proofs.Disk.Parts

/-!
What has to be there for a local path to lead where it does.

On its way to where it leads a local path passes places: directories, links, the places that links
go on from, and the end. `Disk.trail` lists them. After something was taken away from a disk, a local
path still leads where it did exactly if everything on its trail is still there
(`PartOf.resolve_iff`), and where it led to a regular file it still does (`PartOf.isFile_iff`). Below
a root without links below it whatever leads somewhere fits (`Leads.fits_of_resolve`).
-/

namespace FileCluster.Disk

variable {d d' : Disk} {place : Place}

/-! ## Trails -/

/-- The places passed by a walk along steps, links at the end followed. The places passed from a link
on are left to `onLink`. -/
def walkTrail (d : Disk) (onLink : Place → List Name → List Place) (place : Place) :
    List Name → List Place
  | [] => [place]
  | step :: rest =>
    if step = [0x2e] then walkTrail d onLink place rest
    else if step = [0x2e, 0x2e] then walkTrail d onLink place.dropLast rest
    else
      (place ++ [step]) ::
        match d.get? (place ++ [step]) with
        | some (.directory _) => walkTrail d onLink (place ++ [step]) rest
        | some (.link target) =>
          onLink (if target.head? = some 0x2f then [] else place) (steps target ++ rest)
        | _ => []

/-- The places passed by a walk through at most `links` links. -/
def linksTrail (d : Disk) : (links : Nat) → Place → List Name → List Place
  | 0, place, rest => walkTrail d (fun _ _ => []) place rest
  | links + 1, place, rest => walkTrail d (linksTrail d links) place rest

/-- The places that a local path passes, links followed. -/
def trail (d : Disk) (path : String) : List Place :=
  linksTrail d maxLinks [] (steps (Text.encode path))

/-- What was found by a walk is found on a part of the disk exactly if everything passed is there. -/
theorem PartOf.walk_iff (hpart : d'.PartOf d)
    {onLink onLink' : Place → List Name → Except IoError Target}
    {onTrail : Place → List Name → List Place}
    (hlink : ∀ place xs q e, onLink place xs = .ok (.found q e) →
      ((∃ e', onLink' place xs = .ok (.found q e')) ↔
        ∀ x ∈ onTrail place xs, d'.look x ≠ none))
    {xs : List Name} {q : Place} {e : Entry}
    (h : Disk.walk d true onLink place xs = .ok (.found q e)) :
    (∃ e', Disk.walk d' true onLink' place xs = .ok (.found q e')) ↔
      ∀ x ∈ walkTrail d onTrail place xs, d'.look x ≠ none := by
  induction xs generalizing place with
  | nil =>
    rw [Disk.walk] at h
    rw [Disk.walk, walkTrail, List.forall_mem_singleton, ne_eq, look_eq_none_iff]
    split at h
    next x hget =>
      obtain ⟨rfl, rfl⟩ : place = q ∧ x = e := by simpa using h
      cases d'.get? place <;> simp
    next => cases h
  | cons step rest ih =>
    rw [Disk.walk] at h
    rw [Disk.walk, walkTrail]
    by_cases hdot : step = [0x2e]
    · rw [if_pos hdot] at h ⊢
      rw [if_pos hdot]
      exact ih h
    rw [if_neg hdot] at h ⊢
    rw [if_neg hdot]
    by_cases hup : step = [0x2e, 0x2e]
    · rw [if_pos hup] at h ⊢
      rw [if_pos hup]
      exact ih h
    rw [if_neg hup] at h ⊢
    rw [if_neg hup]
    by_cases hlen : maxName < step.length
    · rw [if_pos hlen] at h
      cases h
    rw [if_neg hlen] at h ⊢
    rw [List.forall_mem_cons]
    -- what stands on the part is what stands on the whole, if anything
    cases hget' : d'.get? (place ++ [step]) with
    | none =>
      have hno : ∀ e', (if rest.isEmpty = true then Except.ok (Target.missing place step)
          else .error IoError.noSuchFile) ≠ .ok (.found q e') := by
        intro e'
        split <;> simp
      exact iff_of_false (not_exists.mpr hno)
        fun hall => hall.1 (look_eq_none_iff.mpr hget')
    | some x =>
      have hthere : d'.look (place ++ [step]) ≠ none := look_ne_none (look_of_get? hget')
      have hlook := hpart _ _ (look_of_get? hget')
      have hsame : x.isDirectory = false → d.get? (place ++ [step]) = some x := fun hleaf =>
        (look_eq_some_iff hleaf).mp (Entry.bare_of_not_isDirectory hleaf ▸ hlook)
      rw [and_iff_right hthere]
      cases x with
      | directory entries' =>
        obtain ⟨entries, hget⟩ := look_eq_directory_iff.mp hlook
        rw [hget] at h ⊢
        exact ih h
      | link target =>
        rw [hsame rfl] at h ⊢
        dsimp only at h ⊢
        rw [if_neg (by simp)] at h ⊢
        exact hlink _ _ _ _ h
      | _ =>
        rw [hsame rfl] at h ⊢
        dsimp only at h ⊢
        split at h
        next hend =>
          cases h
          exact iff_of_true ⟨_, if_pos hend⟩ fun x hx => absurd hx List.not_mem_nil
        next => cases h

theorem PartOf.walkLinks_iff (hpart : d'.PartOf d) (links : Nat) :
    ∀ place xs q e, Disk.walkLinks d true links place xs = .ok (.found q e) →
      ((∃ e', Disk.walkLinks d' true links place xs = .ok (.found q e')) ↔
        ∀ x ∈ linksTrail d links place xs, d'.look x ≠ none) := by
  induction links with
  | zero => exact fun _ _ _ _ h => hpart.walk_iff (fun _ _ _ _ h => by cases h) h
  | succ links ih => exact fun _ _ _ _ h => hpart.walk_iff ih h

/-- A local path that led somewhere leads there on a part of the disk exactly if everything on its
trail is there. -/
theorem PartOf.resolve_iff (hpart : d'.PartOf d) {path : String} {q : Place} {e : Entry}
    (h : d.resolve true path = .ok (.found q e)) :
    (∃ e', d'.resolve true path = .ok (.found q e')) ↔ ∀ x ∈ d.trail path, d'.look x ≠ none := by
  obtain ⟨cause, hcause⟩ | hwalk := resolve_cases path
  · rw [hcause] at h
    cases h
  · rw [hwalk] at h ⊢
    exact hpart.walkLinks_iff maxLinks _ _ _ _ h

theorem isFile_eq_true_iff {path : String} :
    d.isFile path = true ↔ ∃ q content, d.resolve true path = .ok (.found q (.file content)) := by
  unfold Disk.isFile entry
  constructor
  · intro h
    split at h
    next e he =>
      split at he
      next q e' hr =>
        cases he
        cases e with
        | file content => exact ⟨q, content, hr⟩
        | _ => cases h
      next => cases he
      next => cases he
    next => cases h
  · rintro ⟨q, content, hr⟩
    rw [hr]
    rfl

/-- A local path leads to a regular file on a part of a disk exactly if it does on the whole and
everything on its trail is there. -/
theorem PartOf.isFile_iff (hpart : d'.PartOf d) {path : String} :
    d'.isFile path = true ↔
      d.isFile path = true ∧ ∀ x ∈ d.trail path, d'.look x ≠ none := by
  rw [isFile_eq_true_iff, isFile_eq_true_iff]
  constructor
  · rintro ⟨q, content, hr⟩
    obtain ⟨e, he, hbare⟩ := hpart.resolve hr
    cases e with
    | file old => exact ⟨⟨q, old, he⟩, (hpart.resolve_iff he).mp ⟨_, hr⟩⟩
    | _ => cases hbare
  · rintro ⟨⟨q, content, hr⟩, htrail⟩
    obtain ⟨e', he'⟩ := (hpart.resolve_iff hr).mpr htrail
    have hlook := hpart _ _ (look_of_get? (get?_of_resolve he'))
    rw [(look_eq_some_iff rfl).mpr (get?_of_resolve hr)] at hlook
    cases e' with
    | file new => exact ⟨q, new, he'⟩
    | _ => cases hlook

/-! ## Roots without links below them -/

/-- A walk down names that finds something has met no name that is too long. -/
theorem length_of_walk {follow : Bool} {onLink : Place → List Name → Except IoError Target}
    {ns : List Name} (hns : ∀ n ∈ ns, n ≠ [0x2e] ∧ n ≠ [0x2e, 0x2e]) (hlinks : d.NoLinks place)
    {q : Place} {e : Entry} (h : walk d follow onLink place ns = .ok (.found q e)) :
    ∀ n ∈ ns, n.length ≤ maxName := by
  induction ns generalizing place with
  | nil => exact fun n hn => absurd hn List.not_mem_nil
  | cons m ns ih =>
    rw [List.forall_mem_cons] at hns ⊢
    rw [walk, if_neg hns.1.1, if_neg hns.1.2] at h
    split at h
    · cases h
    next hlen =>
      refine ⟨Nat.not_lt.mp hlen, ?_⟩
      split at h
      · split at h <;> cases h
      · refine ih hns.2 (fun q t hq => hlinks q t ?_) h
        obtain ⟨k, rest, rfl⟩ := hq
        exact ⟨m, k :: rest, by simp⟩
      next target hget =>
        exact absurd ((look_eq_some_iff rfl).mpr hget) (hlinks _ target ⟨m, [], rfl⟩)
      · split at h
        next hempty =>
          rw [List.isEmpty_iff.mp hempty]
          exact fun n hn => absurd hn List.not_mem_nil
        next => cases h

variable {root : String} {R : Place} {p : Path}

/-- Below a root without links below it, a path that leads somewhere fits. -/
theorem Leads.fits_of_resolve (h : d.Leads root R) (hlinks : d.NoLinks R) (hp : p ≠ .root)
    {follow : Bool} {q : Place} {e : Entry}
    (hr : d.resolve follow (p.toLocal root) = .ok (.found q e)) : p.Fits root := by
  have hnames : ∀ n ∈ p.names, n.length ≤ maxName := by
    rcases h.resolve_toLocal hp follow with ⟨cause, he⟩ | ⟨links, he⟩
    · rw [he] at hr
      cases hr
    · rw [he, walkLinks_eq] at hr
      exact length_of_walk (fun n hn => (Path.name_of_mem hn).2.2) hlinks hr
  unfold resolve lookUp at hr
  dsimp only at hr
  split at hr
  · cases hr
  next hnul =>
    split at hr
    · cases hr
    · split at hr
      · cases hr
      next hlen => exact ⟨hnul, Nat.not_lt.mp hlen, hnames⟩

end FileCluster.Disk
