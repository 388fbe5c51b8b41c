import FileCluster.Proofs.Path.Prefix
import FileCluster.Proofs.Storage.Below
import FileCluster.Storage.Service

/-!
What a storage service lists.

Where every path below a root fits, a listing either has seen everything below the root, or has met
a name that is no component (`listFiles_cases`). A listing that succeeds holds the paths of all that
is no directory, and there is nothing below the root but what has a path (`mirrors_of_files`). Below
a directory as file systems keep them, nothing but names decides whether it succeeds, and it gives
each path once, in path order (`listFiles_exact`); in which order the entries of a directory are read
makes no difference.
-/

namespace FileCluster

open Disk

variable {d : Disk} {within : Place → Prop} {root : String} {R : Place} {p : Path}

/-- Whatever stands below a place has a path whose local path fits below a root. -/
def AllFit (d : Disk) (root : String) (R : Place) : Prop :=
  ∀ p : Path, d.look (R ++ p.names) ≠ none → p.Fits root

/-- Where paths that fit are all that there is below a place, all fits. -/
theorem allFit_of_mem {n : Name} (paths : List Path)
    (hall : ∀ x ∈ d.top.flatten, n :: R <+: x.1 → ∃ p ∈ paths, x.1 = n :: R ++ p.names)
    (hfits : ∀ p ∈ paths, p.Fits root) : AllFit d root (n :: R) := by
  intro p hp
  obtain ⟨e, he⟩ := Option.ne_none_iff_exists'.mp (mt look_eq_none_iff.mpr hp)
  obtain ⟨q, hq, hsame : n :: R ++ p.names = n :: R ++ q.names⟩ :=
    hall _ (mem_flatten he) (List.prefix_append _ _)
  obtain rfl := Path.names_injective (List.append_cancel_left hsame)
  exact hfits p hq

/-! ## Names in a directory -/

/-- A name that can be a component of a path: it is UTF-8 without the reserved character. -/
def Nameable (n : Name) : Prop := ∃ s, Text.decode? n = some s ∧ ':' ∉ s.toList

/-- A name that an entry of a local directory can have. -/
structure IsLocalName (n : Name) : Prop extends IsName n where
  nonempty : n ≠ []
  noSlash : 0x2f ∉ n
  noNul : 0 ∉ n

/-- A directory as a file system keeps it, and those below it: the names in it are local names, each
of them once. -/
structure Disk.Proper (d : Disk) (place : Place) : Prop where
  distinct : ∀ q entries, place <+: q → d.get? q = some (.directory entries) →
    (entries.map Prod.fst).Nodup
  name : ∀ q n, place <+: q → d.look (q ++ [n]) ≠ none → IsLocalName n

theorem Disk.Proper.below {place q : Place} (h : d.Proper place) (hq : place <+: q) :
    d.Proper q where
  distinct q' entries hq' := h.distinct q' entries (hq.trans hq')
  name q' n hq' := h.name q' n (hq.trans hq')

/-- The name of an entry is the name of a child. -/
theorem childOfName_eq_ok (root : String) {n : Name} {q : Path} (h : childOfName p n = .ok q) :
    q.names = p.names ++ [n] ∧ Path.appendLocal (p.toLocal root) (Text.decodeLossy n) =
      q.toLocal root := by
  unfold childOfName at h
  split at h
  · cases h
  · rename_i s hs
    split at h
    · rename_i q' hq
      cases h
      have hc : q.components = p.components ++ [s] := Path.child_eq_ok_iff.mp hq
      have hn : Text.encode s = n := Text.encode_of_decode? hs
      rw [Path.names_of_components hc, hn, ← hn, Text.decodeLossy_encode, toLocal_child root hc]
      exact ⟨rfl, rfl⟩
    · cases h

/-- A local name is refused only if it cannot be a component. -/
theorem childOfName_eq_error {n : Name} {e : ListError} (hn : IsLocalName n)
    (h : childOfName p n = .error e) :
    ¬Nameable n ∧ e = .path (.invalidComponent (Text.decodeLossy n)) := by
  unfold childOfName at h
  split at h
  next hnone =>
    refine ⟨fun hname => ?_, (Except.error.inj h).symm⟩
    obtain ⟨s, hs, -⟩ := hname
    rw [hnone] at hs
    simp at hs
  next s hs =>
    have hname : Text.encode s = n := Text.encode_of_decode? hs
    have hshown : Text.decodeLossy n = s := by rw [← hname, Text.decodeLossy_encode]
    have hslash : '/' ∉ s.toList := fun hmem =>
      hn.noSlash (hname ▸ (Text.mem_encode_ascii (c := '/') (by decide)).mpr hmem)
    have hempty : s ≠ "" := fun he => hn.nonempty (hname ▸ Text.encode_eq_nil_iff.mpr he)
    have hrelative : ¬Path.IsRelative s := by
      intro hrel
      rcases hrel with he | he
      · subst he
        exact hn.notDot hname.symm
      · subst he
        exact hn.notUp hname.symm
    by_cases hreserved : ':' ∈ s.toList
    · rw [Path.child, dif_pos (.inr (.inr hreserved))] at h
      refine ⟨fun hother => ?_, ?_⟩
      · obtain ⟨s', hs', hfree⟩ := hother
        rw [hs] at hs'
        exact hfree (Option.some.inj hs' ▸ hreserved)
      · rw [hshown]
        exact (Except.error.inj h).symm
    · have hok : ¬(s = "" ∨ '/' ∈ s.toList ∨ ':' ∈ s.toList) := by
        simp [hempty, hslash, hreserved]
      rw [Path.child, dif_neg hok, dif_neg hrelative] at h
      simp at h

/-! ## Visiting -/

/-- What has been collected when everything at a path's place and below it has been visited: all
that is no directory there, besides what had been found before, and nothing twice. Everything there
has a path. -/
structure VisitedAll (d : Disk) (R : Place) (p : Path) (found paths : List Path) : Prop where
  mem : ∀ q, q ∈ paths ↔ q ∈ found ∨ p.names <+: q.names ∧ IsFileAt d R q
  named : ∀ rest, d.look (R ++ p.names ++ rest) ≠ none → ∃ q : Path, q.names = p.names ++ rest
  nodup : d.Proper (R ++ p.names) → found.Nodup → (∀ q ∈ found, ¬p.names <+: q.names) →
    paths.Nodup

/-- What has been collected when everything below some names of a directory has been visited. -/
structure Visited (d : Disk) (R : Place) (p : Path) (names : List Name) (found paths : List Path) :
    Prop where
  mem : ∀ q, q ∈ paths ↔ q ∈ found ∨ ∃ n ∈ names, p.names ++ [n] <+: q.names ∧ IsFileAt d R q
  named : ∀ n ∈ names, ∀ rest, d.look (R ++ p.names ++ n :: rest) ≠ none →
    ∃ q : Path, q.names = p.names ++ n :: rest
  nodup : names.Nodup → d.Proper (R ++ p.names) → found.Nodup →
    (∀ n ∈ names, ∀ q ∈ found, ¬p.names ++ [n] <+: q.names) → paths.Nodup

/-- At the place of what is no directory there is nothing else to visit. -/
theorem VisitedAll.leaf (hp : d.look (R ++ p.names) ≠ none)
    (hleaf : d.look (R ++ p.names) ≠ some .emptyDirectory) (found : List Path) :
    VisitedAll d R p found (p :: found) where
  mem q := by
    rw [List.mem_cons, or_comm]
    refine or_congr_right ⟨?_, ?_⟩
    · rintro rfl
      obtain ⟨e, he⟩ := Option.ne_none_iff_exists'.mp hp
      rcases look_eq_some he with rfl | hno
      · exact absurd he hleaf
      · exact ⟨List.prefix_refl _, e, he, hno⟩
    · rintro ⟨⟨rest, hrest⟩, e, he, -⟩
      rw [← hrest, ← List.append_assoc] at he
      cases rest with
      | nil => exact Path.names_injective (by rw [← hrest, List.append_nil])
      | cons m rest =>
        rw [look_below hleaf] at he
        cases he
  named rest hrest := by
    cases rest with
    | nil => exact ⟨p, (List.append_nil _).symm⟩
    | cons m rest => exact absurd (look_below hleaf m rest) hrest
  nodup _ hfound hbefore :=
    List.nodup_cons.mpr ⟨fun hmem => hbefore p hmem (List.prefix_refl _), hfound⟩

theorem Visited.nil (found : List Path) : Visited d R p [] found found where
  mem q := by simp
  named n hn := by cases hn
  nodup _ _ hfound _ := hfound

/-- First one name, then the others. -/
theorem Visited.cons {n : Name} {q : Path} {names : List Name} {found between paths : List Path}
    (hnames : q.names = p.names ++ [n]) (hfirst : VisitedAll d R q found between)
    (hrest : Visited d R p names between paths) : Visited d R p (n :: names) found paths where
  mem x := by
    rw [hrest.mem, hfirst.mem, hnames]
    simp only [List.mem_cons, exists_eq_or_imp, or_assoc]
  named m hm := by
    rcases List.mem_cons.mp hm with rfl | hm
    · intro rest hthere
      have hplace : R ++ p.names ++ m :: rest = R ++ q.names ++ rest := by
        rw [hnames]
        simp
      obtain ⟨x, hx⟩ := hfirst.named rest (hplace ▸ hthere)
      exact ⟨x, by rw [hx, hnames]; simp⟩
    · exact hrest.named m hm
  nodup hdistinct hproper hfound hbefore := by
    obtain ⟨hn, hdistinct⟩ := List.nodup_cons.mp hdistinct
    have hq : R ++ p.names <+: R ++ q.names := by simp [hnames]
    have hbetween : between.Nodup :=
      hfirst.nodup (hproper.below hq) hfound (hnames ▸ hbefore n List.mem_cons_self)
    refine hrest.nodup hdistinct hproper hbetween ?_
    intro m hm x hx hpre
    rcases (hfirst.mem x).mp hx with hx | ⟨hpre', -⟩
    · exact hbefore m (List.mem_cons_of_mem _ hm) x hx hpre
    · -- what was found below the first name is not below another one
      rw [hnames] at hpre'
      have hsame : p.names ++ [n] = p.names ++ [m] := by
        rcases List.prefix_or_prefix_of_prefix hpre' hpre with hle | hle
        · exact hle.eq_of_length (by simp)
        · exact (hle.eq_of_length (by simp)).symm
      have hnm : n = m := by simpa using hsame
      exact hn (hnm ▸ hm)

/-- A directory has been visited when its names have been. -/
theorem Visited.all {entries : List (Name × Entry)} {found paths : List Path}
    (hget : d.get? (R ++ p.names) = some (.directory entries))
    (h : Visited d R p (entries.map Prod.fst) found paths) : VisitedAll d R p found paths where
  mem q := by
    rw [h.mem]
    refine or_congr_right ⟨?_, ?_⟩
    · rintro ⟨n, -, hpre, hfile⟩
      exact ⟨(List.prefix_append _ _).trans hpre, hfile⟩
    · rintro ⟨⟨rest, hrest⟩, e, he, hleaf⟩
      rw [← hrest, ← List.append_assoc] at he
      cases rest with
      | nil =>
        rw [List.append_nil, look_of_get? hget] at he
        cases he
        cases hleaf
      | cons n rest =>
        have hn := (look_child hget n).mp (look_first (look_ne_none he))
        refine ⟨n, hn, ⟨rest, by simp [← hrest]⟩, e, ?_, hleaf⟩
        rw [← hrest, ← List.append_assoc]
        exact he
  named rest hrest := by
    cases rest with
    | nil => exact ⟨p, (List.append_nil _).symm⟩
    | cons n rest => exact h.named n ((look_child hget n).mp (look_first hrest)) rest hrest
  nodup hproper hfound hbefore := by
    refine h.nodup (hproper.distinct _ _ (List.prefix_refl _) hget) hproper hfound ?_
    intro n _ q hq hpre
    exact hbefore q hq ((List.prefix_append _ _).trans hpre)

/-- A listing is refused for the name of something below a place that is no component. -/
def Refused (d : Disk) (R : Place) (e : ListError) : Prop :=
  ∃ (q : Path) (n : Name), d.look (R ++ q.names ++ [n]) ≠ none ∧ childOfName q n = .error e

/-- Visiting names visits what stands below each of them or meets a name that is refused, if visiting
a directory does. -/
theorem visitEntries_spec (hd : d.Encloses root R) (hfit : AllFit d root R) {levels : Nat}
    (ih : ∀ q found, maxPath < q.depth + levels → d.look (R ++ q.names) = some .emptyDirectory →
      (∃ paths, d.visitDirectory levels found (q.toLocal root) q = .ok paths ∧
        VisitedAll d R q found paths) ∨
      ∃ e, d.visitDirectory levels found (q.toLocal root) q = .error e ∧ Refused d R e)
    (hlevels : maxPath ≤ p.depth + levels) {entries : List (Name × Entry)}
    (hthere : ∀ n ∈ entries.map Prod.fst, d.look (R ++ p.names ++ [n]) ≠ none)
    (found : List Path) :
    (∃ paths,
      d.visitEntries (d.visitDirectory levels) (p.toLocal root) p found entries = .ok paths ∧
        Visited d R p (entries.map Prod.fst) found paths) ∨
      ∃ e, d.visitEntries (d.visitDirectory levels) (p.toLocal root) p found entries = .error e ∧
        Refused d R e := by
  induction entries generalizing found with
  | nil => exact .inl ⟨found, rfl, .nil found⟩
  | cons entry entries ihentries =>
    obtain ⟨n, e⟩ := entry
    rw [List.map_cons, List.forall_mem_cons] at hthere
    rw [visitEntries]
    cases hchild : childOfName p n with
    | error e => exact .inr ⟨e, rfl, p, n, hthere.1, hchild⟩
    | ok q =>
      obtain ⟨hnames, hlocal⟩ := childOfName_eq_ok root hchild
      have hplace : R ++ p.names ++ [n] = R ++ q.names := by rw [hnames, List.append_assoc]
      have hq : d.look (R ++ q.names) ≠ none := hplace ▸ hthere.1
      have hroot : q ≠ .root := by
        rintro rfl
        exact absurd hnames.symm (by simp [Path.names, Path.root])
      have hdepth : q.depth = p.depth + 1 := by
        have := congrArg List.length hnames
        simpa [Path.names, Path.depth] using this
      dsimp only
      rw [hlocal]
      split
      next hisdir =>
        have hdir := ((hd.isDirectory_iff hroot).mp hisdir).2
        rcases ih q found (by omega) hdir with ⟨between, hvisit, hall⟩ | ⟨e, hvisit, hrefused⟩
        · rw [hvisit]
          rcases ihentries hthere.2 between with ⟨paths, h, hrest⟩ | hrefused
          · exact .inl ⟨paths, h, hrest.cons hnames hall⟩
          · exact .inr hrefused
        · rw [hvisit]
          exact .inr ⟨e, rfl, hrefused⟩
      next hisdir =>
        have hleaf : d.look (R ++ q.names) ≠ some .emptyDirectory := fun hdir =>
          hisdir ((hd.isDirectory_iff hroot).mpr ⟨hfit q hq, hdir⟩)
        rcases ihentries hthere.2 (q :: found) with ⟨paths, h, hrest⟩ | hrefused
        · exact .inl ⟨paths, h, hrest.cons hnames (.leaf hq hleaf found)⟩
        · exact .inr hrefused

/-- Visiting a directory collects all that is no directory below it, or meets a name that is
refused. -/
theorem visitDirectory_spec (hd : d.Encloses root R) (hfit : AllFit d root R) (levels : Nat) :
    ∀ (p : Path) found, maxPath < p.depth + levels →
      d.look (R ++ p.names) = some .emptyDirectory →
        (∃ paths, d.visitDirectory levels found (p.toLocal root) p = .ok paths ∧
          VisitedAll d R p found paths) ∨
        ∃ e, d.visitDirectory levels found (p.toLocal root) p = .error e ∧ Refused d R e := by
  induction levels with
  | zero =>
    intro p found hlevels hdir
    have hlen := (hfit p (look_ne_none hdir)).length
    have := Path.depth_le_length_toLocal root p
    omega
  | succ levels ih =>
    intro p found hlevels hdir
    obtain ⟨entries, hget⟩ := look_eq_directory_iff.mp hdir
    rw [visitDirectory, hd.readDirectory (hfit p (look_ne_none hdir)) hget]
    rcases visitEntries_spec hd hfit ih (by omega) (fun n => (look_child hget n).mpr) found with
      ⟨paths, h, hvisited⟩ | hrefused
    · exact .inl ⟨paths, h, hvisited.all hget⟩
    · exact .inr hrefused

/-- A listing has visited everything below a root, or it is refused for a name. -/
theorem listFiles_cases (hd : d.Encloses root R) (hfit : AllFit d root R) :
    (∃ found, d.listFiles root = .ok (found.mergeSort fun p q => !decide (q < p)) ∧
      VisitedAll d R .root [] found) ∨
    ∃ e, d.listFiles root = .error e ∧ Refused d R e := by
  have hroot : R ++ Path.root.names = R := by rw [Path.names_eq_nil_iff.mpr rfl, List.append_nil]
  have hthere : d.isThere root = true := by
    obtain ⟨entries, hr⟩ := hd.leads
    unfold isThere entry
    rw [hr]
    rfl
  unfold listFiles
  rw [hthere, hd.leads.isDirectory]
  simp only [Bool.not_true, Bool.false_eq_true, if_false]
  have hvisited := visitDirectory_spec hd hfit (maxPath + 1) .root [] (by omega)
    (by rw [hroot]; exact hd.leads.look)
  rw [show Path.root.toLocal root = root from rfl] at hvisited
  rcases hvisited with ⟨found, hvisit, hall⟩ | ⟨e, hvisit, hrefused⟩
  · rw [hvisit]
    exact .inl ⟨found, rfl, hall⟩
  · rw [hvisit]
    exact .inr ⟨e, rfl, hrefused⟩

theorem VisitedAll.mem_root {found : List Path} (h : VisitedAll d R .root [] found) (p : Path) :
    p ∈ found ↔ IsFileAt d R p := by
  rw [h.mem, Path.names_eq_nil_iff.mpr rfl]
  simp

theorem VisitedAll.named_root {found : List Path} (h : VisitedAll d R .root [] found)
    {rest : Place} (hthere : d.look (R ++ rest) ≠ none) : ∃ q : Path, q.names = rest := by
  have hnamed := h.named rest
  rw [Path.names_eq_nil_iff.mpr rfl, List.append_nil] at hnamed
  exact hnamed hthere

namespace Storage

/-- A listing that succeeds holds the paths of all that is no directory below the root, and there is
nothing below the root but what has a path. -/
theorem mirrors_of_files (hd : Rooted d within root R) (hfit : AllFit d root R) {paths : List Path}
    (h : files root d = .ok paths) : Mirrors d R (· ∈ paths) := by
  unfold files at h
  rcases listFiles_cases hd.encloses hfit with ⟨found, hlist, hall⟩ | ⟨e, hlist, -⟩
  · rw [hlist] at h
    obtain rfl := Except.ok.inj h
    refine ⟨fun p => ?_, fun rest => hall.named_root⟩
    rw [List.mem_mergeSort, hall.mem_root]
  · rw [hlist] at h
    simp at h

end Storage

/-! ## The list -/

/-- Paths of which none is twice increase strictly when they are sorted. -/
theorem increasing_mergeSort {paths : List Path} (h : paths.Nodup) :
    (paths.mergeSort fun p q => !decide (q < p)).Pairwise (· < ·) := by
  have hsorted := @List.pairwise_mergeSort _ (fun p q : Path => !decide (q < p)) ?_ ?_ paths
  · have hnodup := (List.mergeSort_perm paths fun p q => !decide (q < p)).nodup_iff.mpr h
    refine (hsorted.and hnodup).imp ?_
    intro p q hpq
    exact Path.lt_of_not_lt (Ne.symm hpq.2) (by simpa using hpq.1)
  · intro a b c hab hbc
    simp only [Bool.not_eq_true', decide_eq_false_iff_not] at hab hbc ⊢
    intro hca
    by_cases hne : a = b
    · exact hbc (hne ▸ hca)
    · exact hbc (Path.lt_trans hca (Path.lt_of_not_lt (Ne.symm hne) hab))
  · intro a b
    by_cases hba : b < a
    · have hab : ¬a < b := fun hab => Path.lt_irrefl a (Path.lt_trans hab hba)
      simp [hab]
    · simp [hba]

theorem nul_notMem_toLocal (hroot : 0 ∉ Text.encode root) (hp : ∀ n ∈ p.names, 0 ∉ n) :
    0 ∉ Text.encode (p.toLocal root) := by
  have general : ∀ (cs : List String) (base : String), 0 ∉ Text.encode base →
      (∀ c ∈ cs, 0 ∉ Text.encode c) → 0 ∉ Text.encode (cs.foldl Path.appendLocal base) := by
    intro cs
    induction cs with
    | nil => exact fun _ hbase _ => hbase
    | cons c cs ih =>
      intro base hbase hcs
      obtain ⟨hc, hcs⟩ := List.forall_mem_cons.mp hcs
      refine ih _ ?_ hcs
      have hslash : 0 ∉ Text.encode "/" := by decide
      unfold Path.appendLocal
      split
      · simp [Text.encode_append, hbase, hc]
      · simp [Text.encode_append, hbase, hslash, hc]
  exact general p.components root hroot fun c hc => hp _ (List.mem_map_of_mem hc)

/-- Below a directory as file systems keep them, a path whose local path is not too long fits. -/
theorem Disk.Proper.allFit (hproper : d.Proper R) (hd : d.Encloses root R)
    (hlength : ∀ p : Path, d.look (R ++ p.names) ≠ none →
      (Text.encode (p.toLocal root)).length ≤ maxPath) : AllFit d root R := by
  intro p hthere
  have hnames : ∀ n ∈ p.names, IsLocalName n := by
    intro n hn
    obtain ⟨dir, rest, hsplit⟩ := List.append_of_mem hn
    refine hproper.name (R ++ dir) n (List.prefix_append _ _) ?_
    rw [hsplit, ← List.append_assoc] at hthere
    exact look_first hthere
  have hroot : 0 ∉ Text.encode root := by
    intro hnul
    obtain ⟨entries, hr⟩ := hd.leads
    unfold resolve lookUp at hr
    rw [if_pos hnul] at hr
    simp at hr
  exact ⟨nul_notMem_toLocal hroot fun n hn => (hnames n hn).noNul, hlength p hthere,
    fun n hn => (hnames n hn).length⟩

/-- Below a directory as file systems keep them, with nothing but regular files and directories and
with local paths that are not too long: if all names at every depth can be components, the listing
gives the paths that lead to regular files, in path order and each of them once; if one cannot, it is
refused for such a name, be there a file below it or not. And no path that it gives lies above
another one. -/
theorem listFiles_exact (hd : d.Encloses root R) (hproper : d.Proper R)
    (hlength : ∀ p : Path, d.look (R ++ p.names) ≠ none →
      (Text.encode (p.toLocal root)).length ≤ maxPath)
    (hplain : ∀ q e, Beneath R q → d.look q = some e → e.isDirectory = true ∨ e.isFile = true) :
    ((∀ q n, R <+: q → d.look (q ++ [n]) ≠ none → Nameable n) →
      ∃ paths, d.listFiles root = .ok paths ∧ paths.Pairwise (· < ·) ∧
        ∀ p, p ∈ paths ↔ d.isFile (p.toLocal root) = true) ∧
    ((∃ q n, R <+: q ∧ d.look (q ++ [n]) ≠ none ∧ ¬Nameable n) →
      ∃ q n, R <+: q ∧ d.look (q ++ [n]) ≠ none ∧ ¬Nameable n ∧
        d.listFiles root = .error (.path (.invalidComponent (Text.decodeLossy n)))) ∧
    ∀ paths, d.listFiles root = .ok paths →
      ∀ p ∈ paths, ∀ q ∈ paths, p.components <+: q.components → p = q := by
  have hfit := hproper.allFit hd hlength
  rcases listFiles_cases hd hfit with ⟨found, hlist, hall⟩ | ⟨e, hlist, q, n, hthere, hchild⟩
  · have hnameable : ∀ q n, R <+: q → d.look (q ++ [n]) ≠ none → Nameable n := by
      intro q n hq hthere
      obtain ⟨rest, rfl⟩ := hq
      rw [List.append_assoc] at hthere
      obtain ⟨x, hx⟩ := hall.named_root hthere
      have hn : n ∈ x.names := by simp [hx]
      obtain ⟨c, hc, rfl⟩ := List.mem_map.mp hn
      exact ⟨c, Text.decode?_encode c, (x.valid c hc).noReserved⟩
    refine ⟨fun _ => ⟨_, hlist, ?_, fun p => ?_⟩, ?_, ?_⟩
    · refine increasing_mergeSort (hall.nodup ?_ List.nodup_nil (fun q hq => ?_))
      · rwa [Path.names_eq_nil_iff.mpr rfl, List.append_nil]
      · simp at hq
    · rw [List.mem_mergeSort, hall.mem_root]
      constructor
      · intro hfile
        have hroot := hfile.ne_root hd.leads.look
        obtain ⟨e, he, hleaf⟩ := hfile
        have hisfile := (hplain _ e (beneath_names hroot) he).resolve_left (by simp [hleaf])
        cases e with
        | file content => exact (hd.isFile_iff hroot).mpr ⟨hfit p (look_ne_none he), content, he⟩
        | _ => simp [Entry.isFile] at hisfile
      · intro hfile
        have hroot : p ≠ .root := by
          rintro rfl
          obtain ⟨entries, hr⟩ := hd.leads
          obtain ⟨q, content, hr'⟩ := isFile_eq_true_iff.mp hfile
          have hsame := hr.symm.trans hr'
          simp at hsame
        obtain ⟨-, content, hlook⟩ := (hd.isFile_iff hroot).mp hfile
        exact ⟨_, hlook, rfl⟩
    · intro hex
      obtain ⟨q, n, hq, hthere, hno⟩ := hex
      exact absurd (hnameable q n hq hthere) hno
    · intro paths h p hp q hq hpre
      rw [hlist] at h
      obtain rfl := Except.ok.inj h
      rw [List.mem_mergeSort, hall.mem_root] at hp hq
      exact hp.eq_of_isPrefix hq.look_ne_none (Path.names_isPrefix_iff.mpr hpre)
  · have hname := hproper.name (R ++ q.names) n (List.prefix_append _ _) hthere
    obtain ⟨hno, rfl⟩ := childOfName_eq_error hname hchild
    refine ⟨fun hnameable => ?_, fun _ => ?_, fun paths h => ?_⟩
    · exact absurd (hnameable _ n (List.prefix_append _ _) hthere) hno
    · exact ⟨_, n, List.prefix_append _ _, hthere, hno, hlist⟩
    · rw [hlist] at h
      simp at h

/-- A disk with a file `/r/a` and an empty directory `/r/b:`. -/
def reservedName : Disk :=
  ⟨[([0x72], .directory [([0x61], .file .empty), ([0x62, 0x3a], .emptyDirectory)])]⟩

theorem look_reservedName {rest : Place} {e : Entry}
    (h : reservedName.look ([0x72] :: rest) = some e) :
    rest = [] ∨ rest = [[0x61]] ∧ e.isFile = true ∨ rest = [[0x62, 0x3a]] ∧ e = .emptyDirectory := by
  have hall : ∀ x ∈ reservedName.top.flatten, x.1 = [[0x72]] ∨
      x.1 = [[0x72], [0x61]] ∧ x.2.isFile = true ∨
      x.1 = [[0x72], [0x62, 0x3a]] ∧ x.2.isDirectory = true := by decide +kernel
  obtain ⟨x, hx, rfl⟩ := Option.map_eq_some_iff.mp h
  rcases hall _ (mem_flatten hx) with he | ⟨he, hfile⟩ | ⟨he, hdir⟩
  · exact .inl (List.cons.inj he).2
  · refine .inr (.inl ⟨(List.cons.inj he).2, ?_⟩)
    rwa [Entry.bare_of_not_isDirectory (by cases x <;> simp_all [Entry.isFile, Entry.isDirectory])]
  · exact .inr (.inr ⟨(List.cons.inj he).2, Entry.bare_eq_emptyDirectory_iff.mpr hdir⟩)

theorem name_reservedName {q : Place} {n : Name} (hq : [[0x72]] <+: q)
    (hthere : reservedName.look (q ++ [n]) ≠ none) : n = [0x61] ∨ n = [0x62, 0x3a] := by
  obtain ⟨rest, rfl⟩ := hq
  obtain ⟨e, he⟩ := Option.ne_none_iff_exists'.mp hthere
  have hn : n ∈ rest ++ [n] := by simp
  rcases @look_reservedName (rest ++ [n]) _ he with hnil | ⟨hone, -⟩ | ⟨hone, -⟩
  · simp at hnil
  · exact .inl (List.mem_singleton.mp (hone ▸ hn))
  · exact .inr (List.mem_singleton.mp (hone ▸ hn))

theorem proper_reservedName : reservedName.Proper [[0x72]] where
  distinct q entries := by
    rintro ⟨rest, rfl⟩ hget
    rcases look_reservedName (look_of_get? hget) with rfl | ⟨rfl, hfile⟩ | ⟨rfl, -⟩
    · cases hget
      decide
    · simp [Entry.bare, Entry.emptyDirectory, Entry.isFile] at hfile
    · cases hget
      decide
  name q n hq hthere := by
    rcases name_reservedName hq hthere with rfl | rfl
    · exact ⟨⟨by decide, by decide, by decide⟩, by decide, by decide, by decide⟩
    · exact ⟨⟨by decide, by decide, by decide⟩, by decide, by decide, by decide⟩

theorem length_reservedName {p : Path} (hthere : reservedName.look ([[0x72]] ++ p.names) ≠ none) :
    (Text.encode (p.toLocal "/r")).length ≤ maxPath := by
  obtain ⟨e, he⟩ := Option.ne_none_iff_exists'.mp hthere
  rcases look_reservedName he with hnil | ⟨hone, -⟩ | ⟨hone, -⟩
  · obtain rfl := Path.names_eq_nil_iff.mp hnil
    decide
  · obtain ⟨c, hc, hname⟩ := List.map_eq_singleton_iff.mp hone
    obtain rfl : c = "a" := Text.encode_injective hname
    rw [Path.toLocal, hc]
    decide
  · obtain ⟨c, hc, hname⟩ := List.map_eq_singleton_iff.mp hone
    obtain rfl : c = "b:" := Text.encode_injective hname
    rw [Path.toLocal, hc]
    decide

/-- The reserved character in the name of an empty directory is enough for the listing to be
refused. -/
theorem listFiles_exact_reservedName :
    reservedName.Encloses "/r" [[0x72]] ∧ reservedName.Proper [[0x72]] ∧
      reservedName.listFiles "/r" = .error (.path (.invalidComponent "b:")) := by
  have hplain : ∀ q e, Beneath [[0x72]] q → reservedName.look q = some e →
      e.isDirectory = true ∨ e.isFile = true := by
    rintro q e ⟨n, rest, rfl⟩ he
    rcases look_reservedName he with hnil | ⟨-, hfile⟩ | ⟨-, rfl⟩
    · simp at hnil
    · exact .inr hfile
    · exact .inl rfl
  have hencloses : reservedName.Encloses "/r" [[0x72]] := by
    refine ⟨⟨_, rfl⟩, fun q t hq hlink => ?_⟩
    have hleaf := hplain q _ hq hlink
    simp [Entry.isDirectory, Entry.isFile] at hleaf
  have hreserved : ¬Nameable [0x62, 0x3a] := by
    rintro ⟨s, hs, hfree⟩
    obtain rfl : s = "b:" := Text.encode_injective (Text.encode_of_decode? hs)
    exact hfree (by decide)
  obtain ⟨q, n, hq, hthere, hno, hrefused⟩ := (listFiles_exact hencloses proper_reservedName
    (fun _ => length_reservedName) hplain).2.1
      ⟨[[0x72]], [0x62, 0x3a], List.prefix_refl _, by decide, hreserved⟩
  refine ⟨hencloses, proper_reservedName, ?_⟩
  rcases name_reservedName hq hthere with rfl | rfl
  · exact absurd ⟨"a", Text.decode?_encode "a", by decide⟩ hno
  · exact hrefused

end FileCluster
