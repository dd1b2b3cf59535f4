import Mathlib.Data.List.Nodup
import PayloadTypes.Files.Discovery
import PayloadTypes.Proofs.Files.Listing
/-!
# Order of sources

The sources below a directory are the same in number and in order however the
directories list their entries (`FileTree.Relisted.discover_eq`), and where no
name occurs twice in a directory each source stands strictly before the next one
(`before_discover`).
-/

namespace PayloadTypes.Files

variable {n m : Node} {es : List (String × Node)} {segments path : List String} {t t' : FileTree}
  {p q : Path}

/-! ## What is read in a directory -/

namespace Selection

variable (s : Selection)

/-- The files that are read in a directory that is entered. -/
def inside (segments : List String) : Node → List (List String)
  | .file _ => []
  | .dir entries => s.belowEntries segments entries

theorem belowEntries_eq_flatMap (segments : List String) (es : List (String × Node)) :
    s.belowEntries segments es = es.flatMap fun e => s.below (segments ++ [e.1]) e.2 := by
  induction es with
  | nil => rfl
  | cons e es ih => rw [belowEntries, List.flatMap_cons, ih]

theorem below_perm_of_inside (h : n.Relisted m) (segments : List String)
    (hinside : (s.inside segments n).Perm (s.inside segments m)) :
    (s.below segments n).Perm (s.below segments m) := by
  rcases h.cases with ⟨c, rfl, rfl⟩ | ⟨es, fs, rfl, rfl⟩
  · exact .refl _
  · rw [below, below]
    split
    · exact hinside
    · exact .refl _

/-- **The same files are read**, however directories are listed. -/
theorem inside_perm (h : n.Relisted m) (segments : List String) :
    (s.inside segments n).Perm (s.inside segments m) := by
  -- the entry in which the order differs may be a directory that is not entered
  induction h generalizing segments with
  | refl n => exact .refl _
  | reorder _ h =>
    simp only [inside, belowEntries_eq_flatMap]
    exact h.flatMap_right _
  | @inside front back name n m h ih =>
    have hbelow := s.below_perm_of_inside h (segments ++ [name]) (ih _)
    simp only [inside, belowEntries_eq_flatMap, List.flatMap_append, List.flatMap_cons]
    exact (hbelow.append_right _).append_left _
  | trans _ _ ih ih' => exact (ih segments).trans (ih' segments)

mutual
/-- What is read at the end of some segments starts with them. -/
theorem prefix_of_mem_below (segments : List String) (n : Node) :
    ∀ path ∈ s.below segments n, segments <+: path := by
  intro path hpath
  cases n with
  | file c =>
    rw [below] at hpath
    split at hpath
    · exact List.mem_singleton.mp hpath ▸ List.prefix_refl _
    · cases hpath
  | dir es =>
    rw [below] at hpath
    split at hpath
    · obtain ⟨name, -, hprefix⟩ := prefix_of_mem_belowEntries segments es path hpath
      exact (List.prefix_append _ _).trans hprefix
    · cases hpath
/-- What is read in an entry of a directory starts with its name. -/
theorem prefix_of_mem_belowEntries (segments : List String) (es : List (String × Node)) :
    ∀ path ∈ s.belowEntries segments es, ∃ name ∈ es.map Prod.fst, segments ++ [name] <+: path := by
  intro path hpath
  match es with
  | [] => cases hpath
  | (name, n) :: es =>
    rw [belowEntries] at hpath
    rcases List.mem_append.mp hpath with h | h
    · exact ⟨name, List.mem_cons_self, prefix_of_mem_below (segments ++ [name]) n path h⟩
    · obtain ⟨x, hx, hprefix⟩ := prefix_of_mem_belowEntries segments es path h
      exact ⟨x, List.mem_cons_of_mem _ hx, hprefix⟩
end

/-- **No file is read twice**, where no name occurs twice in a directory. -/
theorem nodup_inside (h : n.HasDistinctNames) (segments : List String) :
    (s.inside segments n).Nodup := by
  induction h generalizing segments with
  | file c => exact List.nodup_nil
  | @dir es hnames hinside ih =>
    rw [inside, belowEntries_eq_flatMap, List.nodup_flatMap]
    refine ⟨fun e he => ?_, ?_⟩
    · rcases e with ⟨name, _ | fs⟩
      · rw [below]
        split
        · exact List.nodup_singleton _
        · exact List.nodup_nil
      · rw [below]
        split
        · exact ih _ he _
        · exact List.nodup_nil
    · -- what is read in two entries starts with their names
      have hapart : es.Pairwise fun e f => e.1 ≠ f.1 := List.pairwise_map.mp hnames
      refine hapart.imp fun {e f} hne path he hf => hne ?_
      have he' := s.prefix_of_mem_below _ _ path he
      have hf' := s.prefix_of_mem_below _ _ path hf
      have heq := (List.prefix_of_prefix_length_le he' hf' (by simp)).eq_of_length (by simp)
      simpa using heq

end Selection

/-! ## Sorted segments -/

theorem pairwise_not_lt_sortSegments (l : List (List String)) :
    (sortSegments l).Pairwise fun a b => ¬ b < a := by
  have htrans : ∀ a b c : List String, (!decide (b < a)) = true → (!decide (c < b)) = true →
      (!decide (c < a)) = true := by
    intro a b c hab hbc
    simp only [Bool.not_eq_true', decide_eq_false_iff_not] at hab hbc ⊢
    exact List.le_trans hab hbc
  have htotal : ∀ a b : List String, (!decide (b < a) || !decide (a < b)) = true := by
    intro a b
    rcases List.le_total a b with h | h
    · simp [List.not_lt.mpr h]
    · simp [List.not_lt.mpr h]
  refine (List.pairwise_mergeSort htrans htotal l).imp fun {a b} h => ?_
  simpa only [Bool.not_eq_true', decide_eq_false_iff_not] using h

/-- **There is one order of segments.** -/
theorem sortSegments_eq_of_perm {l l' : List (List String)} (h : l.Perm l') :
    sortSegments l = sortSegments l' := by
  have hperm : (sortSegments l).Perm (sortSegments l') :=
    ((List.mergeSort_perm l _).trans h).trans (List.mergeSort_perm l' _).symm
  refine hperm.eq_of_pairwise (fun a b _ _ hab hba => ?_) (pairwise_not_lt_sortSegments l)
    (pairwise_not_lt_sortSegments l')
  exact List.le_antisymm hab hba

theorem pairwise_lt_sortSegments {l : List (List String)} (h : l.Nodup) :
    (sortSegments l).Pairwise (· < ·) := by
  have hnodup : (sortSegments l).Nodup := (List.mergeSort_perm l _).nodup_iff.mpr h
  refine (hnodup.and (pairwise_not_lt_sortSegments l)).imp fun {a b} hab => ?_
  by_contra hlt
  exact hab.1 (List.le_antisymm hab.2 hlt)

/-! ## Sources -/

/-- Of two paths from one place, the segments of the first one come first. -/
def Path.Before (p q : Path) : Prop := p.start = q.start ∧ p.segments < q.segments

theorem Path.Before.asymm (h : p.Before q) : ¬ q.Before p := fun h' => List.lt_asymm h.2 h'.2

theorem Path.Before.join {a b : List String} (h : a < b) (p : Path) :
    (p.join ⟨.here, a⟩).Before (p.join ⟨.here, b⟩) :=
  ⟨rfl, List.append_left_lt h⟩

/-- What counts below a directory. -/
def selectionIn (t : FileTree) (dir : String) (takeIn leaveOut : List String) :
    Except DiscoveryFault Selection := do
  return {
    takeIn := ← (patternsOf (if takeIn.isEmpty then standardPatterns else takeIn)).mapError .pattern
    leaveOut := ← (patternsOf leaveOut).mapError .pattern
    ignored := ← (ignoredIn t (Path.ofText dir)).mapError .pattern }

/-- The sources that count, in order. -/
def sourcesOf (dir : String) (es : List (String × Node)) (s : Selection) : List Path :=
  (sortSegments (s.belowEntries [] es)).map fun segments =>
    (Path.ofText dir).join ⟨.here, segments⟩

variable {dir : String} {takeIn leaveOut : List String} {paths : List Path}

theorem discover_eq_match (t : FileTree) (dir : String) (takeIn leaveOut : List String) :
    discover t dir takeIn leaveOut =
      match t.find? (Path.ofText dir) with
      | .error e => .error (.file e)
      | .ok (some (.dir es)) => (selectionIn t dir takeIn leaveOut).map (sourcesOf dir es)
      | .ok _ => .ok [] := by
  rw [discover]
  rcases t.find? (Path.ofText dir) with e | _ | ⟨c⟩ | es
  · rfl
  · rfl
  · rfl
  · simp only [selectionIn]
    cases patternsOf (if takeIn.isEmpty then standardPatterns else takeIn) with
    | error f => rfl
    | ok asked =>
      cases patternsOf leaveOut with
      | error f => rfl
      | ok unwanted => cases ignoredIn t (Path.ofText dir) <;> rfl

theorem before_sourcesOf (h : Node.HasDistinctNames (.dir es)) (s : Selection) :
    (sourcesOf dir es s).Pairwise Path.Before :=
  List.pairwise_map.mpr
    ((pairwise_lt_sortSegments (s.nodup_inside h [])).imp fun hlt => .join hlt _)

namespace FileTree

/-- No name occurs twice in a directory of the tree. -/
def HasDistinctNames (t : FileTree) : Prop := t.root.HasDistinctNames

theorem HasDistinctNames.find (h : t.HasDistinctNames) (hfind : t.find p = .ok n) :
    n.HasDistinctNames := by
  rw [FileTree.find] at hfind
  cases hlocate : t.locate p with
  | error e => rw [hlocate] at hfind; cases hfind
  | ok names =>
    rw [hlocate] at hfind
    exact Node.HasDistinctNames.find h hfind

namespace Relisted

theorem selectionIn_eq (h : t.Relisted t') (dir : String) (takeIn leaveOut : List String) :
    selectionIn t dir takeIn leaveOut = selectionIn t' dir takeIn leaveOut := by
  rw [selectionIn, selectionIn, ignoredIn, ignoredIn, h.readBytes_eq]

theorem sourcesOf_eq {fs : List (String × Node)} (h : Node.Relisted (.dir es) (.dir fs)) :
    sourcesOf dir es = sourcesOf dir fs := by
  funext s
  have hperm : (s.belowEntries [] es).Perm (s.belowEntries [] fs) := s.inside_perm h []
  rw [sourcesOf, sourcesOf, sortSegments_eq_of_perm hperm]

/-- **The sources below a directory are the same**, however directories are listed. -/
theorem discover_eq (h : t.Relisted t') (dir : String) (takeIn leaveOut : List String) :
    discover t dir takeIn leaveOut = discover t' dir takeIn leaveOut := by
  have halike := h.find (Path.ofText dir)
  rw [discover_eq_match, discover_eq_match, find?, find?, h.selectionIn_eq]
  generalize t.find (Path.ofText dir) = r at halike ⊢
  generalize t'.find (Path.ofText dir) = r' at halike ⊢
  cases halike with
  | error e => rfl
  | ok hnode =>
    rcases hnode.cases with ⟨c, rfl, rfl⟩ | ⟨es, fs, rfl, rfl⟩
    · rfl
    · simp only [sourcesOf_eq hnode]

end Relisted

theorem find_of_find? (h : t.find? p = .ok (some n)) : t.find p = .ok n := by
  rw [find?] at h
  cases hfind : t.find p with
  | ok m => rw [hfind] at h; cases h; rfl
  | error e => rw [hfind] at h; cases e <;> cases h

end FileTree

/-- **Each source stands strictly before the next one.** -/
theorem before_discover (ht : t.HasDistinctNames)
    (h : discover t dir takeIn leaveOut = .ok paths) : paths.Pairwise Path.Before := by
  rw [discover_eq_match] at h
  split at h
  · cases h
  · rename_i es hfind
    cases hs : selectionIn t dir takeIn leaveOut with
    | error f => rw [hs] at h; cases h
    | ok s =>
      rw [hs] at h
      cases h
      exact before_sourcesOf (ht.find (FileTree.find_of_find? hfind)) s
  · cases h
    exact .nil

end PayloadTypes.Files
