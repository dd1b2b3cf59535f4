import PayloadTypes.Project.Scan
import PayloadTypes.Proofs.Data.OrderedMap
import PayloadTypes.Proofs.Files.DiscoveryOrder
import PayloadTypes.Proofs.Project.Keyed
/-!
# Order of scanned files

A scan comes to the same classes, the same project and the same notices however
the directories list their entries, and of several files that declare a class of
one full name the last one counts (`scan_eq_of_relisted`).
-/

namespace PayloadTypes

open Files (FileTree Path)
open Source (ClassDecl)

variable {t t' : FileTree} {p : Path} {name : String} {e : ClassEntry} {paths : List Path}

/-! ## Last of a list -/

/-- What the last member of a list has comes first when the list is read from its end. -/
theorem findSome?_reverse_eq_some_iff {α β : Type} {R : α → α → Prop} {l : List α}
    {has : α → Option β} {b : β} (hasymm : ∀ x y, R x y → ¬ R y x) (hl : l.Pairwise R) :
    l.reverse.findSome? has = some b ↔
      ∃ a ∈ l, has a = some b ∧ ∀ x ∈ l, R a x → has x = none := by
  rw [List.findSome?_eq_some_iff]
  -- As the order is asymmetric, what is behind a member is just what is read before it.
  constructor
  · rintro ⟨front, a, back, hsplit, ha, hfront⟩
    have hl' : l = back.reverse ++ a :: front.reverse := by
      rw [← List.reverse_reverse l, hsplit]
      simp
    subst hl'
    refine ⟨a, by simp, ha, fun x hx hax => ?_⟩
    rcases List.mem_append.mp hx with hx | hx
    · exact absurd hax (hasymm x a ((List.pairwise_append.mp hl).2.2 x hx a List.mem_cons_self))
    · rcases List.mem_cons.mp hx with rfl | hx
      · exact absurd hax (hasymm x x hax)
      · exact hfront x (List.mem_reverse.mp hx)
  · rintro ⟨a, hmem, ha, hafter⟩
    obtain ⟨front, back, rfl⟩ := List.append_of_mem hmem
    have hback := (List.pairwise_cons.mp (List.pairwise_append.mp hl).2.1).1
    refine ⟨back.reverse, a, front.reverse, by simp, ha, fun x hx => ?_⟩
    have hx := List.mem_reverse.mp hx
    exact hafter x (List.mem_append_right _ (List.mem_cons_of_mem _ hx)) (hback x hx)

/-! ## Classes of a file -/

/-- A file declares a class of a full name. -/
def DeclaresClass (t : FileTree) (p : Path) (name : String) : Prop :=
  ∃ source, t.readText p = .ok source ∧ ∃ c ∈ Source.classes source.toList, c.fullName = name

/-- The entry is the last class of a full name that a file declares. -/
def IsClassIn (t : FileTree) (p : Path) (name : String) (e : ClassEntry) : Prop :=
  ∃ source front back, t.readText p = .ok source ∧
    Source.classes source.toList = front ++ e.decl :: back ∧ e.decl.fullName = name ∧
    (∀ c ∈ back, c.fullName ≠ name) ∧ e.path = p.text

/-- The last class of a full name in a file, if it declares one. -/
def classIn? (t : FileTree) (name : String) (p : Path) : Option ClassEntry :=
  match t.readText p with
  | .ok source =>
    ((Source.classes source.toList).reverse.find? fun c => c.fullName == name).map fun c =>
      ⟨c, p.text⟩
  | .error _ => none

theorem classIn?_eq_some_iff : classIn? t name p = some e ↔ IsClassIn t p name e := by
  rw [classIn?]
  constructor
  · intro h
    split at h
    · next source hread =>
      obtain ⟨c, hfind, rfl⟩ := Option.map_eq_some_iff.mp h
      obtain ⟨hname, front, back, hsplit, hfront⟩ := List.find?_eq_some_iff_append.mp hfind
      refine ⟨source, back.reverse, front.reverse, hread, ?_, by simpa using hname, ?_, rfl⟩
      · rw [← List.reverse_reverse (Source.classes source.toList), hsplit]
        simp
      · simpa using hfront
    · cases h
  · rintro ⟨source, front, back, hread, hsplit, hname, hback, hpath⟩
    have hfind : (Source.classes source.toList).reverse.find? (fun c => c.fullName == name) =
        some e.decl := by
      refine List.find?_eq_some_iff_append.mpr
        ⟨by simpa using hname, back.reverse, front.reverse, by rw [hsplit]; simp, ?_⟩
      simpa using hback
    rw [hread]
    simp only [hfind, Option.map_some, ← hpath]

theorem classIn?_eq_none_iff : classIn? t name p = none ↔ ¬ DeclaresClass t p name := by
  rw [classIn?]
  cases hread : t.readText p with
  | error f =>
    simp [DeclaresClass, hread]
  | ok source =>
    simp [DeclaresClass, hread]

/-! ## Tables of files -/

namespace ClassTable

variable {table : ClassTable}

theorem get?_addSource (table : ClassTable) (path source name : String) :
    (table.addSource path source).get? name =
      (((Source.classes source.toList).reverse.find? fun c => c.fullName == name).map fun c =>
        (⟨c, path⟩ : ClassEntry)).or (table.get? name) := by
  rw [addSource]
  generalize Source.classes source.toList = cs
  induction cs generalizing table with
  | nil => rfl
  | cons c cs ih =>
    rw [List.foldl_cons, ih, OrderedMap.get?_insert, List.reverse_cons, List.find?_append]
    cases cs.reverse.find? fun c => c.fullName == name with
    | some d => rfl
    | none =>
      by_cases hname : name = c.fullName
      · simp [hname]
      · simp [hname, Ne.symm hname]

/-- **A name stands for what the last file that declares it says.** -/
theorem get?_ofFiles (t : FileTree) (paths : List Path) (name : String) :
    (ofFiles t paths).1.get? name = paths.reverse.findSome? (classIn? t name) := by
  -- the last file is read into the table last, and hides what the others declare
  rw [ofFiles, ← List.foldr_reverse]
  induction paths.reverse with
  | nil => rfl
  | cons p paths ih =>
    rw [List.foldr_cons, List.findSome?_cons, ← ih, classIn?]
    cases t.readText p with
    | error f => rfl
    | ok source =>
      simp only [get?_addSource]
      cases (Source.classes source.toList).reverse.find? fun c => c.fullName == name <;> rfl

/-- Of several files that declare a name the last one counts. -/
theorem get?_ofFiles_eq_some_iff (hpaths : paths.Pairwise Path.Before) (name : String)
    (e : ClassEntry) :
    (ofFiles t paths).1.get? name = some e ↔
      ∃ p ∈ paths, IsClassIn t p name e ∧ ∀ q ∈ paths, p.Before q → ¬ DeclaresClass t q name := by
  rw [get?_ofFiles, findSome?_reverse_eq_some_iff (fun _ _ => Path.Before.asymm) hpaths]
  simp only [classIn?_eq_some_iff, classIn?_eq_none_iff]

theorem ofFiles_eq_of_relisted (h : t.Relisted t') (paths : List Path) :
    ofFiles t paths = ofFiles t' paths := by
  rw [ofFiles, ofFiles]
  simp only [h.readText_eq]

end ClassTable

/-! ## Scans -/

/-- A scan of files, of which the later one counts. -/
structure LaterCounts (t : FileTree) (paths : List Path) (s : Scan) : Prop where
  /-- A name stands for the last class of that name in the last file that declares one. -/
  table : ∀ name e, s.table.get? name = some e ↔
    ∃ p ∈ paths, IsClassIn t p name e ∧ ∀ q ∈ paths, p.Before q → ¬ DeclaresClass t q name
  /-- The project is that of these classes. -/
  project : ∃ notices, (s.table.project.run.run notices).1 = .ok s.project

/-- The files that are found, read. -/
def scanFiles (files : ClassTable × List Notice) : Noting Scan := do
  files.2.forM Noting.note
  let project ← files.1.project
  Noting.note (.classesRead files.1.size project.size)
  return ⟨files.1, project⟩

theorem scan_eq_match (t : FileTree) (dir : String) (takeIn leaveOut : List String) :
    scan t dir takeIn leaveOut =
      match Files.discover t dir takeIn leaveOut with
      | .error f => Noting.fault (.discovery f)
      | .ok paths => scanFiles (ClassTable.ofFiles t paths) := by
  unfold scan
  cases Files.discover t dir takeIn leaveOut with
  | error f => rfl
  | ok paths =>
    simp only
    generalize ClassTable.ofFiles t paths = files
    rfl

theorem laterCounts_scanFiles (hpaths : paths.Pairwise Path.Before) :
    (scanFiles (ClassTable.ofFiles t paths)).Gives (LaterCounts t paths) := by
  have htable := ClassTable.get?_ofFiles_eq_some_iff (t := t) hpaths
  generalize ClassTable.ofFiles t paths = files at htable ⊢
  refine (Noting.gives_true _).bind fun _ _ => ?_
  refine (Noting.gives_self files.1.project).bind fun project hproject => ?_
  refine (Noting.gives_true _).bind fun _ _ => ?_
  exact Noting.Gives.pure ⟨htable, hproject⟩

/-- **A scan does not depend on the order in which directories list their entries.** The sources
come in one strict order, and of several that declare a class of one full name the last one
counts. -/
theorem scan_eq_of_relisted (h : t.Relisted t') (ht : t.HasDistinctNames) (dir : String)
    (takeIn leaveOut : List String) :
    scan t dir takeIn leaveOut = scan t' dir takeIn leaveOut ∧
      Files.discover t dir takeIn leaveOut = Files.discover t' dir takeIn leaveOut ∧
      ∀ paths, Files.discover t dir takeIn leaveOut = .ok paths →
        paths.Pairwise Path.Before ∧ (scan t dir takeIn leaveOut).Gives (LaterCounts t paths) := by
  have hdiscover := h.discover_eq dir takeIn leaveOut
  refine ⟨?_, hdiscover, fun paths hpaths => ?_⟩
  · rw [scan_eq_match, scan_eq_match, hdiscover]
    simp only [ClassTable.ofFiles_eq_of_relisted h]
  · have hbefore := Files.before_discover ht hpaths
    refine ⟨hbefore, ?_⟩
    rw [scan_eq_match, hpaths]
    exact laterCounts_scanFiles hbefore

/-- A directory that lists two files, which declare one class. -/
def payTree : FileTree where
  root := .dir [("app", .dir [("Pay.php", .file "class Pay {}".toUTF8),
    ("PayV2.php", .file "abstract class Pay {}".toUTF8)])]
  here := []

/-- The same, last to first. -/
def payTreeReversed : FileTree where
  root := .dir [("app", .dir [("PayV2.php", .file "abstract class Pay {}".toUTF8),
    ("Pay.php", .file "class Pay {}".toUTF8)])]
  here := []

theorem relisted_payTree : payTree.Relisted payTreeReversed where
  root := by
    have happ := Files.Node.Relisted.reorder (by decide)
      (.swap ("PayV2.php", .file "abstract class Pay {}".toUTF8)
        ("Pay.php", .file "class Pay {}".toUTF8) [])
    exact @Files.Node.Relisted.inside [] [] "app" _ _ happ
  here := rfl

theorem hasDistinctNames_payTree : payTree.HasDistinctNames := by
  refine .dir (by decide) fun e he => ?_
  obtain rfl := List.mem_singleton.mp he
  refine .dir (by decide) fun f hf => ?_
  rcases List.mem_pair.mp hf with rfl | rfl
  · exact .file _
  · exact .file _

theorem scan_payTree :
    payTree.Relisted payTreeReversed ∧ payTree.HasDistinctNames ∧
      scan payTree "app" [] [] = scan payTreeReversed "app" [] [] :=
  ⟨relisted_payTree, hasDistinctNames_payTree,
    (scan_eq_of_relisted relisted_payTree hasDistinctNames_payTree "app" [] []).1⟩

end PayloadTypes
