import PayloadTypes.Files.Tree
import PayloadTypes.Proofs.Data.OrderedMap
/-!
# Listing orders

A directory lists its entries in some order, which is not part of what the tree
holds. Trees that differ in their listing orders alone have the same paths
(`FileTree.Relisted.locate_eq`), and their files hold the same texts
(`FileTree.Relisted.readText_eq`).
-/

namespace PayloadTypes.Files

variable {n m : Node} {es front back : List (String × Node)} {name x : String}
  {names segments : List String} {t t' : FileTree} {p : Path}

/-! ## Nodes -/

namespace Node

/-- Two nodes differ in the order alone in which their directories list their entries. -/
inductive Relisted : Node → Node → Prop
  /-- All entries are listed as they were. -/
  | refl (n : Node) : Relisted n n
  /-- A directory lists its entries in another order; no name occurs twice in it. -/
  | reorder {es fs : List (String × Node)} (hnames : (es.map Prod.fst).Nodup) (h : es.Perm fs) :
    Relisted (.dir es) (.dir fs)
  /-- Something in a directory is listed in another order. -/
  | inside {front back : List (String × Node)} {name : String} {n m : Node} (h : Relisted n m) :
    Relisted (.dir (front ++ (name, n) :: back)) (.dir (front ++ (name, m) :: back))
  /-- One change of order follows another one. -/
  | trans {n m k : Node} (h : Relisted n m) (h' : Relisted m k) : Relisted n k

theorem lookup_eq (name : String) (es : List (String × Node)) :
    lookup name es = es.lookup name := by
  induction es with
  | nil => rfl
  | cons e es ih =>
    rw [lookup, lookup_cons, ih]
    simp only [eq_comm]

/-- **What a name stands for does not depend on the order of the entries.** -/
theorem lookup_eq_of_perm {fs : List (String × Node)} (hnames : (es.map Prod.fst).Nodup)
    (h : es.Perm fs) (name : String) : lookup name es = lookup name fs := by
  have hnames' : (fs.map Prod.fst).Nodup := (h.map Prod.fst).nodup_iff.mp hnames
  rw [lookup_eq, lookup_eq]
  exact OrderedMap.get?_eq_of_perm (m := ⟨es, hnames⟩) (n := ⟨fs, hnames'⟩) h name

theorem lookup_append (es fs : List (String × Node)) :
    lookup x (es ++ fs) = (lookup x es).or (lookup x fs) := by
  rw [lookup_eq, lookup_eq, lookup_eq, List.lookup_append]

theorem Relisted.cases (h : n.Relisted m) :
    (∃ c, n = .file c ∧ m = .file c) ∨ ∃ es fs, n = .dir es ∧ m = .dir fs := by
  induction h with
  | refl n =>
    cases n with
    | file c => exact .inl ⟨c, rfl, rfl⟩
    | dir es => exact .inr ⟨es, es, rfl, rfl⟩
  | reorder => exact .inr ⟨_, _, rfl, rfl⟩
  | inside => exact .inr ⟨_, _, rfl, rfl⟩
  | trans _ _ ih ih' =>
    rcases ih with ⟨c, rfl, rfl⟩ | ⟨es, fs, rfl, rfl⟩
    · exact ih'
    · rcases ih' with ⟨c, hc, -⟩ | ⟨_, gs, -, rfl⟩
      · cases hc
      · exact .inr ⟨es, gs, rfl, rfl⟩

/-- No name occurs twice in a directory. -/
inductive HasDistinctNames : Node → Prop
  /-- A file lists nothing. -/
  | file (content : ByteArray) : HasDistinctNames (.file content)
  /-- The names in a directory differ, and those in each of its entries do. -/
  | dir {es : List (String × Node)} (hnames : (es.map Prod.fst).Nodup)
    (hinside : ∀ e ∈ es, HasDistinctNames e.2) : HasDistinctNames (.dir es)

theorem mem_of_lookup (h : lookup x es = some n) : (x, n) ∈ es := by
  rw [lookup_eq] at h
  obtain ⟨before, after, rfl, -⟩ := List.lookup_eq_some_iff.mp h
  simp

theorem HasDistinctNames.find (h : n.HasDistinctNames) (hfind : Node.find names n = .ok m) :
    m.HasDistinctNames := by
  induction h generalizing names with
  | file c =>
    cases names with
    | nil => cases hfind; exact .file c
    | cons x names => cases hfind
  | @dir es hnames hinside ih =>
    cases names with
    | nil => cases hfind; exact .dir hnames hinside
    | cons x names =>
      rw [Node.find] at hfind
      cases hlookup : Node.lookup x es with
      | none => rw [hlookup] at hfind; cases hfind
      | some k =>
        rw [hlookup] at hfind
        exact ih (x, k) (mem_of_lookup hlookup) hfind

/-- Both are the same error, or nodes that differ in their listing orders alone. -/
inductive Alike : Except FileError Node → Except FileError Node → Prop
  /-- The same error. -/
  | error (e : FileError) : Alike (.error e) (.error e)
  /-- Nodes that are listed in some order. -/
  | ok {n m : Node} (h : n.Relisted m) : Alike (.ok n) (.ok m)

theorem Alike.refl (r : Except FileError Node) : Alike r r := by
  cases r with
  | error e => exact .error e
  | ok n => exact .ok (.refl n)

theorem Alike.trans {a b c : Except FileError Node} (h : Alike a b) (h' : Alike b c) :
    Alike a c := by
  cases h with
  | error e => exact h'
  | ok h =>
    cases h' with
    | ok h' => exact .ok (h.trans h')

/-- **The same stands at the end of a row of names**, listed in some order. -/
theorem Relisted.find (h : n.Relisted m) (names : List String) :
    Alike (Node.find names n) (Node.find names m) := by
  -- The names are distinct where the order changes, so each is looked up as before.
  induction h generalizing names with
  | refl n => exact .refl _
  | reorder hnames h =>
    cases names with
    | nil => exact .ok (.reorder hnames h)
    | cons name names =>
      rw [Node.find, Node.find, lookup_eq_of_perm hnames h]
      exact .refl _
  | @inside front back name n m h ih =>
    cases names with
    | nil => exact .ok (.inside h)
    | cons x names =>
      simp only [Node.find, lookup_append, lookup]
      cases Node.lookup x front with
      | some k => exact .refl _
      | none =>
        by_cases hname : name = x
        · simp only [hname, Option.none_or, if_true]
          exact ih names
        · simp only [hname, Option.none_or, if_false]
          exact .refl _
  | trans _ _ ih ih' => exact (ih names).trans (ih' names)

end Node

/-! ## Trees -/

namespace FileTree

/-- Two trees differ in the order alone in which their directories list their entries. -/
structure Relisted (t t' : FileTree) : Prop where
  /-- The roots do. -/
  root : t.root.Relisted t'.root
  /-- One works in the same directory. -/
  here : t.here = t'.here

theorem locateFrom_eq_of_relisted {root root' : Node} (h : root.Relisted root')
    (start : List String) (segments : List String) :
    locateFrom root start segments = locateFrom root' start segments := by
  induction segments generalizing start with
  | nil => rfl
  | cons name segments ih =>
    rw [locateFrom, locateFrom]
    generalize hr : Node.find start.reverse root = r
    generalize hr' : Node.find start.reverse root' = r'
    have halike := hr ▸ hr' ▸ h.find start.reverse
    cases halike with
    | error e => rfl
    | ok hnode =>
      rcases hnode.cases with ⟨c, rfl, rfl⟩ | ⟨es, fs, rfl, rfl⟩
      · rfl
      · simp only [ih]

namespace Relisted

/-- **A path leads to the same place**, however directories are listed. -/
theorem locate_eq (h : t.Relisted t') (p : Path) : t.locate p = t'.locate p := by
  rw [locate, locate, h.here, locateFrom_eq_of_relisted h.root]

theorem find (h : t.Relisted t') (p : Path) : Node.Alike (t.find p) (t'.find p) := by
  rw [FileTree.find, FileTree.find, h.locate_eq]
  cases t'.locate p with
  | error e => exact .error e
  | ok names => exact h.root.find names

theorem readBytes_eq (h : t.Relisted t') (p : Path) : t.readBytes p = t'.readBytes p := by
  have halike := h.find p
  rw [readBytes, readBytes]
  generalize t.find p = r at halike ⊢
  generalize t'.find p = r' at halike ⊢
  cases halike with
  | error e => rfl
  | ok hnode =>
    rcases hnode.cases with ⟨c, rfl, rfl⟩ | ⟨es, fs, rfl, rfl⟩
    · rfl
    · rfl

/-- **A file holds the same text**, however directories are listed. -/
theorem readText_eq (h : t.Relisted t') (p : Path) : t.readText p = t'.readText p := by
  rw [readText, readText, h.readBytes_eq]

end Relisted

end FileTree

end PayloadTypes.Files
