import PayloadTypes.Text.Cut
import PayloadTypes.Text.Quoted
/-!
# Symbols

The named types that were met on the way. A symbol is a full name with
backslashes between its segments; its short name is the last segment.
Symbols are kept once each and in order, so that neither the order nor the
grouping in which they were met can be seen.
-/

namespace PayloadTypes

/-- The last segment of a name. -/
def shortName (name : String) : String := String.ofList (Text.lastPiece '\\' name.toList)

/-- A reference as a full name: trimmed, then without the backslashes it starts with. -/
def fullName (reference : String) : String :=
  String.ofList ((Text.trim reference.toList).dropWhile (· == '\\'))

/-- The names with `x` in its place, once. -/
def insertName (x : String) : List String → List String
  | [] => [x]
  | y :: ys => if x < y then x :: y :: ys else if x = y then y :: ys else y :: insertName x ys

theorem mem_insertName {x z : String} {ys : List String} :
    z ∈ insertName x ys ↔ z = x ∨ z ∈ ys := by
  induction ys with
  | nil => simp [insertName]
  | cons y ys ih =>
    rw [insertName]
    split
    · simp
    · split
      · grind
      · simp only [List.mem_cons, ih]
        grind

theorem sorted_insertName {x : String} {ys : List String} (h : ys.Pairwise (· < ·)) :
    (insertName x ys).Pairwise (· < ·) := by
  induction ys with
  | nil => simp [insertName]
  | cons y ys ih =>
    rw [List.pairwise_cons] at h
    rw [insertName]
    split
    · next hxy =>
      refine List.pairwise_cons.mpr ⟨fun z hz => ?_, List.pairwise_cons.mpr h⟩
      rcases List.mem_cons.mp hz with rfl | hz
      · exact hxy
      · exact String.lt_trans hxy (h.1 z hz)
    · split
      · exact List.pairwise_cons.mpr h
      · next hxy hne =>
        refine List.pairwise_cons.mpr ⟨fun z hz => ?_, ih h.2⟩
        rcases mem_insertName.mp hz with rfl | hz
        · exact Std.lt_of_le_of_ne (String.not_lt.mp hxy) (Ne.symm hne)
        · exact h.1 z hz

/-- The names in order, each once. -/
def sortedNames (names : List String) : List String :=
  names.foldr insertName []

theorem mem_sortedNames {x : String} {names : List String} : x ∈ sortedNames names ↔ x ∈ names := by
  induction names with
  | nil => simp [sortedNames]
  | cons n names ih =>
    rw [sortedNames, List.foldr_cons, mem_insertName, ← sortedNames, ih, List.mem_cons]

/-- The named types that were met. -/
structure Symbols where
  /-- Their full names. -/
  names : List String
  /-- The names stand in order, each once. -/
  sorted : names.Pairwise (· < ·)

namespace Symbols

/-- No symbol. -/
def empty : Symbols := ⟨[], List.Pairwise.nil⟩

instance : Inhabited Symbols := ⟨empty⟩

/-- The symbols and the one that a reference names, if it names one. -/
def add (s : Symbols) (reference : String) : Symbols :=
  if fullName reference = "" then s
  else ⟨insertName (fullName reference) s.names, sorted_insertName s.sorted⟩

/-- The symbols and those that references name. -/
def addAll (s : Symbols) (references : List String) : Symbols := references.foldl add s

/-- The symbols of references. -/
def ofList (references : List String) : Symbols := empty.addAll references

/-- The symbols and one more full name. -/
def insert (s : Symbols) (name : String) : Symbols :=
  ⟨insertName name s.names, sorted_insertName s.sorted⟩

/-- The symbols of both. -/
def union (s t : Symbols) : Symbols := t.names.foldl insert s

theorem mem_names_add {s : Symbols} {reference n : String} :
    n ∈ (s.add reference).names ↔ n ∈ s.names ∨ fullName reference = n ∧ n ≠ "" := by
  rw [add]
  split
  · next h =>
    refine ⟨.inl, fun hn => hn.resolve_right ?_⟩
    rintro ⟨rfl, hne⟩
    exact hne h
  · next h =>
    rw [mem_insertName, or_comm]
    refine or_congr_right ⟨fun hn => ⟨hn.symm, hn ▸ h⟩, fun hn => hn.1.symm⟩

/-- Those that are known and those that references name are known, and no others. -/
theorem mem_names_addAll {s : Symbols} {references : List String} {n : String} :
    n ∈ (s.addAll references).names ↔
      n ∈ s.names ∨ (∃ r ∈ references, fullName r = n) ∧ n ≠ "" := by
  induction references generalizing s with
  | nil => simp [addAll]
  | cons r rs ih =>
    rw [addAll, List.foldl_cons, ← addAll, ih, mem_names_add]
    simp only [List.mem_cons, exists_eq_or_imp]
    rw [or_and_right, or_assoc]

theorem mem_names_foldl_insert {names : List String} {s : Symbols} {n : String} :
    n ∈ (names.foldl insert s).names ↔ n ∈ s.names ∨ n ∈ names := by
  induction names generalizing s with
  | nil => simp
  | cons m names ih =>
    rw [List.foldl_cons, ih, insert, mem_insertName, List.mem_cons, or_comm (a := n = m), or_assoc]

/-- What either knows is known, and nothing else. -/
theorem mem_names_union {s t : Symbols} {n : String} :
    n ∈ (s.union t).names ↔ n ∈ s.names ∨ n ∈ t.names := mem_names_foldl_insert

/-- The short names, in order, each once. -/
def shortNames (s : Symbols) : List String := sortedNames (s.names.map shortName)

theorem mem_shortNames {s : Symbols} {x : String} :
    x ∈ s.shortNames ↔ ∃ n ∈ s.names, shortName n = x := by
  rw [shortNames, mem_sortedNames, List.mem_map]

/-- A symbol or the short name of one. -/
def contains (s : Symbols) (name : String) : Bool :=
  s.names.contains name || (s.names.map shortName).contains name

/-- How many symbols there are. -/
def size (s : Symbols) : Nat := s.names.length

/-- The symbols on one line. -/
def shown (s : Symbols) : String :=
  "MissingSymbols([" ++
    ", ".intercalate (s.names.map fun n => String.ofList (Text.quote n.toList)) ++ "])"

end Symbols

end PayloadTypes
