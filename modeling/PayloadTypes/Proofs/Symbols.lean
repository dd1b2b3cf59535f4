import Mathlib.Data.List.Sort
import Mathlib.Data.Set.Card
import PayloadTypes.Proofs.Data.OrderedMap
import PayloadTypes.Proofs.Text.Escape
import PayloadTypes.Proofs.Text.Trim
import PayloadTypes.Proofs.Text.Word
import PayloadTypes.Symbols
/-!
# Symbols that are recorded

Symbols are recorded one by one, or taken over from others that were recorded in the
same way. Whatever the steps, the symbols are the full names of the references that
were recorded (`mem_names_runSteps`). So nothing tells in which order and in what
groups that was done (`recording`).

A map that stores each name as it comes, with its short name beside it, does remember
the order. Yet it shows the same: what it stores beside a name is that name's short
name after every step (`Stores.runStep`).
-/

namespace PayloadTypes

variable {s : Symbols} {reference n x : String}

/-! ## Names -/

/-- `n` is what is left of a reference without the blanks at its ends and then without the
backslashes that it starts with. -/
structure IsNameOf (n reference : String) : Prop where
  /-- Only backslashes stand in front of the name. -/
  trim_eq : ∃ k, Text.trim reference.toList = List.replicate k '\\' ++ n.toList
  /-- All of them are gone. -/
  head : '\\' ∉ n.toList.head?

theorem isNameOf_iff : IsNameOf n reference ↔ fullName reference = n := by
  constructor
  · rintro ⟨⟨k, htrim⟩, hhead⟩
    have hplain : ∀ c ∈ n.toList.head?, (c == '\\') = false := by
      intro c hc
      refine beq_eq_false_iff_ne.mpr ?_
      rintro rfl
      exact hhead hc
    rw [fullName, htrim, Text.dropWhile_append (by simp) hplain, String.ofList_toList]
  · rintro rfl
    refine ⟨⟨((Text.trim reference.toList).takeWhile (· == '\\')).length, ?_⟩, ?_⟩
    · have hall : (Text.trim reference.toList).takeWhile (· == '\\') =
          List.replicate ((Text.trim reference.toList).takeWhile (· == '\\')).length '\\' :=
        List.eq_replicate_of_mem fun c hc => by simpa using List.mem_takeWhile_imp hc
      rw [← hall, fullName, String.toList_ofList, List.takeWhile_append_dropWhile]
    · intro h
      have := List.head?_dropWhile_not (· == '\\') (Text.trim reference.toList)
      rw [fullName, String.toList_ofList] at h
      rw [Option.mem_def.mp h] at this
      simp at this

/-- `x` is what stands behind the last backslash of a name, or all of a name without one. -/
structure IsLastSegment (x n : String) : Prop where
  /-- In front of it the name is empty or ends with a backslash. -/
  front : ∃ t, (∀ c ∈ t.getLast?, c = '\\') ∧ n.toList = t ++ x.toList
  /-- It has no backslash of its own. -/
  whole : '\\' ∉ x.toList

theorem isLastSegment_iff : IsLastSegment x n ↔ shortName n = x := by
  constructor
  · rintro ⟨⟨t, ht, hn⟩, hx⟩
    rw [shortName, hn, Text.lastPiece_append ht hx, String.ofList_toList]
  · rintro rfl
    obtain ⟨t, ht, hn⟩ := Text.exists_eq_append_lastPiece '\\' n.toList
    refine ⟨⟨t, ht, ?_⟩, ?_⟩
    · rw [shortName, String.toList_ofList]
      exact hn
    · rw [shortName, String.toList_ofList]
      exact Text.not_mem_lastPiece _ _

theorem sorted_sortedNames (names : List String) : (sortedNames names).Pairwise (· < ·) := by
  induction names with
  | nil => exact List.Pairwise.nil
  | cons n names ih => exact sorted_insertName ih

namespace Symbols

/-- Symbols are known by their members. -/
theorem eq_of_mem_names {a b : Symbols} (h : ∀ n, n ∈ a.names ↔ n ∈ b.names) : a = b := by
  have hnames : a.names = b.names := a.sorted.eq_of_mem_iff b.sorted h
  cases a
  cases b
  cases hnames
  rfl

theorem contains_iff : s.contains x = true ↔ x ∈ s.names ∨ x ∈ s.shortNames := by
  rw [contains, Bool.or_eq_true, List.contains_iff_mem, List.contains_iff_mem, shortNames,
    mem_sortedNames]

theorem nodup_names (s : Symbols) : s.names.Nodup := by
  refine s.sorted.imp fun h => ?_
  rintro rfl
  exact String.lt_irrefl _ h

/-- How many symbols there are tells how many names are among them. -/
theorem size_eq_ncard (s : Symbols) : s.size = {n | n ∈ s.names}.ncard := by
  have hcoe : {n | n ∈ s.names} = (s.names.toFinset : Set String) := by
    ext n
    simp
  rw [hcoe, Set.ncard_coe_finset, List.toFinset_card_of_nodup (nodup_names s), size]

/-! ## Steps -/

/-- A step by which symbols are recorded. -/
inductive Step where
  /-- The symbol of a reference is recorded. -/
  | add (reference : String)
  /-- The symbols are taken over that were recorded by steps of their own. -/
  | update (steps : List Step)

mutual
/-- Symbols after a step. -/
def runStep : Step → Symbols → Symbols
  | .add reference, s => s.add reference
  | .update steps, s => s.union (runSteps steps empty)
/-- Symbols after one step after the other. -/
def runSteps : List Step → Symbols → Symbols
  | [], s => s
  | step :: steps, s => runSteps steps (runStep step s)
end

mutual
/-- The references that a step records, in their order. -/
def Step.references : Step → List String
  | .add reference => [reference]
  | .update steps => referencesOf steps
/-- The references that steps record, in their order. -/
def referencesOf : List Step → List String
  | [] => []
  | step :: steps => step.references ++ referencesOf steps
end

mutual
/-- **What a step makes of symbols**: those that were there, and the names of its references. -/
theorem mem_names_runStep : ∀ (step : Step) (s : Symbols),
    n ∈ (runStep step s).names ↔
      n ∈ s.names ∨ n ≠ "" ∧ ∃ r ∈ step.references, IsNameOf n r
  | .add reference, s => by
    rw [runStep, mem_names_add, Step.references]
    simp [isNameOf_iff, and_comm]
  | .update steps, s => by
    have hempty : n ∉ empty.names := List.not_mem_nil
    rw [runStep, mem_names_union, mem_names_runSteps steps, Step.references, or_iff_right hempty]
/-- **What steps make of symbols.** -/
theorem mem_names_runSteps : ∀ (steps : List Step) (s : Symbols),
    n ∈ (runSteps steps s).names ↔
      n ∈ s.names ∨ n ≠ "" ∧ ∃ r ∈ referencesOf steps, IsNameOf n r
  | [], s => by simp [runSteps, referencesOf]
  | step :: steps, s => by
    rw [runSteps, mem_names_runSteps steps, mem_names_runStep step, referencesOf]
    simp only [List.mem_append, or_and_right, exists_or, and_or_left, or_assoc]
end

/-! ## Names that are stored -/

/-- The map with a short name beside a name, if the name is new. -/
def store (m : OrderedMap String) (n short : String) : OrderedMap String :=
  if n ∈ m.keys then m else m.insert n short

mutual
/-- Stored names after a step: with each the short name that came first. -/
def storeStep : Step → OrderedMap String → OrderedMap String
  | .add reference, m =>
    if fullName reference = "" then m
    else store m (fullName reference) (shortName (fullName reference))
  | .update steps, m => (storeSteps steps .empty).entries.foldl (fun m e => store m e.1 e.2) m
/-- Stored names after one step after the other. -/
def storeSteps : List Step → OrderedMap String → OrderedMap String
  | [], m => m
  | step :: steps, m => storeSteps steps (storeStep step m)
end

/-- The map stores the symbols. -/
structure Stores (m : OrderedMap String) (s : Symbols) : Prop where
  /-- It has their names, in any order. -/
  mem_keys : ∀ n, n ∈ m.keys ↔ n ∈ s.names
  /-- Beside a name stands its short name. -/
  short : ∀ e ∈ m.entries, e.2 = shortName e.1

theorem stores_empty : Stores .empty empty where
  mem_keys _ := Iff.rfl
  short _ he := absurd he List.not_mem_nil

namespace Stores

variable {m m' : OrderedMap String} {s' : Symbols}

theorem store (h : Stores m s) (n : String) :
    Stores (Symbols.store m n (shortName n)) (s.insert n) := by
  rw [Symbols.store]
  split
  · next hn =>
    refine ⟨fun x => ?_, h.short⟩
    rw [insert, mem_insertName, h.mem_keys]
    exact (or_iff_right_of_imp fun hx => hx ▸ (h.mem_keys n).mp hn).symm
  · next hn =>
    refine ⟨fun x => ?_, fun e he => ?_⟩
    · rw [OrderedMap.keys_insert, if_neg hn, List.mem_append, List.mem_singleton, h.mem_keys,
        insert, mem_insertName, or_comm]
    · rcases OrderedMap.eq_or_mem_of_mem_putEntry he with rfl | he
      · rfl
      · exact h.short e he

theorem foldl_store {es : List (String × String)} (hes : ∀ e ∈ es, e.2 = shortName e.1)
    (h : Stores m s) : Stores (es.foldl (fun m e => Symbols.store m e.1 e.2) m)
      ((es.map Prod.fst).foldl insert s) := by
  induction es generalizing m s with
  | nil => exact h
  | cons e es ih =>
    rw [List.foldl_cons, List.map_cons, List.foldl_cons, hes e List.mem_cons_self]
    exact ih (fun x hx => hes x (List.mem_cons_of_mem _ hx)) (h.store e.1)

/-- What another map stores is taken over with the short names that stand there. -/
theorem union (h : Stores m s) (h' : Stores m' s') :
    Stores (m'.entries.foldl (fun m e => Symbols.store m e.1 e.2) m) (s.union s') := by
  have hunion : m'.keys.foldl insert s = s.union s' := by
    refine eq_of_mem_names fun n => ?_
    rw [mem_names_foldl_insert, h'.mem_keys, mem_names_union]
  rw [← hunion]
  exact h.foldl_store h'.short

mutual
/-- **What is stored after a step** are the symbols after it. -/
theorem runStep : ∀ (step : Step) {m : OrderedMap String} {s : Symbols}, Stores m s →
    Stores (storeStep step m) (Symbols.runStep step s)
  | .add reference, m, s, h => by
    rw [storeStep, Symbols.runStep, add]
    split
    · exact h
    · exact h.store (fullName reference)
  | .update steps, m, s, h => by
    rw [storeStep, Symbols.runStep]
    exact h.union (runSteps steps stores_empty)
/-- **What is stored after steps** are the symbols after them. -/
theorem runSteps : ∀ (steps : List Step) {m : OrderedMap String} {s : Symbols}, Stores m s →
    Stores (storeSteps steps m) (Symbols.runSteps steps s)
  | [], m, s, h => h
  | step :: steps, m, s, h => by
    rw [storeSteps, Symbols.runSteps]
    exact runSteps steps (runStep step h)
end

theorem mem_values (h : Stores m s) : x ∈ m.values ↔ ∃ n ∈ s.names, shortName n = x := by
  simp only [← h.mem_keys, OrderedMap.values, OrderedMap.keys, List.mem_map]
  constructor
  · rintro ⟨e, he, rfl⟩
    exact ⟨e.1, ⟨e, he, rfl⟩, (h.short e he).symm⟩
  · rintro ⟨-, ⟨e, he, rfl⟩, rfl⟩
    exact ⟨e, he, h.short e he⟩

theorem size_eq (h : Stores m s) : m.size = s.size := by
  have hnames : m.keys.Perm s.names :=
    (List.perm_ext_iff_of_nodup m.nodup (nodup_names s)).mpr h.mem_keys
  rw [size, ← hnames.length_eq, OrderedMap.keys, List.length_map, OrderedMap.size]

end Stores

/-- What the map shows is what the symbols do. -/
structure Shows (m : OrderedMap String) (s : Symbols) : Prop where
  /-- Its names in order. -/
  names_eq : sortedNames m.keys = s.names
  /-- What stands beside them in order, each once. -/
  shortNames_eq : sortedNames m.values = s.shortNames
  /-- How many there are. -/
  size_eq : m.size = s.size
  /-- A name that it has or that stands beside one. -/
  contains_iff : ∀ x, x ∈ m.keys ∨ x ∈ m.values ↔ s.contains x = true

/-- **A map that stores the symbols shows them**, in whatever order it has them. -/
theorem Stores.shows {m : OrderedMap String} (h : Stores m s) : Shows m s where
  names_eq := (sorted_sortedNames _).eq_of_mem_iff s.sorted fun n => by
    rw [mem_sortedNames, h.mem_keys]
  shortNames_eq := (sorted_sortedNames _).eq_of_mem_iff (sorted_sortedNames _) fun n => by
    rw [mem_sortedNames, h.mem_values, ← mem_shortNames, shortNames]
  size_eq := h.size_eq
  contains_iff x := by rw [h.mem_keys, h.mem_values, ← mem_shortNames, Symbols.contains_iff]

/-! ## What was recorded -/

/-- The symbols that steps record. -/
def recorded (steps : List Step) : Symbols := runSteps steps empty

/-- The name is one that steps record. -/
def Records (steps : List Step) (n : String) : Prop :=
  n ≠ "" ∧ ∃ r ∈ referencesOf steps, IsNameOf n r

theorem mem_names_recorded {steps : List Step} : n ∈ (recorded steps).names ↔ Records steps n := by
  have hempty : n ∉ empty.names := List.not_mem_nil
  rw [recorded, mem_names_runSteps, or_iff_right hempty, Records]

/-- What can be told of the symbols that steps record. -/
structure Recording (steps : List Step) : Prop where
  /-- They stand in order, each once. -/
  sorted : (recorded steps).names.Pairwise (· < ·)
  /-- They are the names of the references that were recorded, so far as these have names. -/
  mem_names : ∀ n, n ∈ (recorded steps).names ↔ Records steps n
  /-- Their number is that of the names. -/
  size_eq : (recorded steps).size = {n | Records steps n}.ncard
  /-- The short names stand in order, each once. -/
  sorted_shortNames : (recorded steps).shortNames.Pairwise (· < ·)
  /-- They are the last segments of the names. -/
  mem_shortNames : ∀ x, x ∈ (recorded steps).shortNames ↔ ∃ n, Records steps n ∧ IsLastSegment x n
  /-- A name and a short name are contained, and nothing else is. -/
  contains_iff : ∀ x, (recorded steps).contains x = true ↔
    Records steps x ∨ ∃ n, Records steps n ∧ IsLastSegment x n
  /-- Only the names can be told from the symbols. -/
  eq_iff : ∀ other, recorded steps = recorded other ↔ ∀ n, Records steps n ↔ Records other n
  /-- So the same references come to the same symbols, in any order and in any groups. -/
  eq_of_references : ∀ other, (∀ r, r ∈ referencesOf steps ↔ r ∈ referencesOf other) →
    recorded steps = recorded other
  /-- A map that stores the names as they come shows no more than the symbols. -/
  stored : Shows (storeSteps steps .empty) (recorded steps)

theorem recorded_eq_iff {steps other : List Step} :
    recorded steps = recorded other ↔ ∀ n, Records steps n ↔ Records other n := by
  simp only [← mem_names_recorded]
  refine ⟨fun h n => by rw [h], fun h => eq_of_mem_names h⟩

theorem mem_shortNames_recorded {steps : List Step} :
    x ∈ (recorded steps).shortNames ↔ ∃ n, Records steps n ∧ IsLastSegment x n := by
  simp only [Symbols.mem_shortNames, mem_names_recorded, isLastSegment_iff]

/-- **Symbols are a set of names**, whatever the steps by which they were recorded. -/
theorem recording (steps : List Step) : Recording steps where
  sorted := (recorded steps).sorted
  mem_names _ := mem_names_recorded
  size_eq := by
    rw [size_eq_ncard]
    simp only [mem_names_recorded]
  sorted_shortNames := sorted_sortedNames _
  mem_shortNames _ := mem_shortNames_recorded
  contains_iff _ := by rw [Symbols.contains_iff, mem_names_recorded, mem_shortNames_recorded]
  eq_iff _ := recorded_eq_iff
  eq_of_references other h := recorded_eq_iff.mpr fun n => by simp only [Records, h]
  stored := (stores_empty.runSteps steps).shows

/-- A reference may be written in several ways, and the last segment of a name may be empty. -/
example : (recorded [.add " \\App\\User ", .update [.add "Role\\", .add "App\\User"]]).names =
      ["App\\User", "Role\\"] ∧
    (recorded [.add "Role\\", .add "\\\\App\\User"]).shortNames = ["", "User"] := by decide

end Symbols

end PayloadTypes
