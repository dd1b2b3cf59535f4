/-!
# Ordered maps

A map from names that remembers the order in which its names came. Putting
a value under a name that is there already keeps the name's place. Its view
is the list of its entries, in which no name occurs twice.
-/

namespace PayloadTypes

variable {α β : Type}

/-- The entries with `v` under `k`: in the place of `k` if it has one, else last. -/
def putEntry (k : String) (v : α) : List (String × α) → List (String × α)
  | [] => [(k, v)]
  | e :: es => if e.1 = k then (k, v) :: es else e :: putEntry k v es

theorem mem_keys_putEntry {k x : String} {v : α} {es : List (String × α)} :
    x ∈ (putEntry k v es).map Prod.fst ↔ x = k ∨ x ∈ es.map Prod.fst := by
  induction es with
  | nil => simp [putEntry]
  | cons e es ih =>
    by_cases h : e.1 = k
    · simp only [putEntry, h, if_true, List.map_cons, List.mem_cons]
      grind
    · simp only [putEntry, h, if_false, List.map_cons, List.mem_cons, ih]
      grind

theorem nodup_keys_putEntry {k : String} {v : α} {es : List (String × α)}
    (h : (es.map Prod.fst).Nodup) : ((putEntry k v es).map Prod.fst).Nodup := by
  induction es with
  | nil => simp [putEntry]
  | cons e es ih =>
    rw [List.map_cons, List.nodup_cons] at h
    by_cases he : e.1 = k
    · simp only [putEntry, he, if_true, List.map_cons, List.nodup_cons]
      exact ⟨he ▸ h.1, h.2⟩
    · simp only [putEntry, he, if_false, List.map_cons, List.nodup_cons]
      refine ⟨fun hm => ?_, ih h.2⟩
      rcases mem_keys_putEntry.mp hm with hk | hk
      · exact he hk
      · exact h.1 hk

/-- A new name comes last. -/
theorem putEntry_of_not_mem {k : String} {es : List (String × α)} (h : k ∉ es.map Prod.fst)
    (v : α) : putEntry k v es = es ++ [(k, v)] := by
  induction es with
  | nil => rfl
  | cons e es ih =>
    rw [List.map_cons, List.mem_cons, not_or] at h
    rw [putEntry, if_neg (Ne.symm h.1), ih h.2, List.cons_append]

/-- A map from names to values that keeps the order of its names. -/
structure OrderedMap (α : Type) where
  /-- The names and their values, in order. -/
  entries : List (String × α)
  /-- No name occurs twice. -/
  nodup : (entries.map Prod.fst).Nodup

namespace OrderedMap

/-- The map without names. -/
def empty : OrderedMap α := ⟨[], List.nodup_nil⟩

instance : Inhabited (OrderedMap α) := ⟨empty⟩

instance : EmptyCollection (OrderedMap α) := ⟨empty⟩

/-- The map with `v` under `k`. -/
def insert (m : OrderedMap α) (k : String) (v : α) : OrderedMap α :=
  ⟨putEntry k v m.entries, nodup_keys_putEntry m.nodup⟩

/-- The value under a name. -/
def get? (m : OrderedMap α) (k : String) : Option α := m.entries.lookup k

/-- The name is in the map. -/
def contains (m : OrderedMap α) (k : String) : Bool := (m.get? k).isSome

/-- The names, in order. -/
def keys (m : OrderedMap α) : List String := m.entries.map Prod.fst

/-- The values, in the order of their names. -/
def values (m : OrderedMap α) : List α := m.entries.map Prod.snd

/-- How many names there are. -/
def size (m : OrderedMap α) : Nat := m.entries.length

/-- The map with every entry of a list put into it, first to last. -/
def insertAll (m : OrderedMap α) (es : List (String × α)) : OrderedMap α :=
  es.foldl (fun m e => m.insert e.1 e.2) m

/-- The map of a list of entries; of two under one name the later wins. -/
def ofList (es : List (String × α)) : OrderedMap α := empty.insertAll es

/-- `m` with the entries of `n` put over it. -/
def merge (m n : OrderedMap α) : OrderedMap α := m.insertAll n.entries

/-- Every value replaced by what `f` makes of it and its name. -/
def mapValues (f : String → α → β) (m : OrderedMap α) : OrderedMap β :=
  ⟨m.entries.map fun e => (e.1, f e.1 e.2), by
    simpa [List.map_map, Function.comp_def] using m.nodup⟩

/-- Every value replaced by what `f` makes of it and its name, first to last; the first fault is
that of the whole. -/
def tryMapValues {ε : Type} (f : String → α → Except ε β) (m : OrderedMap α) :
    Except ε (OrderedMap β) :=
  (m.entries.mapM fun e => (f e.1 e.2).map fun b => (e.1, b)).map ofList

@[ext] theorem ext {m n : OrderedMap α} (h : m.entries = n.entries) : m = n := by
  cases m; cases n; cases h; rfl

@[simp] theorem entries_empty : (empty : OrderedMap α).entries = [] := rfl

@[simp] theorem entries_insert (m : OrderedMap α) (k : String) (v : α) :
    (m.insert k v).entries = putEntry k v m.entries := rfl

/-- Entries under new names follow those of the map. -/
theorem entries_insertAll {es : List (String × α)} {m : OrderedMap α}
    (h : ((m.entries ++ es).map Prod.fst).Nodup) : (m.insertAll es).entries = m.entries ++ es := by
  induction es generalizing m with
  | nil => simp [insertAll]
  | cons e es ih =>
    have hnew : e.1 ∉ m.entries.map Prod.fst := by
      rw [List.map_append, List.map_cons, List.nodup_append] at h
      exact fun hmem => h.2.2 _ hmem _ List.mem_cons_self rfl
    have hinsert : (m.insert e.1 e.2).entries = m.entries ++ [e] := putEntry_of_not_mem hnew e.2
    have hrest : (((m.insert e.1 e.2).entries ++ es).map Prod.fst).Nodup := by
      rwa [hinsert, List.append_assoc, List.singleton_append]
    have hall := ih hrest
    rwa [hinsert, List.append_assoc, List.singleton_append] at hall

/-- **The map of entries with different names has just these**, in their order. -/
theorem entries_ofList {es : List (String × α)} (h : (es.map Prod.fst).Nodup) :
    (ofList es).entries = es := by
  have hall : ((empty.entries ++ es).map Prod.fst).Nodup := by rwa [entries_empty, List.nil_append]
  rw [ofList, entries_insertAll hall, entries_empty, List.nil_append]

end OrderedMap

end PayloadTypes
