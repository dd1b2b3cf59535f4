import Mathlib.Data.List.Nodup
import PayloadTypes.Data.OrderedMap
/-!
# Looking into ordered maps

What stands under a name is the value of the only entry with that name, wherever
it is listed. A map put over another one hides what the other has under its names
and nothing else (`OrderedMap.get?_merge`).
-/

namespace PayloadTypes

variable {α β : Type} {m n : OrderedMap α} {k x : String} {v : α} {es : List (String × α)}

theorem lookup_cons (e : String × α) (es : List (String × α)) :
    (e :: es).lookup x = if x = e.1 then some e.2 else es.lookup x := by
  by_cases h : x = e.1
  · rw [if_pos h, List.lookup_cons, beq_iff_eq.mpr h]
  · rw [if_neg h, List.lookup_cons, beq_eq_false_iff_ne.mpr h]

theorem lookup_putEntry :
    (putEntry k v es).lookup x = if x = k then some v else es.lookup x := by
  induction es with
  | nil => rw [putEntry, lookup_cons]
  | cons e es ih =>
    rw [putEntry]
    split
    · next hname =>
      rw [lookup_cons, lookup_cons, hname]
      split <;> rfl
    · next hname =>
      rw [lookup_cons, lookup_cons, ih]
      by_cases hx : x = e.1
      · have hne : x ≠ k := fun h => hname (hx.symm.trans h)
        rw [if_pos hx, if_neg hne, if_pos hx]
      · rw [if_neg hx, if_neg hx]

namespace OrderedMap

theorem eq_or_mem_of_mem_putEntry {e : String × α} {es : List (String × α)}
    (h : e ∈ putEntry k v es) : e = (k, v) ∨ e ∈ es := by
  induction es with
  | nil => exact .inl (List.mem_singleton.mp h)
  | cons f es ih =>
    rw [putEntry] at h
    split at h
    · exact (List.mem_cons.mp h).imp_right (List.mem_cons_of_mem _)
    · rcases List.mem_cons.mp h with rfl | h
      · exact .inr List.mem_cons_self
      · exact (ih h).imp_right (List.mem_cons_of_mem _)

/-- A map holds nothing but the entries that it is made of. -/
theorem mem_of_mem_ofList {e : String × α} (h : e ∈ (ofList es).entries) : e ∈ es := by
  have hall : ∀ (es : List (String × α)) (m : OrderedMap α), e ∈ (m.insertAll es).entries →
      e ∈ m.entries ∨ e ∈ es := by
    intro es
    induction es with
    | nil => exact fun m h => .inl h
    | cons x es ih =>
      intro m h
      rcases ih (m.insert x.1 x.2) h with h | h
      · rcases eq_or_mem_of_mem_putEntry h with rfl | h
        · exact .inr List.mem_cons_self
        · exact .inl h
      · exact .inr (List.mem_cons_of_mem _ h)
  exact (hall es empty h).resolve_left List.not_mem_nil

/-- The value under a key is that of its entry. -/
theorem get?_eq_some_iff : m.get? k = some v ↔ (k, v) ∈ m.entries := by
  rw [get?, List.lookup_eq_some_iff]
  constructor
  · rintro ⟨front, back, hsplit, -⟩
    rw [hsplit]
    exact List.mem_append_right _ List.mem_cons_self
  · intro hmem
    obtain ⟨front, back, hsplit⟩ := List.append_of_mem hmem
    refine ⟨front, back, hsplit, fun e he => bne_iff_ne.mpr ?_⟩
    -- an entry in front under the same key would be a second one
    have hnodup := m.nodup
    rw [hsplit, List.map_append, List.nodup_append'] at hnodup
    rintro rfl
    exact hnodup.2.2 (List.mem_map_of_mem he) List.mem_cons_self

theorem get?_eq_none (h : k ∉ m.keys) : m.get? k = none :=
  Option.eq_none_iff_forall_ne_some.mpr fun _ hv =>
    h (List.mem_map_of_mem (get?_eq_some_iff.mp hv))

/-- **What is under a key does not depend on the order of the entries.** -/
theorem get?_eq_of_perm (h : m.entries.Perm n.entries) (k : String) : m.get? k = n.get? k :=
  Option.ext fun v => by rw [get?_eq_some_iff, get?_eq_some_iff, h.mem_iff]

@[simp] theorem get?_empty : (empty : OrderedMap α).get? x = none := rfl

theorem get?_insert : (m.insert k v).get? x = if x = k then some v else m.get? x :=
  lookup_putEntry

/-- Entries that are put into a map hide what it has under their names. -/
theorem get?_insertAll (hes : (es.map Prod.fst).Nodup) :
    (m.insertAll es).get? x = (es.lookup x).or (m.get? x) := by
  induction es generalizing m with
  | nil => rfl
  | cons e es ih =>
    rw [List.map_cons, List.nodup_cons] at hes
    rw [insertAll, List.foldl_cons, ← insertAll, ih hes.2, get?_insert]
    rw [lookup_cons]
    by_cases hx : x = e.1
    · have hnone : es.lookup x = none := by
        refine List.lookup_eq_none_iff.mpr fun p hp => bne_iff_ne.mpr fun h => hes.1 ?_
        exact hx ▸ h ▸ List.mem_map_of_mem hp
      rw [hnone, if_pos hx, if_pos hx]
      rfl
    · rw [if_neg hx, if_neg hx]

/-- **A map put over another one** hides what that has under its names, and nothing else. -/
theorem get?_merge (m n : OrderedMap α) (x : String) :
    (m.merge n).get? x = (n.get? x).or (m.get? x) :=
  get?_insertAll n.nodup

theorem get?_mapValues (f : String → α → β) (m : OrderedMap α) (x : String) :
    (m.mapValues f).get? x = (m.get? x).map (f x) := by
  have hall : ∀ es : List (String × α),
      (es.map fun e => (e.1, f e.1 e.2)).lookup x = (es.lookup x).map (f x) := by
    intro es
    induction es with
    | nil => rfl
    | cons e es ih =>
      rw [List.map_cons, lookup_cons, lookup_cons, ih]
      split
      · next hx => rw [hx, Option.map_some]
      · rfl
  exact hall m.entries

/-! ## Maps put over one another -/

/-- A map lists its keys, each with what is under it. -/
theorem entries_eq_filterMap_keys (m : OrderedMap α) :
    m.entries = m.keys.filterMap fun k => (m.get? k).map fun v => (k, v) := by
  have hentry : ∀ e ∈ m.entries, (m.get? e.1).map (fun v => (e.1, v)) = some e := by
    intro e he
    rw [get?_eq_some_iff.mpr he, Option.map_some]
  rw [keys, List.filterMap_map]
  exact (List.filterMap_some.symm.trans (List.filterMap_congr hentry).symm)

/-- **Two maps with the same keys in order and the same values under them are one.** -/
theorem ext_get? (hkeys : m.keys = n.keys) (hget : ∀ k, m.get? k = n.get? k) : m = n := by
  refine ext ?_
  rw [entries_eq_filterMap_keys, hkeys, entries_eq_filterMap_keys n]
  simp only [hget]

/-- A key that is there keeps its place, and a new one comes last. -/
theorem keys_insert : (m.insert k v).keys = if k ∈ m.keys then m.keys else m.keys ++ [k] := by
  have hput : ∀ es : List (String × α), (putEntry k v es).map Prod.fst =
      if k ∈ es.map Prod.fst then es.map Prod.fst else es.map Prod.fst ++ [k] := by
    intro es
    induction es with
    | nil => rfl
    | cons e es ih =>
      rw [putEntry]
      by_cases he : e.1 = k
      · simp [he]
      · simp only [if_neg he, List.map_cons, ih, List.mem_cons, Ne.symm he, false_or]
        split <;> rfl
  exact hput m.entries

theorem keys_insertAll (hes : (es.map Prod.fst).Nodup) :
    (m.insertAll es).keys = m.keys ++ (es.map Prod.fst).filter (· ∉ m.keys) := by
  induction es generalizing m with
  | nil => simp [insertAll]
  | cons e es ih =>
    rw [List.map_cons, List.nodup_cons] at hes
    rw [insertAll, List.foldl_cons, ← insertAll, ih hes.2, keys_insert, List.map_cons]
    by_cases he : e.1 ∈ m.keys
    · rw [if_pos he, List.filter_cons_of_neg (by simpa using he)]
    · -- the key that was put in is none of those behind it
      have hrest : (es.map Prod.fst).filter (· ∉ m.keys ++ [e.1]) =
          (es.map Prod.fst).filter (· ∉ m.keys) := by
        refine List.filter_congr fun x hx => ?_
        have hne : x ≠ e.1 := fun h => hes.1 (h ▸ hx)
        simp [hne]
      rw [if_neg he, List.filter_cons_of_pos (by simpa using he), hrest, List.append_assoc,
        List.singleton_append]

/-- `r` is `n` put over `m`: the keys of `m` stand in their places and the new ones of `n` behind
them, each with its value in `n` or else in `m`. -/
structure IsOverlay (m n r : OrderedMap α) : Prop where
  /-- The keys of `m`, and then those that only `n` has, in order. -/
  keys : r.keys = m.keys ++ n.keys.filter (· ∉ m.keys)
  /-- What `n` has under a key hides what `m` has under it. -/
  values : ∀ k, r.get? k = (n.get? k).or (m.get? k)

/-- **A merged map is the one map that is put over another.** -/
theorem isOverlay_iff {r : OrderedMap α} : IsOverlay m n r ↔ r = m.merge n := by
  have hmerge : IsOverlay m n (m.merge n) := ⟨keys_insertAll n.nodup, get?_merge m n⟩
  constructor
  · intro h
    exact ext_get? (h.keys.trans hmerge.keys.symm) fun k =>
      (h.values k).trans (hmerge.values k).symm
  · rintro rfl
    exact hmerge

theorem isOverlay_merge (m n : OrderedMap α) : IsOverlay m n (m.merge n) := isOverlay_iff.mpr rfl

theorem empty_merge (m : OrderedMap α) : empty.merge m = m :=
  (isOverlay_iff.mp ⟨by simp [keys], fun k => by simp⟩).symm

theorem merge_empty (m : OrderedMap α) : m.merge empty = m := rfl

theorem merge_self (m : OrderedMap α) : m.merge m = m := by
  refine (isOverlay_iff.mp ⟨?_, fun k => (Option.or_self ..).symm⟩).symm
  simp

/-- **Of three maps put over one another any two may be put together first.** -/
theorem merge_assoc (a b c : OrderedMap α) : a.merge (b.merge c) = (a.merge b).merge c := by
  have hab := isOverlay_merge a b
  have hbc := isOverlay_merge b c
  refine isOverlay_iff.mp ⟨?_, fun k => ?_⟩
  · rw [(isOverlay_merge a (b.merge c)).keys, hab.keys, hbc.keys, List.filter_append,
      List.filter_filter, List.append_assoc]
    -- a key of `c` is new where it is in neither of the others
    refine congrArg (fun l => a.keys ++ (b.keys.filter (· ∉ a.keys) ++ l)) ?_
    refine List.filter_congr fun k _ => ?_
    by_cases ha : k ∈ a.keys <;> simp [ha]
  · rw [(isOverlay_merge a (b.merge c)).values, hab.values, hbc.values, Option.or_assoc]

end OrderedMap

end PayloadTypes
