import PayloadTypes.Data.Value
import PayloadTypes.Proofs.Data.OrderedMap
/-!
# Maps under texts

The entries of a map whose keys are texts are those of a map from names, and what
is put into one is put into the other.
-/

namespace PayloadTypes.Value

/-- Names and their values as the entries of a map. -/
def named (es : List (String × Value)) : List (Value × Value) := es.map fun e => (.text e.1, e.2)

theorem named_cons (e : String × Value) (es : List (String × Value)) :
    named (e :: es) = (.text e.1, e.2) :: named es := rfl

theorem sameKey_text (a b : String) : sameKey (.text a) (.text b) = (a == b) := by
  simp [sameKey]

theorem put_named (k : String) (v : Value) (es : List (String × Value)) :
    put (.text k) v (named es) = named (putEntry k v es) := by
  induction es with
  | nil => rfl
  | cons e es ih =>
    rw [named_cons, put, putEntry, sameKey_text]
    by_cases hk : e.1 = k
    · simp [hk, named]
    · simp only [beq_eq_false_iff_ne.mpr hk, hk, ih]
      rfl

/-- Names that are put into a map of texts are put into a map from names. -/
theorem foldl_put_named (m : OrderedMap Value) (es : List (String × Value)) :
    (named es).foldl (fun acc e => put e.1 e.2 acc) (named m.entries) =
      named (m.insertAll es).entries := by
  induction es generalizing m with
  | nil => rfl
  | cons e es ih =>
    rw [named_cons, List.foldl_cons, put_named]
    exact ih (m.insert e.1 e.2)

/-- **Entries under distinct texts make up the map they came from.** -/
theorem ofEntries_named (m : OrderedMap Value) : ofEntries (named m.entries) = named m.entries := by
  have hall := foldl_put_named .empty m.entries
  have hentries : (OrderedMap.ofList m.entries).entries = m.entries :=
    OrderedMap.entries_ofList m.nodup
  rw [ofEntries]
  exact hall.trans (congrArg named hentries)

theorem get?_named (k : String) (es : List (String × Value)) :
    get? k (named es) = es.lookup k := by
  induction es with
  | nil => rfl
  | cons e es ih =>
    rw [named_cons, get?, List.find?_cons, sameKey_text, lookup_cons]
    by_cases hk : k = e.1
    · simp [hk]
    · rw [beq_eq_false_iff_ne.mpr (Ne.symm hk), if_neg hk, ← ih]
      rfl

end PayloadTypes.Value
