import PayloadTypes.Json.Token
/-!
# Reading JSON texts

The value of a row of tokens is read with a stack of the lists and maps
that are still open. Of two entries of a map under one key the later one
wins, in the place of the first. The fault of a text is that of the first
token that does not fit.
-/

namespace PayloadTypes.Json

/-- A list or map that is still open; what it holds so far stands last to first. -/
inductive Frame where
  /-- A list. -/
  | list (items : List Value)
  /-- A map. -/
  | map (entries : List (Value × Value))
  /-- A map in which the value under a key is being read. -/
  | entry (entries : List (Value × Value)) (key : Value)

/-- What may come next. -/
inductive Phase where
  /-- A value. -/
  | value
  /-- A value, or the end of a list that holds nothing yet. -/
  | firstItem
  /-- A key. -/
  | key
  /-- A key, or the end of a map that holds nothing yet. -/
  | firstKey
  /-- A colon behind a key. -/
  | colon
  /-- What stands behind a whole value. -/
  | after (v : Value)

/-- The open lists and maps, innermost first, and what may come next. -/
abbrev State := List Frame × Phase

/-- A token where a value may start. -/
def startValue (frames : List Frame) : Token → Except ReadFault State
  | .scalar v => .ok (frames, .after v)
  | .openList => .ok (.list [] :: frames, .firstItem)
  | .openMap => .ok (.map [] :: frames, .firstKey)
  | .fault f => .error f
  | _ => .error .malformed

/-- A token where a key must stand. -/
def startKey (frames : List Frame) : Token → Except ReadFault State
  | .scalar (.text k) =>
    match frames with
    | .map entries :: outer => .ok (.entry entries (.text k) :: outer, .colon)
    | _ => .error .malformed
  | _ => .error .malformed

/-- The map of entries that stand last to first. -/
def mapOf (entries : List (Value × Value)) : Value := .map (Value.ofEntries entries.reverse)

/-- What a token makes of a state. -/
def step : State → Token → Except ReadFault State
  | (frames, .value), t => startValue frames t
  | (.list [] :: outer, .firstItem), .closeList => .ok (outer, .after (.list []))
  | (frames, .firstItem), t => startValue frames t
  | (frames, .key), t => startKey frames t
  | (.map [] :: outer, .firstKey), .closeMap => .ok (outer, .after (.map []))
  | (frames, .firstKey), t => startKey frames t
  | (frames, .colon), .colon => .ok (frames, .value)
  | (.list items :: outer, .after v), .comma => .ok (.list (v :: items) :: outer, .value)
  | (.list items :: outer, .after v), .closeList =>
    .ok (outer, .after (.list (v :: items).reverse))
  | (.entry entries k :: outer, .after v), .comma => .ok (.map ((k, v) :: entries) :: outer, .key)
  | (.entry entries k :: outer, .after v), .closeMap =>
    .ok (outer, .after (mapOf ((k, v) :: entries)))
  | _, _ => .error .malformed

/-- The state after a row of tokens. -/
def run (st : State) (ts : List Token) : Except ReadFault State := ts.foldlM step st

/-- The value of a row of tokens. -/
def ofTokens (ts : List Token) : Except ReadFault Value := do
  match ← run ([], .value) ts with
  | ([], .after v) => return v
  | _ => .error .malformed

/-- The value that a JSON text holds. -/
def parse (s : List Char) : Except ReadFault Value := ofTokens (tokens s)

end PayloadTypes.Json
