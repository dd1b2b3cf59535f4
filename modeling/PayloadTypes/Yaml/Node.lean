import PayloadTypes.Yaml.PlainValue
/-!
# Nodes of YAML texts

A text is read into nodes before it is read into values, so what is wrong
with its form is told before what is wrong with a value. A map that takes
in other maps has their entries in front of its own.

Of several faults of values the one is told that is met first level by
level: what stands in an outer list or map comes before what stands in the
lists and maps within it. A key is read with all that is in it at once; no
list and no map is a key.
-/

namespace PayloadTypes.Yaml

/-- What a YAML text is read into. -/
inductive Node where
  /-- A scalar. -/
  | scalar (s : Scalar)
  /-- A list. -/
  | list (items : List Node)
  /-- A map. -/
  | map (entries : List (Node × Node))
  /-- A map that takes in what is no map. -/
  | badMerge

namespace Node

/-- The node of nothing. -/
def null : Node := .scalar (.value (.ok .null))

/-- The node of a scalar. -/
def ofScalar (plain : Bool) (s : String) : Node :=
  .scalar (if plain then .ofPlain s else .value (.ok (.text s)))

/-- The entries of a map. -/
def entries? : Node → Option (List (Node × Node))
  | .map es => some es
  | _ => none

/-- The entries that a map takes in: those of a map, or of the maps in a list, the last ones
first. -/
def takenIn? : Node → Option (List (Node × Node))
  | .list items => (items.reverse.mapM entries?).map List.flatten
  | n => n.entries?

/-- The key says that the map takes in another one. -/
def isMerge : Node → Bool
  | .scalar .merge => true
  | _ => false

/-- The map of its entries. -/
def ofEntries (es : List (Node × Node)) : Node :=
  match (es.filter fun e => e.1.isMerge).mapM fun e => e.2.takenIn? with
  | some taken => Node.map (taken.flatten ++ es.filter fun e => !e.1.isMerge)
  | none => badMerge

end Node

/-- The value that a scalar is. -/
def Scalar.read : Scalar → Except ReadFault Value
  | .value v => v
  | .merge => .error .malformed
  | .equals => .error .malformed

/-- The key that a scalar is. -/
def Scalar.readKey : Scalar → Except ReadFault Value
  | .equals => .ok (.text equalsSign)
  | s => s.read

namespace Node

mutual
/-- The first fault in a node, from front to back. -/
def fault? : Node → Option ReadFault
  | .scalar s =>
    match s.read with
    | .ok _ => none
    | .error f => some f
  | .list items => faultInItems? items
  | .map es => faultInEntries? es
  | .badMerge => some .malformed
/-- The first fault in the items of a list. -/
def faultInItems? : List Node → Option ReadFault
  | [] => none
  | n :: ns => n.fault?.orElse fun _ => faultInItems? ns
/-- The first fault in the entries of a map. -/
def faultInEntries? : List (Node × Node) → Option ReadFault
  | [] => none
  | (k, v) :: es =>
    match k with
    | .scalar s =>
      match s.readKey with
      | .ok _ => v.fault?.orElse fun _ => faultInEntries? es
      | .error f => some f
    | k => some (k.fault?.getD .malformed)
end

/-- The key that a node is. -/
def readKey : Node → Except ReadFault Value
  | .scalar s => s.readKey
  | k => .error (k.fault?.getD .malformed)

end Node

/-- A fault and the level it is met on. -/
structure Met where
  /-- How many lists and maps stand around it. -/
  level : Nat
  /-- The fault. -/
  fault : ReadFault

/-- The one of two faults that is met first. -/
def Met.first (a b : Met) : Met := if b.level < a.level then b else a

/-- Two results put together; of two faults the one that is met first stays. -/
def together {α β γ : Type} (f : α → β → γ) (a : Except Met α) (b : Except Met β) :
    Except Met γ :=
  match a, b with
  | .ok a, .ok b => .ok (f a b)
  | .error e, .ok _ => .error e
  | .ok _, .error e => .error e
  | .error e, .error e' => .error (e.first e')

namespace Node

mutual
/-- The value of a node that stands on a level. -/
def valueAt (level : Nat) : Node → Except Met Value
  | .scalar s => s.read.mapError (⟨level, ·⟩)
  | .list items => (itemsAt (level + 1) items).map .list
  | .map es => (entriesAt (level + 1) es).map fun es => .map (Value.ofEntries es)
  | .badMerge => .error ⟨level + 1, .malformed⟩
/-- The values of the items of a list. -/
def itemsAt (level : Nat) : List Node → Except Met (List Value)
  | [] => .ok []
  | n :: ns => together List.cons (n.valueAt level) (itemsAt level ns)
/-- The values of the entries of a map. -/
def entriesAt (level : Nat) : List (Node × Node) → Except Met (List (Value × Value))
  | [] => .ok []
  | (k, v) :: es =>
    let entry := together Prod.mk (k.readKey.mapError (⟨level, ·⟩)) (v.valueAt level)
    together List.cons entry (entriesAt level es)
end

/-- The value of a node. -/
def value (n : Node) : Except ReadFault Value := (n.valueAt 0).mapError Met.fault

end Node

end PayloadTypes.Yaml
