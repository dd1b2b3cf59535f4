import PayloadTypes.Yaml.Node
import PayloadTypes.Yaml.Token
/-!
# Reading YAML texts

The node of a row of tokens, and the value of the node. A text holds at most
one document, and none at all where it holds no token. Each token is reached
in a few steps, so four times the number of tokens bounds the depth of the
reading.
-/

namespace PayloadTypes.Yaml

/-- The token at the front is one of some. -/
def startsWith (ts : List Token) (stops : List Token) : Bool :=
  match ts with
  | [] => true
  | t :: _ => stops.contains t

/-- The fault of tokens that do not fit. -/
def refuse {α : Type} (ts : List Token) : Except ReadFault α :=
  match ts with
  | .fault f :: _ => .error f
  | _ => .error .malformed

/-- What is left of tokens behind the comma that has to stand there, unless it is the first time. -/
def behindComma (first : Bool) (ts : List Token) : Except ReadFault (List Token) :=
  if first then .ok ts
  else
    match ts with
    | .comma :: ts => .ok ts
    | ts => refuse ts

mutual
/-- A node; `block` where a block may open, `bare` where items need no block of their own. -/
def node (block bare : Bool) :
    (depth : Nat) → List Token → Except ReadFault (Node × List Token)
  | 0, _ => .error .malformed
  | n + 1, ts =>
    match ts with
    | .item :: _ => if bare then (bareItems n ts).map fun p => (.list p.1, p.2) else refuse ts
    | .scalar plain s :: ts => .ok (.ofScalar plain s, ts)
    | .openList :: ts => (flowItems true n ts).map fun p => (.list p.1, p.2)
    | .openMap :: ts => (flowEntries true n ts).map fun p => (.ofEntries p.1, p.2)
    | .listBlock :: ts' =>
      if block then (blockItems n ts').map fun p => (.list p.1, p.2) else refuse ts
    | .mapBlock :: ts' =>
      if block then (blockEntries n ts').map fun p => (.ofEntries p.1, p.2) else refuse ts
    | ts => refuse ts

/-- A node, or nothing in front of one of some tokens. -/
def nodeOr (stops : List Token) (block bare : Bool) :
    (depth : Nat) → List Token → Except ReadFault (Node × List Token)
  | 0, _ => .error .malformed
  | n + 1, ts => if startsWith ts stops then .ok (.null, ts) else node block bare n ts

/-- The items of a block, up to its end. -/
def blockItems : (depth : Nat) → List Token → Except ReadFault (List Node × List Token)
  | 0, _ => .error .malformed
  | n + 1, ts =>
    match ts with
    | .item :: ts => do
      let (v, ts) ← nodeOr [.item, .endBlock] true false n ts
      let (vs, ts) ← blockItems n ts
      return (v :: vs, ts)
    | .endBlock :: ts => .ok ([], ts)
    | ts => refuse ts

/-- The items that stand without a block of their own. -/
def bareItems : (depth : Nat) → List Token → Except ReadFault (List Node × List Token)
  | 0, _ => .error .malformed
  | n + 1, ts =>
    match ts with
    | .item :: ts => do
      let (v, ts) ← nodeOr [.item, .key, .value, .endBlock] true false n ts
      let (vs, ts) ← bareItems n ts
      return (v :: vs, ts)
    | ts => .ok ([], ts)

/-- The entries of a block, up to its end. -/
def blockEntries :
    (depth : Nat) → List Token → Except ReadFault (List (Node × Node) × List Token)
  | 0, _ => .error .malformed
  | n + 1, ts =>
    match ts with
    | .key :: ts => do
      let (k, ts) ← nodeOr [.key, .value, .endBlock] true true n ts
      let (v, ts) ←
        match ts with
        | .value :: ts => nodeOr [.key, .value, .endBlock] true true n ts
        | ts => .ok (.null, ts)
      let (es, ts) ← blockEntries n ts
      return ((k, v) :: es, ts)
    | .endBlock :: ts => .ok ([], ts)
    | ts => refuse ts

/-- The items of a list in brackets, up to its end; `first` behind the opening one. -/
def flowItems (first : Bool) :
    (depth : Nat) → List Token → Except ReadFault (List Node × List Token)
  | 0, _ => .error .malformed
  | n + 1, ts =>
    match ts with
    | .closeList :: ts => .ok ([], ts)
    | ts => do
      let ts ← behindComma first ts
      match ts with
      | .closeList :: ts => return ([], ts)
      | .key :: ts =>
        let (k, ts) ← nodeOr [.value, .comma, .closeList] false false n ts
        let (v, ts) ← flowValue [.comma, .closeList] n ts
        let (vs, ts) ← flowItems false n ts
        return (.ofEntries [(k, v)] :: vs, ts)
      | ts =>
        let (v, ts) ← node false false n ts
        let (vs, ts) ← flowItems false n ts
        return (v :: vs, ts)

/-- The node behind a key in brackets, or nothing. -/
def flowValue (stops : List Token) :
    (depth : Nat) → List Token → Except ReadFault (Node × List Token)
  | 0, _ => .error .malformed
  | n + 1, ts =>
    match ts with
    | .value :: ts => nodeOr stops false false n ts
    | ts => .ok (.null, ts)

/-- The entries of a map in braces, up to its end; `first` behind the opening one. -/
def flowEntries (first : Bool) :
    (depth : Nat) → List Token → Except ReadFault (List (Node × Node) × List Token)
  | 0, _ => .error .malformed
  | n + 1, ts =>
    match ts with
    | .closeMap :: ts => .ok ([], ts)
    | ts => do
      let ts ← behindComma first ts
      match ts with
      | .closeMap :: ts => return ([], ts)
      | .key :: ts =>
        let (k, ts) ← nodeOr [.value, .comma, .closeMap] false false n ts
        let (v, ts) ← flowValue [.comma, .closeMap] n ts
        let (es, ts) ← flowEntries false n ts
        return ((k, v) :: es, ts)
      | ts =>
        let (k, ts) ← node false false n ts
        let (es, ts) ← flowEntries false n ts
        return ((k, .null) :: es, ts)
end

/-- Nothing but ends of documents is left. -/
def finish (n : Node) (ts : List Token) : Except ReadFault Node :=
  match ts.dropWhile (· == .documentEnd) with
  | [] => .ok n
  | ts => refuse ts

/-- The node of the document in a row of tokens; nothing where there is no token. -/
def document (ts : List Token) : Except ReadFault Node :=
  let content := fun ts => do
    let (n, ts) ← nodeOr [.documentStart, .documentEnd] true false (4 * ts.length + 4) ts
    finish n ts
  match ts with
  | [] => .ok .null
  | .documentStart :: ts => content ts
  | .documentEnd :: _ => .error .malformed
  | ts => content ts

/-- The value that a YAML text holds. -/
def parse (s : List Char) : Except ReadFault Value := do
  let n ← document (tokens s)
  n.value

end PayloadTypes.Yaml
