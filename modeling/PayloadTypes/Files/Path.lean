import PayloadTypes.Text.Cut
/-!
# Paths

A path is a row of segments, from the root or from where one stands. Empty
segments and single dots are left out when a path is read; a double dot
stays, since what it leads to depends on the tree. Exactly two slashes in
front of a path stay two, though they lead to the root as well.
-/

namespace PayloadTypes.Files

/-- Where a path starts. -/
inductive PathStart where
  /-- Where one stands. -/
  | here
  /-- The root. -/
  | root
  /-- The root, written with two slashes. -/
  | doubleSlash
deriving DecidableEq, Repr

/-- The text in front of the first segment of a path. -/
def PathStart.text : PathStart → String
  | .here => ""
  | .root => "/"
  | .doubleSlash => "//"

/-- The start of the path that a text writes. -/
def PathStart.ofText (s : List Char) : PathStart :=
  match s with
  | ['/', '/'] => .doubleSlash
  | '/' :: '/' :: c :: _ => if c = '/' then .root else .doubleSlash
  | '/' :: _ => .root
  | _ => .here

/-- A path. -/
structure Path where
  /-- Where it starts. -/
  start : PathStart
  /-- Its segments. -/
  segments : List String
deriving DecidableEq, Repr

namespace Path

/-- The path that a text writes. -/
def ofText (s : String) : Path :=
  ⟨.ofText s.toList,
    (((Text.splitOn '/' s.toList).map String.ofList).filter fun p => p != "" && p != ".")⟩

/-- The path leads on from the root. -/
def isAbsolute (p : Path) : Bool := p.start != .here

/-- The text of a path. -/
def text (p : Path) : String :=
  let t := p.start.text ++ "/".intercalate p.segments
  if t = "" then "." else t

/-- The path `q` from the place `p`. -/
def join (p q : Path) : Path :=
  if q.isAbsolute then q else { p with segments := p.segments ++ q.segments }

/-- The path one segment further. -/
def child (p : Path) (name : String) : Path := { p with segments := p.segments ++ [name] }

/-- The path without its last segment. -/
def parent (p : Path) : Path := { p with segments := p.segments.dropLast }

/-- The prefixes of a path that hold a segment, shortest first. -/
def prefixes (p : Path) : List Path :=
  (List.range p.segments.length).map fun n => { p with segments := p.segments.take (n + 1) }

/-- The last segment of a path. -/
def name (p : Path) : String := p.segments.getLast?.getD ""

/-- What follows the last point in the name, unless the name starts or ends with that point. -/
def extension (p : Path) : String :=
  match Text.cutLast? ['.'] p.name.toList with
  | some (stem, ext) => if stem.isEmpty || ext.isEmpty then "" else String.ofList ext
  | none => ""

end Path

end PayloadTypes.Files
