import PayloadTypes.Text.Blank
import PayloadTypes.Text.Cut
/-!
# Patterns of paths

A pattern of paths is a regular expression over characters, read from the
notation of ignore files. A whole path matches when what is left of the
expression after all its characters accepts the empty text.
-/

namespace PayloadTypes.Files

/-- A set of characters. -/
inductive CharSet where
  /-- One character. -/
  | one (c : Char)
  /-- Any character. -/
  | any
  /-- Any character within a line. -/
  | inLine
  /-- Any character but the separator of segments. -/
  | inSegment
  /-- The characters of some ranges, or all others. -/
  | ranges (negated : Bool) (rs : List (Char × Char))
deriving DecidableEq, Repr

/-- The set holds a character. -/
def CharSet.holds (s : CharSet) (c : Char) : Bool :=
  match s with
  | .one d => c == d
  | .any => true
  | .inLine => c != '\n'
  | .inSegment => c != '/'
  | .ranges negated rs => (rs.any fun r => r.1 ≤ c && c ≤ r.2) != negated

/-- A regular expression. -/
inductive Glob where
  /-- It matches nothing. -/
  | never
  /-- It matches the empty text. -/
  | empty
  /-- It matches one character. -/
  | char (s : CharSet)
  /-- It matches one expression and then another. -/
  | seq (a b : Glob)
  /-- It matches what either expression matches. -/
  | either (a b : Glob)
  /-- It matches an expression any number of times. -/
  | many (a : Glob)
deriving DecidableEq, Repr

namespace Glob

/-- One expression and then another. -/
def andThen (a b : Glob) : Glob :=
  match a, b with
  | .never, _ => .never
  | _, .never => .never
  | .empty, b => b
  | a, .empty => a
  | a, b => .seq a b

/-- Either of two expressions. -/
def orElse (a b : Glob) : Glob :=
  match a, b with
  | .never, b => b
  | a, .never => a
  | a, b => if a = b then a else .either a b

/-- The expression accepts the empty text. -/
def acceptsEmpty : Glob → Bool
  | .never => false
  | .empty => true
  | .char _ => false
  | .seq a b => a.acceptsEmpty && b.acceptsEmpty
  | .either a b => a.acceptsEmpty || b.acceptsEmpty
  | .many _ => true

/-- What is left of an expression behind a character. -/
def after (c : Char) : Glob → Glob
  | .never => .never
  | .empty => .never
  | .char s => if s.holds c then .empty else .never
  | .seq a b =>
    -- where the first part accepts the empty text, the character may be the first of the second one
    if a.acceptsEmpty then ((a.after c).andThen b).orElse (b.after c) else (a.after c).andThen b
  | .either a b => (a.after c).orElse (b.after c)
  | .many a => (a.after c).andThen (.many a)

/-- The expression matches a whole text. -/
def accepts (g : Glob) (s : List Char) : Bool := (s.foldl (fun g c => g.after c) g).acceptsEmpty

/-- The expression once or not at all. -/
def maybe (a : Glob) : Glob := .either .empty a

/-- Some expressions one after the other. -/
def inRow (gs : List Glob) : Glob := gs.foldr andThen .empty

/-- A slash. -/
def slash : Glob := .char (.one '/')

/-- Any text at all. -/
def anything : Glob := .many (.char .any)

/-- Any text within a line that is not empty. -/
def someText : Glob := .seq (.char .inLine) (.many (.char .inLine))

/-- A segment that is not empty. -/
def someSegment : Glob := .seq (.char .inSegment) (.many (.char .inSegment))

/-- The end of a path, a last line end before it not counting. -/
def pathEnd : Glob := .maybe (.char (.one '\n'))

/-- Any text that holds such a character. -/
def holding (s : CharSet) : Glob := inRow [anything, .char s, anything]

end Glob

/-- Why a pattern cannot be read. -/
inductive GlobFault where
  /-- It escapes nothing. -/
  | danglingEscape
  /-- It has no segments. -/
  | noSegments
  /-- A range of characters goes backwards. -/
  | badRange
deriving DecidableEq, Repr

/-- The ranges that the inside of brackets lists. -/
def classRanges : List Char → Except GlobFault (List (Char × Char))
  | [] => .ok []
  | [a] => .ok [(a, a)]
  | [a, b] => .ok [(a, a), (b, b)]
  | a :: b :: c :: s =>
    -- a dash between two characters makes a range, first and last in the brackets it is itself
    if b = '-' then
      if c < a then .error .badRange else (classRanges s).map ((a, c) :: ·)
    else (classRanges (b :: c :: s)).map ((a, a) :: ·)

/-- The inside of brackets, from behind the opening one, and what is left behind the closing one. A
closing bracket that comes first stands for itself. -/
def cutClass? (s : List Char) : Option (List Char × List Char) :=
  match s with
  | [] => none
  | c :: r => (Text.cut? ']' r).map fun p => (c :: p.1, p.2)

/-- The set of characters in brackets, from behind the opening one. -/
def bracketed? (s : List Char) : Option (Bool × List Char × List Char) :=
  match s with
  | [] => none
  | c :: r =>
    if c = '!' ∨ c = '^' then (cutClass? r).map fun p => (true, p)
    else (cutClass? s).map fun p => (false, p)

/-- The expression of a segment, `skip` characters of it being read already. -/
def segmentFrom (skip : Nat) : List Char → Except GlobFault Glob
  | [] => .ok .empty
  | c :: s =>
    match skip with
    | n + 1 => segmentFrom n s
    | 0 =>
      if c = '\\' then
        match s with
        | [] => .error .danglingEscape
        | d :: _ => (segmentFrom 1 s).map (Glob.andThen (.char (.one d)))
      else if c = '*' then (segmentFrom 0 s).map (Glob.andThen (.many (.char .inSegment)))
      else if c = '?' then (segmentFrom 0 s).map (Glob.andThen (.char .inSegment))
      else if c = '[' then
        match bracketed? s with
        | some (negated, inside, rest) =>
          match classRanges inside, segmentFrom (s.length - rest.length) s with
          | .ok rs, .ok g => .ok (Glob.andThen (.char (.ranges negated rs)) g)
          | .error e, _ => .error e
          | _, .error e => .error e
        -- a bracket that is not closed stands for itself
        | none => (segmentFrom 0 s).map (Glob.andThen (.char (.one c)))
      else (segmentFrom 0 s).map (Glob.andThen (.char (.one c)))

/-- What a segment of a pattern stands for. -/
inductive GlobSegment where
  /-- Any number of segments. -/
  | deep
  /-- Any one segment. -/
  | whole
  /-- One segment like this. -/
  | single (g : Glob)

/-- A segment of a pattern. -/
def GlobSegment.read (s : List Char) : Except GlobFault GlobSegment :=
  if s = ['*', '*'] then .ok .deep
  else if s = ['*'] then .ok .whole
  else (segmentFrom 0 s).map .single

/-- The expression of one segment by itself. -/
def GlobSegment.own : GlobSegment → Glob
  | .deep => Glob.someText
  | .whole => Glob.someSegment
  | .single g => g

/-- What may stand behind the last segment of a pattern: a lone star names no more than one segment
deep, every other segment names all that lies below as well. -/
def GlobSegment.ending : GlobSegment → Glob
  | .whole => Glob.andThen (.maybe Glob.slash) Glob.pathEnd
  | _ => .either (.seq Glob.slash Glob.anything) Glob.pathEnd

/-- The expression of the segments behind the first one. -/
def laterSegments : List GlobSegment → Glob
  | [] => .empty
  | [.deep] => .seq Glob.slash Glob.anything
  | .deep :: more => Glob.andThen (.maybe (.seq Glob.slash Glob.someText)) (laterSegments more)
  | [g] => Glob.inRow [Glob.slash, g.own, g.ending]
  | g :: more => Glob.inRow [Glob.slash, g.own, laterSegments more]

/-- The expression of the segments behind a leading double star, and of all where there is none: no
slash stands in front of the first of them. -/
def foremostSegments : List GlobSegment → Glob
  | [] => .empty
  | .deep :: more => laterSegments (.deep :: more)
  | [g] => Glob.andThen g.own g.ending
  | g :: more => Glob.andThen g.own (laterSegments more)

/-- The expression of the segments of a pattern that ends in a slash or not. Where they ask for
nothing but some depth, a path of any length or of some depth is enough. -/
def segmentsGlob (ofDirectory : Bool) : List GlobSegment → Glob
  | [.deep] => if ofDirectory then Glob.holding (.one '/') else Glob.holding .inLine
  | [.deep, .whole] => Glob.holding .inLine
  | [.deep, .whole, .deep] => Glob.holding (.one '/')
  | .deep :: more =>
    Glob.andThen (.maybe (Glob.andThen Glob.someText Glob.slash)) (foremostSegments more)
  | segments => foremostSegments segments

/-- The segments without those that repeat a double star. -/
def withoutRepeats : List (List Char) → List (List Char)
  | [] => []
  | [p] => [p]
  | p :: q :: ps =>
    if p = ['*', '*'] ∧ q = ['*', '*'] then withoutRepeats (q :: ps)
    else p :: withoutRepeats (q :: ps)

/-- The segments of a pattern as it is to be matched from the root on: a name alone stands at any
depth. -/
def rootedSegments (segments : List (List Char)) : List (List Char) :=
  match segments with
  | [] :: rest => rest
  | [p] => if p = ['*', '*'] then [p] else [['*', '*'], p]
  | [p, []] => if p = ['*', '*'] then [p, []] else [['*', '*'], p, []]
  | segments => segments

/-- The segments of a pattern that ends in a slash: what lies below counts. -/
def withDescendants (segments : List (List Char)) : List (List Char) :=
  if segments.getLast? = some [] then segments.dropLast ++ [['*', '*']] else segments

/-- The expression of a pattern. A slash alone is a pattern of all paths, not of directories. -/
def globOf (pattern : List Char) : Except GlobFault Glob :=
  let segments := Text.splitOn '/' pattern
  let ofDirectory := segments.getLast? = some [] && pattern ≠ ['/']
  match withoutRepeats (withDescendants (rootedSegments segments)) with
  | [] => .error .noSegments
  | segments => (segments.mapM GlobSegment.read).map (segmentsGlob ofDirectory)

/-- A line of an ignore file. -/
structure IgnorePattern where
  /-- What matches is taken in, not out. -/
  takes : Bool
  /-- What the line tells. -/
  glob : Glob

/-- The pattern of a line; blank lines and comments have none. -/
def IgnorePattern.read (line : List Char) : Except GlobFault (Option IgnorePattern) :=
  let line := if Text.endsWith ['\\', ' '] line then line else Text.trimEnd line
  match line with
  | [] => .ok none
  | '#' :: _ => .ok none
  | '!' :: rest => (globOf rest).map fun g => some ⟨false, g⟩
  | line => (globOf line).map fun g => some ⟨true, g⟩

/-- The patterns of some lines. -/
def ignorePatterns (lines : List (List Char)) : Except GlobFault (List IgnorePattern) :=
  (lines.mapM IgnorePattern.read).map (·.filterMap id)

/-- The last pattern that matches a path takes it in. -/
def matchesPath (patterns : List IgnorePattern) (path : List Char) : Bool :=
  match patterns.reverse.find? fun p => p.glob.accepts path with
  | some p => p.takes
  | none => false

end PayloadTypes.Files
