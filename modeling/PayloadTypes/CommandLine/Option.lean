/-!
# Options on a command line

An option has a long name and may have a short one, and it may take a
value. A long option has its value behind an equals sign or in the next
argument; short ones may stand together behind one dash. What is no option
is an operand, and behind two dashes everything is.
-/

namespace PayloadTypes.CommandLine

/-- An option that may be given. -/
structure OptionSpec where
  /-- Its long name. -/
  name : String
  /-- Its short name. -/
  short : Option Char
  /-- It takes a value. -/
  takesValue : Bool
deriving DecidableEq, Repr

/-- An option that is given. -/
structure Given where
  /-- Its long name. -/
  name : String
  /-- Its value. -/
  value : Option String
deriving DecidableEq, Repr

/-- What an argument is read as. -/
inductive Argument where
  /-- An operand. -/
  | operand
  /-- The end of the options. -/
  | endOfOptions
  /-- Options that are complete. -/
  | given (options : List Given)
  /-- Options, and the name of one whose value is the next argument. -/
  | pending (options : List Given) (name : String)
  /-- Options that cannot be read. -/
  | misuse
deriving DecidableEq, Repr

/-- Short options, from behind the dash. -/
def shortOptions (specs : List OptionSpec) : List Char → Argument
  | [] => .given []
  | c :: s =>
    match specs.find? fun o => o.short == some c with
    | none => .misuse
    | some o =>
      if o.takesValue then
        -- the rest of the row is the value, if there is a rest
        if s.isEmpty then .pending [] o.name else .given [⟨o.name, some (String.ofList s)⟩]
      else
        match shortOptions specs s with
        | .given gs => .given (⟨o.name, none⟩ :: gs)
        | .pending gs name => .pending (⟨o.name, none⟩ :: gs) name
        | a => a

/-- A long option, from behind the dashes. -/
def longOption (specs : List OptionSpec) (s : List Char) : Argument :=
  let name := String.ofList (s.takeWhile (· != '='))
  let value :=
    match s.dropWhile (· != '=') with
    | _ :: v => some (String.ofList v)
    | [] => none
  match specs.find? fun o => o.name == name with
  | none => .misuse
  | some o =>
    match o.takesValue, value with
    | true, some v => .given [⟨name, some v⟩]
    | true, none => .pending [] name
    | false, some _ => .misuse
    | false, none => .given [⟨name, none⟩]

/-- What an argument is, given the options there are. -/
def Argument.read (specs : List OptionSpec) (argument : String) : Argument :=
  match argument.toList with
  | ['-', '-'] => .endOfOptions
  | '-' :: '-' :: s => longOption specs s
  | '-' :: c :: s => shortOptions specs (c :: s)
  | _ => .operand

/-- A part of a command line, read. -/
structure Reading where
  /-- The options, in order. -/
  options : List Given
  /-- The operands, or all that is not read. -/
  rest : List String
deriving DecidableEq, Repr

/-- A reading with options in front. -/
def Reading.after (options : List Given) (r : Reading) : Reading :=
  { r with options := options ++ r.options }

/-- Options are read up to the first operand, or among the operands. -/
def readOptions (specs : List OptionSpec) (among : Bool) : List String → Option Reading
  | [] => some ⟨[], []⟩
  | a :: more =>
    match Argument.read specs a with
    | .operand =>
      if among then
        (readOptions specs among more).map fun r => { r with rest := a :: r.rest }
      else some ⟨[], a :: more⟩
    | .endOfOptions => some ⟨[], more⟩
    | .given gs => (readOptions specs among more).map (Reading.after gs)
    | .pending gs name =>
      -- the next argument is the value, whatever it looks like
      match more with
      | [] => none
      | v :: more => (readOptions specs among more).map (Reading.after (gs ++ [⟨name, some v⟩]))
    | .misuse => none

namespace Reading

/-- The option is given. -/
def has (r : Reading) (name : String) : Bool := r.options.any fun g => g.name == name

/-- The value that is given last for an option. -/
def value? (r : Reading) (name : String) : Option String :=
  (r.options.reverse.find? fun g => g.name == name).bind (·.value)

/-- Which of some options is given first. -/
def first? (r : Reading) (names : List String) : Option String :=
  (r.options.find? fun g => names.contains g.name).map (·.name)

end Reading

end PayloadTypes.CommandLine
