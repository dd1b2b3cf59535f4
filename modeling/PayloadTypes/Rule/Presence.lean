import PayloadTypes.Rule.Token
/-!
# Presence

Whether a field must be there, whether it may be null, and whether it is to
be repeated for confirmation, read off the names of its tokens.
-/

namespace PayloadTypes.Rule

/-- The field must be there: `sometimes` overrides `required` and `present`. -/
def isRequired (ts : List Rule) : Bool :=
  let ns := names ts
  !ns.contains "sometimes" && (ns.contains "required" || ns.contains "present")

/-- The field may be null. -/
def isNullable (ts : List Rule) : Bool := (names ts).contains "nullable"

/-- The field may be left out: it is checked only sometimes or not required. -/
def isOptional (required : Bool) (ts : List Rule) : Bool :=
  (names ts).contains "sometimes" || !required

/-- The field is to be repeated under a second name. -/
def isConfirmed (ts : List Rule) : Bool := (names ts).contains "confirmed"

/-- Whether a field must be there and may be null. -/
structure Presence where
  /-- It must be there. -/
  required : Bool
  /-- It may be null. -/
  nullable : Bool
deriving DecidableEq, Repr

/-- The presence that tokens ask for. -/
def presence (ts : List Rule) : Presence := ⟨isRequired ts, isNullable ts⟩

/-- The field may be left out. -/
def Presence.optional (p : Presence) : Bool := !p.required

end PayloadTypes.Rule
