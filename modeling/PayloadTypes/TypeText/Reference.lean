import PayloadTypes.TypeText.Scan
import PayloadTypes.Text.Word
/-!
# References

A type refers to another one by a word that starts with a capital letter.
Quoted texts and the names that every file knows are no references. A type
is vague when there is none, or when it mentions one of the words that
leave it open.
-/

namespace PayloadTypes.TypeText

/-- Names that need no declaration. -/
def builtinNames : List String := ["Array", "Record", "File", "Partial", "Readonly", "ApiResponse"]

/-- The type is missing, or mentions `unknown` or `any`. -/
def isVague : Option String → Bool
  | none => true
  | some t =>
    t.isEmpty || (Text.words t.toList).any fun w => w == "unknown".toList || w == "any".toList

/-- A word of ASCII letters, digits and underscores that starts with a capital letter. -/
def isTypeName (w : List Char) : Bool :=
  w.all Text.isIdentChar && (w.head?.map Char.isUpper).getD false

/-- The names of types that a type refers to, each once, in order. -/
def references (t : String) : List String :=
  ((((Text.words (withoutQuoted t.toList)).filter isTypeName).map String.ofList).filter
    fun n => !builtinNames.contains n).eraseDups

end PayloadTypes.TypeText
