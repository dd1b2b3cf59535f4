import PayloadTypes.Text.Case
import PayloadTypes.Text.Word
import PayloadTypes.TypeText.Length
/-!
# Shapes of declared types

A declared type that is no union is a type in parentheses, an array, a
generic type, or a name. The part of it in which other types stand is
shorter than the type itself.
-/

namespace PayloadTypes.Source

open TypeText (splitTopLevel)

/-- The generic types that are lists. -/
def listNames : List String :=
  ["array", "list", "iterable", "non-empty-array", "non-empty-list", "collection"]

/-- How a type that is no union is put together. -/
inductive TypeShape where
  /-- A type in parentheses. -/
  | grouped (inner : List Char)
  /-- An array of a type. -/
  | array (item : List Char)
  /-- A list of a type, with or without the type of its keys. -/
  | list (key : Option (List Char)) (value : List Char)
  /-- Any other generic type. -/
  | generic
  /-- A keyword or a class. -/
  | name
deriving DecidableEq, Repr

/-- A character of the name of a generic type. -/
def isGenericChar (c : Char) : Bool := Text.isIdentChar c || c == '\\' || c == '-'

/-- The name and the arguments of a generic type. -/
def generic? (s : List Char) : Option (List Char × List Char) :=
  match s.takeWhile isGenericChar, Text.trimStart (s.dropWhile isGenericChar) with
  | c :: base, '<' :: rest => (Text.before? ['>'] rest).map fun args => (c :: base, args)
  | _, _ => none

/-- The arguments of a generic type. -/
def genericArguments (args : List Char) : List (List Char) :=
  ((splitTopLevel ',' args).map Text.trim).filter fun a => !a.isEmpty

/-- The shape of a generic type. -/
def genericShape (base args : List Char) : TypeShape :=
  if listNames.contains (String.ofList (Text.lower (Text.lastPiece '\\' base))) then
    match genericArguments args with
    | [] => .generic
    | [value] => .list none value
    | key :: value :: more => .list (some key) ((value :: more).getLast (by simp))
  else .generic

/-- What a text in parentheses has between them. -/
def grouped? (s : List Char) : Option (List Char) :=
  (Text.after? ['('] s).bind (Text.before? [')'])

/-- The shape of a trimmed type that is no union. -/
def shape (s : List Char) : TypeShape :=
  -- parentheses around the whole come off before brackets and arguments are looked at
  match grouped? s with
  | some inner => .grouped inner
  | none =>
    match Text.before? ['[', ']'] s with
    | some item => .array item
    | none =>
      match generic? s with
      | some (base, args) => genericShape base args
      | none => .name

/-- The part of a type in which others are converted. -/
def TypeShape.inner? : TypeShape → Option (List Char)
  | .grouped inner => some inner
  | .array item => some item
  | .list _ value => some value
  | _ => none

theorem length_generic? {s base args : List Char} (h : generic? s = some (base, args)) :
    args.length < s.length := by
  unfold generic? at h
  split at h
  · next c b rest _ hd =>
    obtain ⟨a, ha, hab⟩ := Option.map_eq_some_iff.mp h
    obtain ⟨-, rfl⟩ := Prod.mk.inj hab
    have h1 : ('<' :: rest).length ≤ s.length := by
      rw [← hd]
      exact Nat.le_trans (List.dropWhile_suffix _).length_le (List.dropWhile_suffix _).length_le
    have h2 := congrArg List.length (Text.before?_eq_some ha)
    simp only [List.length_append, List.length_cons, List.length_nil] at h1 h2
    omega
  · cases h

theorem length_genericArguments {args a : List Char} (h : a ∈ genericArguments args) :
    a.length ≤ args.length := by
  simp only [genericArguments, List.mem_filter, List.mem_map] at h
  obtain ⟨⟨p, hp, rfl⟩, -⟩ := h
  exact Nat.le_trans (Text.length_trim_le p) (TypeText.length_le_of_mem_splitTopLevel hp)

theorem length_genericShape {base args i : List Char}
    (h : (genericShape base args).inner? = some i) : i.length ≤ args.length := by
  unfold genericShape at h
  split at h
  · split at h
    · cases h
    · next v hv =>
      cases h
      exact length_genericArguments (by simp [hv])
    · next k v more hv =>
      cases h
      exact length_genericArguments (by
        rw [hv]
        exact List.mem_cons_of_mem _ (List.getLast_mem _))
  · cases h

/-- The inner part of a shape is shorter than the type. -/
theorem length_inner?_shape {s i : List Char} (h : (shape s).inner? = some i) :
    i.length < s.length := by
  unfold shape at h
  split at h
  · next inner hg =>
    cases h
    obtain ⟨r, hr, hb⟩ := Option.bind_eq_some_iff.mp hg
    have h1 := congrArg List.length (Text.after?_eq_some hr)
    have h2 := congrArg List.length (Text.before?_eq_some hb)
    simp only [List.length_append, List.length_cons, List.length_nil] at h1 h2
    omega
  · split at h
    · next item hb =>
      cases h
      have := congrArg List.length (Text.before?_eq_some hb)
      simp only [List.length_append, List.length_cons, List.length_nil] at this
      omega
    · split at h
      · next base args hg =>
        exact Nat.lt_of_le_of_lt (length_genericShape h) (length_generic? hg)
      · cases h

end PayloadTypes.Source
