import PayloadTypes.Project.Basic
import PayloadTypes.Source.ClassDecl
import PayloadTypes.Source.Member
import PayloadTypes.Symbols
/-!
# Tables of classes

The classes of all sources under their full names, each with the file it
comes from. From class to class the parents lead up; the way ends at a class
that is not in the table or where it would come to a class again. What a
class is follows from the class of the framework that it reaches.
-/

namespace PayloadTypes

open Source (ClassDecl)

/-- A class and the file it comes from. -/
structure ClassEntry where
  /-- The class. -/
  decl : ClassDecl
  /-- The file. -/
  path : String

/-- Classes under their full names. -/
abbrev ClassTable := OrderedMap ClassEntry

/-- The classes of the framework that tell what a class is. -/
def baseClasses : List (String × DeclKind) := [
  ("Illuminate\\Foundation\\Http\\FormRequest", .request),
  ("Illuminate\\Http\\Resources\\Json\\ResourceCollection", .collection),
  ("Illuminate\\Http\\Resources\\Json\\AnonymousResourceCollection", .collection),
  ("Illuminate\\Http\\Resources\\Json\\JsonResource", .resource),
  ("Spatie\\Enum\\Enum", .enum),
  ("Spatie\\Enum\\Laravel\\Enum", .enum),
  ("Spatie\\LaravelData\\Data", .data),
  ("Spatie\\LaravelData\\Dto", .data)]

/-- The kind that a class of the framework stands for. -/
def baseKind? (name : String) : Option DeclKind := baseClasses.lookup name

/-- The kind that a name stands for when its namespace is not known. -/
def shortBaseKind? (name : String) : Option DeclKind :=
  (baseClasses.find? fun b => shortName b.1 == shortName name).map Prod.snd

theorem mem_keys_of_lookup {α : Type} {k : String} {v : α} {es : List (String × α)}
    (h : es.lookup k = some v) : k ∈ es.map Prod.fst := by
  obtain ⟨before, after, rfl, -⟩ := List.lookup_eq_some_iff.mp h
  simp

namespace ClassTable

/-- How many names of the table are not among those seen. -/
def unseen (t : ClassTable) (seen : List String) : Nat :=
  (t.keys.filter fun k => !seen.contains k).length

theorem unseen_cons_lt {t : ClassTable} {seen : List String} {name : String} {c : ClassEntry}
    (hn : seen.contains name = false) (hc : t.get? name = some c) :
    t.unseen (name :: seen) < t.unseen seen := by
  have h : t.keys.filter (fun k => !(name :: seen).contains k) =
      (t.keys.filter fun k => !seen.contains k).filter fun k => !(k == name) := by
    rw [List.filter_filter]
    refine List.filter_congr fun k _ => ?_
    rw [List.contains_cons, Bool.not_or]
  rw [unseen, unseen, h, List.length_filter_lt_length_iff_exists]
  exact ⟨name, List.mem_filter.mpr ⟨mem_keys_of_lookup hc, by rw [hn]; rfl⟩, by simp⟩

/-- The kind that the way up from a parent leads to. -/
def kindAbove (t : ClassTable) (seen : List String) (parent : Option String) : Option DeclKind :=
  match parent with
  | none | some "" => none
  | some name =>
    match _hs : seen.contains name with
    -- a ring of parents ends where it closes
    | true => none
    | false =>
      match baseKind? name with
      | some k => some k
      | none =>
        match _hc : t.get? name with
        | some c => t.kindAbove (name :: seen) c.decl.parent
        -- a class that is not in the table is known by its name alone
        | none => shortBaseKind? name
termination_by t.unseen seen
decreasing_by exact unseen_cons_lt _hs _hc

/-- What a class is, if it is anything that becomes a type. -/
def kind? (t : ClassTable) (c : ClassDecl) : Option DeclKind :=
  match c.kind with
  | .enumeration => some .enum
  | .ordinary => t.kindAbove [] c.parent
  | _ => none

/-- The classes on the way up from a parent, nearest first. -/
def above (t : ClassTable) (seen : List String) (parent : Option String) : List ClassDecl :=
  match parent with
  | none => []
  | some name =>
    match _hs : seen.contains name with
    | true => []
    | false =>
      match _hc : t.get? name with
      | some c => c.decl :: t.above (name :: seen) c.decl.parent
      | none => []
termination_by t.unseen seen
decreasing_by exact unseen_cons_lt _hs _hc

/-- A class and the classes above it, nearest first. -/
def lineage (t : ClassTable) (c : ClassDecl) : List ClassDecl :=
  c :: t.above [c.fullName] c.parent

/-- The source of a method, and the nearest class that has it with a body. -/
def method? (t : ClassTable) (c : ClassDecl) (name : String) : Option (List Char × ClassDecl) :=
  (t.lineage c).findSome? fun owner =>
    (Source.methodSource? owner.body.toList name).map fun s => (s, owner)

end ClassTable

end PayloadTypes
