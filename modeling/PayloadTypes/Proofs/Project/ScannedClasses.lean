import PayloadTypes.Proofs.Data.OrderedMap
import PayloadTypes.Proofs.Project.Keyed
import PayloadTypes.Proofs.Text.Matches
/-!
# Tables of scanned classes

A class that is read from a source has a name, and a table holds it under its
full name. So every table that sources fill is scanned (`scanned_ofFiles`), and
in it the name under which a class is found is its own.
-/

namespace PayloadTypes

open Source (ClassDecl)
open Text.Reader

variable {t : ClassTable} {c : ClassEntry} {name : String}

/-! ## Names of classes -/

namespace Source

theorem name_ne_empty_of_classHeader {s rest : List Char} {header : ClassHeader}
    (h : classHeader s = some (header, rest)) : header.name ≠ "" := by
  -- indentation, modifiers, keyword and blanks stand in front of the name
  obtain ⟨_, s₁, -, h⟩ := bind_eq_some_iff.mp h
  obtain ⟨_, s₂, -, h⟩ := bind_eq_some_iff.mp h
  obtain ⟨_, s₃, -, h⟩ := bind_eq_some_iff.mp h
  obtain ⟨_, s₄, -, h⟩ := bind_eq_some_iff.mp h
  obtain ⟨name, s₅, hname, h⟩ := bind_eq_some_iff.mp h
  -- and a type of values, a parent, interfaces, blanks and a brace behind it
  obtain ⟨_, s₆, -, h⟩ := bind_eq_some_iff.mp h
  obtain ⟨_, s₇, -, h⟩ := bind_eq_some_iff.mp h
  obtain ⟨_, s₈, -, h⟩ := bind_eq_some_iff.mp h
  obtain ⟨_, s₉, -, h⟩ := bind_eq_some_iff.mp h
  obtain ⟨_, s₁₀, -, h⟩ := bind_eq_some_iff.mp h
  cases h
  obtain ⟨c, w, rfl, -⟩ := isIdentifier_of_identifier hname
  intro hempty
  exact absurd (String.ofList_eq_empty_iff.mp hempty) (List.cons_ne_nil c w)

/-- **Every class of a source has a name.** -/
theorem name_ne_empty_of_mem_classes {source : List Char} {c : ClassDecl}
    (h : c ∈ classes source) : c.name ≠ "" := by
  obtain ⟨f, hf, hc⟩ := List.mem_filterMap.mp h
  obtain ⟨p, -, rfl⟩ := Option.map_eq_some_iff.mp hc
  obtain ⟨u, -, hread⟩ := of_mem_findEach hf
  exact name_ne_empty_of_classHeader (lineStart_eq_some_iff.mp hread).2

theorem ClassDecl.fullName_ne_empty {c : ClassDecl} (h : c.name ≠ "") : c.fullName ≠ "" := by
  rw [ClassDecl.fullName]
  split
  · exact h
  · intro hempty
    have hchars := congrArg String.toList hempty
    simp at hchars

end Source

/-! ## Tables -/

namespace ClassTable

/-- Every class stands under its full name, and has a name. -/
structure Scanned (t : ClassTable) : Prop where
  /-- A class stands under its full name. -/
  keyed : t.Keyed fun c => c.decl.fullName
  /-- A class has a name. -/
  named : ∀ e ∈ t.entries, e.2.decl.name ≠ ""

namespace Scanned

theorem fullName_eq (ht : t.Scanned) (hc : t.get? name = some c) : c.decl.fullName = name :=
  ht.keyed (name, c) (OrderedMap.get?_eq_some_iff.mp hc)

theorem ne_empty (ht : t.Scanned) (hc : t.get? name = some c) : name ≠ "" := by
  rw [← ht.fullName_eq hc]
  exact ClassDecl.fullName_ne_empty (ht.named (name, c) (OrderedMap.get?_eq_some_iff.mp hc))

theorem insert (ht : t.Scanned) (hc : c.decl.name ≠ "") :
    ClassTable.Scanned (OrderedMap.insert t c.decl.fullName c) where
  keyed := ht.keyed.insert rfl
  named e he := by
    rcases OrderedMap.eq_or_mem_of_mem_putEntry he with rfl | he
    · exact hc
    · exact ht.named e he

end Scanned

theorem scanned_empty : Scanned OrderedMap.empty where
  keyed := OrderedMap.keyed_empty
  named _ he := absurd he List.not_mem_nil

theorem Scanned.addSource (ht : t.Scanned) (path source : String) :
    (t.addSource path source).Scanned :=
  List.foldlRecOn _ _ ht fun _ hacc d hd =>
    hacc.insert (c := ⟨d, path⟩) (Source.name_ne_empty_of_mem_classes hd)

/-- **The classes of files make up a scanned table**, whatever the files. -/
theorem scanned_ofFiles (tree : Files.FileTree) (paths : List Files.Path) :
    (ofFiles tree paths).1.Scanned := by
  refine List.foldlRecOn (motive := fun acc : ClassTable × List Notice => acc.1.Scanned) _ _
    scanned_empty fun acc hacc p _ => ?_
  cases tree.readText p with
  | ok source => exact hacc.addSource p.text source
  | error e => exact hacc

/-- A class of one namespace. -/
def appClass (name : String) (parent : Option String) (body : String) : ClassDecl where
  name := name
  kind := .ordinary
  scope := ⟨"App", .empty⟩
  parent := parent
  docblock := ""
  body := body
  abstract := false

end ClassTable

end PayloadTypes
