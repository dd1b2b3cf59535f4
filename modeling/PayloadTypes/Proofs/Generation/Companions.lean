import PayloadTypes.Generation.Companion
import PayloadTypes.Proofs.Text.Escape
/-!
# Names of companions

The data object of a resource and the item of a collection have its name with
another ending. An ending is taken off by its length, and one that is empty takes
the whole name with it, so a base is kept just where the ending is not empty
(`companionNames_iff`). The item of a collection has the same name wherever it is
asked for.
-/

namespace PayloadTypes

open Response (Naming hasStem stem)

variable {b ending : String} {r : ResourceDecl} {c : CollectionDecl} {s : Settings}

/-! ## Endings -/

theorem stem_append (h : ending ≠ "") (b : String) : stem ending (b ++ ending) = b := by
  rw [stem, if_neg h, String.toList_append, List.length_append, Nat.add_sub_cancel,
    List.take_left, String.ofList_toList]

theorem append_eq_right_iff : b ++ ending = ending ↔ b = "" := by
  rw [← String.toList_inj, String.toList_append, List.append_left_eq_self, String.toList_eq_nil_iff]

theorem hasStem_append (hb : b ≠ "") (ending : String) : hasStem ending (b ++ ending) = true := by
  have hends : Text.endsWith ending.toList (b ++ ending).toList = true := by
    rw [String.toList_append]
    exact Text.endsWith_iff.mpr (List.suffix_append _ _)
  rw [hasStem, hends, Bool.true_and, bne_iff_ne, Ne, append_eq_right_iff]
  exact hb

/-- **Another ending keeps the base just where there was an ending to take off.** -/
theorem stem_append_append_iff (hb : b ≠ "") (ending other : String) :
    stem ending (b ++ ending) ++ other = b ++ other ↔ ending ≠ "" := by
  constructor
  · rintro h rfl
    rw [stem, if_pos rfl, String.empty_append] at h
    exact hb (append_eq_right_iff.mp h.symm)
  · intro h
    rw [stem_append h]

/-! ## Companions -/

theorem ResourceDecl.dataName?_eq (hb : b ≠ "") (hname : r.name = b ++ s.resourceSuffix)
    (hdata : filled? r.data = none) (hmixin : filled? r.mixin = none) :
    r.dataName? s = some (stem s.resourceSuffix (b ++ s.resourceSuffix) ++ s.dataSuffix) := by
  rw [dataName?, hdata, hmixin, hname, if_pos (hasStem_append hb _)]

theorem Response.Naming.collected_append (hb : b ≠ "") (n : Naming) :
    n.collected (b ++ n.collectionSuffix) =
      stem n.collectionSuffix (b ++ n.collectionSuffix) ++ n.resourceSuffix :=
  if_pos (hasStem_append hb _)

/-- What a collection holds has one name. -/
theorem CollectionDecl.itemType_eq (hb : b ≠ "") (hname : c.name = b ++ s.collectionSuffix)
    (hcollects : filled? c.collects = none) : c.itemType s = s.naming.collected c.name := by
  have hcollected := s.naming.collected_append hb
  rw [hname, itemType, hcollects, hname, if_pos (hasStem_append hb _)]
  exact hcollected.symm

/-- **Companions are named by the base exactly where the ending that is taken off is not empty**,
and the item of a collection has the same name as a declaration and in a response. -/
theorem companionNames_iff (hb : b ≠ "") (s : Settings) :
    (∀ r : ResourceDecl, r.name = b ++ s.resourceSuffix → filled? r.data = none →
      filled? r.mixin = none →
        (r.dataName? s = some (b ++ s.dataSuffix) ↔ s.resourceSuffix ≠ "")) ∧
    (∀ c : CollectionDecl, c.name = b ++ s.collectionSuffix → filled? c.collects = none →
      (c.itemType s = b ++ s.resourceSuffix ↔ s.collectionSuffix ≠ "") ∧
      c.itemType s = s.naming.collected (b ++ s.collectionSuffix)) ∧
    (s.naming.collected (b ++ s.collectionSuffix) = b ++ s.resourceSuffix ↔
      s.collectionSuffix ≠ "") := by
  have hcollected : s.naming.collected (b ++ s.collectionSuffix) = b ++ s.resourceSuffix ↔
      s.collectionSuffix ≠ "" := by
    have hname : s.naming.collected (b ++ s.collectionSuffix) =
        stem s.collectionSuffix (b ++ s.collectionSuffix) ++ s.resourceSuffix :=
      s.naming.collected_append hb
    rw [hname]
    exact stem_append_append_iff hb _ _
  refine ⟨fun r hname hdata hmixin => ?_, fun c hname hcollects => ?_, hcollected⟩
  · rw [ResourceDecl.dataName?_eq hb hname hdata hmixin, Option.some.injEq]
    exact stem_append_append_iff hb _ _
  · have hitem := CollectionDecl.itemType_eq hb hname hcollects
    rw [hname] at hitem
    exact ⟨by rw [hitem]; exact hcollected, hitem⟩

/-- Endings that are part of each other and of a base. -/
def overlappingEndings : Settings :=
  { Settings.standard with resourceSuffix := "Data", collectionSuffix := "aData" }

theorem companionNames_overlappingEndings :
    "Data" ≠ "" ∧
    (ResourceDecl.mk "DataData" "" (some "") none none).dataName? overlappingEndings =
      some "DataData" ∧
    (CollectionDecl.mk "DataaData" none none).itemType overlappingEndings = "DataData" ∧
    overlappingEndings.naming.collected "DataaData" = "DataData" := by
  have hb : "Data" ≠ "" := by decide
  obtain ⟨hdata, hitem, hcollected⟩ := companionNames_iff hb overlappingEndings
  exact ⟨hb, (hdata ⟨"DataData", "", some "", none, none⟩ rfl rfl rfl).mpr (by decide),
    (hitem ⟨"DataaData", none, none⟩ rfl rfl).1.mpr (by decide), hcollected.mpr (by decide)⟩

/-- Endings that are empty. -/
def emptyEndings : Settings :=
  { Settings.standard with resourceSuffix := "", collectionSuffix := "" }

/-- With an empty ending the whole name is lost. -/
theorem not_companionNames_emptyEndings :
    "User" ++ emptyEndings.resourceSuffix = "User" ∧
    "User" ++ emptyEndings.collectionSuffix = "User" ∧
    (ResourceDecl.mk "User" "" none none none).dataName? emptyEndings = some "Data" ∧
    some "Data" ≠ some ("User" ++ emptyEndings.dataSuffix) ∧
    (CollectionDecl.mk "User" none none).itemType emptyEndings = "" ∧
    emptyEndings.naming.collected "User" = "" ∧
    "" ≠ "User" ++ emptyEndings.resourceSuffix := by
  decide

end PayloadTypes
