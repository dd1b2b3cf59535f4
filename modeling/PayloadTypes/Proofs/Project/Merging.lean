import PayloadTypes.Project.Basic
import PayloadTypes.Proofs.Data.OrderedMap
/-!
# Projects put over one another

Merging works section by section, so its laws are those of ordered maps: any two
of three projects may be merged first, the project of which nothing is known
changes nothing, and a project put over itself stays what it is. In each section
the later project hides what the earlier one has under its keys, whose places it
leaves as they are (`mergeLaws`).
-/

namespace PayloadTypes.Project

/-- The laws of projects that are put over one another. -/
structure MergeLaws (a b c : Project) : Prop where
  /-- Any two neighbours may be merged first. -/
  assoc : a.merge (b.merge c) = (a.merge b).merge c
  /-- A project put over nothing stays what it is. -/
  empty_merge : empty.merge a = a
  /-- So does a project with nothing put over it. -/
  merge_empty : a.merge empty = a
  /-- And a project put over itself. -/
  merge_self : a.merge a = a
  /-- The requests of `b` are put over those of `a`. -/
  requests : a.requests.IsOverlay b.requests (a.merge b).requests
  /-- The resources are. -/
  resources : a.resources.IsOverlay b.resources (a.merge b).resources
  /-- The collections are. -/
  collections : a.collections.IsOverlay b.collections (a.merge b).collections
  /-- The data objects are. -/
  data : a.data.IsOverlay b.data (a.merge b).data
  /-- The enums are. -/
  enums : a.enums.IsOverlay b.enums (a.merge b).enums

/-- **Projects are merged like ordered maps**, in every section. -/
theorem mergeLaws (a b c : Project) : MergeLaws a b c where
  assoc := by simp only [merge, OrderedMap.merge_assoc]
  empty_merge := by simp only [merge, empty, OrderedMap.empty_merge]
  merge_empty := by simp only [merge, empty, OrderedMap.merge_empty]
  merge_self := by simp only [merge, OrderedMap.merge_self]
  requests := OrderedMap.isOverlay_merge _ _
  resources := OrderedMap.isOverlay_merge _ _
  collections := OrderedMap.isOverlay_merge _ _
  data := OrderedMap.isOverlay_merge _ _
  enums := OrderedMap.isOverlay_merge _ _

end PayloadTypes.Project
