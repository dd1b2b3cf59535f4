import PayloadTypes.Proofs.Response.Mapping
/-!
# Ways to write the same

A class counts by its name, so the namespace in front of it changes no type
(`inferType_eq_of_isReferenceTo`). A construction and a call of `make` make the same
thing, but only a construction looks at the ending of collections: the two have one
type just for classes without that ending, or where the companion happens to say the
same (`inferType_construct_eq_make_iff`).
-/

namespace PayloadTypes.Response

open Text.Reader
open Idiom (Making collectedArray constructedType?)

variable {x : String} {p r r' : List Char} {n : Naming} {companion : Option String}

/-- **The type depends on a class by its name only**, whatever is made of it and wherever. -/
theorem inferType_eq_of_isReferenceTo (hr : IsReferenceTo x r) (hr' : IsReferenceTo x r')
    (n : Naming) (companion : Option String) (m : Making) :
    (∀ p, IsIdentifier p →
      inferType n companion (made m r (own p)) = inferType n companion (made m r' (own p))) ∧
    ∀ q f v, IsIdentifier q → f ∈ mapFunctions → IsIdentifier v →
      inferType n companion (mapped q f v m r) = inferType n companion (mapped q f v m r') := by
  refine ⟨fun p hp => ?_, fun q f v hq hf hv => ?_⟩
  · rw [inferType_own hr hp, inferType_own hr' hp]
  · rw [inferType_mapped hq hf hv hr, inferType_mapped hq hf hv hr']

/-- A collection in a namespace and without it, taken as it is and made of the items of `map`. -/
theorem inferType_eq_namespaced :
    IsReferenceTo "PostCollection" "\\App\\PostCollection".toList ∧
    IsReferenceTo "PostCollection" "PostCollection".toList ∧
    inferType .standard none (made .construct "\\App\\PostCollection".toList (own "all".toList)) =
      inferType .standard none (made .construct "PostCollection".toList (own "all".toList)) ∧
    inferType .standard none (mapped "map".toList "flatMap" "post".toList .construct
        "\\App\\PostCollection".toList) =
      inferType .standard none (mapped "map".toList "flatMap" "post".toList .construct
        "PostCollection".toList) ∧
    inferType .standard none
      "$this->map->flatMap(fn ($post) => new PostCollection($post))".toList =
        "Array<PostResource>" := by
  have hr : IsReferenceTo "PostCollection" "\\App\\PostCollection".toList :=
    ⟨by decide, "\\App\\".toList, ⟨['\\'], ["App".toList], .inr rfl, by decide, rfl⟩, by simp⟩
  have hr' : IsReferenceTo "PostCollection" "PostCollection".toList :=
    ⟨by decide, [], ⟨[], [], .inl rfl, by decide, rfl⟩, by simp⟩
  obtain ⟨hown, hmapped⟩ := inferType_eq_of_isReferenceTo hr hr' .standard none .construct
  exact ⟨hr, hr', hown _ (by decide), hmapped _ _ _ (by decide) (by decide) (by decide),
    by decide +kernel⟩

/-! ## Constructions and calls of make -/

theorem collectedArray_ne {t : String} (h : '<' ∉ t.toList) (name : String) :
    collectedArray n name ≠ t := by
  rintro rfl
  exact h (by simp [collectedArray, TypeText.arrayOf])

/-- An array is what the companion says where the companion says just that. -/
theorem getD_filled?_eq_iff (name : String) :
    (filled? companion).getD TypeText.unknown = collectedArray n name ↔
      companion = some (collectedArray n name) := by
  have hunknown : TypeText.unknown ≠ collectedArray n name :=
    (collectedArray_ne (by decide) name).symm
  have hempty : "" ≠ collectedArray n name := (collectedArray_ne (by decide) name).symm
  cases companion with
  | none => simp [filled?, hunknown]
  | some c =>
    by_cases hc : c = ""
    · simp [hc, filled?, hunknown, hempty]
    · simp [filled?, hc]

/-- **A construction and a call of `make` have one type** just where the name does not end as
that of a collection, or where it does not end as that of a resource and the companion has the
type that the construction gives. -/
theorem inferType_construct_eq_make_iff (hr : IsReferenceTo x r) (hp : IsIdentifier p)
    (n : Naming) (companion : Option String) :
    inferType n companion (made .construct r (own p)) =
        inferType n companion (made .make r (own p)) ↔
      (n.isCollection x = true →
        n.isResource x = false ∧ companion = some (collectedArray n x)) := by
  rw [inferType_own hr hp, inferType_own hr hp, madeType?, madeType?, constructedType?]
  cases hcollection : n.isCollection x with
  | false => simp
  | true =>
    cases hresource : n.isResource x with
    | true =>
      have hne : collectedArray n x ≠ x :=
        collectedArray_ne (not_mem_of_isIdentifier hr.1 (by decide)) x
      simpa using hne
    | false =>
      have hcompanion : (filled? companion).getD TypeText.unknown = collectedArray n x ↔
          companion = some (collectedArray n x) := getD_filled?_eq_iff x
      simpa [eq_comm] using hcompanion

/-- Of a resource in a namespace both are the resource. -/
theorem inferType_construct_eq_make_resource :
    (IsReferenceTo "UserResource" "App\\UserResource".toList ∧ IsIdentifier "user".toList) ∧
    inferType .standard none (made .construct "App\\UserResource".toList (own "user".toList)) =
      inferType .standard none (made .make "App\\UserResource".toList (own "user".toList)) ∧
    inferType .standard none "App\\UserResource::make($this->user)".toList = "UserResource" := by
  have hr : IsReferenceTo "UserResource" "App\\UserResource".toList :=
    ⟨by decide, "App\\".toList, ⟨[], ["App".toList], .inl rfl, by decide, rfl⟩, by simp⟩
  have hp : IsIdentifier "user".toList := by decide
  have hiff := inferType_construct_eq_make_iff hr hp .standard none
  exact ⟨⟨hr, hp⟩, hiff.mpr fun h => absurd h (by decide), by decide +kernel⟩

/-- Of a collection only the construction is the array of its resources. -/
theorem inferType_construct_ne_make_collection :
    (IsReferenceTo "UserCollection" "UserCollection".toList ∧ IsIdentifier "users".toList ∧
      Naming.standard.resourceSuffix ≠ "" ∧ Naming.standard.collectionSuffix ≠ "") ∧
    made .construct "UserCollection".toList (own "users".toList) =
      "new UserCollection($this->users)".toList ∧
    made .make "UserCollection".toList (own "users".toList) =
      "UserCollection::make($this->users)".toList ∧
    inferType .standard none "new UserCollection($this->users)".toList = "Array<UserResource>" ∧
    inferType .standard none "UserCollection::make($this->users)".toList = "unknown" ∧
    "Array<UserResource>" ≠ "unknown" := by
  have hr : IsReferenceTo "UserCollection" "UserCollection".toList :=
    ⟨by decide, [], ⟨[], [], .inl rfl, by decide, rfl⟩, by simp⟩
  refine ⟨⟨hr, by decide, by decide, by decide⟩, ?_, ?_, ?_, ?_, by decide⟩
  · decide +kernel
  · decide +kernel
  · decide +kernel
  · decide +kernel

end PayloadTypes.Response
