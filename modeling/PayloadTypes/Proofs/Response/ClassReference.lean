import PayloadTypes.Proofs.Text.Ascii
import PayloadTypes.Proofs.Text.Reader
import PayloadTypes.Response.Idiom
/-!
# References to classes

A class is referred to by identifiers with backslashes between them, the last of
which is its name. A reference is read as a whole (`IsReferenceTo.className_append`)
and shortened to the name (`IsReferenceTo.shortClass_eq`), so whatever is asked of
a class that was read is asked of its name.
-/

namespace PayloadTypes.Response

open Text.Reader
open Idiom (className construction isClassChar isClassStart openCall staticCall)

variable {x : String} {c : Char} {f : String} {a r s t : List Char}

/-! ## Characters -/

theorem isClassChar_iff : isClassChar c = true ↔ Text.isIdentChar c = true ∨ c = '\\' := by
  change (Text.isIdentChar c || c == '\\') = true ↔ _
  rw [Bool.or_eq_true, beq_iff_eq]

theorem isClassStart_iff : isClassStart c = true ↔ Text.isIdentStart c = true ∨ c = '\\' := by
  change (Text.isIdentStart c || c == '\\') = true ↔ _
  rw [Bool.or_eq_true, beq_iff_eq]

theorem isClassChar_of_isClassStart (h : isClassStart c = true) : isClassChar c = true := by
  rw [isClassStart_iff] at h
  rw [isClassChar_iff]
  exact h.imp_left Text.isIdentChar_of_isIdentStart

theorem toNat_of_isClassStart (h : isClassStart c = true) : 65 ≤ c.toNat ∧ c.toNat ≤ 122 := by
  rw [isClassStart_iff, Text.isIdentStart_iff, Text.isUpper_iff, Text.isLower_iff] at h
  rcases h with (h | h | rfl) | rfl
  · omega
  · omega
  · decide
  · decide

theorem isBlank_of_isClassChar (h : isClassChar c = true) : Text.isBlank c = false := by
  rcases isClassChar_iff.mp h with h | rfl
  · have := Text.toNat_of_isIdentChar h
    exact Text.isBlank_eq_false (by omega)
  · decide

theorem isBlank_of_isClassStart (h : isClassStart c = true) : Text.isBlank c = false :=
  isBlank_of_isClassChar (isClassChar_of_isClassStart h)

theorem isIdentChar_of_isIdentifier (h : IsIdentifier s) : ∀ c ∈ s, Text.isIdentChar c = true := by
  obtain ⟨c, w, rfl, hc, hw⟩ := h
  exact List.forall_mem_cons.mpr ⟨Text.isIdentChar_of_isIdentStart hc, hw⟩

theorem isClassChar_of_isIdentifier (h : IsIdentifier s) : ∀ c ∈ s, isClassChar c = true :=
  fun c hc => isClassChar_iff.mpr (.inl (isIdentChar_of_isIdentifier h c hc))

theorem isBlank_of_isIdentifier (h : IsIdentifier s) : ∀ c ∈ s, Text.isBlank c = false :=
  fun c hc => isBlank_of_isClassChar (isClassChar_of_isIdentifier h c hc)

theorem not_mem_of_isIdentifier (h : IsIdentifier s) (hc : Text.isIdentChar c = false) : c ∉ s :=
  Text.not_mem_of_forall (isIdentChar_of_isIdentifier h) hc

/-- No blank stands in front of an identifier. -/
theorem isBlank_head_of_isIdentifier (h : IsIdentifier s) (t : List Char) :
    ∀ c ∈ (s ++ t).head?, Text.isBlank c = false := by
  obtain ⟨d, w, rfl, hd, -⟩ := h
  exact forall_mem_head?_cons (isBlank_of_isClassStart (isClassStart_iff.mpr (.inl hd))) (w ++ t)

/-! ## References -/

/-- Identifiers with a backslash behind each of them, and one in front of them or none. -/
def IsNamespace (s : List Char) : Prop :=
  ∃ (lead : List Char) (segments : List (List Char)), (lead = [] ∨ lead = ['\\']) ∧
    (∀ w ∈ segments, IsIdentifier w) ∧ s = lead ++ segments.flatMap (· ++ ['\\'])

/-- A reference to the class `x`: its name behind a namespace. -/
def IsReferenceTo (x : String) (r : List Char) : Prop :=
  IsIdentifier x.toList ∧ ∃ s, IsNamespace s ∧ r = s ++ x.toList

namespace IsNamespace

theorem isClassChar (h : IsNamespace s) : ∀ c ∈ s, isClassChar c = true := by
  obtain ⟨lead, segments, hlead, hsegments, rfl⟩ := h
  intro c hc
  rcases List.mem_append.mp hc with hc | hc
  · rcases hlead with rfl | rfl
    · cases hc
    · rw [List.mem_singleton.mp hc]
      decide
  · obtain ⟨w, hw, hc⟩ := List.mem_flatMap.mp hc
    rcases List.mem_append.mp hc with hc | hc
    · exact isClassChar_of_isIdentifier (hsegments w hw) c hc
    · rw [List.mem_singleton.mp hc]
      decide

/-- A name stands behind a backslash, or behind nothing. -/
theorem getLast?_eq (h : IsNamespace s) : ∀ c ∈ s.getLast?, c = '\\' := by
  obtain ⟨lead, segments, hlead, -, rfl⟩ := h
  refine Text.forall_mem_getLast?_append ?_ ?_
  · rcases hlead with rfl | rfl <;> simp
  · induction segments with
    | nil => simp
    | cons w segments ih =>
      rw [List.flatMap_cons]
      refine Text.forall_mem_getLast?_append ?_ ih
      simp

theorem isClassStart (h : IsNamespace s) : ∀ c ∈ s.head?, isClassStart c = true := by
  obtain ⟨lead, segments, hlead, hsegments, rfl⟩ := h
  rcases hlead with rfl | rfl
  · cases segments with
    | nil => simp
    | cons w segments =>
      obtain ⟨c, w, rfl, hc, -⟩ := hsegments w List.mem_cons_self
      exact forall_mem_head?_cons (isClassStart_iff.mpr (.inl hc)) _
  · exact forall_mem_head?_cons (by decide) _

end IsNamespace

theorem openCall_cons (t : List Char) : openCall ('(' :: t) = some ((), t) := by
  have hblanks := blanks_eq (t := '(' :: t) (forall_mem_head?_cons (by decide) t)
  rw [openCall, bind_eq hblanks, char_cons]

namespace IsReferenceTo

theorem isClassChar (h : IsReferenceTo x r) : ∀ c ∈ r, isClassChar c = true := by
  obtain ⟨hx, s, hs, rfl⟩ := h
  intro c hc
  rcases List.mem_append.mp hc with hc | hc
  · exact hs.isClassChar c hc
  · exact isClassChar_of_isIdentifier hx c hc

theorem isBlank_eq_false (h : IsReferenceTo x r) : ∀ c ∈ r, Text.isBlank c = false :=
  fun c hc => isBlank_of_isClassChar (h.isClassChar c hc)

theorem exists_eq_cons (h : IsReferenceTo x r) :
    ∃ c s, r = c :: s ∧ isClassStart c = true := by
  obtain ⟨⟨d, w, hx, hd, -⟩, s, hs, rfl⟩ := h
  cases s with
  | nil => exact ⟨d, w, hx, isClassStart_iff.mpr (.inl hd)⟩
  | cons c s => exact ⟨c, s ++ x.toList, rfl, hs.isClassStart c rfl⟩

/-- **A reference is shortened to the name of its class.** -/
theorem shortClass_eq (h : IsReferenceTo x r) : shortClass r = x := by
  have htrim : Text.trim r = r :=
    (Text.isTrimmed_of_forall h.isBlank_eq_false).trim_eq
  obtain ⟨hx, s, hs, rfl⟩ := h
  have hslash : '\\' ∉ x.toList := not_mem_of_isIdentifier hx (by decide)
  have hlast : ∀ c ∈ (s ++ x.toList).getLast?, (c == '\\') = false := by
    obtain ⟨c, w, hname, -, -⟩ := hx
    have hne : x.toList ≠ [] := by simp [hname]
    rw [List.getLast?_append_of_ne_nil s hne]
    intro c hc
    rw [beq_eq_false_iff_ne]
    rintro rfl
    exact hslash (List.mem_of_mem_getLast? hc)
  rw [shortClass, htrim, Text.dropEndWhile_eq_self hlast,
    Text.lastPiece_append hs.getLast?_eq hslash, String.ofList_toList]

/-- **A reference is read as a whole.** -/
theorem className_append (h : IsReferenceTo x r) (ht : ∀ c ∈ t.head?, Idiom.isClassChar c = false) :
    className (r ++ t) = some (r, t) := by
  have hchars := h.isClassChar
  obtain ⟨c, s, rfl, hc⟩ := h.exists_eq_cons
  have hmany := many_append (fun d hd => hchars d (List.mem_cons_of_mem _ hd)) ht
  rw [className, List.cons_append, bind_eq (one_cons hc), bind_eq hmany]
  rfl

theorem staticCall_append (h : IsReferenceTo x r) (f : String) (t : List Char) :
    staticCall f (r ++ ("::".toList ++ (f.toList ++ '(' :: t))) = some (r, t) := by
  have hname := h.className_append (t := "::".toList ++ (f.toList ++ '(' :: t))
    (forall_mem_head?_cons (by decide) _)
  rw [staticCall, bind_eq hname, bind_eq (text_append rfl _), bind_eq (text_append rfl _),
    bind_eq (openCall_cons t)]
  rfl

theorem construction_append (h : IsReferenceTo x r) (t : List Char) :
    construction ("new ".toList ++ (r ++ '(' :: t)) = some (r, t) := by
  obtain ⟨c, s, hr, hc⟩ := h.exists_eq_cons
  have hblank : ∀ d ∈ (r ++ '(' :: t).head?, Text.isBlank d = false := by
    rw [hr]
    exact forall_mem_head?_cons (isBlank_of_isClassStart hc) _
  have hname := h.className_append (t := '(' :: t) (forall_mem_head?_cons (by decide) t)
  have hnew : text "new" ("new ".toList ++ (r ++ '(' :: t)) = some ((), ' ' :: (r ++ '(' :: t)) :=
    text_append (s := ['n', 'e', 'w']) rfl _
  rw [construction, bind_eq hnew, bind_eq (blanks1_cons (by decide) hblank), bind_eq hname,
    bind_eq (openCall_cons t)]
  rfl

end IsReferenceTo

/-! ## What was read -/

theorem of_className (h : className s = some (a, t)) :
    s = a ++ t ∧ a ≠ [] ∧ ∀ c ∈ a, isClassChar c = true := by
  rw [className] at h
  obtain ⟨c, s', hone, h⟩ := bind_eq_some_iff.mp h
  cases h
  refine ⟨?_, List.cons_ne_nil _ _, List.forall_mem_cons.mpr
    ⟨isClassChar_of_isClassStart (of_one hone), fun d hd => List.mem_takeWhile_imp hd⟩⟩
  rw [eq_cons_of_one hone, List.cons_append, List.takeWhile_append_dropWhile]

/-- A static call names a class, two colons and the function. -/
theorem of_staticCall (h : staticCall f s = some (a, t)) :
    ∃ u, s = a ++ ("::".toList ++ (f.toList ++ u)) ∧ a ≠ [] ∧
      ∀ c ∈ a, isClassChar c = true := by
  rw [staticCall] at h
  obtain ⟨c, s₁, hname, h⟩ := bind_eq_some_iff.mp h
  obtain ⟨⟨⟩, s₂, hcolons, h⟩ := bind_eq_some_iff.mp h
  obtain ⟨⟨⟩, s₃, hfunction, h⟩ := bind_eq_some_iff.mp h
  obtain ⟨⟨⟩, s₄, hopen, h⟩ := bind_eq_some_iff.mp h
  cases h
  obtain ⟨rfl, hne, hchars⟩ := of_className hname
  refine ⟨s₃, ?_, hne, hchars⟩
  rw [eq_append_of_text hcolons, eq_append_of_text hfunction]

/-- A construction starts with its keyword and a blank. -/
theorem of_construction (h : construction s = some (a, t)) :
    ∃ b u, s = 'n' :: 'e' :: 'w' :: b :: u ∧ Text.isBlank b = true := by
  rw [construction] at h
  obtain ⟨⟨⟩, s', hnew, h⟩ := bind_eq_some_iff.mp h
  obtain ⟨⟨⟩, s'', hblanks, h⟩ := bind_eq_some_iff.mp h
  rw [blanks1] at hblanks
  obtain ⟨w, u, hmany, hblanks⟩ := bind_eq_some_iff.mp hblanks
  rw [many1] at hmany
  obtain ⟨b, u', hone, -⟩ := bind_eq_some_iff.mp hmany
  refine ⟨b, u', ?_, of_one hone⟩
  rw [eq_append_of_text hnew, eq_cons_of_one hone]
  rfl

end PayloadTypes.Response
