import PayloadTypes.Proofs.Source.TypeReading
import PayloadTypes.Proofs.TypeText.LowerCase
/-!
# Outlines of declared types

Whether a declared type takes null is told twice: by its text, which shows null
or does not (`allowsNull_iff`), and by the type that it is converted to. The
conversion follows the outline of the type, from which null is read off as long
as every name closes what it opens (`hasNull_declaredType_iff`): such a type
admits all the null that it shows. Types as they are written are like that
(`isWhole_declaredOutline`).
-/

namespace PayloadTypes.Source

open TypeText (IsNested IsUnit SpellsNull arrayOf hasNull members null union)

variable {s : List Char}

/-- How a declared type is put together, down to its names. -/
inductive TypeOutline where
  /-- A type with a question mark in front. -/
  | nullable (inner : TypeOutline)
  /-- A union. -/
  | union (parts : List TypeOutline)
  /-- A type inside of a shape. -/
  | inside (shape : TypeShape) (inner : TypeOutline)
  /-- A generic type of which nothing is known. -/
  | generic
  /-- A keyword or a class. -/
  | name (text : List Char)

/-- The inner part of the shape is enclosed by what is put around it. -/
def TypeShape.isEnclosing : TypeShape → Bool
  | .array _ | .list .. => true
  | _ => false

namespace TypeOutline

mutual
/-- What a type of the outline is converted to. -/
def converted : TypeOutline → Converted
  | .nullable o => o.converted.map fun x => TypeText.union [x, null]
  | .union os => .union (convertedAll os)
  | .inside shape o => o.converted.map shape.around
  | .generic => ⟨TypeText.unknown, []⟩
  | .name s => convertName s
/-- What types of the outlines are converted to. -/
def convertedAll : List TypeOutline → List Converted
  | [] => []
  | o :: os => o.converted :: convertedAll os
end

theorem convertedAll_eq_map (os : List TypeOutline) : convertedAll os = os.map converted := by
  induction os with
  | nil => rfl
  | cons o os ih => rw [convertedAll, List.map_cons, ih]

mutual
/-- Null is allowed where the type is read as one: by a question mark, as a member of a union, in
parentheses, or by a name for null. -/
def admitsNull : TypeOutline → Bool
  | .nullable _ => true
  | .union os => anyAdmitsNull os
  | .inside shape o => !shape.isEnclosing && o.admitsNull
  | .generic => false
  | .name s => (convertName s).type == null
/-- Null is allowed by one of the outlines. -/
def anyAdmitsNull : List TypeOutline → Bool
  | [] => false
  | o :: os => o.admitsNull || anyAdmitsNull os
end

mutual
/-- Every name is uncut, as it is written and as it is converted. -/
def IsWhole : TypeOutline → Prop
  | .nullable o => o.IsWhole
  | .union os => AreWhole os
  | .inside _ o => o.IsWhole
  | .generic => True
  | .name s => IsUnit ['|'] s ∧ IsMemberUnit (convertName s).type
/-- All outlines are whole. -/
def AreWhole : List TypeOutline → Prop
  | [] => True
  | o :: os => o.IsWhole ∧ AreWhole os
end

theorem anyAdmitsNull_iff {os : List TypeOutline} :
    anyAdmitsNull os = true ↔ ∃ o ∈ os, o.admitsNull = true := by
  induction os with
  | nil => simp [anyAdmitsNull]
  | cons o os ih => rw [anyAdmitsNull, Bool.or_eq_true, ih, List.exists_mem_cons_iff]

theorem areWhole_iff {os : List TypeOutline} : AreWhole os ↔ ∀ o ∈ os, o.IsWhole := by
  induction os with
  | nil => simp [AreWhole]
  | cons o os ih => rw [AreWhole, ih, List.forall_mem_cons]

end TypeOutline

/-- The outline of a type. -/
def outline (t : String) : TypeOutline :=
  match _ht : t.toList with
  | '?' :: rest => .nullable (outline (String.ofList rest))
  | cs =>
    if _hm : 1 < (members t).length then
      .union ((members t).attach.map fun m => outline m.1)
    else
      match _hs : (shape (firstPart cs)).inner? with
      | some inner => .inside (shape (firstPart cs)) (outline (String.ofList inner))
      | none => if shape (firstPart cs) = .generic then .generic else .name (firstPart cs)
termination_by t.toList.length
decreasing_by
  · rw [_ht]
    simp
  · exact TypeText.length_lt_of_mem_members m.2 _hm
  · have h1 := length_inner?_shape _hs
    have h2 := length_firstPart cs
    rw [String.toList_ofList, _ht]
    omega

/-- The outline of a type without a mark that is no union is that of its shape. -/
theorem outline_of_shape {t : String} (hhead : '?' ∉ t.toList.head?)
    (hlen : ¬ 1 < (members t).length) :
    outline t =
      match (shape (firstPart t.toList)).inner? with
      | some inner => .inside (shape (firstPart t.toList)) (outline (String.ofList inner))
      | none =>
        if shape (firstPart t.toList) = .generic then .generic
        else .name (firstPart t.toList) := by
  rw [outline.eq_def t]
  split
  · next h => exact absurd (List.head?_eq_some_iff.mpr ⟨_, h⟩) hhead
  · rw [dif_neg hlen]
    split
    · next h => rw [h]
    · next h => rw [h]

theorem outline_of_members {t : String} (hhead : '?' ∉ t.toList.head?)
    (hlen : 1 < (members t).length) : outline t = .union ((members t).map outline) := by
  rw [outline.eq_def t]
  split
  · next h => exact absurd (List.head?_eq_some_iff.mpr ⟨_, h⟩) hhead
  · rw [dif_pos hlen, List.attach_map_val]

theorem outline_nullable {t : String} {rest : List Char} (ht : t.toList = '?' :: rest) :
    outline t = .nullable (outline (String.ofList rest)) := by
  rw [outline.eq_def t]
  split
  · next h =>
    cases ht.symm.trans h
    rfl
  · next h => exact absurd ht (h rest)

/-- A text that is nothing with a question mark in front does not start with one. -/
theorem mark_not_mem_head? {s : List Char} (h : ∀ rest, s = '?' :: rest → False) :
    '?' ∉ s.head? := fun hmark => (List.head?_eq_some_iff.mp hmark).elim h

/-- **A type is converted as its outline says.** -/
theorem converted_outline (t : String) : (outline t).converted = convert t := by
  fun_induction outline t with
  | case1 t rest ht ih =>
    obtain rfl : t = String.ofList ('?' :: rest) := by rw [← ht, String.ofList_toList]
    rw [convert_nullable, TypeOutline.converted, ih]
  | case2 t hlen hmark ih =>
    have hhead := mark_not_mem_head? hmark
    have hunion := convert_of_members hhead (congrArg members (String.ofList_toList)) hlen
    rw [String.ofList_toList] at hunion
    rw [hunion, TypeOutline.converted, TypeOutline.convertedAll_eq_map, List.map_map,
      ← List.attach_map_val (l := members t)]
    exact congrArg Converted.union (List.map_congr_left fun m _ => ih m)
  | case3 t hlen inner hmark hinner ih =>
    have hhead := mark_not_mem_head? hmark
    rw [TypeOutline.converted, ih, convert_of_shape hhead hlen, hinner]
  | case4 t hlen hmark hinner hgeneric =>
    have hhead := mark_not_mem_head? hmark
    rw [TypeOutline.converted, convert_of_shape hhead hlen, hinner]
    exact (if_pos hgeneric).symm
  | case5 t hlen hmark hinner hgeneric =>
    have hhead := mark_not_mem_head? hmark
    rw [TypeOutline.converted, convert_of_shape hhead hlen, hinner]
    exact (if_neg hgeneric).symm

/-! ## Converted types without cuts -/

/-- A type that is nested, like each of its members, which no bar cuts. -/
structure IsTidy (t : String) : Prop where
  /-- It is nested. -/
  nested : IsNested t.toList
  /-- Its members are units. -/
  isMemberUnit : ∀ m ∈ members t, IsMemberUnit m

theorem IsMemberUnit.isTidy {m : String} (h : IsMemberUnit m) : IsTidy m where
  nested := h.nested
  isMemberUnit := by
    rw [h.isMember.members_eq]
    exact List.forall_mem_singleton.mpr h

/-- **A union of units is tidy** and has null as a member just if null is one of them. -/
theorem isTidy_union {ms : List String} (h : ∀ m ∈ ms, IsMemberUnit m) :
    IsTidy (union ms) ∧ (null ∈ members (union ms) ↔ null ∈ ms) := by
  have hmembers := (areMembers_of_isMemberUnit h).members_union
  have hkept : ∀ m ∈ ms.eraseDups, IsMemberUnit m := fun m hm => h m (List.mem_eraseDups.mp hm)
  exact ⟨⟨isNested_barred hkept, hmembers ▸ hkept⟩, by rw [hmembers, List.mem_eraseDups]⟩

/-- **A tidy type stays tidy with null put behind it**, which is a member then. -/
theorem IsTidy.union_null {t : String} (h : IsTidy t) :
    IsTidy (union [t, null]) ∧ null ∈ members (union [t, null]) := by
  by_cases ht : t = null
  · -- the null behind it is a duplicate then
    subst ht
    have hunits : ∀ m ∈ [null, null], IsMemberUnit m := by simp [isMemberUnit_null]
    exact ⟨(isTidy_union hunits).1, (isTidy_union hunits).2.mpr List.mem_cons_self⟩
  · have hmembers := TypeText.members_append_null h.nested.isClosed
    have hbar : IsNested (" | " ++ null).toList :=
      TypeText.isNested_of_isInert (List.all_eq_true.mp (by decide))
    rw [TypeText.union_pair ht]
    refine ⟨⟨?_, ?_⟩, ?_⟩
    · rw [String.append_assoc, String.toList_append]
      exact h.nested.append hbar
    · rw [hmembers]
      exact List.forall_mem_append.mpr
        ⟨h.isMemberUnit, List.forall_mem_singleton.mpr isMemberUnit_null⟩
    · rw [hmembers]
      exact List.mem_append_right _ List.mem_cons_self

/-- What is put around a tidy type to enclose it makes a unit, which is not null. -/
theorem isMemberUnit_around {shape : TypeShape} {t : String} (h : IsNested t.toList)
    (hshape : shape.isEnclosing = true) :
    IsMemberUnit (shape.around t) ∧ shape.around t ≠ null := by
  have harray : IsMemberUnit (arrayOf t) ∧ arrayOf t ≠ null := by
    refine ⟨isMemberUnit_arrayOf h, fun heq => ?_⟩
    have := congrArg (fun s => s.toList.head?) heq
    simp [arrayOf, null] at this
  cases shape with
  | array item => exact harray
  | list key value =>
    cases key with
    | none => exact harray
    | some key =>
      rw [TypeShape.around]
      split
      · refine ⟨isMemberUnit_record h, fun heq => ?_⟩
        have := congrArg (fun s => s.toList.head?) heq
        simp [null] at this
      · exact harray
  | _ => cases hshape

theorem around_of_not_isEnclosing {shape : TypeShape} (t : String)
    (hshape : shape.isEnclosing = false) : shape.around t = t := by
  cases shape with
  | array item => cases hshape
  | list key value => cases hshape
  | _ => rfl

namespace TypeOutline

mutual
/-- **A whole type is converted to a tidy one**, which has null as a member just where its outline
admits null. -/
theorem isTidy_converted : (o : TypeOutline) → o.IsWhole →
    IsTidy o.converted.type ∧ (null ∈ members o.converted.type ↔ o.admitsNull = true)
  | .nullable o, h => by
    obtain ⟨htidy, hnull⟩ := (isTidy_converted o h).1.union_null
    exact ⟨htidy, iff_of_true hnull rfl⟩
  | .union os, h => by
    obtain ⟨hunits, hnull⟩ := isMemberUnit_convertedAll os h
    obtain ⟨htidy, hmem⟩ := isTidy_union hunits
    exact ⟨htidy, hmem.trans hnull⟩
  | .inside shape o, h => by
    obtain ⟨htidy, hnull⟩ := isTidy_converted o h
    rw [converted, Converted.map, admitsNull]
    cases hshape : shape.isEnclosing with
    | true =>
      obtain ⟨hunit, hne⟩ := isMemberUnit_around htidy.nested hshape
      refine ⟨hunit.isTidy, iff_of_false ?_ (by simp)⟩
      rw [hunit.isMember.members_eq, List.mem_singleton]
      exact hne.symm
    -- What encloses nothing leaves the members of the inner type as they are.
    | false =>
      dsimp only
      rw [around_of_not_isEnclosing _ hshape]
      exact ⟨htidy, hnull⟩
  | .generic, _ => by
    refine ⟨isMemberUnit_unknown.isTidy, iff_of_false ?_ (by simp [admitsNull])⟩
    decide
  | .name s, h => by
    refine ⟨h.2.isTidy, ?_⟩
    rw [converted, h.2.isMember.members_eq, List.mem_singleton, admitsNull, beq_iff_eq, eq_comm]
/-- The members of whole types are units. -/
theorem isMemberUnit_convertedAll : (os : List TypeOutline) → AreWhole os →
    (∀ m ∈ (convertedAll os).flatMap (fun t => members t.type), IsMemberUnit m) ∧
      (null ∈ (convertedAll os).flatMap (fun t => members t.type) ↔ anyAdmitsNull os = true)
  | [], _ => by simp [convertedAll, anyAdmitsNull]
  | o :: os, h => by
    obtain ⟨htidy, hnull⟩ := isTidy_converted o h.1
    obtain ⟨hunits, hmore⟩ := isMemberUnit_convertedAll os h.2
    rw [convertedAll, List.flatMap_cons, List.mem_append, anyAdmitsNull, Bool.or_eq_true]
    exact ⟨List.forall_mem_append.mpr ⟨htidy.isMemberUnit, hunits⟩, or_congr hnull hmore⟩
end

end TypeOutline

/-! ## Null that is shown -/

/-- A declared type shows that it takes null: by a question mark in front, or by a member that
spells it. -/
def ShowsNull (t : String) : Prop :=
  '?' ∈ (Text.trim t.toList).head? ∨
    ∃ m ∈ members (String.ofList (Text.trim t.toList)), SpellsNull m.toList

/-- **The types that are told to allow null are those that show it.** -/
theorem allowsNull_iff (t : String) : allowsNull (some t) = true ↔ ShowsNull t := by
  unfold allowsNull ShowsNull
  dsimp only
  generalize Text.trim t.toList = cs
  split
  · exact iff_of_true rfl (.inl rfl)
  · next hmark =>
    rw [or_iff_right (mark_not_mem_head? hmark), TypeText.hasNull_iff,
      ← TypeText.null_mem_members_lower_iff, String.toList_ofList]

/-- What spells null has the characters of null alone among those that are neither letters nor
above ASCII. -/
theorem not_mem_of_spellsNull {c : Char} (h : SpellsNull s) (hc : c.toNat < 128)
    (hnull : c.toLower ∉ null.toList) : c ∉ s := by
  intro hmem
  have := Text.mem_lower hc hmem
  rw [SpellsNull] at h
  exact hnull (h ▸ this)

theorem convertName_of_spellsNull (h : SpellsNull s) : convertName s = ⟨null, []⟩ := by
  have hlookup : keywordTypes.lookup (String.ofList null.toList) = some null := by decide
  rw [SpellsNull] at h
  rw [convertName, h, hlookup]

/-- The marks of types that spell no null and are neither bars nor blank. -/
def outlineMarks : List Char := ['?', '&', ')', ']', '<']

theorem outlineMarks_plain : (outlineMarks.all fun c => decide (c.toNat < 128) &&
    !null.toList.contains c.toLower && c != '|' && !Text.isBlank c) = true := by decide

/-- A type whose only member spells null is a name. -/
theorem outline_of_spellsNull {t m : String} (htrim : Text.IsTrimmed t.toList)
    (hmembers : members t = [m]) (hm : SpellsNull m.toList) : outline t = .name t.toList := by
  have htexts : TypeText.memberTexts t.toList = [m.toList] := by
    have := congrArg (List.map String.toList) hmembers
    simpa [TypeText.members_eq, List.map_map, Function.comp_def] using this
  -- the text is made of the member, bars and blanks, so that none of its characters is a mark
  have hmarks : ∀ c ∈ outlineMarks, c ∉ t.toList := by
    intro c hc hmem
    have hplain := List.all_eq_true.mp outlineMarks_plain c hc
    simp only [Bool.and_eq_true, decide_eq_true_eq, Bool.not_eq_true', bne_iff_ne] at hplain
    obtain ⟨⟨⟨hascii, hnull⟩, hbar⟩, hblank⟩ := hplain
    rcases TypeText.eq_or_isBlank_or_mem htexts hmem with h | h | h
    · exact hbar h
    · rw [h] at hblank
      cases hblank
    · refine not_mem_of_spellsNull hm hascii (fun hin => ?_) h
      rw [List.contains_iff_mem.mpr hin] at hnull
      cases hnull
  have hmark : '?' ∉ t.toList.head? := fun h => hmarks '?' (by decide) (List.mem_of_mem_head? h)
  have hpart : TypeText.splitTopLevel '&' t.toList = [t.toList] :=
    TypeText.isPart_of_not_mem (hmarks '&' (by decide))
  have hfirst : firstPart t.toList = t.toList := by
    rw [firstPart, hpart, List.headD_cons, htrim.trim_eq]
  rw [outline_of_shape hmark (by simp [hmembers]), hfirst,
    shape_of_not_mem (hmarks ')' (by decide)) (hmarks ']' (by decide)) (hmarks '<' (by decide))]
  rfl

/-- A whole type whose only member spells null admits it. -/
theorem admitsNull_of_spellsNull {t m : String} (htrim : Text.IsTrimmed t.toList)
    (hmembers : members t = [m]) (hm : SpellsNull m.toList) (h : (outline t).IsWhole) :
    (outline t).admitsNull = true := by
  rw [outline_of_spellsNull htrim hmembers hm] at h ⊢
  have hself : members t = [t] := TypeText.IsMember.members_eq (IsMemberUnit.isMember h.1)
  obtain rfl : t = m := List.singleton_inj.mp (hself.symm.trans hmembers)
  rw [TypeOutline.admitsNull, convertName_of_spellsNull hm]
  exact beq_self_eq_true null

/-- **What shows null admits it**, in a whole type. -/
theorem admitsNull_of_showsNull {t : String} (htrim : Text.IsTrimmed t.toList)
    (h : (outline t).IsWhole) (hshows : ShowsNull t) : (outline t).admitsNull = true := by
  rw [ShowsNull, htrim.trim_eq, String.ofList_toList] at hshows
  by_cases hmark : '?' ∈ t.toList.head?
  · obtain ⟨rest, ht⟩ := List.head?_eq_some_iff.mp hmark
    rw [outline_nullable ht]
    rfl
  · obtain ⟨m, hm, hnull⟩ := hshows.resolve_left hmark
    have hmember := (TypeText.areMembers_members t).isMember m hm
    -- A union shows null at one of its members, a single type as a whole.
    by_cases hlen : 1 < (members t).length
    · rw [outline_of_members hmark hlen] at h ⊢
      have hwhole := TypeOutline.areWhole_iff.mp h _ (List.mem_map_of_mem hm)
      exact TypeOutline.anyAdmitsNull_iff.mpr ⟨outline m, List.mem_map_of_mem hm,
        admitsNull_of_spellsNull hmember.trimmed hmember.members_eq hnull hwhole⟩
    · have hone : members t = [m] := by
        match hms : members t with
        | [] => rw [hms] at hm; cases hm
        | [m'] => rw [hms] at hm; rw [List.mem_singleton.mp hm]
        | _ :: _ :: _ => exact absurd (by simp [hms]) hlen
      exact admitsNull_of_spellsNull htrim hone hnull h

/-! ## Declared types -/

/-- The outline of a declared type; of one that is blank nothing is known. -/
def declaredOutline (t : String) : TypeOutline :=
  match Text.trim t.toList with
  | [] => .generic
  | cs => outline (String.ofList cs)

/-- **A declared type is converted as its outline says.** -/
theorem converted_declaredOutline (t : String) :
    (declaredOutline t).converted = convertDeclared (some t) := by
  unfold declaredOutline convertDeclared
  dsimp only
  cases Text.trim t.toList with
  | nil => rfl
  | cons c cs => exact converted_outline _

/-- The text of a declared type that keeps null. -/
theorem declaredType_eq_converted (t : String) :
    declaredType false (some t) = (declaredOutline t).converted.type :=
  congrArg Converted.type (converted_declaredOutline t).symm

/-- **A whole declared type is nullable just where its outline admits null**, and it is where it
shows that it takes null. -/
theorem hasNull_declaredType_iff {t : String} (h : (declaredOutline t).IsWhole) :
    (hasNull (declaredType false (some t)) = true ↔ (declaredOutline t).admitsNull = true) ∧
      (ShowsNull t → (declaredOutline t).admitsNull = true) := by
  constructor
  · rw [declaredType_eq_converted, TypeText.hasNull_iff]
    exact (TypeOutline.isTidy_converted _ h).2
  · intro hshows
    have htrim := Text.isTrimmed_trim t.toList
    unfold declaredOutline at h ⊢
    unfold ShowsNull at hshows
    cases hcs : Text.trim t.toList with
    -- Nothing is left of a blank type, so it shows nothing.
    | nil =>
      rw [hcs] at hshows
      rcases hshows with hmark | ⟨m, hm, -⟩
      · cases hmark
      · cases hm
    | cons c cs =>
      rw [hcs] at h hshows htrim
      refine admitsNull_of_showsNull (by rwa [String.toList_ofList]) h ?_
      rwa [ShowsNull, String.toList_ofList, htrim.trim_eq]

/-! ## Written types -/

/-- A single type has the outline of its shape. -/
theorem IsSingle.outline_eq (h : IsSingle s) :
    outline (String.ofList s) =
      match (shape s).inner? with
      | some inner => .inside (shape s) (outline (String.ofList inner))
      | none => if shape s = .generic then .generic else .name s := by
  have hhead : '?' ∉ (String.ofList s).toList.head? := by
    rw [String.toList_ofList]
    exact h.head_ne
  rw [outline_of_shape hhead (by simp [h.members_eq]), String.toList_ofList, h.firstPart_eq]

theorem IsSingle.outline_of_inner {inner : List Char} {sh : TypeShape} (h : IsSingle s)
    (hs : shape s = sh) (hinner : sh.inner? = some inner) :
    outline (String.ofList s) = .inside sh (outline (String.ofList inner)) := by
  rw [h.outline_eq, hs, hinner]

/-- A word is whole if its conversion is a unit. -/
theorem IsSingle.isWhole_of_isTermChar (h : IsSingle s) (hs : ∀ c ∈ s, isTermChar c = true)
    (hunit : IsMemberUnit (convertName s).type) : (outline (String.ofList s)).IsWhole := by
  rw [h.outline_eq, shape_of_isTermChar hs]
  exact ⟨h.unit.mono (by decide), hunit⟩

theorem isWhole_operandText {isOpen : Bool} (hs : IsNested s)
    (h : (outline (String.ofList s)).IsWhole) :
    (outline (String.ofList (operandText isOpen s))).IsWhole := by
  cases isOpen with
  | false => exact h
  | true =>
    have hout := (isSingle_inParens hs).outline_of_inner (shape_inParens s) rfl
    rw [operandText, if_pos rfl, hout]
    exact h

namespace TypeTerm

-- The induction is the one of the conversion: each layer takes off its own marks.
mutual
/-- **A type as it is written is whole.** -/
theorem isWhole_outline (l : Layout) : (t : TypeTerm) →
    (outline (String.ofList (t.text l))).IsWhole
  | .keyword k => by
    refine (isSingle_text l (.keyword k) rfl).isWhole_of_isTermChar k.isTermChar ?_
    rw [text, convertName_keyword]
    exact k.isMemberUnit
  | .named r => by
    refine (isSingle_text l (.named r) rfl).isWhole_of_isTermChar r.isTermChar ?_
    rw [text, convertName_named]
    exact r.isMemberUnit
  | .grouped t => by
    have hout := (isSingle_text l (.grouped t) rfl).outline_of_inner (shape_inParens _) rfl
    rw [hout]
    exact isWhole_outline l t
  | .array t => by
    have hout := (isSingle_text l (.array t) rfl).outline_of_inner (shape_brackets _) rfl
    rw [hout]
    exact isWhole_operandText (isUnit_text l t).nested (isWhole_outline l t)
  | .list name value => by
    have hshape := shape_list name (l := l) (isUnit_argument (isUnit_text l value))
    have hout := (isSingle_text l (.list name value) rfl).outline_of_inner hshape rfl
    rw [hout]
    exact isWhole_outline l value
  | .map name key value => by
    have hshape := shape_map name (l := l) (isUnit_argument (isUnit_text l key))
      (isUnit_argument (isUnit_text l value))
    have hout := (isSingle_text l (.map name key value) rfl).outline_of_inner hshape rfl
    rw [hout]
    exact isWhole_outline l value
  | .generic name args => by
    have hshape : shape ((generic name args).text l) = .generic := shape_generic name _
    rw [(isSingle_text l (.generic name args) rfl).outline_eq, hshape]
    trivial
  | .nullable t => by
    rw [text, outline_nullable String.toList_ofList]
    exact isWhole_operandText (isUnit_text l t).nested (isWhole_outline l t)
  | .union first second more => by
    have hmembers : TypeText.members (String.ofList ((union first second more).text l)) =
        (operandTexts l (first :: second :: more)).map String.ofList :=
      members_bars l.bar (isUnit_of_mem_operandTexts l (first :: second :: more))
    have hhead : '?' ∉ (String.ofList ((union first second more).text l)).toList.head? := by
      rw [String.toList_ofList]
      exact head_ne_union l first second more
    rw [outline_of_members hhead (by simp [hmembers, operandTexts]), hmembers, List.map_map]
    refine TypeOutline.areWhole_iff.mpr (List.forall_mem_map.mpr ?_)
    simp only [operandTexts, List.forall_mem_cons]
    exact ⟨isWhole_operandText (isUnit_text l first).nested (isWhole_outline l first),
      isWhole_operandText (isUnit_text l second).nested (isWhole_outline l second),
      isWhole_operandTexts l more⟩
/-- Operands as they are written are whole. -/
theorem isWhole_operandTexts (l : Layout) : (ts : List TypeTerm) →
    ∀ s ∈ operandTexts l ts, (outline (String.ofList s)).IsWhole
  | [] => fun _ hs => absurd hs List.not_mem_nil
  | t :: ts => List.forall_mem_cons.mpr
      ⟨isWhole_operandText (isUnit_text l t).nested (isWhole_outline l t),
        isWhole_operandTexts l ts⟩
end

theorem isWhole_declaredOutline (l : Layout) (t : TypeTerm) :
    (declaredOutline (String.ofList (t.text l))).IsWhole := by
  have hunit := isUnit_text l t
  have hwhole := isWhole_outline l t
  unfold declaredOutline
  rw [String.toList_ofList, hunit.trimmed.trim_eq]
  split
  · trivial
  · exact hwhole

end TypeTerm

end PayloadTypes.Source
