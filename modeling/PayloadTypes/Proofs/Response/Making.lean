import Mathlib.Data.List.Chain
import PayloadTypes.Project.Basic
import PayloadTypes.Proofs.Data.Outcome
import PayloadTypes.Proofs.Response.ClassReference
import PayloadTypes.Proofs.Text.Numeral
import PayloadTypes.Proofs.Text.Search
import PayloadTypes.Response.Inference
/-!
# Expressions that make something of a class

Something is made of a class where the class is constructed or its function `make`
or `collection` is called. The idioms of classes find it there and nowhere else
(`first?_staticCall_made`, `first?_construction_made`), and the idioms of points in
time, null-safe accesses and literals tell nothing of a call (`IsCall`). So what is
left of the table is what is made of the class by name, between the two idioms of
mapped functions (`inferType_made`).
-/

namespace PayloadTypes.Response

open Text.Reader
open Idiom (Making collectedArray constructedType? construction isClassChar isClassStart isOpenClass
  staticCall)

variable {x f : String} {a r s t v w e : List Char} {p q : Char → Bool}

/-! ## Characters beside each other -/

/-- No character of `q` stands right behind one of `p`. -/
def Apart (p q : Char → Bool) (s : List Char) : Prop :=
  s.IsChain fun c d => p c = true → q d = false

namespace Apart

theorem of_left (h : ∀ c ∈ s, p c = false) : Apart p q s := by
  induction s with
  | nil => exact .nil
  | cons c s ih =>
    refine List.isChain_cons.mpr ⟨fun d _ hc => ?_, ih fun d hd => h d (List.mem_cons_of_mem _ hd)⟩
    rw [h c List.mem_cons_self] at hc
    cases hc

theorem of_right (h : ∀ c ∈ s, q c = false) : Apart p q s := by
  induction s with
  | nil => exact .nil
  | cons c s ih =>
    have hs := fun d hd => h d (List.mem_cons_of_mem c hd)
    exact List.isChain_cons.mpr ⟨fun d hd _ => hs d (List.mem_of_mem_head? hd), ih hs⟩

theorem of_not_mem_left {d : Char} (h : d ∉ s) : Apart (· == d) q s :=
  of_left fun _ hc => beq_eq_false_iff_ne.mpr (ne_of_mem_of_not_mem hc h)

theorem of_not_mem_right {d : Char} (h : d ∉ s) : Apart p (· == d) s :=
  of_right fun _ hc => beq_eq_false_iff_ne.mpr (ne_of_mem_of_not_mem hc h)

theorem append_of_last (hs : Apart p q s) (ht : Apart p q t)
    (h : ∀ c ∈ s.getLast?, p c = false) : Apart p q (s ++ t) := by
  refine List.isChain_append.mpr ⟨hs, ht, fun c hc d _ hp => ?_⟩
  rw [h c hc] at hp
  cases hp

theorem append_of_head (hs : Apart p q s) (ht : Apart p q t)
    (h : ∀ c ∈ t.head?, q c = false) : Apart p q (s ++ t) :=
  List.isChain_append.mpr ⟨hs, ht, fun _ _ d hd _ => h d hd⟩

theorem eq_false {c d : Char} (h : Apart p q (s ++ c :: d :: t)) (hc : p c = true) :
    q d = false :=
  (List.isChain_cons_cons.mp (List.isChain_append.mp h).2.1).1 hc

end Apart

/-! ## What is made of a class -/

/-- The function of the class that is called. -/
def Idiom.Making.function? : Making → Option String
  | .construct => none
  | .make => some "make"
  | .collection => some "collection"

/-- Something is made of the class `r`, up to the parenthesis, and `a` stands behind it:
`new r(a`, `r::make(a` or `r::collection(a`. -/
def made (m : Making) (r a : List Char) : List Char :=
  match m.function? with
  | none => "new ".toList ++ (r ++ '(' :: a)
  | some f => r ++ ("::".toList ++ (f.toList ++ '(' :: a))

theorem made_append (m : Making) (r a t : List Char) : made m r (a ++ t) = made m r a ++ t := by
  cases m <;> simp [made, Making.function?]

theorem IsReferenceTo.not_mem_made {c : Char} (hr : IsReferenceTo x r)
    (hc : Idiom.isClassChar c = false) (hmark : c ∉ " :(".toList) (ha : c ∉ a) (m : Making) :
    c ∉ made m r a := by
  have hword : ∀ {s : List Char}, (∀ d ∈ s, Idiom.isClassChar d = true) → c ∉ s :=
    fun hs => Text.not_mem_of_forall hs hc
  have hname : c ∉ r := hword hr.isClassChar
  cases m with
  | construct =>
    have hnew : c ∉ "new".toList := hword (List.all_eq_true.mp (by decide))
    simp_all [made, Making.function?]
  | make =>
    have hmake : c ∉ "make".toList := hword (List.all_eq_true.mp (by decide))
    simp_all [made, Making.function?]
  | collection =>
    have hcollection : c ∉ "collection".toList := hword (List.all_eq_true.mp (by decide))
    simp_all [made, Making.function?]

theorem IsReferenceTo.exists_made_eq_cons (hr : IsReferenceTo x r) (m : Making) (a : List Char) :
    ∃ c s, made m r a = c :: s ∧ Idiom.isClassStart c = true := by
  obtain ⟨c, s, rfl, hc⟩ := hr.exists_eq_cons
  cases m with
  | construct => exact ⟨'n', _, rfl, by decide⟩
  | make => exact ⟨c, _, rfl, hc⟩
  | collection => exact ⟨c, _, rfl, hc⟩

/-- What may stand in front of something that is made: nothing, or the start of an expression
that calls no other class. -/
structure IsFront (w : List Char) : Prop where
  /-- It starts with a variable. -/
  start : ∀ c ∈ w.head?, c = '$'
  /-- It ends in a blank. -/
  last : ∀ c ∈ w.getLast?, c = ' '
  /-- It names no function of a class. -/
  colon : ':' ∉ w
  /-- It accesses nothing that may be missing. -/
  question : '?' ∉ w
  /-- It constructs nothing. -/
  keyword : Apart (· == 'w') Text.isBlank w
  /-- It calls nothing without arguments. -/
  filled : Apart (· == '(') (· == ')') w

/-- A character of identifiers, variables, accesses or closing parentheses. -/
def isArgumentChar (c : Char) : Bool := Text.isIdentChar c || "$->)".toList.contains c

/-- Arguments without calls in them, and parentheses that close them. -/
structure IsArguments (a : List Char) : Prop where
  /-- They start with a variable. -/
  start : ∃ s, a = '$' :: s
  /-- They are closed. -/
  last : ∃ s, a = s ++ [')']
  /-- They hold identifiers and accesses. -/
  chars : ∀ c ∈ a, isArgumentChar c = true

theorem isArgumentChar_of_isIdentChar {c : Char} (h : Text.isIdentChar c = true) :
    isArgumentChar c = true := by
  rw [isArgumentChar, h, Bool.true_or]

theorem IsArguments.not_mem (ha : IsArguments a) {d : Char} (hd : isArgumentChar d = false) :
    d ∉ a := Text.not_mem_of_forall ha.chars hd

theorem isFront_nil : IsFront [] where
  start := by simp
  last := by simp
  colon := by simp
  question := by simp
  keyword := .nil
  filled := .nil

/-! ## Static calls -/

/-- A class is not called in front of a place that is not part of its name. -/
theorem staticCall_append_eq_none (hv : v ≠ []) (hcolon : ':' ∉ v)
    (hlast : ∀ c ∈ v.getLast?, isClassChar c = false) (s : List Char) :
    staticCall f (v ++ s) = none := by
  rw [Option.eq_none_iff_forall_ne_some]
  rintro ⟨a, t⟩ h
  obtain ⟨u, heq, -, hchars⟩ := of_staticCall h
  obtain ⟨c, hc⟩ := Option.isSome_iff_exists.mp (List.getLast?_isSome.mpr hv)
  have hmem : c ∈ v := List.mem_of_mem_getLast? hc
  have hout : c ∉ a := Text.not_mem_of_forall hchars (hlast c hc)
  rcases List.append_eq_append_iff.mp heq with ⟨b, rfl, -⟩ | ⟨b, rfl, hb⟩
  · exact hout (List.mem_append_left b hmem)
  · cases b with
    | nil => exact hout (by simpa using hmem)
    | cons d b =>
      obtain rfl : ':' = d := (List.cons.inj hb).1
      exact hcolon (List.mem_append_right a List.mem_cons_self)

theorem first?_staticCall_eq_none (h : ∀ u t, s ≠ u ++ ("::".toList ++ (f.toList ++ t))) :
    first? (anywhere (staticCall f)) s = none := by
  refine first?_eq_none fun prev u v hs => ?_
  rw [Option.eq_none_iff_forall_ne_some]
  rintro ⟨a, t⟩ hread
  obtain ⟨t, rfl, -⟩ := of_staticCall hread
  exact h (u ++ a) t (by rw [hs, List.append_assoc])

/-- No function but the one behind the only colons is called. -/
theorem first?_staticCall_other (hs : ':' ∉ s) (ht : ':' ∉ t) (hf : ¬ f.toList <+: t) :
    first? (anywhere (staticCall f)) (s ++ ("::".toList ++ t)) = none := by
  refine first?_staticCall_eq_none fun u v heq => hf ⟨v, ?_⟩
  have hcount := congrArg (List.count ':') heq
  have hu : ':' ∉ u := by
    rw [← List.count_eq_zero] at hs ht ⊢
    simp only [List.count_append, hs, ht] at hcount
    omega
  have hcut := congrArg (Text.cut? ':') heq
  have hleft : Text.cut? ':' (s ++ ("::".toList ++ t)) = some (s, ':' :: t) :=
    Text.cut?_append hs _
  have hright : Text.cut? ':' (u ++ ("::".toList ++ (f.toList ++ v))) =
      some (u, ':' :: (f.toList ++ v)) := Text.cut?_append hu _
  rw [hleft, hright] at hcut
  simp only [Option.some.injEq, Prod.mk.injEq, List.cons.injEq, true_and] at hcut
  exact hcut.2.symm

section Made

variable (hw : IsFront w) (ha : IsArguments a) (hr : IsReferenceTo x r)

include hw hr in
theorem first?_staticCall_append (f : String) (a : List Char) :
    first? (anywhere (staticCall f)) (w ++ (r ++ ("::".toList ++ (f.toList ++ '(' :: a)))) =
      some r := by
  rw [first?_append]
  · obtain ⟨c, s, hr', -⟩ := hr.exists_eq_cons
    exact first?_of_start (by simp [hr']) (hr.staticCall_append f a)
  · rintro u v rfl hv
    refine staticCall_append_eq_none hv (fun h => hw.colon (List.mem_append_right _ h)) ?_ _
    intro c hc
    rw [hw.last c (by rw [List.getLast?_append_of_ne_nil _ hv]; exact hc)]
    decide

include hw ha hr

/-- **Static calls are found where they are made**, and nowhere else. -/
theorem first?_staticCall_made (m : Making) (hf : f = "make" ∨ f = "collection") :
    first? (anywhere (staticCall f)) (w ++ made m r a) =
      if m.function? = some f then some r else none := by
  have hcolon : ':' ∉ a := ha.not_mem (by decide)
  have hname : ':' ∉ w ++ r :=
    List.not_mem_append hw.colon (Text.not_mem_of_forall hr.isClassChar (by decide))
  have hother : ∀ g : String, ':' ∉ g.toList → ¬ f.toList <+: g.toList ++ '(' :: a →
      first? (anywhere (staticCall f)) (w ++ (r ++ ("::".toList ++ (g.toList ++ '(' :: a)))) =
        none := by
    intro g hg hfg
    rw [← List.append_assoc]
    exact first?_staticCall_other hname (by simp_all) hfg
  -- Each way is found by its own function and by no other one.
  cases m with
  | construct =>
    have hnone : ':' ∉ w ++ made .construct r a := by simp_all [made, Making.function?]
    exact first?_staticCall_eq_none fun u t heq => hnone (heq ▸ by simp)
  | make =>
    rcases hf with rfl | rfl
    · exact first?_staticCall_append hw hr "make" a
    · exact hother "make" (by decide) (by simp)
  | collection =>
    rcases hf with rfl | rfl
    · exact hother "collection" (by decide) (by simp)
    · exact first?_staticCall_append hw hr "collection" a

end Made

/-! ## Constructions -/

theorem not_startsWithin_construction (h : Apart (· == 'w') Text.isBlank s)
    (hlast : ∀ c ∈ s.getLast?, c = ' ') : ¬ StartsWithin construction s := by
  rintro ⟨u, v, t, rfl, hv, -, hsome⟩
  obtain ⟨⟨a, t'⟩, hread⟩ := Option.isSome_iff_exists.mp hsome
  obtain ⟨b, y, heq, hb⟩ := of_construction hread
  -- the keyword is in the text as a whole, for none of its letters ends the text
  match v, hv with
  | [c], _ | [c, d], _ | [c, d, e], _ => simp_all
  | c :: d :: e :: b' :: v, _ =>
    simp only [List.cons_append, List.cons.injEq] at heq
    obtain ⟨rfl, rfl, rfl, rfl, -⟩ := heq
    have hapart : Apart (· == 'w') Text.isBlank ((u ++ ['n', 'e']) ++ 'w' :: b' :: v) := by
      simpa using h
    rw [hapart.eq_false (by decide)] at hb
    cases hb

theorem construction_eq_none (h : ∀ c ∈ s, Text.isBlank c = false) : construction s = none := by
  rw [Option.eq_none_iff_forall_ne_some]
  rintro ⟨a, t⟩ hread
  obtain ⟨b, u, rfl, hb⟩ := of_construction hread
  rw [h b (by simp)] at hb
  cases hb

theorem IsFront.endsWord (hw : IsFront w) : EndsWord w := by
  intro c hc
  rw [hw.last c hc]
  decide

theorem IsArguments.isBlank_eq_false (ha : IsArguments a) : ∀ c ∈ a, Text.isBlank c = false := by
  intro c hc
  have hchar := ha.chars c hc
  rw [isArgumentChar, Bool.or_eq_true, List.contains_iff_mem] at hchar
  rcases hchar with h | h
  · have := Text.toNat_of_isIdentChar h
    exact Text.isBlank_eq_false (by omega)
  · exact Text.forall_mem_eq_false (s := "$->)".toList) (by decide) c h

/-- No blank stands in a static call. -/
theorem isBlank_made (ha : IsArguments a) (hr : IsReferenceTo x r) {m : Making}
    (hm : m.function? ≠ none) : ∀ c ∈ made m r a, Text.isBlank c = false := by
  have hname := hr.isBlank_eq_false
  have hrest := ha.isBlank_eq_false
  cases hf : m.function? with
  | none => exact absurd hf hm
  | some f =>
    have hfunction : f.toList.any Text.isBlank = false := by
      cases m <;> cases hf <;> decide
    simp only [made, hf, List.forall_mem_append, List.forall_mem_cons]
    exact ⟨hname, Text.forall_mem_eq_false (by decide), Text.forall_mem_eq_false hfunction,
      by decide, hrest⟩

/-- **Constructions are found where they are made**, and nowhere else. -/
theorem first?_construction_made (hw : IsFront w) (ha : IsArguments a) (hr : IsReferenceTo x r)
    (m : Making) :
    first? (wordStart construction) (w ++ made m r a) =
      if m.function? = none then some r else none := by
  rw [first?_wordStart_append (not_startsWithin_construction hw.keyword hw.last) hw.endsWord]
  split
  · next hm =>
    rw [made, hm]
    exact first?_of_start (by simp) (hr.construction_append a)
  · next hm =>
    have hblank := isBlank_made ha hr hm
    refine first?_eq_none fun prev u v heq => wordStart_eq_none_of (construction_eq_none ?_) prev
    exact fun c hc => hblank c (heq ▸ List.mem_append_right u hc)

/-! ## The idioms of other expressions -/

/-- The expression is a call, none without arguments in it. -/
structure IsCall (e : List Char) : Prop where
  /-- It starts with a variable, a class or the keyword of a construction. -/
  start : ∀ c ∈ e.head?, c = '$' ∨ isClassStart c = true
  /-- It is closed. -/
  last : ∀ c ∈ e.getLast?, c = ')'
  /-- It is opened. -/
  opened : '(' ∈ e
  /-- It accesses nothing that may be missing. -/
  question : '?' ∉ e
  /-- It calls nothing without arguments. -/
  filled : Apart (· == '(') (· == ')') e

theorem isCall_made (hw : IsFront w) (ha : IsArguments a) (hr : IsReferenceTo x r) (m : Making) :
    IsCall (w ++ made m r a) := by
  refine ⟨fun d hd => ?_, fun d hd => ?_, ?_, ?_, ?_⟩
  · obtain ⟨d', s', hmade, hd'⟩ := hr.exists_made_eq_cons m a
    cases w with
    | nil =>
      rw [hmade] at hd
      cases hd
      exact .inr hd'
    | cons b w => exact .inl (hw.start d hd)
  · obtain ⟨s', rfl⟩ := ha.last
    rw [made_append, ← List.append_assoc, List.getLast?_concat] at hd
    exact (Option.some.inj hd).symm
  · cases m <;> simp [made, Making.function?]
  · have hquestion : '?' ∉ a := ha.not_mem (by decide)
    exact List.not_mem_append hw.question (hr.not_mem_made (by decide) (by decide) hquestion m)
  · -- what stands in front of the arguments closes nothing, and they open nothing
    have hclose : ')' ∉ made m r [] := hr.not_mem_made (by decide) (by decide) (by simp) m
    have hopen : '(' ∉ a := ha.not_mem (by decide)
    have hmade : Apart (· == '(') (· == ')') (made m r a) := by
      rw [← List.nil_append a, made_append]
      refine (Apart.of_not_mem_right hclose).append_of_head (.of_not_mem_left hopen) fun d hd => ?_
      obtain ⟨s', rfl⟩ := ha.start
      cases hd
      decide
    refine hw.filled.append_of_last hmade fun d hd => ?_
    rw [hw.last d hd]
    decide

theorem type?_searching {α : Type} (name : String) (r : Placed α)
    (type : Naming → List Char → α → Option String) (n : Naming) (e : List Char) :
    (Idiom.searching name r type).type? n e = (first? r e).bind (type n e) := by
  change ((find? r e).map fun f => type n e f.value).join = _
  rw [first?]
  cases find? r e <;> rfl

theorem type?_whole {name type : String} {p : List Char → Bool} (h : p (Text.trim e) = false)
    (n : Naming) : (Idiom.whole name p type).type? n e = none := by
  change (if p (Text.trim e) then some (some type) else none).join = none
  rw [h]
  rfl

namespace IsCall

theorem trim_eq (h : IsCall e) : Text.trim e = e := by
  refine Text.IsTrimmed.trim_eq ⟨fun c hc => ?_, fun c hc => ?_⟩
  · rcases h.start c hc with rfl | hc
    · decide
    · exact isBlank_of_isClassStart hc
  · rw [h.last c hc]
    decide

theorem exists_eq_cons (h : IsCall e) :
    ∃ c s, e = c :: s ∧ (c = '$' ∨ isClassStart c = true) := by
  obtain ⟨c, s, rfl⟩ := List.exists_cons_of_ne_nil (List.ne_nil_of_mem h.opened)
  exact ⟨c, s, rfl, h.start c rfl⟩

/-- A point in time ends in a call without arguments. -/
theorem type?_isoText (h : IsCall e) (n : Naming) : Idiom.isoText.type? n e = none := by
  rw [Idiom.isoText, type?_searching, first?_eq_none]
  · rfl
  rintro - u v rfl
  rw [Option.eq_none_iff_forall_ne_some]
  rintro ⟨⟨⟩, t⟩ h'
  obtain ⟨⟨⟩, s₁, hname, h'⟩ := bind_eq_some_iff.mp h'
  obtain ⟨z, s₂, hzulu, hstring⟩ := bind_eq_some_iff.mp h'
  have hs₁ : ∃ y, s₁ = y ++ s₂ := by
    cases z with
    | none => exact ⟨[], eq_of_maybe_eq_none hzulu⟩
    | some z => exact ⟨_, eq_append_of_text (of_maybe_eq_some hzulu)⟩
  obtain ⟨y, rfl⟩ := hs₁
  -- No brackets of a call are empty, and what is read ends with a pair that is.
  have hfilled := h.filled
  rw [eq_append_of_text hname, eq_append_of_text hstring] at hfilled
  have hpair : Apart (· == '(') (· == ')')
      ((u ++ ("toIso8601".toList ++ (y ++ "String".toList))) ++ '(' :: ')' :: t) := by
    simpa using hfilled
  exact absurd (hpair.eq_false (by decide)) (by decide)

theorem type?_nullsafeAccess (h : IsCall e) (n : Naming) :
    Idiom.nullsafeAccess.type? n e = none := by
  have hmark : StartsWith (text "?->") '?' := fun c s hc => text_eq_none rfl hc.symm s
  rw [Idiom.nullsafeAccess, type?_searching, Idiom.nullsafeMark, hmark.first?_eq_none h.question]
  rfl

theorem type?_booleanLiteral (h : IsCall e) (n : Naming) :
    Idiom.booleanLiteral.type? n e = none := by
  refine type?_whole ?_ n
  rw [h.trim_eq, Bool.or_eq_false_iff, beq_eq_false_iff_ne, beq_eq_false_iff_ne]
  have hopen : '(' ∈ e.map Idiom.foldLetter := List.mem_map.mpr ⟨'(', h.opened, by decide⟩
  constructor
  · intro heq
    rw [heq] at hopen
    exact absurd hopen (by decide)
  · intro heq
    rw [heq] at hopen
    exact absurd hopen (by decide)

theorem type?_numberLiteral (h : IsCall e) (n : Naming) :
    Idiom.numberLiteral.type? n e = none := by
  refine type?_whole ?_ n
  rw [h.trim_eq]
  obtain ⟨c, s, rfl, hc⟩ := h.exists_eq_cons
  have hminus : c ≠ '-' := by
    rintro rfl
    exact absurd hc (by decide)
  have hdigit : Text.isDigit c = false := by
    rcases hc with rfl | hc
    · decide
    · have hrange := toNat_of_isClassStart hc
      rw [Text.isDigit_eq_of_ascii (by omega), ← Bool.not_eq_true, Text.isDigit_iff]
      omega
  rw [accepts?, Idiom.plainNumber, bind_eq (maybe_eq_none (char_eq_none hminus s)),
    bind_eq_none (many1_eq_none hdigit)]
  rfl

theorem type?_stringLiteral (h : IsCall e) (n : Naming) :
    Idiom.stringLiteral.type? n e = none := by
  refine type?_whole ?_ n
  rw [h.trim_eq]
  obtain ⟨c, s, rfl, hc⟩ := h.exists_eq_cons
  have hquoted : ∀ q, q ≠ c → Idiom.isQuotedBy q (c :: s) = false := by
    intro q hq
    rw [Idiom.isQuotedBy, Text.after?_cons_of_ne hq]
    rfl
  have hsingle : '\'' ≠ c := by
    rintro rfl
    exact absurd hc (by decide)
  have hdouble : '"' ≠ c := by
    rintro rfl
    exact absurd hc (by decide)
  rw [hquoted _ hsingle, hquoted _ hdouble]
  rfl

end IsCall

/-! ## The table -/

/-- The type of what is made of the class `x` by itself. -/
def madeType? (n : Naming) (m : Making) (x : String) : Option String :=
  match m with
  | .construct => constructedType? n x
  | .make => if n.isResource x then some x else none
  | .collection =>
    if isOpenClass n x then
      if n.generic.contains x then some (TypeText.arrayOf TypeText.unknown) else none
    else some (collectedArray n x)

theorem inferType_eq (n : Naming) (companion : Option String) (e : List Char) :
    inferType n companion e =
      (idioms.findSome? fun i => i.type? n e).getD ((filled? companion).getD TypeText.unknown) := by
  unfold inferType filled?
  cases idioms.findSome? fun i => i.type? n e with
  | some t => rfl
  | none =>
    cases companion with
    | none => rfl
    | some c => by_cases hc : c = "" <;> simp [hc]

/-- **The type of what is made of a class** is the one by the name of the class, unless a mapped
function gives one before. -/
theorem inferType_made (hw : IsFront w) (ha : IsArguments a) (hr : IsReferenceTo x r)
    (n : Naming) (companion : Option String) (m : Making) :
    inferType n companion (w ++ made m r a) =
      ((Idiom.collectionMapping.type? n (w ++ made m r a)).or
        ((madeType? n m x).or (Idiom.mapShorthand.type? n (w ++ made m r a)))).getD
          ((filled? companion).getD TypeText.unknown) := by
  have hcall := isCall_made hw ha hr m
  have hshort : shortClass r = x := hr.shortClass_eq
  have hmake := first?_staticCall_made hw ha hr m (.inl rfl)
  have hcollection := first?_staticCall_made hw ha hr m (.inr rfl)
  have hconstruction := first?_construction_made hw ha hr m
  rw [inferType_eq]
  congr 1
  simp only [idioms, findSome?_cons_eq_or, List.findSome?_nil, hcall.type?_isoText,
    hcall.type?_nullsafeAccess, hcall.type?_booleanLiteral, hcall.type?_numberLiteral,
    hcall.type?_stringLiteral, Option.or_none]
  congr 1
  rw [Idiom.resourceCollection, Idiom.resourceConstruction, Idiom.resourceFactory,
    Idiom.genericCollection]
  simp only [type?_searching, hmake, hcollection, hconstruction]
  cases m with
  | construct => simp [Making.function?, madeType?, hshort]
  | make => simp [Making.function?, madeType?, hshort]
  | collection =>
    simp only [Making.function?, madeType?, reduceCtorEq, if_true, if_false, Option.bind_some,
      Option.bind_none, Option.none_or, hshort]
    cases isOpenClass n x <;> simp

end PayloadTypes.Response
