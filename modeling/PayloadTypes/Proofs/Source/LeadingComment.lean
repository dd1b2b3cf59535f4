import PayloadTypes.Proofs.Source.Closing
import PayloadTypes.Proofs.Text.Search
import PayloadTypes.Response.Inference
import PayloadTypes.Source.Member
/-!
# Comments in front of a source

The searches for the word `return` and for the header of a method read comments
like any other text. So a comment in front of a source changes nothing for the
array literal that the source returns just when the word does not start in the
comment, and nothing for the source of a method just when no header of the method
does (`leadingComment_unread_iff`). Where one does start, some source behind the
comment shows it: closing characters complete the literal or the method.
-/

namespace PayloadTypes.Source

open Text (AllBlank Reader)
open Text.Reader

variable {d : Char} {c h s t u v : List Char} {n : String}

/-! ## Comments -/

/-- A comment from its first character to its last. -/
inductive IsComment : List Char → Prop
  /-- A comment up to the first end mark of a block. -/
  | block {t : List Char} (h : ¬ ['*', '/'] <:+: t) : IsComment ('/' :: '*' :: (t ++ ['*', '/']))
  /-- Two slashes and the rest of the line. -/
  | line {t : List Char} (h : '\n' ∉ t) : IsComment ('/' :: '/' :: (t ++ ['\n']))
  /-- A hash and the rest of the line; a bracket would make it an attribute. -/
  | hash {t : List Char} (h : '\n' ∉ t) (hattribute : '[' ∉ t.head?) :
      IsComment ('#' :: (t ++ ['\n']))

theorem IsComment.getLast?_eq (hc : IsComment c) :
    c.getLast? = some '/' ∨ c.getLast? = some '\n' := by
  cases hc with
  | @block t =>
    exact .inl (List.getLast?_append_of_ne_nil ('/' :: '*' :: t) (List.cons_ne_nil '*' ['/']))
  | @line t =>
    exact .inr (List.getLast?_append_of_ne_nil ('/' :: '/' :: t) (List.cons_ne_nil '\n' []))
  | @hash t => exact .inr (List.getLast?_append_of_ne_nil ('#' :: t) (List.cons_ne_nil '\n' []))

/-- No word reaches out of a comment. -/
theorem IsComment.endsWord (hc : IsComment c) : EndsWord c := by
  intro d hd
  rcases hc.getLast?_eq with h | h <;> rw [h] at hd <;> cases hd <;> decide

/-- What a comment ends with does not start a text without its last character. -/
theorem IsComment.not_prefix (hc : IsComment (u ++ v)) (hv : v ≠ []) (hslash : '/' ∉ s)
    (hline : '\n' ∉ s) : ¬ v <+: s := by
  intro hfront
  have hlast := hc.getLast?_eq
  rw [List.getLast?_append_of_ne_nil u hv] at hlast
  rcases hlast with h | h
  · exact hslash (hfront.subset (List.mem_of_getLast? h))
  · exact hline (hfront.subset (List.mem_of_getLast? h))

/-! ## Returned literals -/

/-- The content of the first literal behind the word `return`. -/
def literalBehind? (s : List Char) : Option (List Char) :=
  (Text.cut? '[' s).bind fun p => (enclosed? '[' p.2).map fun q => Text.trim q.1

theorem returnedLiteral?_eq (s : List Char) :
    returnedLiteral? s = (find? (wordStart returnWord) s).bind fun f => literalBehind? f.after := by
  rw [returnedLiteral?]
  refine Option.bind_congr fun f _ => Option.bind_congr fun p _ => ?_
  obtain ⟨front, rest⟩ := p
  cases hrest : enclosed? '[' rest <;> simp [hrest]

theorem returnedLiteral?_append (hc : ¬ StartsWithin returnWord c) (hend : EndsWord c)
    (s : List Char) : returnedLiteral? (c ++ s) = returnedLiteral? s := by
  rw [returnedLiteral?_eq, returnedLiteral?_eq, find?_append hc hend, Option.bind_map]
  rfl

/-- Closing characters, behind an opening bracket if there is none, complete a literal. -/
theorem exists_literalBehind? (s : List Char) :
    ∃ x, 'r' ∉ x ∧ (literalBehind? (s ++ x)).isSome := by
  have hbracket : IsOpener '[' := .inr (.inl rfl)
  by_cases hs : '[' ∈ s
  · obtain ⟨a, q, rfl, ha⟩ := List.eq_append_cons_of_mem hs
    obtain ⟨x, hx, hclosed⟩ := hbracket.exists_enclosed? q
    refine ⟨x, fun hr => absurd (hx 'r' hr) (by decide), ?_⟩
    rw [literalBehind?, List.append_assoc, List.cons_append, Text.cut?_append ha, Option.bind_some,
      Option.isSome_map, hclosed]
  · have hclosed := (Code.nil : Code true []).enclosed?_append hbracket []
    refine ⟨['[', ']'], by decide, ?_⟩
    rw [literalBehind?, Text.cut?_append hs, Option.bind_some, Option.isSome_map]
    exact Option.isSome_of_eq_some hclosed

theorem returnWord_eq_some_iff :
    returnWord s = some ((), t) ↔
      s = "return".toList ++ t ∧ ∀ c ∈ t.head?, Text.isWord c = false := by
  rw [returnWord, bind_eq_some_iff]
  constructor
  · rintro ⟨⟨⟩, s', htext, hend⟩
    obtain ⟨rfl, hhead⟩ := wordEnd_eq_some_iff.mp hend
    exact ⟨eq_append_of_text htext, hhead⟩
  · rintro ⟨rfl, hhead⟩
    exact ⟨(), t, text_append rfl t, wordEnd_eq_some_iff.mpr ⟨rfl, hhead⟩⟩

theorem not_startsWithin_returnWord (h : 'r' ∉ s) : ¬ StartsWithin returnWord s := by
  refine not_startsWithin (fun c s hsome => ?_) h
  obtain ⟨⟨⟨⟩, t⟩, ht⟩ := Option.isSome_iff_exists.mp hsome
  exact (List.cons.inj (returnWord_eq_some_iff.mp ht).1).1

theorem returnedLiteral?_eq_none (h : 'r' ∉ s) : returnedLiteral? s = none := by
  rw [returnedLiteral?_eq, find?_eq_none (not_startsWithin_returnWord h)]
  rfl

/-- **A comment in which the word `return` starts is read.** -/
theorem IsComment.exists_returnedLiteral? (hc : IsComment c) (h : StartsWithin returnWord c) :
    ∃ s, returnedLiteral? s = none ∧ (returnedLiteral? (c ++ s)).isSome := by
  obtain ⟨u, v, rfl, hv, ⟨t, ht⟩, hfirst⟩ := h.exists_first
  obtain ⟨⟨⟨⟩, rest⟩, ht⟩ := Option.isSome_iff_exists.mp ht
  obtain ⟨hword, hend⟩ := returnWord_eq_some_iff.mp ht
  have hnot : ¬ v <+: "return".toList := hc.not_prefix hv (by decide) (by decide)
  -- the word stands in the comment as a whole, and something of the comment behind it
  rcases List.append_eq_append_iff.mp hword with ⟨x, hreturn, -⟩ | ⟨after, hafter, hrest⟩
  · exact absurd ⟨x, hreturn.symm⟩ hnot
  · obtain ⟨d, after, rfl⟩ : ∃ d l, after = d :: l := by
      refine List.exists_cons_of_ne_nil ?_
      rintro rfl
      rw [List.append_nil] at hafter
      exact hnot (hafter ▸ List.prefix_rfl)
    obtain ⟨x, hx, hliteral⟩ := exists_literalBehind? (d :: after)
    have hd : Text.isWord d = false := hend d (by rw [hrest]; rfl)
    have hread : returnWord (v ++ x) = some ((), d :: after ++ x) := by
      rw [returnWord_eq_some_iff, hafter, List.append_assoc]
      exact ⟨rfl, forall_mem_head?_cons hd _⟩
    refine ⟨x, returnedLiteral?_eq_none hx, ?_⟩
    rw [returnedLiteral?_eq, hfirst x () _ hread]
    exact hliteral

/-! ## Methods -/

/-- A character of a method's name. -/
def isMethodChar (c : Char) : Bool := Text.isIdentChar c || 128 ≤ c.toNat

/-- The header of a method as it may be written. -/
def IsHeader (n : String) (h : List Char) : Prop :=
  ∃ gap mark gap', gap ≠ [] ∧ AllBlank gap ∧ (mark = [] ∨ mark = ['&']) ∧ AllBlank gap' ∧
    h = "function".toList ++ (gap ++ (mark ++ (n.toList ++ (gap' ++ ['(']))))

/-- What stands behind a header of a method without parameters and statements. -/
def emptyMethod : List Char := [')', '\x7b', '\x7d']

/-- The name of a method and the parenthesis behind it. -/
def nameAndParen (n : String) : Reader Unit := do
  text n
  blanks
  char '('

theorem methodHeader_eq (n : String) : methodHeader n = (do
    text "function"
    blanksThen ((do
      char '&'
      nameAndParen n) <|> nameAndParen n)) := rfl

theorem exists_of_nameAndParen (hread : nameAndParen n s = some ((), t)) :
    ∃ gap, AllBlank gap ∧ s = n.toList ++ (gap ++ '(' :: t) := by
  obtain ⟨⟨⟩, s₁, hname, hrest⟩ := bind_eq_some_iff.mp hread
  obtain ⟨⟨⟩, s₂, hblanks, hparen⟩ := bind_eq_some_iff.mp hrest
  obtain ⟨gap, hgap, rfl⟩ := exists_eq_append_of_blanks hblanks
  rw [eq_append_of_text hname, eq_cons_of_char hparen]
  exact ⟨gap, hgap, rfl⟩

theorem nameAndParen_append {gap : List Char} (hgap : AllBlank gap) (t : List Char) :
    nameAndParen n (n.toList ++ (gap ++ '(' :: t)) = some ((), t) := by
  have hparen : ∀ c ∈ ('(' :: t).head?, Text.isBlank c = false :=
    forall_mem_head?_cons (by decide) t
  rw [nameAndParen, bind_eq (text_append rfl _), bind_eq (blanks_append hgap hparen), char_cons]

/-- A header is read up to its parenthesis. -/
theorem exists_isHeader (hread : methodHeader n s = some ((), t)) :
    ∃ h, IsHeader n h ∧ s = h ++ t := by
  rw [methodHeader_eq] at hread
  obtain ⟨⟨⟩, s₁, hword, hgaps⟩ := bind_eq_some_iff.mp hread
  obtain ⟨gap, s₂, hne, hgap, rfl, hmarked⟩ := exists_eq_append_of_blanksThen hgaps
  rw [eq_append_of_text hword]
  rw [orElse_apply, Option.orElse_eq_or, Option.or_eq_some_iff] at hmarked
  rcases hmarked with hmarked | ⟨-, hplain⟩
  · obtain ⟨⟨⟩, s₃, hmark, hplain⟩ := bind_eq_some_iff.mp hmarked
    obtain ⟨gap', hgap', rfl⟩ := exists_of_nameAndParen hplain
    rw [eq_cons_of_char hmark]
    exact ⟨_, ⟨gap, ['&'], gap', hne, hgap, .inr rfl, hgap', rfl⟩, by simp⟩
  · obtain ⟨gap', hgap', rfl⟩ := exists_of_nameAndParen hplain
    exact ⟨_, ⟨gap, [], gap', hne, hgap, .inl rfl, hgap', rfl⟩, by simp⟩

theorem IsHeader.isSome_methodHeader (hh : IsHeader n h) (t : List Char) :
    (methodHeader n (h ++ t)).isSome := by
  obtain ⟨gap, mark, gap', hne, hgap, hmark, hgap', rfl⟩ := hh
  have hplain := nameAndParen_append (n := n) hgap' t
  simp only [List.append_assoc, List.singleton_append]
  rw [methodHeader_eq, bind_eq (text_append rfl _)]
  refine isSome_blanksThen hne hgap ?_
  rw [orElse_apply, Option.orElse_eq_or, Option.isSome_or, Bool.or_eq_true]
  rcases hmark with rfl | rfl
  · exact .inr (Option.isSome_of_eq_some hplain)
  · have hmarked := (bind_eq (f := fun _ => nameAndParen n) (char_cons '&' _)).trans hplain
    exact .inl (Option.isSome_of_eq_some hmarked)

/-- The parenthesis of a header is its first one. -/
theorem IsHeader.exists_eq (hh : IsHeader n h) (hn : '(' ∉ n.toList) :
    ∃ a, '(' ∉ a ∧ h = a ++ ['('] := by
  obtain ⟨gap, mark, gap', -, hgap, hmark, hgap', rfl⟩ := hh
  refine ⟨"function".toList ++ (gap ++ (mark ++ (n.toList ++ gap'))), ?_, by simp⟩
  have hblank : Text.isBlank '(' = false := by decide
  have hmark : '(' ∉ mark := by
    rcases hmark with rfl | rfl <;> decide
  simp only [List.mem_append, not_or]
  exact ⟨by decide, Text.not_mem_of_forall hgap hblank, hmark, hn,
    Text.not_mem_of_forall hgap' hblank⟩

theorem IsHeader.methodHeader_append (hh : IsHeader n h) (hn : '(' ∉ n.toList) (t : List Char) :
    methodHeader n (h ++ t) = some ((), t) := by
  obtain ⟨⟨⟨⟩, t'⟩, hread⟩ := Option.isSome_iff_exists.mp (hh.isSome_methodHeader t)
  obtain ⟨h', hh', heq⟩ := exists_isHeader hread
  obtain ⟨a, ha, rfl⟩ := hh.exists_eq hn
  obtain ⟨a', ha', rfl⟩ := hh'.exists_eq hn
  have hcut := congrArg (Text.cut? '(') heq
  rw [List.append_assoc, List.append_assoc, List.singleton_append, List.singleton_append,
    Text.cut?_append ha, Text.cut?_append ha'] at hcut
  obtain ⟨-, rfl⟩ := Prod.mk.inj (Option.some.inj hcut)
  exact hread

theorem not_startsWithin_methodHeader (h : 'f' ∉ s) : ¬ StartsWithin (methodHeader n) s := by
  refine not_startsWithin (fun c s hsome => ?_) h
  obtain ⟨⟨⟨⟩, t⟩, ht⟩ := Option.isSome_iff_exists.mp hsome
  obtain ⟨h, ⟨gap, mark, gap', -, -, -, -, rfl⟩, heq⟩ := exists_isHeader ht
  exact (List.cons.inj heq).1

theorem afterMethod?_emptyMethod (s : List Char) : afterMethod? (emptyMethod ++ s) = some s := by
  have hparen : enclosed? '(' (emptyMethod ++ s) = some ([], '\x7b' :: '\x7d' :: s) :=
    (Code.nil : Code true []).enclosed?_append (.inl rfl) _
  have hbrace : enclosed? '\x7b' ('\x7d' :: s) = some ([], s) :=
    (Code.nil : Code true []).enclosed?_append (.inr (.inr rfl)) _
  rw [afterMethod?, hparen]
  simp [hbrace]

/-- A method is returned from its first word on. -/
theorem methodSource?_of_find?
    (hfind : find? (wordStart (methodHeader n)) (u ++ s) = some ⟨u, (), t⟩) :
    methodSource? (u ++ s) n =
      (afterMethod? t).map fun rest => s.take (s.length - rest.length) := by
  rw [methodSource?, hfind]
  simp only [Option.bind_eq_bind, Option.bind_some, List.drop_left, Option.pure_def]
  cases afterMethod? t <;> rfl

theorem methodSource?_append (hc : ¬ StartsWithin (methodHeader n) c) (hend : EndsWord c)
    (b : List Char) : methodSource? (c ++ b) n = methodSource? b n := by
  rw [methodSource?, methodSource?, find?_append hc hend]
  simp only [Option.bind_eq_bind, Option.bind_map]
  refine Option.bind_congr fun f _ => ?_
  have hdrop : (c ++ b).drop (c ++ f.before).length = b.drop f.before.length := by
    rw [List.length_append, List.drop_length_add_append]
  simp only [Function.comp_apply, Found.behind, hdrop]

theorem length_methodSource?_le {m : List Char} (h : methodSource? s n = some m) :
    m.length ≤ s.length := by
  rw [methodSource?] at h
  obtain ⟨f, -, h⟩ := Option.bind_eq_some_iff.mp h
  obtain ⟨rest, -, h⟩ := Option.bind_eq_some_iff.mp h
  cases h
  simp only [List.length_take, List.length_drop]
  omega

/-- A comment that ends in the middle of a header is read if the rest of the header follows. -/
theorem methodSource?_ne_of_across {x : List Char} (hh : IsHeader n (v ++ x))
    (hn : '(' ∉ n.toList) (hv : v ≠ [])
    (hfirst : ∀ t rest, methodHeader n (v ++ t) = some ((), rest) →
      find? (wordStart (methodHeader n)) (u ++ v ++ t) = some ⟨u, (), rest⟩) :
    methodSource? (u ++ v ++ (x ++ emptyMethod)) n ≠ methodSource? (x ++ emptyMethod) n := by
  have hread : methodHeader n (v ++ (x ++ emptyMethod)) = some ((), emptyMethod) := by
    rw [← List.append_assoc]
    exact hh.methodHeader_append hn emptyMethod
  have hfind := hfirst _ _ hread
  have hafter := afterMethod?_emptyMethod []
  rw [List.append_nil] at hafter
  intro heq
  rw [List.append_assoc] at hfind heq
  rw [methodSource?_of_find? hfind, hafter] at heq
  -- the whole method is longer than what stands behind the comment
  have hlength := length_methodSource?_le heq.symm
  have hpos := List.length_pos_iff.mpr hv
  simp only [List.length_take, List.length_append, List.length_nil] at hlength
  omega

/-- The header of a method with nothing but a blank in it. -/
def plainHeader (n : String) : List Char := "function ".toList ++ (n.toList ++ ['('])

theorem isHeader_plainHeader (n : String) : IsHeader n (plainHeader n) :=
  ⟨[' '], [], [], List.cons_ne_nil _ _, Text.allBlank_space, .inl rfl, Text.allBlank_nil, rfl⟩

theorem not_mem_plainHeader_append (hn : ∀ x ∈ n.toList, isMethodChar x = true)
    (hd : isMethodChar d = false) (hword : d ∉ "function ".toList) (hparen : d ≠ '(')
    (hempty : d ∉ emptyMethod) : d ∉ plainHeader n ++ emptyMethod := by
  have hname : d ∉ n.toList ++ ['('] :=
    List.not_mem_append (Text.not_mem_of_forall hn hd) (mt List.mem_singleton.mp hparen)
  exact List.not_mem_append (List.not_mem_append hword hname) hempty

/-- The source of an empty method is all of it. -/
theorem methodSource?_plainHeader (hn : '(' ∉ n.toList) :
    methodSource? (plainHeader n ++ emptyMethod) n = some (plainHeader n ++ emptyMethod) := by
  have hread := (isHeader_plainHeader n).methodHeader_append hn emptyMethod
  have hafter := afterMethod?_emptyMethod []
  rw [List.append_nil] at hafter
  have hfind : find? (wordStart (methodHeader n)) ([] ++ (plainHeader n ++ emptyMethod)) =
      some ⟨[], (), emptyMethod⟩ :=
    find?_of_start (List.append_ne_nil_of_right_ne_nil _ (List.cons_ne_nil _ _)) hread
  have hsource := methodSource?_of_find? hfind
  rwa [hafter, Option.map_some, List.length_nil, Nat.sub_zero, List.take_length,
    List.nil_append] at hsource

/-- **A comment that holds a header is read**, if an empty method follows or if nothing does: were
the empty method found in both, it would stand in the comment as a whole. -/
theorem IsComment.methodSource?_ne_of_within (hc : IsComment (u ++ v)) (hh : IsHeader n h)
    (hn : ∀ x ∈ n.toList, isMethodChar x = true) (hv : v = h ++ s)
    (hfirst : ∀ t rest, methodHeader n (v ++ t) = some ((), rest) →
      find? (wordStart (methodHeader n)) (u ++ v ++ t) = some ⟨u, (), rest⟩) :
    ∃ b, methodSource? (u ++ v ++ b) n ≠ methodSource? b n := by
  by_contra hall
  simp only [not_exists, ne_eq, not_not] at hall
  have hparen : '(' ∉ n.toList := Text.not_mem_of_forall hn (by decide)
  -- With an empty method behind both, the comment starts with that method or the method with it.
  have hmethod : plainHeader n ++ emptyMethod <+: v ++ (plainHeader n ++ emptyMethod) := by
    have hread : methodHeader n (v ++ (plainHeader n ++ emptyMethod)) =
        some ((), s ++ (plainHeader n ++ emptyMethod)) := by
      rw [hv, List.append_assoc]
      exact hh.methodHeader_append hparen _
    have hfind := hfirst _ _ hread
    have hboth := hall (plainHeader n ++ emptyMethod)
    rw [List.append_assoc] at hfind hboth
    rw [methodSource?_plainHeader hparen, methodSource?_of_find? hfind] at hboth
    obtain ⟨rest, -, htake⟩ := Option.map_eq_some_iff.mp hboth
    have hprefix := List.take_prefix
      ((v ++ (plainHeader n ++ emptyMethod)).length - rest.length)
      (v ++ (plainHeader n ++ emptyMethod))
    rwa [htake] at hprefix
  rcases List.prefix_or_prefix_of_prefix hmethod (List.prefix_append _ _) with ⟨w, hw⟩ | hprefix
  · -- with nothing behind, the method in the comment would be found, and there is none without it
    have hread : methodHeader n (v ++ []) = some ((), emptyMethod ++ w) := by
      rw [List.append_nil, ← hw, List.append_assoc]
      exact (isHeader_plainHeader n).methodHeader_append hparen _
    have hfind := hfirst _ _ hread
    have hnothing := hall []
    rw [List.append_assoc] at hfind hnothing
    rw [methodSource?_of_find? hfind, afterMethod?_emptyMethod] at hnothing
    cases hnothing
  · -- a comment that ends within the method has its end mark there
    have hne : v ≠ [] := by
      obtain ⟨a, -, rfl⟩ := hh.exists_eq hparen
      simp [hv]
    have hslash : '/' ∉ plainHeader n ++ emptyMethod :=
      not_mem_plainHeader_append hn (by decide) (by decide) (by decide) (by decide)
    have hline : '\n' ∉ plainHeader n ++ emptyMethod :=
      not_mem_plainHeader_append hn (by decide) (by decide) (by decide) (by decide)
    exact hc.not_prefix hne hslash hline hprefix

/-- **A comment in which a header of the method starts is read.** -/
theorem IsComment.exists_methodSource?_ne (hc : IsComment c)
    (hn : ∀ x ∈ n.toList, isMethodChar x = true) (h : StartsWithin (methodHeader n) c) :
    ∃ b, methodSource? (c ++ b) n ≠ methodSource? b n := by
  obtain ⟨u, v, rfl, hv, ⟨t, ht⟩, hfirst⟩ := h.exists_first
  obtain ⟨⟨⟨⟩, rest⟩, hread⟩ := Option.isSome_iff_exists.mp ht
  obtain ⟨h, hh, heq⟩ := exists_isHeader hread
  rcases List.append_eq_append_iff.mp heq with ⟨x, rfl, -⟩ | ⟨after, hafter, -⟩
  · have hparen : '(' ∉ n.toList := Text.not_mem_of_forall hn (by decide)
    exact ⟨x ++ emptyMethod,
      methodSource?_ne_of_across hh hparen hv fun t rest => hfirst t () rest⟩
  · exact hc.methodSource?_ne_of_within hh hn hafter fun t rest => hfirst t () rest

/-! ## Comments that are not read -/

/-- **A comment in front of a source is not read** for the fields of a response just when the word
`return` does not start in it, and not for a method just when no header of the method does. -/
theorem leadingComment_unread_iff (hc : IsComment c) (hn : ∀ x ∈ n.toList, isMethodChar x = true) :
    ((∀ naming companions s, Response.fields? naming companions (String.ofList (c ++ s)) =
      Response.fields? naming companions (String.ofList s)) ↔ ¬ StartsWithin returnWord c) ∧
    ((∀ b, methodSource? (c ++ b) n = methodSource? b n) ↔
      ¬ StartsWithin (methodHeader n) c) := by
  refine ⟨⟨fun hall h => ?_, fun h naming companions s => ?_⟩, fun hall h => ?_, fun h => ?_⟩
  · obtain ⟨s, hnone, hsome⟩ := hc.exists_returnedLiteral? h
    have heq := hall .standard {} s
    simp only [Response.fields?, String.toList_ofList, hnone, Option.map_none,
      Option.map_eq_none_iff] at heq
    rw [heq] at hsome
    cases hsome
  · simp only [Response.fields?, String.toList_ofList, returnedLiteral?_append h hc.endsWord]
  · obtain ⟨b, hb⟩ := hc.exists_methodSource?_ne hn h
    exact hb (hall b)
  · exact methodSource?_append h hc.endsWord

/-- An apostrophe and brackets in a comment do not matter. -/
theorem unread_apostropheComment :
    (IsComment "/* isn't [ */".toList ∧ ∀ x ∈ "toArray".toList, isMethodChar x = true) ∧
    (∀ naming companions s,
      Response.fields? naming companions (String.ofList ("/* isn't [ */".toList ++ s)) =
        Response.fields? naming companions (String.ofList s)) ∧
    ∀ b, methodSource? ("/* isn't [ */".toList ++ b) "toArray" = methodSource? b "toArray" := by
  have hc : IsComment "/* isn't [ */".toList := by
    have hinside : ¬ ['*', '/'] <:+: " isn't [ ".toList := by
      simp
      decide
    simpa using IsComment.block hinside
  have hn : ∀ x ∈ "toArray".toList, isMethodChar x = true := by
    simp
    decide
  have hiff := leadingComment_unread_iff hc hn
  exact ⟨⟨hc, hn⟩, hiff.1.mpr (not_startsWithin_returnWord (by simp)),
    hiff.2.mpr (not_startsWithin_methodHeader (by simp))⟩

/-- A literal in a comment is read in the place of the one behind it. -/
theorem fields?_literal_in_comment :
    IsComment "// return [];\n".toList ∧
    Response.fields? .standard {} ("// return [];\n" ++ "return ['id' => 1];") = some [] ∧
    Response.fields? .standard {} "return ['id' => 1];" = some [⟨"id", "number", false⟩] := by
  have hc : IsComment "// return [];\n".toList := by
    have hinside : '\n' ∉ " return [];".toList := by simp
    simpa using IsComment.line hinside
  exact ⟨hc, by decide +kernel, by decide +kernel⟩

end PayloadTypes.Source
