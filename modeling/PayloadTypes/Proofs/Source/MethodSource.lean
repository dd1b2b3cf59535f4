import PayloadTypes.Proofs.Source.ClosingBracket
/-!
# Methods cut out of a body

The source of a method goes from its first word to the brace that closes its
statements. Nothing behind that brace is looked at: neither the header nor the
brackets of a method read any further, and the search for the header finds its
first parenthesis in the method. So the source that is cut out holds the same
method, and a longer body has it too (`isMethod_and_again_of_methodSource?`).
-/

namespace PayloadTypes.Source

open Text.Reader

variable {n : String} {o : Char} {b more rest s t : List Char} {f : Found Unit}

/-! ## Methods in a body -/

/-- A method in a body, piece by piece. -/
structure Method where
  /-- The text in front of it. -/
  before : List Char
  /-- Its header, up to the parenthesis that opens its parameters. -/
  header : List Char
  /-- Its parameters. -/
  params : List Char
  /-- What stands between its parameters and its statements. -/
  gap : List Char
  /-- Its statements. -/
  statements : List Char
  /-- The text behind it. -/
  after : List Char

namespace Method

/-- The method from its first word to its closing brace. -/
def source (m : Method) : List Char :=
  m.header ++ (m.params ++ ')' :: (m.gap ++ '\x7b' :: (m.statements ++ ['\x7d'])))

/-- The body that it stands in. -/
def within (m : Method) : List Char := m.before ++ (m.source ++ m.after)

/-- The place of the parenthesis that opens its parameters. -/
def openParen (m : Method) : Nat := m.before.length + m.header.length - 1

/-- The place of the parenthesis that closes them. -/
def closeParen (m : Method) : Nat := m.openParen + 1 + m.params.length

/-- The place of the brace that opens its statements. -/
def openBrace (m : Method) : Nat := m.closeParen + 1 + m.gap.length

/-- The place of its last character. -/
def last (m : Method) : Nat := m.before.length + m.source.length - 1

/-- The pieces are those of a method with the name `n`. -/
structure Is (m : Method) (n : String) : Prop where
  /-- No word reaches into it. -/
  start : EndsWord m.before
  /-- It has a header. -/
  header : IsHeader n m.header
  /-- Its parameters end where their parenthesis is closed. -/
  params : closingIndex? m.within m.openParen = some m.closeParen
  /-- Its first brace opens its statements, and no semicolon stands in front of it. -/
  gap : ∀ c ∈ m.gap, c ≠ '\x7b' ∧ c ≠ ';'
  /-- It ends where that brace is closed. -/
  statements : closingIndex? m.within m.openBrace = some m.last

end Method

/-! ## Headers -/

theorem methodHeader_eq_of_paren {x y : List Char} (hn : '(' ∉ n.toList) (hx : '(' ∉ x)
    (h : methodHeader n (x ++ '(' :: y) = some ((), t)) : IsHeader n (x ++ ['(']) ∧ t = y := by
  obtain ⟨h, hh, heq⟩ := exists_isHeader h
  obtain ⟨a, ha, rfl⟩ := hh.exists_eq hn
  have hcut := congrArg (Text.cut? '(') heq
  rw [List.append_assoc, List.singleton_append, Text.cut?_append hx, Text.cut?_append ha] at hcut
  obtain ⟨rfl, rfl⟩ := Prod.mk.inj (Option.some.inj hcut)
  exact ⟨hh, rfl⟩

/-- A header is read within a text that has a parenthesis. -/
theorem methodHeader_append_right (hn : '(' ∉ n.toList) (hs : '(' ∈ s) (more : List Char) :
    methodHeader n (s ++ more) = (methodHeader n s).map fun x => (x.1, x.2 ++ more) := by
  obtain ⟨x, y, rfl, hx⟩ := List.eq_append_cons_of_mem hs
  rw [List.append_assoc, List.cons_append]
  -- A header ends with the first parenthesis, so the text up to it decides whether one is read.
  by_cases hh : IsHeader n (x ++ ['('])
  · have hread : ∀ z, methodHeader n (x ++ '(' :: z) = some ((), z) := by
      intro z
      have := hh.methodHeader_append hn z
      rwa [List.append_assoc, List.singleton_append] at this
    rw [hread, hread]
    rfl
  · have hread : ∀ z, methodHeader n (x ++ '(' :: z) = none := by
      intro z
      rw [Option.eq_none_iff_forall_not_mem]
      rintro ⟨⟨⟩, t⟩ ht
      exact hh (methodHeader_eq_of_paren hn hx ht).1
    rw [hread, hread]
    rfl

/-- **The first header of a body is the first one of every longer body.** -/
theorem find?_methodHeader (hn : '(' ∉ n.toList)
    (hf : find? (wordStart (methodHeader n)) b = some f) :
    ∃ h, EndsWord f.before ∧ IsHeader n h ∧ b = f.before ++ (h ++ f.after) ∧
      ∀ more, find? (wordStart (methodHeader n)) (b ++ more) =
        some ⟨f.before, (), f.after ++ more⟩ := by
  obtain ⟨u, hbody, hread⟩ := of_findFrom?_eq_some hf
  have hstart : EndsWord f.before := by
    by_contra hword
    rw [wordStart_eq_none hword] at hread
    cases hread
  rw [wordStart_of_endsWord hstart] at hread
  obtain ⟨h, hh, rfl⟩ := exists_isHeader hread
  refine ⟨h, hstart, hh, hbody,
    fun more => findFrom?_append_right hf fun prev u v hs hlength => ?_⟩
  -- from a place up to the header, the parenthesis of the header is in sight
  have hparen : '(' ∈ v := by
    obtain ⟨a, -, rfl⟩ := hh.exists_eq hn
    have hsuffix : (a ++ ['(']) ++ f.after <:+ v := by
      refine List.suffix_of_suffix_length_le ⟨f.before, hbody.symm⟩ ⟨u, hs.symm⟩ ?_
      have := congrArg List.length (hbody.symm.trans hs)
      simp only [List.length_append] at this ⊢
      omega
    exact hsuffix.subset (by simp)
  rw [wordStart_eq_ite, wordStart_eq_ite, methodHeader_append_right hn hparen]
  split <;> rfl

/-! ## Brackets -/

theorem closingIndex?_append {u v : List Char} (h : enclosed? o s = some (u, v)) (t : List Char) :
    closingIndex? (t ++ o :: s) t.length = some (t.length + 1 + u.length) := by
  have hdrop : (t ++ o :: s).drop (t.length + 1) = s := by
    rw [List.drop_length_add_append]
    rfl
  simp [closingIndex?, hdrop, h]

/-- The pieces that a bracket closes off, whatever stands behind them. -/
def Encloses (o : Char) (inside : List Char) : Prop :=
  ∀ rest, enclosed? o (inside ++ closer o :: rest) = some (inside, rest)

theorem afterMethod?_eq_some (h : afterMethod? t = some rest) :
    ∃ params gap statements, Encloses '(' params ∧ (∀ c ∈ gap, c ≠ '\x7b' ∧ c ≠ ';') ∧
      Encloses '\x7b' statements ∧
      t = params ++ ')' :: (gap ++ '\x7b' :: (statements ++ '\x7d' :: rest)) := by
  obtain ⟨⟨params, behind⟩, hclosed, hbrace⟩ := Option.bind_eq_some_iff.mp h
  obtain ⟨rfl, hparams⟩ := IsOpener.enclosed?_eq_some (.inl rfl) hclosed
  dsimp only at hbrace
  split at hbrace
  · next inner hdrop =>
    obtain ⟨⟨statements, rest'⟩, hclosed, rfl⟩ := Option.map_eq_some_iff.mp hbrace
    obtain ⟨rfl, hstatements⟩ := IsOpener.enclosed?_eq_some (.inr (.inr rfl)) hclosed
    refine ⟨params, behind.takeWhile fun c => c != '\x7b' && c != ';', statements, hparams,
      fun c hc => ?_, hstatements, ?_⟩
    · simpa using List.mem_takeWhile_imp hc
    · conv_lhs => rw [← List.takeWhile_append_dropWhile (l := behind)
        (p := fun c => c != '\x7b' && c != ';'), hdrop]
      rfl
  · cases hbrace

theorem afterMethod?_append {params gap statements : List Char} (hparams : Encloses '(' params)
    (hgap : ∀ c ∈ gap, c ≠ '\x7b' ∧ c ≠ ';') (hstatements : Encloses '\x7b' statements)
    (rest : List Char) :
    afterMethod? (params ++ ')' :: (gap ++ '\x7b' :: (statements ++ '\x7d' :: rest))) =
      some rest := by
  have hdrop : (gap ++ '\x7b' :: (statements ++ '\x7d' :: rest)).dropWhile
      (fun c => c != '\x7b' && c != ';') = '\x7b' :: (statements ++ '\x7d' :: rest) := by
    refine Text.dropWhile_append (fun c hc => ?_) (by simp)
    simpa using hgap c hc
  have hclosed : enclosed? '(' (params ++ ')' :: (gap ++ '\x7b' :: (statements ++ '\x7d' :: rest)))
      = some (params, _) := hparams _
  have hbody : enclosed? '\x7b' (statements ++ '\x7d' :: rest) = some (statements, rest) :=
    hstatements rest
  rw [afterMethod?, hclosed]
  simp [hdrop, hbody]

/-! ## Cutting a method out -/

/-- The pieces of a method and what decides them. -/
structure Method.Cut (m : Method) (n : String) : Prop where
  /-- No word reaches into it. -/
  start : EndsWord m.before
  /-- It has a header. -/
  header : IsHeader n m.header
  /-- Its parameters are closed off. -/
  params : Encloses '(' m.params
  /-- Its first brace opens its statements, and no semicolon stands in front of it. -/
  gap : ∀ c ∈ m.gap, c ≠ '\x7b' ∧ c ≠ ';'
  /-- Its statements are closed off. -/
  statements : Encloses '\x7b' m.statements

namespace Method.Cut

variable {m : Method}

/-- Behind the header of a method stands the rest of it. -/
theorem afterMethod?_eq (h : m.Cut n) (rest : List Char) :
    ∃ t, m.source ++ rest = m.header ++ t ∧ afterMethod? t = some rest :=
  ⟨m.params ++ ')' :: (m.gap ++ '\x7b' :: (m.statements ++ '\x7d' :: rest)),
    by simp [Method.source], afterMethod?_append h.params h.gap h.statements rest⟩

/-- A method is cut out where its header is found. -/
theorem methodSource?_eq (h : m.Cut n) {u rest : List Char}
    (hfind : ∀ t, m.source ++ rest = m.header ++ t →
      find? (wordStart (methodHeader n)) (u ++ (m.source ++ rest)) = some ⟨u, (), t⟩) :
    methodSource? (u ++ (m.source ++ rest)) n = some m.source := by
  obtain ⟨t, ht, hafter⟩ := h.afterMethod?_eq rest
  rw [methodSource?_of_find? (hfind t ht), hafter, Option.map_some, List.length_append,
    Nat.add_sub_cancel, List.take_left]

/-- **The source of a method holds the method.** -/
theorem methodSource?_source (h : m.Cut n) (hn : '(' ∉ n.toList) :
    methodSource? m.source n = some m.source := by
  have hagain : methodSource? ([] ++ (m.source ++ [])) n = some m.source := by
    refine h.methodSource?_eq fun t ht => ?_
    have hread : methodHeader n ([] ++ (m.source ++ [])) = some ((), t) := by
      rw [List.nil_append, ht]
      exact h.header.methodHeader_append hn t
    exact find?_of_start (by simp [Method.source]) hread
  simpa using hagain

/-- The brackets that close off its pieces are the ones that are found in its body. -/
theorem is (h : m.Cut n) (hn : '(' ∉ n.toList) : m.Is n := by
  obtain ⟨a, -, ha⟩ := h.header.exists_eq hn
  have hheader : m.header.length = a.length + 1 := by simp [ha]
  refine ⟨h.start, h.header, ?_, h.gap, ?_⟩
  · -- the parenthesis that closes the parameters
    have hwithin : m.within = (m.before ++ a) ++ '(' :: (m.params ++ closer '(' ::
        (m.gap ++ '\x7b' :: (m.statements ++ '\x7d' :: m.after))) := by
      simp [Method.within, Method.source, ha, closer]
    have hopen : m.openParen = (m.before ++ a).length := by
      rw [Method.openParen, hheader, List.length_append]
      rfl
    rw [Method.closeParen, hwithin, hopen]
    exact closingIndex?_append (h.params _) _
  · -- the brace that closes the statements
    have hwithin : m.within = (m.before ++ (m.header ++ (m.params ++ ')' :: m.gap))) ++ '\x7b' ::
        (m.statements ++ closer '\x7b' :: m.after) := by
      simp [Method.within, Method.source, closer]
    have hopen : m.openBrace =
        (m.before ++ (m.header ++ (m.params ++ ')' :: m.gap))).length := by
      simp only [Method.openBrace, Method.closeParen, Method.openParen, List.length_append,
        List.length_cons]
      omega
    have hlast : m.last = m.openBrace + 1 + m.statements.length := by
      simp only [Method.last, Method.source, Method.openBrace, Method.closeParen,
        Method.openParen, List.length_append, List.length_cons, List.length_nil]
      omega
    rw [hlast, hwithin, hopen]
    exact closingIndex?_append (h.statements _) _

end Method.Cut

/-- **What is cut out of a body is a method in it**, and is cut out of every longer body. -/
theorem exists_method (hn : '(' ∉ n.toList) (h : methodSource? b n = some s) :
    ∃ m : Method, m.Cut n ∧ m.within = b ∧ m.source = s ∧
      ∀ more, methodSource? (b ++ more) n = some s := by
  have hcut := h
  rw [methodSource?] at hcut
  obtain ⟨f, hf, hcut⟩ := Option.bind_eq_some_iff.mp hcut
  obtain ⟨rest, hrest, -⟩ := Option.bind_eq_some_iff.mp hcut
  obtain ⟨header, hstart, hheader, hbody, hlonger⟩ := find?_methodHeader hn hf
  obtain ⟨params, gap, statements, hparams, hgap, hstatements, hafter⟩ := afterMethod?_eq_some hrest
  let m : Method := ⟨f.before, header, params, gap, statements, rest⟩
  have hm : m.Cut n := ⟨hstart, hheader, hparams, hgap, hstatements⟩
  have hsource : m.source ++ rest = header ++ f.after := by
    simp [m, Method.source, hafter]
  have hwithin : m.within = b := by
    rw [hbody, ← hsource]
    rfl
  -- A longer body has the same pieces with more behind the last one.
  have hagain : ∀ more, methodSource? (b ++ more) n = some m.source := by
    intro more
    have hlong : b ++ more = f.before ++ (m.source ++ (rest ++ more)) := by
      rw [hbody, ← List.append_assoc m.source, hsource]
      simp
    have hfind := hlonger more
    rw [hlong] at hfind ⊢
    refine hm.methodSource?_eq fun t ht => ?_
    rw [← List.append_assoc, hsource, List.append_assoc] at ht
    rwa [← List.append_cancel_left ht]
  obtain rfl : m.source = s := by
    have hsame := hagain []
    rw [List.append_nil, h] at hsame
    exact (Option.some.inj hsame).symm
  exact ⟨m, hm, hwithin, rfl, hagain⟩

/-- **A method is cut out of its body as it stands there**, from its first word to the brace that
closes its statements. What is cut out holds the same method, and so does every longer body. The
name may be any text without a parenthesis, an identifier for one. -/
theorem isMethod_and_again_of_methodSource? (hn : '(' ∉ n.toList)
    (h : methodSource? b n = some s) :
    (∃ m : Method, m.Is n ∧ m.within = b ∧ m.source = s) ∧ "function".toList <+: s ∧
      ['\x7d'] <:+ s ∧ methodSource? s n = some s ∧
      ∀ more, methodSource? (b ++ more) n = some s := by
  obtain ⟨m, hm, hwithin, rfl, hagain⟩ := exists_method hn h
  refine ⟨⟨m, hm.is hn, hwithin, rfl⟩, ?_, ?_, hm.methodSource?_source hn, hagain⟩
  · obtain ⟨gap, mark, gap', -, -, -, -, hheader⟩ := hm.header
    rw [Method.source, hheader, List.append_assoc]
    exact List.prefix_append _ _
  · refine ⟨m.header ++ (m.params ++ ')' :: (m.gap ++ '\x7b' :: m.statements)), ?_⟩
    simp [Method.source]

/-- A body with a longer name, brackets in strings and comments, and a second method. -/
def crowdedBody : List Char :=
  ("function rules2(); function &rules($a = ')' /* ( */) : array \x7b return ['\x7d']; " ++
    "# \x7d\n\x7d \x7d \x7d").toList

theorem isMethod_and_again_crowdedBody :
    ('(' ∉ "rules".toList ∧ (methodSource? crowdedBody "rules").isSome) ∧
    ∃ s, methodSource? crowdedBody "rules" = some s ∧
      (∃ m : Method, m.Is "rules" ∧ m.within = crowdedBody ∧ m.source = s) ∧
      methodSource? s "rules" = some s ∧
      ∀ more, methodSource? (crowdedBody ++ more) "rules" = some s := by
  have hn : '(' ∉ "rules".toList := by decide
  have hsome : (methodSource? crowdedBody "rules").isSome := by decide +kernel
  obtain ⟨s, hs⟩ := Option.isSome_iff_exists.mp hsome
  obtain ⟨hm, -, -, hagain, hmore⟩ := isMethod_and_again_of_methodSource? hn hs
  exact ⟨⟨hn, hsome⟩, s, hs, hm, hagain, hmore⟩

end PayloadTypes.Source
