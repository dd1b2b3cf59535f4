import PayloadTypes.Proofs.Response.Making
/-!
# Functions mapped over collections

Something is made of a class for a property of the object itself, or for every item
of a property by a function that is mapped over it. A mapping is found in the second
form just where it is made (`first?_mapping_mapped`), and in the first form none is.
So the type is in either form a closed form of the name of the class (`inferType_own`,
`inferType_mapped`).
-/

namespace PayloadTypes.Response

open Text.Reader
open Idiom (Making callback className collectedArray construction flatArguments mappedType? mapping
  openCall)

variable {x : String} {c : Char} {a p q r s t v : List Char} {f : String}

/-! ## Arrows -/

/-- The functions that are mapped over collections. -/
def mapFunctions : List String := ["map", "transform", "flatMap"]

theorem isIdentifier_of_mem_mapFunctions (hf : f ∈ mapFunctions) : IsIdentifier f.toList := by
  have hall : ∀ f ∈ mapFunctions, IsIdentifier f.toList := by decide
  exact hall f hf

theorem startsWith_mapping : StartsWith mapping '-' := startsWith_text_bind rfl _

/-- A word that is read in front of `c` does not reach over it. -/
theorem exists_of_oneOf_append {words : List String} {g : String}
    (hc : ∀ g ∈ words, c ∉ g.toList) (h : oneOf words (p ++ c :: t) = some (g, s)) :
    ∃ d u, s = d :: u ∧ (d ∈ p ∨ d = c) := by
  obtain ⟨hg, heq⟩ := of_oneOf h
  rcases List.append_eq_append_iff.mp heq with ⟨b, hb, hs⟩ | ⟨b, rfl, rfl⟩
  · cases b with
    | nil => exact ⟨c, t, hs.symm, .inr rfl⟩
    | cons d b =>
      obtain rfl : c = d := (List.cons.inj hs).1
      exact absurd (by simp [hb]) (hc g hg)
  · cases b with
    | nil => exact ⟨c, t, rfl, .inr rfl⟩
    | cons d b => exact ⟨d, b ++ c :: t, rfl, .inl (by simp)⟩

/-- No function is mapped where no parenthesis stands behind a name. -/
theorem mapping_arrow_eq_none (hp : IsIdentifier p) (hident : Text.isIdentChar c = false)
    (hblank : Text.isBlank c = false) (hopen : c ≠ '(') (t : List Char) :
    mapping ('-' :: '>' :: (p ++ c :: t)) = none := by
  have harrow : text "->" ('-' :: '>' :: (p ++ c :: t)) = some ((), p ++ c :: t) :=
    text_append (s := ['-', '>']) rfl _
  have hhead := isBlank_head_of_isIdentifier hp (c :: t)
  rw [mapping, bind_eq harrow, bind_eq (blanks_eq hhead)]
  -- A name of a mapping function must be the whole name, as no parenthesis goes on with it.
  cases hread : oneOf mapFunctions (p ++ c :: t) with
  | none => exact bind_eq_none hread
  | some found =>
    obtain ⟨g, s⟩ := found
    have hwords : ∀ g ∈ mapFunctions, c ∉ g.toList := fun g hg =>
      not_mem_of_isIdentifier (isIdentifier_of_mem_mapFunctions hg) hident
    obtain ⟨d, u, rfl, hd⟩ := exists_of_oneOf_append hwords hread
    have hd : Text.isBlank d = false ∧ d ≠ '(' := by
      rcases hd with hd | rfl
      · refine ⟨isBlank_of_isIdentifier hp d hd, ?_⟩
        rintro rfl
        exact not_mem_of_isIdentifier hp (by decide) hd
      · exact ⟨hblank, hopen⟩
    have hblanks : blanks (d :: u) = some ((), d :: u) := blanks_eq (forall_mem_head?_cons hd.1 u)
    refine (bind_eq hread).trans ?_
    rw [bind_eq hblanks]
    exact bind_eq_none (bind_eq_none (char_eq_none hd.2 u))

/-- A method called on every item of a collection: `->map->f(`. -/
def shorthand : Text.Reader Unit := do
  text "->map->"
  blanks
  let _ ← one Text.isIdentStart
  let _ ← many Text.isWord
  openCall

theorem startsWith_shorthand : StartsWith shorthand '-' := startsWith_text_bind rfl _

theorem type?_mapShorthand (n : Naming) (e : List Char) :
    Idiom.mapShorthand.type? n e =
      (first? (anywhere shorthand) e).map fun _ => TypeText.arrayOf TypeText.unknown := by
  rw [Option.map_eq_bind]
  exact type?_searching _ _ _ n e

/-- A method is called on every item of a collection where a second arrow stands behind `map`. -/
theorem shorthand_arrow_eq_none (h : ∀ u, t ≠ "map->".toList ++ u) :
    shorthand ('-' :: '>' :: t) = none := by
  refine bind_eq_none (text_eq_none_of fun u heq => h u ?_)
  simpa using heq

theorem shorthand_append (hf : IsIdentifier f.toList) (t : List Char) :
    shorthand ("->map->".toList ++ (f.toList ++ '(' :: t)) = some ((), t) := by
  have hhead := isBlank_head_of_isIdentifier hf ('(' :: t)
  obtain ⟨c, w, hcons, hc, hw⟩ := hf
  have hword : many Text.isWord (w ++ '(' :: t) = some (w, '(' :: t) :=
    many_append (fun d hd => Text.isWord_of_isIdentChar (hw d hd))
      (forall_mem_head?_cons (by decide) t)
  rw [hcons] at hhead ⊢
  rw [shorthand, bind_eq (text_append rfl _), bind_eq (blanks_eq hhead), List.cons_append,
    bind_eq (one_cons hc), bind_eq hword, openCall_cons]

/-! ## Properties of the object -/

/-- A property of the object itself, and the parenthesis behind it: `$this->p)`. -/
def own (p : List Char) : List Char := '$' :: ("this->".toList ++ (p ++ [')']))

theorem isArgumentChar_of_isIdentifier (hp : IsIdentifier p) : ∀ c ∈ p, isArgumentChar c = true :=
  fun c hc => isArgumentChar_of_isIdentChar (isIdentChar_of_isIdentifier hp c hc)

theorem isArguments_own (hp : IsIdentifier p) : IsArguments (own p) where
  start := ⟨_, rfl⟩
  last := ⟨'$' :: ("this->".toList ++ p), by simp [own]⟩
  chars := by
    simp only [own, List.forall_mem_cons, List.forall_mem_append]
    exact ⟨by decide, List.all_eq_true.mp (by decide), isArgumentChar_of_isIdentifier hp,
      by decide, by simp⟩

/-- In front of the property there is the only arrow. -/
theorem first?_own {α : Type} {k : Text.Reader α} (hk : StartsWith k '-') (hr : IsReferenceTo x r)
    (hp : IsIdentifier p) (harrow : k ('-' :: '>' :: (p ++ [')'])) = none) (m : Making) :
    first? (anywhere k) (made m r (own p)) = none := by
  have hown : own p = "$this".toList ++ '-' :: '>' :: (p ++ [')']) := by simp [own]
  have hfront : '-' ∉ made m r "$this".toList :=
    hr.not_mem_made (by decide) (by decide) (by decide) m
  have hrest : '-' ∉ '>' :: (p ++ [')']) := by
    have := not_mem_of_isIdentifier hp (c := '-') (by decide)
    simpa using this
  rw [hown, made_append, hk.first?_append hfront, first?_cons harrow, hk.first?_eq_none hrest]

theorem collectionMapping_own (hr : IsReferenceTo x r) (hp : IsIdentifier p) (n : Naming)
    (m : Making) : Idiom.collectionMapping.type? n (made m r (own p)) = none := by
  have harrow := mapping_arrow_eq_none hp (c := ')') (by decide) (by decide) (by decide) []
  rw [Idiom.collectionMapping, type?_searching, first?_own startsWith_mapping hr hp harrow m]
  rfl

theorem mapShorthand_own (hr : IsReferenceTo x r) (hp : IsIdentifier p) (n : Naming)
    (m : Making) : Idiom.mapShorthand.type? n (made m r (own p)) = none := by
  have harrow : shorthand ('-' :: '>' :: (p ++ [')'])) = none := by
    refine shorthand_arrow_eq_none fun u heq => ?_
    have hnot : '-' ∉ p ++ [')'] := by simp [not_mem_of_isIdentifier hp (c := '-') (by decide)]
    rw [heq] at hnot
    simp at hnot
  rw [type?_mapShorthand, first?_own startsWith_shorthand hr hp harrow m]
  rfl

/-- **The type of a class for a property** is the one by the name of the class. -/
theorem inferType_own (hr : IsReferenceTo x r) (hp : IsIdentifier p) (n : Naming)
    (companion : Option String) (m : Making) :
    inferType n companion (made m r (own p)) =
      (madeType? n m x).getD ((filled? companion).getD TypeText.unknown) := by
  have hmade := inferType_made isFront_nil (isArguments_own hp) hr n companion m
  rw [List.nil_append, collectionMapping_own hr hp, mapShorthand_own hr hp, Option.none_or,
    Option.or_none] at hmade
  exact hmade

/-! ## Functions that are mapped -/

/-- A function mapped over a property, up to what it returns: `$this->q->f(fn ($v) => `. -/
def mapStart (q : List Char) (f : String) (v : List Char) : List Char :=
  '$' :: ("this->".toList ++ (q ++ ("->".toList ++ (f.toList ++
    ("(fn ($".toList ++ (v ++ ") => ".toList))))))

/-- The argument of the function, and the parentheses behind it: `$v))`. -/
def item (v : List Char) : List Char := '$' :: (v ++ "))".toList)

/-- A function mapped over a property that makes something of the class `r`:
`$this->q->f(fn ($v) => new r($v))`, or `make` or `collection` instead. -/
def mapped (q : List Char) (f : String) (v : List Char) (m : Making) (r : List Char) : List Char :=
  mapStart q f v ++ made m r (item v)

theorem mapStart_append (q : List Char) (f : String) (v s : List Char) :
    mapStart q f v ++ s = "$this".toList ++ ('-' :: ('>' :: q ++ ('-' :: '>' :: (f.toList ++
      ('(' :: 'f' :: 'n' :: ' ' :: '(' :: '$' :: (v ++ (')' :: ' ' :: '=' :: '>' :: ' ' :: s)))))))
      := by
  simp [mapStart]

example : mapped "tags".toList "map" "t".toList .construct "TagResource".toList =
    "$this->tags->map(fn ($t) => new TagResource($t))".toList := by decide +kernel

theorem isArguments_item (hv : IsIdentifier v) : IsArguments (item v) where
  start := ⟨_, rfl⟩
  last := ⟨'$' :: (v ++ [')']), by simp [item]⟩
  chars := by
    simp only [item, List.forall_mem_cons, List.forall_mem_append]
    exact ⟨by decide, isArgumentChar_of_isIdentifier hv, List.all_eq_true.mp (by decide)⟩

/-- Blanks stand in two pieces of the function, and no letter of the keyword in front of them. -/
theorem apart_keyword_mapStart (hq : IsIdentifier q) (hf : f ∈ mapFunctions)
    (hv : IsIdentifier v) : Apart (· == 'w') Text.isBlank (mapStart q f v) := by
  have hpieces : mapStart q f v = '$' :: ("this->".toList ++ (q ++ ("->".toList ++ (f.toList ++
      "(f".toList)))) ++ ("n ($".toList ++ (v ++ ") => ".toList)) := by simp [mapStart]
  have hword : ∀ {s : List Char}, s.any Text.isBlank = false → ∀ c ∈ s, Text.isBlank c = false :=
    Text.forall_mem_eq_false
  have hfront : ∀ c ∈ '$' :: ("this->".toList ++ (q ++ ("->".toList ++ (f.toList ++
      "(f".toList)))), Text.isBlank c = false := by
    simp only [List.forall_mem_cons, List.forall_mem_append]
    exact ⟨by decide, hword (by decide), isBlank_of_isIdentifier hq, hword (by decide),
      isBlank_of_isIdentifier (isIdentifier_of_mem_mapFunctions hf), hword (by decide)⟩
  have hrest : Apart (· == 'w') Text.isBlank (v ++ ") => ".toList) :=
    (Apart.of_right (isBlank_of_isIdentifier hv)).append_of_head (.of_not_mem_left (by decide))
      (forall_mem_head?_cons (by decide) _)
  have hmiddle : Apart (· == 'w') Text.isBlank ("n ($".toList ++ (v ++ ") => ".toList)) := by
    refine (Apart.of_not_mem_left (by decide)).append_of_last hrest ?_
    rintro c ⟨⟩
    decide
  rw [hpieces]
  exact (Apart.of_right hfront).append_of_head hmiddle (forall_mem_head?_cons (by decide) _)

theorem isFront_mapStart (hq : IsIdentifier q) (hf : f ∈ mapFunctions) (hv : IsIdentifier v) :
    IsFront (mapStart q f v) := by
  have hnot : ∀ c, Text.isIdentChar c = false → c ∉ q ∧ c ∉ f.toList ∧ c ∉ v := fun c hc =>
    ⟨not_mem_of_isIdentifier hq hc,
      not_mem_of_isIdentifier (isIdentifier_of_mem_mapFunctions hf) hc,
      not_mem_of_isIdentifier hv hc⟩
  refine ⟨?_, ?_, ?_, ?_, apart_keyword_mapStart hq hf hv, ?_⟩
  · rintro c ⟨⟩
    rfl
  · have hlast : mapStart q f v = '$' :: ("this->".toList ++ (q ++ ("->".toList ++ (f.toList ++
        ("(fn ($".toList ++ (v ++ ") =>".toList)))))) ++ [' '] := by simp [mapStart]
    rw [hlast, List.getLast?_concat]
    rintro c ⟨⟩
    rfl
  · simp [mapStart, hnot ':' (by decide)]
  · simp [mapStart, hnot '?' (by decide)]
  · -- up to the variable nothing is closed, and from there on nothing is opened
    have hpieces : mapStart q f v = '$' :: ("this->".toList ++ (q ++ ("->".toList ++ (f.toList ++
        "(fn (".toList)))) ++ '$' :: (v ++ ") => ".toList) := by simp [mapStart]
    have hfront : ')' ∉ '$' :: ("this->".toList ++ (q ++ ("->".toList ++ (f.toList ++
        "(fn (".toList)))) := by simp [hnot ')' (by decide)]
    have hrest : '(' ∉ '$' :: (v ++ ") => ".toList) := by simp [hnot '(' (by decide)]
    rw [hpieces]
    refine (Apart.of_not_mem_right hfront).append_of_head (.of_not_mem_left hrest) ?_
    rintro c ⟨⟩
    decide

theorem flatArguments_append (hs : ')' ∉ s) (t : List Char) :
    flatArguments ('(' :: (s ++ ')' :: t)) = some ((), t) := by
  have hmany : many (· != ')') (s ++ ')' :: t) = some (s, ')' :: t) := by
    refine many_append (fun c hc => ?_) (forall_mem_head?_cons (by decide) t)
    rw [bne_iff_ne]
    exact ne_of_mem_of_not_mem hc hs
  rw [flatArguments, bind_eq (char_cons _ _), bind_eq hmany, char_cons]

/-- A function with one variable is read up to what it returns. -/
theorem callback_append (hv : ')' ∉ v) (hs : ∀ c ∈ s.head?, Text.isBlank c = false) :
    callback ('(' :: 'f' :: 'n' :: ' ' :: '(' :: '$' ::
      (v ++ (')' :: ' ' :: '=' :: '>' :: ' ' :: s))) = some ((), s) := by
  -- Of what may stand in front of the arrow only the variables do.
  have hstatic : ∀ t, maybe (do text "static"; blanks1) ('f' :: t) = some (none, 'f' :: t) :=
    fun t => maybe_eq_none (bind_eq_none (text_eq_none (d := 's') rfl (by decide) t))
  have hfn : ∀ t, oneOf ["fn", "function"] ('f' :: 'n' :: t) = some ("fn", t) := fun t => rfl
  have hspace : ∀ {c : Char} (t : List Char), Text.isBlank c = false →
      blanks (' ' :: c :: t) = some ((), c :: t) := fun t hc =>
    blanks_append (w := [' ']) Text.allBlank_space (forall_mem_head?_cons hc t)
  have huse : ∀ t, maybe (do text "use"; blanks; flatArguments; blanks) ('=' :: t) =
      some (none, '=' :: t) :=
    fun t => maybe_eq_none (bind_eq_none (text_eq_none (d := 'u') rfl (by decide) t))
  have htype : ∀ t, maybe (do
      char ':'
      blanks
      let _ ← many1 fun c => Idiom.isClassChar c || c == '?'
      blanks) ('=' :: t) = some (none, '=' :: t) :=
    fun t => maybe_eq_none (bind_eq_none (char_eq_none (by decide) t))
  have harrow : ∀ t, (text "=>" <|> do
      char '\x7b'
      blanks
      text "return") ('=' :: '>' :: t) = some ((), t) := fun t => rfl
  have harguments : ∀ t, flatArguments ('(' :: '$' :: (v ++ ')' :: t)) = some ((), t) :=
    flatArguments_append (s := '$' :: v) (by simpa using hv)
  have hlast : blanks (' ' :: s) = some ((), s) := blanks_append (w := [' ']) Text.allBlank_space hs
  rw [callback, bind_eq (char_cons _ _), bind_eq (blanks_eq (forall_mem_head?_cons (by decide) _)),
    bind_eq (hstatic _), bind_eq (hfn _), bind_eq (hspace _ (by decide)), bind_eq (harguments _),
    bind_eq (hspace _ (by decide)), bind_eq (huse _), bind_eq (htype _), bind_eq (harrow _), hlast]

/-- A static call of what the function returns, and the class of it. -/
def calling : Text.Reader (Making × List Char) := do
  let c ← className
  text "::"
  let m ← oneOf ["make", "collection"]
  openCall
  return (if m = "make" then .make else .collection, c)

theorem calling_append (hr : IsReferenceTo x r) (hf : f ∈ ["make", "collection"])
    (a : List Char) : calling (r ++ ("::".toList ++ (f.toList ++ '(' :: a))) =
      some ((if f = "make" then .make else .collection, r), a) := by
  have hname : ∀ t, className (r ++ ("::".toList ++ t)) = some (r, "::".toList ++ t) :=
    fun t => hr.className_append (forall_mem_head?_cons (by decide) _)
  have hcolons : ∀ t, text "::" ("::".toList ++ t) = some ((), t) := text_append rfl
  have hword : ∀ f ∈ ["make", "collection"], ∀ t, oneOf ["make", "collection"] (f.toList ++ t) =
      some (f, t) := by
    simp [oneOf, text, List.findSome?_cons, Text.after?]
  rw [calling, bind_eq (hname _), bind_eq (hcolons _), bind_eq (hword f hf _),
    bind_eq (openCall_cons a)]
  rfl

/-- How the function makes what it returns, and of which class. -/
def making : Text.Reader (Making × List Char) :=
  (do return (.construct, ← construction)) <|> calling

theorem making_made (ha : IsArguments a) (hr : IsReferenceTo x r) (m : Making) :
    making (made m r a) = some ((m, r), a) := by
  have hstatic : m.function? ≠ none → making (made m r a) = calling (made m r a) := by
    intro hm
    rw [making, orElse_apply, bind_eq_none (construction_eq_none (isBlank_made ha hr hm))]
    rfl
  cases m with
  | construct =>
    have hread : construction (made .construct r a) = some (r, a) := hr.construction_append a
    rw [making, orElse_apply, bind_eq hread]
    rfl
  | make => exact (hstatic (Option.some_ne_none _)).trans (calling_append hr (by simp) a)
  | collection => exact (hstatic (Option.some_ne_none _)).trans (calling_append hr (by simp) a)

/-- **A mapping is read where its arrow stands.** -/
theorem mapping_append (hf : f ∈ mapFunctions) (hv : ')' ∉ v) (ha : IsArguments a)
    (hr : IsReferenceTo x r) (m : Making) :
    mapping ('-' :: '>' :: (f.toList ++ ('(' :: 'f' :: 'n' :: ' ' :: '(' :: '$' ::
      (v ++ (')' :: ' ' :: '=' :: '>' :: ' ' :: made m r a))))) =
        some (⟨f == "flatMap", m, r⟩, a) := by
  have harrow : ∀ t, text "->" ('-' :: '>' :: t) = some ((), t) :=
    fun t => text_append (s := ['-', '>']) rfl t
  have hword : ∀ t, oneOf ["map", "transform", "flatMap"] (f.toList ++ '(' :: t) =
      some (f, '(' :: t) := by
    intro t
    have hall : ∀ f ∈ mapFunctions, oneOf ["map", "transform", "flatMap"] (f.toList ++ '(' :: t) =
        some (f, '(' :: t) := by
      simp [mapFunctions, oneOf, text, List.findSome?_cons, Text.after?]
    exact hall f hf
  have hhead := isBlank_head_of_isIdentifier (isIdentifier_of_mem_mapFunctions hf)
  have hmade : ∀ c ∈ (made m r a).head?, Text.isBlank c = false := by
    obtain ⟨c, s, heq, hc⟩ := hr.exists_made_eq_cons m a
    rw [heq]
    exact forall_mem_head?_cons (isBlank_of_isClassStart hc) s
  have hopen : ∀ t, blanks ('(' :: t) = some ((), '(' :: t) :=
    fun t => blanks_eq (forall_mem_head?_cons (by decide) t)
  have hmaking := making_made ha hr m
  rw [mapping, bind_eq (harrow _), bind_eq (blanks_eq (hhead _)), bind_eq (hword _),
    bind_eq (hopen _), bind_eq (callback_append hv hmade)]
  exact bind_eq hmaking

/-- In front of the function there is the arrow of the property, and then its own. -/
theorem first?_mapStart {α : Type} {k : Text.Reader α} (hk : StartsWith k '-') (hq : '-' ∉ q)
    (harrow : k ('-' :: '>' :: (q ++ '-' :: s)) = none) :
    first? (anywhere k) ("$this".toList ++ ('-' :: ('>' :: q ++ '-' :: s))) =
      first? (anywhere k) ('-' :: s) := by
  have hname : '-' ∉ '>' :: q := by simpa using hq
  rw [hk.first?_append (by decide), List.cons_append, first?_cons harrow, ← List.cons_append,
    hk.first?_append hname]

section Mapped

variable (hq : IsIdentifier q) (hf : f ∈ mapFunctions) (hv : IsIdentifier v)
  (hr : IsReferenceTo x r)

include hq hf hv hr

/-- **A mapping is found where it is made.** -/
theorem first?_mapping_mapped (m : Making) :
    first? (anywhere mapping) (mapped q f v m r) = some ⟨f == "flatMap", m, r⟩ := by
  have harrow := fun t => mapping_arrow_eq_none hq (c := '-') (by decide) (by decide) (by decide) t
  rw [mapped, mapStart_append,
    first?_mapStart startsWith_mapping (not_mem_of_isIdentifier hq (by decide)) (harrow _)]
  exact first?_of_start (List.cons_ne_nil _ _)
    (mapping_append hf (not_mem_of_isIdentifier hv (by decide)) (isArguments_item hv) hr m)

theorem collectionMapping_mapped (n : Naming) (m : Making) :
    Idiom.collectionMapping.type? n (mapped q f v m r) =
      mappedType? n ⟨f == "flatMap", m, x.toList⟩ := by
  have hname : IsReferenceTo x x.toList := ⟨hr.1, [], ⟨[], [], .inl rfl, by simp, rfl⟩, rfl⟩
  rw [Idiom.collectionMapping, type?_searching, first?_mapping_mapped hq hf hv hr, Option.bind_some,
    mappedType?, mappedType?, Idiom.itemType?, Idiom.itemType?]
  simp only [hr.shortClass_eq, hname.shortClass_eq]

theorem mapShorthand_mapped (n : Naming) (m : Making) :
    Idiom.mapShorthand.type? n (mapped q f v m r) =
      if q = "map".toList then some (TypeText.arrayOf TypeText.unknown) else none := by
  have hname := isIdentifier_of_mem_mapFunctions hf
  have hnot : ∀ {p : List Char}, IsIdentifier p → '-' ∉ p :=
    fun hp => not_mem_of_isIdentifier hp (by decide)
  rw [type?_mapShorthand, mapped, mapStart_append]
  split
  · next hmap =>
    have hread := fun t => shorthand_append hname t
    rw [startsWith_shorthand.first?_append (by decide), hmap,
      first?_of_start (List.cons_ne_nil _ _) (hread _)]
    rfl
  · next hmap =>
    have hfirst : ∀ t, shorthand ('-' :: '>' :: (q ++ '-' :: t)) = none := by
      refine fun t => shorthand_arrow_eq_none fun u heq => hmap ?_
      have hcut : Text.cut? '-' (q ++ '-' :: t) =
          Text.cut? '-' ("map".toList ++ '-' :: ('>' :: u)) := congrArg _ heq
      rw [Text.cut?_append (hnot hq), Text.cut?_append (by decide)] at hcut
      exact (Prod.mk.inj (Option.some.inj hcut)).1
    have hsecond : ∀ t, '-' ∉ t → shorthand ('-' :: '>' :: t) = none := by
      refine fun t ht => shorthand_arrow_eq_none fun u heq => ht ?_
      rw [heq]
      simp
    have hmade : '-' ∉ made m r (item v) :=
      hr.not_mem_made (by decide) (by decide) (by simp [item, hnot hv]) m
    rw [first?_mapStart startsWith_shorthand (hnot hq) (hfirst _), first?_cons (hsecond _ _),
      startsWith_shorthand.first?_eq_none]
    · rfl
    · simp [hnot hname, hnot hv, hmade]
    · simp [hnot hname, hnot hv, hmade]

/-- **The type of a mapped function** is the one by the name of the class, and of the items of
a property `map` at worst nothing is known. -/
theorem inferType_mapped (n : Naming) (companion : Option String) (m : Making) :
    inferType n companion (mapped q f v m r) =
      ((mappedType? n ⟨f == "flatMap", m, x.toList⟩).or ((madeType? n m x).or
        (if q = "map".toList then some (TypeText.arrayOf TypeText.unknown) else none))).getD
          ((filled? companion).getD TypeText.unknown) := by
  rw [mapped, inferType_made (isFront_mapStart hq hf hv) (isArguments_item hv) hr n companion m,
    ← mapped, collectionMapping_mapped hq hf hv hr, mapShorthand_mapped hq hf hv hr]

end Mapped

end PayloadTypes.Response
