import PayloadTypes.Proofs.Data.OrderedMap
import PayloadTypes.Proofs.Source.Strings
import PayloadTypes.Proofs.Text.Matches
import PayloadTypes.Proofs.Text.Numeral
import PayloadTypes.Source.EnumCase
/-!
# Listings of cases

The cases of an enum are listed one a line, each with its label and the text or
the integer that it stands for, if any. The value of a case is read up to the
next semicolon, and the label as an identifier; so nothing that is read holds a
semicolon, whatever the body of the enum is (`isCaseEntry_of_listedCases`).
Listed cases are read again exactly where they are such that they can be read at
all (`entries_cases_listing_iff`).
-/

namespace PayloadTypes.Source

open Text (AllBlank natDigits intDigits isBlank isIdentChar)
open Text.Reader

variable {label : String} {raw : Option (List Char)} {s t gap indent : List Char} {v : Value}
variable {cs : List ListedCase}

/-! ## Listings -/

/-- What a case of an enum stands for. -/
inductive ListedValue where
  /-- Its label. -/
  | label
  /-- A text. -/
  | text (s : String)
  /-- An integer. -/
  | int (i : Int)

/-- A case of an enum. -/
structure ListedCase where
  /-- Its label. -/
  label : String
  /-- What it stands for. -/
  value : ListedValue

/-- The literal of a value that is not the label. -/
def ListedValue.literal? : ListedValue → Option (List Char)
  | .label => none
  | .text s => some (quoted '\'' s.toList)
  | .int i => some (intDigits i)

/-- What stands between the label of a case and the semicolon. -/
def ListedValue.assigned (v : ListedValue) : List Char :=
  match v.literal? with
  | some l => " = ".toList ++ l
  | none => []

/-- The line of a case. -/
def ListedCase.line (c : ListedCase) : List Char :=
  "case ".toList ++ (c.label.toList ++ (c.value.assigned ++ [';']))

/-- The label of a case and the value it stands for. -/
def ListedCase.entry (c : ListedCase) : String × Value :=
  (c.label, match c.value with
    | .label => .text c.label
    | .text s => .text s
    | .int i => .int i)

/-- The blanks around the lines of a listing. -/
structure ListingGaps where
  /-- In front of the first line. -/
  front : List Char
  /-- In front of each line. -/
  indent : List Char
  /-- Behind the last line. -/
  back : List Char
  front_blank : AllBlank front
  indent_blank : AllBlank indent
  back_blank : AllBlank back

/-- Lines between two line breaks, each set in by four blanks. -/
def ListingGaps.standard : ListingGaps where
  front := ['\n']
  indent := "    ".toList
  back := []
  front_blank := by simpa [AllBlank] using by decide
  indent_blank := by simpa [AllBlank] using by decide
  back_blank := Text.allBlank_nil

/-- The lines of cases. -/
def caseLines (indent : List Char) (cs : List ListedCase) : List Char :=
  cs.flatMap fun c => indent ++ (c.line ++ ['\n'])

/-- A listing of cases. -/
def ListingGaps.listing (g : ListingGaps) (cs : List ListedCase) : List Char :=
  g.front ++ (caseLines g.indent cs ++ g.back)

/-- The enum of a listing, otherwise declared as a class is. -/
def ClassDecl.listing (c : ClassDecl) (g : ListingGaps) (cs : List ListedCase) : ClassDecl :=
  { c with kind := .enumeration, body := String.ofList (g.listing cs) }

/-! ## What can be read -/

/-- A value that a case can be read with: no text with a semicolon, and no integer of more digits
than are read. -/
def IsCaseValue : Value → Prop
  | .text s => ';' ∉ s.toList
  | .int i => (natDigits i.natAbs).length ≤ longestInteger
  | _ => True

instance : DecidablePred IsCaseValue
  | .text s => inferInstanceAs (Decidable (';' ∉ s.toList))
  | .int i => inferInstanceAs (Decidable ((natDigits i.natAbs).length ≤ longestInteger))
  | .null | .bool _ | .float _ | .moment _ | .list _ | .map _ => .isTrue trivial

/-- A label and a value that a case can be read as. -/
structure IsCaseEntry (e : String × Value) : Prop where
  /-- The label is an identifier. -/
  label : IsIdentifier e.1.toList
  /-- The value can be read. -/
  value : IsCaseValue e.2

theorem forall_mem_of_isIdentifier (h : IsIdentifier s) : ∀ c ∈ s, isIdentChar c = true := by
  obtain ⟨c, w, rfl, hc, hw⟩ := h
  exact List.forall_mem_cons.mpr ⟨Text.isIdentChar_of_isIdentStart hc, hw⟩

/-- A text in quotes that is read holds nothing that does not stand between them. -/
theorem not_mem_of_scalar? {u : String} {c : Char} (h : scalar? s = .ok (some (.text u)))
    (hc : c ∉ s) (hbackslash : c ≠ '\\') (hquote : ¬ IsQuote c) : c ∉ u.toList := by
  obtain ⟨q, t, hq, htrim, rfl⟩ := scalar?_eq_text_iff.mp h
  have ht : c ∉ t := by
    intro hmem
    refine hc (Text.mem_of_mem_trim ?_)
    rw [htrim]
    exact List.mem_cons_of_mem _ (List.mem_append_left _ hmem)
  rw [String.toList_ofList, unescaped]
  intro hmem
  rcases Text.eq_or_mem_of_mem_replacePair hmem with rfl | hmem
  · exact hbackslash rfl
  · rcases Text.eq_or_mem_of_mem_replacePair hmem with rfl | hmem
    · exact hquote hq
    · exact ht hmem

theorem length_natDigits_le_of_scalar? {i : Int} (h : scalar? s = .ok (some (.int i))) :
    (natDigits i.natAbs).length ≤ longestInteger := by
  rcases of_scalar? h with ⟨q, t, -, -, hv⟩ | ⟨ds, n, hn, hv | hv⟩ | ⟨x, hv⟩ | ⟨b, hv⟩ | hv <;>
    cases hv
  · simpa using length_natDigits_le_of_readDigits hn
  · simpa using length_natDigits_le_of_readDigits hn

/-- **A case is read** as an identifier and what stands in front of the next semicolon. -/
theorem of_caseLine {l : List Char} (h : caseLine s = some ((l, raw), t)) :
    IsIdentifier l ∧ ∀ r ∈ raw, ';' ∉ r := by
  rw [caseLine] at h
  obtain ⟨-, s₁, -, h⟩ := bind_eq_some_iff.mp h
  obtain ⟨-, s₂, -, h⟩ := bind_eq_some_iff.mp h
  obtain ⟨-, s₃, -, h⟩ := bind_eq_some_iff.mp h
  obtain ⟨l', s₄, hlabel, h⟩ := bind_eq_some_iff.mp h
  obtain ⟨-, s₅, -, h⟩ := bind_eq_some_iff.mp h
  obtain ⟨raw', s₆, hvalue, h⟩ := bind_eq_some_iff.mp h
  obtain ⟨-, s₇, -, h⟩ := bind_eq_some_iff.mp h
  cases h
  refine ⟨isIdentifier_of_identifier hlabel, ?_⟩
  -- the value is a run of characters other than the semicolon
  rintro r ⟨⟩
  have hread := of_maybe_eq_some hvalue
  rw [caseValue] at hread
  obtain ⟨-, s₈, -, hread⟩ := bind_eq_some_iff.mp hread
  intro hmem
  simpa using (of_many1 hread).2 _ hmem

theorem isCaseEntry_of_valueOr (hlabel : IsIdentifier label.toList) (hraw : ∀ r ∈ raw, ';' ∉ r)
    (h : valueOr label raw = .ok v) : IsCaseEntry (label, v) := by
  have hown : IsCaseEntry (label, .text label) :=
    ⟨hlabel, Text.not_mem_of_forall (forall_mem_of_isIdentifier hlabel) (by decide)⟩
  cases raw with
  | none =>
    obtain rfl := Except.ok.inj h
    exact hown
  | some r =>
    rw [valueOr, Option.map_some, Option.getD_some] at h
    cases hr : scalar? r with
    | error f =>
      rw [hr] at h
      cases h
    | ok w =>
      rw [hr] at h
      -- what is no text, integer or truth value leaves the label
      rcases w with _ | (_ | b | i | x | m | u | _ | _) <;> obtain rfl := Except.ok.inj h
      case some.bool => exact ⟨hlabel, trivial⟩
      case some.int => exact ⟨hlabel, length_natDigits_le_of_scalar? hr⟩
      case some.text =>
        have hquote : ¬ IsQuote ';' := by rintro (h | h) <;> cases h
        exact ⟨hlabel, not_mem_of_scalar? hr (hraw r rfl) (by decide) hquote⟩
      all_goals exact hown

/-- **Whatever the body of an enum is**, the labels that are read are identifiers, no text that is
read holds a semicolon, and no integer has too many digits. -/
theorem isCaseEntry_of_listedCases {body : List Char} {m : OrderedMap Value}
    (h : listedCases body = .ok m) : ∀ e ∈ m.entries, IsCaseEntry e := by
  intro e he
  rw [listedCases] at h
  obtain ⟨es, hes, rfl⟩ := exists_of_map_eq_ok h
  obtain ⟨p, hp, hread⟩ := exists_of_mem_of_mapM_eq_ok hes (OrderedMap.mem_of_mem_ofList he)
  obtain ⟨f, hf, rfl⟩ := List.mem_map.mp hp
  obtain ⟨u, -, hline⟩ := of_mem_findEach hf
  obtain ⟨hlabel, hraw⟩ := of_caseLine (lineStart_eq_some_iff.mp hline).2
  obtain ⟨v, hv, rfl⟩ := exists_of_map_eq_ok hread
  exact isCaseEntry_of_valueOr (by rwa [String.toList_ofList]) hraw hv

/-! ## Reading a listing -/

/-- What is read off the line of a case. -/
def ListedCase.written (c : ListedCase) : List Char × Option (List Char) :=
  (c.label.toList, c.value.literal?.map (' ' :: ·))

theorem caseValue_append {l : List Char} (hne : l ≠ []) (hl : ';' ∉ l) (t : List Char) :
    caseValue ('=' :: (l ++ ';' :: t)) = some (l, ';' :: t) := by
  have hall : ∀ c ∈ l, (c != ';') = true := by
    intro c hc
    refine bne_iff_ne.mpr ?_
    rintro rfl
    exact hl hc
  have hend : ∀ c ∈ (';' :: t).head?, (c != ';') = false :=
    forall_mem_head?_cons (P := fun c => (c != ';') = false) rfl t
  rw [caseValue, bind_eq (char_cons '=' _)]
  exact many1_append hne hall hend

/-- What a line goes on with behind the label is read as the value of the case. -/
theorem maybe_caseValue_assigned {v : ListedValue} (hv : ∀ l ∈ v.literal?, ';' ∉ l)
    (t : List Char) :
    ∃ s, blanks (v.assigned ++ ';' :: t) = some ((), s) ∧
      maybe caseValue s = some (v.literal?.map (' ' :: ·), ';' :: t) := by
  rw [ListedValue.assigned]
  cases hl : v.literal? with
  | none =>
    have hnone : caseValue (';' :: t) = none := by
      rw [caseValue, bind_eq_none (char_eq_none (by decide) t)]
    exact ⟨';' :: t, blanks_eq (forall_mem_head?_cons (by decide) t), maybe_eq_none hnone⟩
  | some l =>
    have hspace : ';' ∉ ' ' :: l := by
      rw [List.mem_cons, not_or]
      exact ⟨by decide, hv l hl⟩
    have hread := caseValue_append (List.cons_ne_nil ' ' l) hspace t
    have hblank : blanks ([' '] ++ '=' :: (' ' :: l ++ ';' :: t)) =
        some ((), '=' :: (' ' :: l ++ ';' :: t)) :=
      blanks_append Text.allBlank_space (forall_mem_head?_cons (by decide) _)
    exact ⟨_, hblank, maybe_eq_some hread⟩

/-- The line of a case is read off, whatever blanks stand in front of it. -/
theorem caseLine_append {c : ListedCase} (hgap : AllBlank gap)
    (hlabel : IsIdentifier c.label.toList) (hliteral : ∀ l ∈ c.value.literal?, ';' ∉ l)
    (t : List Char) :
    caseLine (gap ++ (c.line ++ t)) = some (c.written, t) := by
  obtain ⟨x, w, hxw, hx, hw⟩ := hlabel
  obtain ⟨s, hblanks, hvalue⟩ := maybe_caseValue_assigned hliteral t
  -- The parts of the reader are run one by one, each on what the one in front of it leaves.
  have hline : c.line ++ t =
      "case".toList ++ (' ' :: x :: (w ++ (c.value.assigned ++ ';' :: t))) := by
    rw [ListedCase.line, hxw, show "case ".toList = "case".toList ++ [' '] from rfl]
    simp only [List.append_assoc, List.cons_append, List.nil_append]
  have hcase : ∀ r, ∀ d ∈ ("case".toList ++ r).head?, isBlank d = false :=
    fun r => forall_mem_head?_cons (P := fun d => isBlank d = false) (by decide) _
  have hword : ∀ d ∈ (c.value.assigned ++ ';' :: t).head?, isIdentChar d = false := by
    rw [ListedValue.assigned]
    cases c.value.literal? with
    | none => exact forall_mem_head?_cons (by decide) t
    | some l => exact forall_mem_head?_cons (by decide) _
  have hletter : isBlank x = false := by
    have := Text.toNat_of_isIdentChar (Text.isIdentChar_of_isIdentStart hx)
    exact Text.isBlank_eq_false (by omega)
  rw [caseLine, hline, bind_eq (blanks_append hgap (hcase _)),
    bind_eq (text_append rfl _),
    bind_eq (blanks1_cons (by decide) (forall_mem_head?_cons hletter _)),
    bind_eq (identifier_append hx hw hword), bind_eq hblanks, bind_eq hvalue,
    bind_eq (char_cons ';' t), ListedCase.written, hxw]
  rfl

theorem caseLine_eq_none (h : AllBlank s) : caseLine s = none := by
  have hblanks : blanks s = some ((), []) := by
    simpa using blanks_append (t := []) h (by simp)
  rw [caseLine, bind_eq hblanks]
  rfl

/-- **The lines of a listing are read one by one.** -/
theorem map_value_findEachFrom_caseLines (hgap : AllBlank gap) (hindent : AllBlank indent)
    (ht : AllBlank t) (hseen : ∀ c ∈ s.head?, c = '\n')
    (hcs : ∀ c ∈ cs, IsIdentifier c.label.toList ∧ ∀ l ∈ c.value.literal?, ';' ∉ l) :
    (findEachFrom (lineStart caseLine) s 0 (gap ++ (caseLines indent cs ++ t))).map Found.value =
      cs.map ListedCase.written := by
  -- `gap` holds the blanks in front of the next line, `s` what is read already, last to first
  induction cs generalizing gap s with
  | nil =>
    have hblank : AllBlank (gap ++ t) := List.forall_mem_append.mpr ⟨hgap, ht⟩
    have hnone : findEachFrom (lineStart caseLine) s 0 (gap ++ t) = [] := by
      refine findEachFrom_eq_nil (fun prev u v huv => ?_) s
      have hv : caseLine v = none :=
        caseLine_eq_none fun c hc => hblank c (huv ▸ List.mem_append_right _ hc)
      cases prev <;> simp [lineStart, hv]
    rw [caseLines, List.flatMap_nil, List.nil_append, hnone]
    rfl
  | cons c cs ih =>
    obtain ⟨hc, hcs⟩ := List.forall_mem_cons.mp hcs
    have hgap' : AllBlank (gap ++ indent) := List.forall_mem_append.mpr ⟨hgap, hindent⟩
    have hsplit : gap ++ (caseLines indent (c :: cs) ++ t) =
        (gap ++ indent ++ c.line) ++ '\n' :: (caseLines indent cs ++ t) := by
      simp only [caseLines, List.flatMap_cons, List.append_assoc, List.cons_append, List.nil_append]
    have hread := caseLine_append hgap' hc.1 hc.2 ('\n' :: (caseLines indent cs ++ t))
    rw [← List.append_assoc] at hread
    -- the line break behind the semicolon is at no start of a line
    have hlast : ((gap ++ indent ++ c.line).reverse ++ s).head? = some ';' := by
      simp [ListedCase.line]
    rw [hsplit, findEachFrom_of_eq_some (by simp [ListedCase.line])
      (lineStart_eq_some_iff.mpr ⟨hseen, hread⟩),
      findEachFrom_of_eq_none (lineStart_eq_none hlast (by decide)), List.map_cons, List.map_cons]
    refine congrArg _ ?_
    exact ih Text.allBlank_nil (forall_mem_head?_cons (P := (· = '\n')) rfl _) hcs

/-! ## Values of cases -/

/-- A number is read off its digits, with the sign that stands in front of them. -/
theorem number_natDigits {sign : Option Char} {n : Nat}
    (hsign : maybe (one fun c => c == '+' || c == '-') s = some (sign, natDigits n))
    (h : (natDigits n).length ≤ longestInteger) :
    number s = some (.ok (.int (if sign == some '-' then -n else n)), []) := by
  have hall : ∀ c ∈ natDigits n, Text.isDigit c = true := by
    intro c hc
    rw [Text.isDigit, Text.digitValue?_of_isDigit (Text.isDigit_of_mem_natDigits hc)]
    rfl
  have hdigits : many1 Text.isDigit (natDigits n) = some (natDigits n, []) := by
    simpa using many1_append (t := []) (Text.natDigits_ne_nil n) hall (by simp)
  have hfraction : maybe (do
      char '.'
      many1 Text.isDigit) [] = some (none, []) := rfl
  rw [number, bind_eq hsign, bind_eq hdigits, bind_eq hfraction]
  simp only [readDigits_natDigits h]
  rfl

theorem number_intDigits {i : Int} (h : (natDigits i.natAbs).length ≤ longestInteger) :
    number (intDigits i) = some (.ok (.int i), []) := by
  cases i with
  | ofNat n =>
    have hsign : maybe (one fun c => c == '+' || c == '-') (natDigits n) =
        some (none, natDigits n) := by
      obtain ⟨c, w, hw⟩ := List.exists_cons_of_ne_nil (Text.natDigits_ne_nil n)
      have hc : c.isDigit = true := Text.isDigit_of_mem_natDigits (hw ▸ List.mem_cons_self)
      rw [hw]
      refine maybe_eq_none (one_eq_none ?_)
      rw [Bool.or_eq_false_iff, beq_eq_false_iff_ne, beq_eq_false_iff_ne]
      constructor <;> rintro rfl <;> cases hc
    exact number_natDigits hsign h
  | negSucc n => exact number_natDigits (maybe_eq_some (one_cons rfl)) h

/-- **An integer is read off its digits**, if they are not too many. -/
theorem scalar?_intDigits {i : Int} (h : (natDigits i.natAbs).length ≤ longestInteger) :
    scalar? (intDigits i) = .ok (some (.int i)) := by
  -- The digits are not blanks, so nothing is trimmed off, and none of them is a quote.
  have htrim : Text.trim (intDigits i) = intDigits i := by
    refine (Text.isTrimmed_of_forall fun c hc => ?_).trim_eq
    have := Text.toNat_of_mem_intDigits hc
    exact Text.isBlank_eq_false (by omega)
  have hliteral : ∀ q, IsQuote q → stringLiteral? q (intDigits i) = none := by
    intro q hq
    obtain ⟨c, w, hw⟩ := List.exists_cons_of_ne_nil (Text.intDigits_ne_nil i)
    have hc := Text.toNat_of_mem_intDigits (i := i) (hw ▸ List.mem_cons_self)
    rw [hw]
    refine stringLiteral?_cons_of_ne ?_ w
    rintro rfl
    rcases hq with rfl | rfl <;> revert hc <;> decide
  have hnumber : accepts? number (intDigits i) = some (.ok (.int i)) := by
    rw [accepts?, number_intDigits h, Option.map_some]
  simp only [scalar?, htrim, hliteral '\'' (.inl rfl), hliteral '"' (.inr rfl), hnumber,
    Option.orElse_none]
  rfl

/-- The literal of a value stands for it. -/
theorem valueOr_written {c : ListedCase} (h : IsCaseEntry c.entry) :
    valueOr c.label (c.value.literal?.map (' ' :: ·)) = .ok c.entry.2 := by
  obtain ⟨label, value⟩ := c
  -- What is read off the literal does not change with the blank behind the sign.
  have hread : ∀ l v, scalar? l = .ok (some v) → scalar? (' ' :: l) = .ok (some v) := by
    intro l v hl
    rw [← scalar?_trim] at hl ⊢
    rwa [show ' ' :: l = [' '] ++ l from rfl, Text.trim_append_left Text.allBlank_space]
  cases value with
  | label => rfl
  | text s =>
    have hs := hread _ _ (scalar?_quoted isQuote_single s.toList)
    rw [String.ofList_toList] at hs
    rw [valueOr, ListedValue.literal?, Option.map_some, Option.map_some, Option.getD_some, hs]
    rfl
  | int i =>
    have hi := hread _ _ (scalar?_intDigits h.value)
    rw [valueOr, ListedValue.literal?, Option.map_some, Option.map_some, Option.getD_some, hi]
    rfl

theorem IsCaseEntry.not_mem_literal {c : ListedCase} (h : IsCaseEntry c.entry) :
    ∀ l ∈ c.value.literal?, ';' ∉ l := by
  obtain ⟨label, value⟩ := c
  intro l hl hmem
  cases value with
  | label => cases hl
  | text s =>
    obtain rfl : quoted '\'' s.toList = l := Option.some.inj hl
    rcases eq_or_mem_of_mem_quoted hmem with h' | h' | h'
    · cases h'
    · cases h'
    · exact h.value h'
  | int i =>
    obtain rfl : intDigits i = l := Option.some.inj hl
    exact absurd (Text.toNat_of_mem_intDigits hmem).2 (by decide)

theorem listedCases_listing (g : ListingGaps) (hcs : ∀ c ∈ cs, IsCaseEntry c.entry) :
    listedCases (g.listing cs) = .ok (OrderedMap.ofList (cs.map ListedCase.entry)) := by
  have hfound : findAll (lineStart caseLine) (g.listing cs) = cs.map ListedCase.written :=
    map_value_findEachFrom_caseLines g.front_blank g.indent_blank g.back_blank (by simp)
      fun c hc => ⟨(hcs c hc).label, (hcs c hc).not_mem_literal⟩
  have hread : (cs.map ListedCase.written).mapM (fun p =>
      (valueOr (String.ofList p.1) p.2).map fun v => (String.ofList p.1, v)) =
      .ok (cs.map ListedCase.entry) := by
    rw [mapM_eq_ok_iff, List.forall₂_map_left_iff, List.forall₂_map_right_iff, List.forall₂_same]
    intro c hc
    rw [ListedCase.written, String.ofList_toList, valueOr_written (hcs c hc)]
    rfl
  rw [listedCases, hfound, hread]
  rfl

/-- **Listed cases are read again** exactly where every label is an identifier, no text holds a
semicolon and no integer has too many digits. -/
theorem ClassDecl.entries_cases_listing_iff (c : ClassDecl) (g : ListingGaps)
    (hlabels : (cs.map ListedCase.label).Nodup) :
    (c.listing g cs).cases.map OrderedMap.entries = .ok (cs.map ListedCase.entry) ↔
      ∀ x ∈ cs, IsCaseEntry x.entry := by
  rw [ClassDecl.cases, ClassDecl.listing, if_pos rfl, String.toList_ofList]
  constructor
  · intro h x hx
    obtain ⟨m, hm, hentries⟩ := exists_of_map_eq_ok h
    exact isCaseEntry_of_listedCases hm _ (hentries ▸ List.mem_map_of_mem hx)
  · intro h
    have hnodup : ((cs.map ListedCase.entry).map Prod.fst).Nodup := by rwa [List.map_map]
    rw [listedCases_listing g h, Except.map, OrderedMap.entries_ofList hnodup]

/-- A class without a body. -/
def ClassDecl.bare (name : String) : ClassDecl where
  name := name
  kind := .ordinary
  scope := ⟨"", .empty⟩
  parent := none
  docblock := ""
  body := ""
  abstract := false

/-- A case without a value, a text with quotes, a backslash and a line break, and a negative
integer. -/
theorem ClassDecl.entries_cases_listing_iff_mixed :
    let cs : List ListedCase := [⟨"Plain", .label⟩, ⟨"Mark", .text "it's \\\n"⟩, ⟨"Low", .int (-7)⟩]
    (cs.map ListedCase.label).Nodup ∧
      ((ClassDecl.bare "Kind").listing .standard cs).cases.map OrderedMap.entries =
        .ok [("Plain", .text "Plain"), ("Mark", .text "it's \\\n"), ("Low", .int (-7))] := by
  intro cs
  have hlabels : (cs.map ListedCase.label).Nodup := by decide
  refine ⟨hlabels, (ClassDecl.entries_cases_listing_iff (.bare "Kind") .standard hlabels).mpr ?_⟩
  intro x hx
  simp only [cs, List.mem_cons, List.not_mem_nil, or_false] at hx
  rcases hx with rfl | rfl | rfl <;> exact ⟨by decide, by decide⟩

/-- A text with a semicolon is cut there, and the label is read in its place. -/
theorem ClassDecl.not_entries_cases_listing_semicolon :
    let cs : List ListedCase := [⟨"Mark", .text "a;b"⟩]
    let read := ((ClassDecl.bare "Kind").listing .standard cs).cases.map OrderedMap.entries
    IsIdentifier "Mark".toList ∧ read = .ok [("Mark", .text "Mark")] ∧
      read ≠ .ok (cs.map ListedCase.entry) := by
  intro cs read
  have hread : ((ClassDecl.bare "Kind").listing .standard [⟨"Mark", .text "a;b"⟩]).cases.map
      OrderedMap.entries = .ok [("Mark", .text "Mark")] := rfl
  refine ⟨by decide, hread, fun h => ?_⟩
  have htexts := Except.ok.inj (hread.symm.trans h)
  simp [cs, ListedCase.entry] at htexts

end PayloadTypes.Source
