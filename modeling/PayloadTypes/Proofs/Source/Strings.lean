import PayloadTypes.Proofs.Data.Outcome
import PayloadTypes.Proofs.Source.Closing
import PayloadTypes.Proofs.Source.RuleReading
/-!
# What is read as a string

A string goes from its quote to the next quote of that kind which is not escaped,
that is, which an even number of backslashes stands in front of
(`stringBody_iff`). A text is read as a string where its first and last character
are the same quote. So only whole strings are read as strings exactly where no
quote of that kind in between closes the string earlier, and the last one is not
escaped (`stringLaws`). A text that is quoted is such a string, and scanning ends
behind its closing quote (`scalar?_quoted_and_stringEnd?`).
-/

namespace PayloadTypes.Source

open Text.Reader

variable {c q : Char} {e s t u : List Char} {scope : Scope}

/-! ## Escaped places -/

/-- How many backslashes a text ends with. -/
def backslashesAtEnd (s : List Char) : Nat := (s.reverse.takeWhile (· == '\\')).length

/-- A quote behind the text is escaped: it has an odd number of backslashes in front. -/
def EndsEscaping (s : List Char) : Prop := backslashesAtEnd s % 2 = 1

instance : DecidablePred EndsEscaping := fun _ => inferInstanceAs (Decidable (_ = 1))

theorem backslashesAtEnd_concat (s : List Char) :
    backslashesAtEnd (s ++ ['\\']) = backslashesAtEnd s + 1 := by
  simp [backslashesAtEnd]

/-- A character in front counts only if it is a backslash with none but backslashes behind it. -/
theorem backslashesAtEnd_cons (c : Char) (s : List Char) :
    backslashesAtEnd (c :: s) =
      if backslashesAtEnd s = s.length ∧ c = '\\' then s.length + 1 else backslashesAtEnd s := by
  rw [backslashesAtEnd, List.reverse_cons, List.takeWhile_append, backslashesAtEnd,
    List.length_reverse]
  by_cases hall : (s.reverse.takeWhile (· == '\\')).length = s.length
  · by_cases hc : c = '\\' <;> simp [hall, hc]
  · simp [hall]

theorem backslashesAtEnd_le (s : List Char) : backslashesAtEnd s ≤ s.length :=
  (List.takeWhile_prefix _).length_le.trans_eq List.length_reverse

theorem not_endsEscaping_nil : ¬ EndsEscaping [] := by
  simp [EndsEscaping, backslashesAtEnd]

/-- One more backslash escapes what was not escaped. -/
theorem endsEscaping_concat : EndsEscaping (s ++ ['\\']) ↔ ¬ EndsEscaping s := by
  rw [EndsEscaping, EndsEscaping, backslashesAtEnd_concat]
  omega

theorem endsEscaping_cons (hc : c ≠ '\\') : EndsEscaping (c :: s) ↔ EndsEscaping s := by
  rw [EndsEscaping, EndsEscaping, backslashesAtEnd_cons, if_neg (fun h => hc h.2)]

/-- A backslash escapes nothing but the character that it takes with it. -/
theorem endsEscaping_pair (c : Char) : EndsEscaping ('\\' :: c :: s) ↔ EndsEscaping s := by
  have hle := backslashesAtEnd_le s
  rw [EndsEscaping, EndsEscaping, backslashesAtEnd_cons, backslashesAtEnd_cons, List.length_cons]
  by_cases hall : backslashesAtEnd s = s.length ∧ c = '\\'
  · rw [if_pos hall, if_pos ⟨rfl, rfl⟩, hall.1]
    omega
  · rw [if_neg hall, if_neg (by omega)]

/-! ## Whole strings -/

/-- Every quote `q` in the text is escaped, and what stands behind the text is not. -/
structure EscapesQuotes (q : Char) (s : List Char) : Prop where
  /-- A quote in the text is escaped. -/
  inside : ∀ u v, s = u ++ q :: v → EndsEscaping u
  /-- The quote behind it is not. -/
  behind : ¬ EndsEscaping s

theorem StringBody.escapesQuotes (h : StringBody q s) (hq : q ≠ '\\') : EscapesQuotes q s := by
  induction h with
  | nil => exact ⟨fun u v h => by simp at h, not_endsEscaping_nil⟩
  | @char c s hb hc _ ih =>
    refine ⟨fun u v h => ?_, fun h => ih.behind ((endsEscaping_cons hb).mp h)⟩
    cases u with
    | nil => exact absurd (List.cons.inj h).1 hc
    | cons d u =>
      obtain ⟨rfl, htail⟩ := List.cons.inj h
      exact (endsEscaping_cons hb).mpr (ih.inside u v htail)
  | @pair s d _ ih =>
    refine ⟨fun u v h => ?_, fun h => ih.behind ((endsEscaping_pair d).mp h)⟩
    -- the quote is not the backslash; it is the character it takes, or stands behind the pair
    match u, h with
    | [], h => exact absurd (List.cons.inj h).1.symm hq
    | ['\\'], _ => exact endsEscaping_concat.mpr not_endsEscaping_nil
    | x :: y :: u, h =>
      simp only [List.cons_append, List.cons.injEq] at h
      obtain ⟨rfl, rfl, htail⟩ := h
      exact (endsEscaping_pair _).mpr (ih.inside u v htail)

/-- **The inside of a string** is a text whose quotes are all escaped, and which escapes nothing
behind it. -/
theorem stringBody_iff (hq : q ≠ '\\') : StringBody q s ↔ EscapesQuotes q s := by
  refine ⟨fun h => h.escapesQuotes hq, fun h => ?_⟩
  rcases closed_or_openBody q s with ⟨t, r, rfl, ht⟩ | ⟨t, x, ht, rfl | rfl, rfl⟩
  · exact absurd (h.inside t r rfl) (ht.escapesQuotes hq).behind
  · rwa [List.append_nil]
  · exact absurd (endsEscaping_concat.mpr (ht.escapesQuotes hq).behind) h.behind

/-- The place behind the string that starts at the place `i`. -/
def stringEnd? (text : List Char) (i : Nat) : Option Nat :=
  text[i]?.map fun q => i + 1 + (cutString q (text.drop (i + 1))).1.length

/-- A whole string: it ends with its opening quote, scanning ends there, and that quote is not
escaped. -/
def IsString (s : List Char) : Prop :=
  ∃ q t, IsQuote q ∧ s = q :: (t ++ [q]) ∧ stringEnd? s 0 = some s.length ∧ ¬ EndsEscaping t

theorem isString_iff (hq : IsQuote q) : IsString (q :: (t ++ [q])) ↔ EscapesQuotes q t := by
  have hend : stringEnd? (q :: (t ++ [q])) 0 = some (1 + (cutString q (t ++ [q])).1.length) := by
    simp [stringEnd?]
  constructor
  · rintro ⟨q', t', -, heq, hscan, hlast⟩
    obtain ⟨rfl, heq⟩ := List.cons.inj heq
    obtain rfl : t = t' := (List.append_inj_left' heq rfl)
    rcases closed_or_openBody q t with ⟨t, r, rfl, ht⟩ | ⟨t, x, ht, rfl | rfl, rfl⟩
    · -- the string would end in front of the last quote
      have hcut := ht.cutString_append hq.ne_backslash (r ++ [q])
      rw [hend, List.append_assoc, List.cons_append, hcut] at hscan
      simp only [List.length_append, List.length_cons, List.length_nil, Option.some.injEq] at hscan
      omega
    · rw [List.append_nil]
      exact ht.escapesQuotes hq.ne_backslash
    · exact absurd (endsEscaping_concat.mpr (ht.escapesQuotes hq.ne_backslash).behind) hlast
  · intro h
    have hcut := ((stringBody_iff hq.ne_backslash).mpr h).cutString_append hq.ne_backslash []
    refine ⟨q, t, hq, rfl, ?_, h.behind⟩
    rw [hend, hcut]
    simp [Nat.add_comm]

/-! ## What is read -/

/-- A string is told by its first and its last character. -/
theorem stringLiteral?_eq_some_iff {v : String} : stringLiteral? q s = some v ↔
    ∃ t, s = q :: (t ++ [q]) ∧ v = String.ofList (unescaped q t) := by
  rw [stringLiteral?, Option.map_eq_some_iff]
  constructor
  · rintro ⟨t, ht, rfl⟩
    obtain ⟨r, hr, ht⟩ := Option.bind_eq_some_iff.mp ht
    refine ⟨t, ?_, rfl⟩
    rw [Text.after?_eq_some hr, Text.before?_eq_some ht, List.singleton_append]
  · rintro ⟨t, rfl, rfl⟩
    have hafter : Text.after? [q] (q :: (t ++ [q])) = some (t ++ [q]) := Text.after?_append [q] _
    exact ⟨t, by rw [hafter, Option.bind_some, Text.before?_append], rfl⟩

theorem stringLiteral?_enclosed (q : Char) (t : List Char) :
    stringLiteral? q (q :: (t ++ [q])) = some (String.ofList (unescaped q t)) :=
  stringLiteral?_eq_some_iff.mpr ⟨t, rfl, rfl⟩

/-- What starts with a quote is no number and no word. -/
theorem scalar?_of_isQuote (hq : IsQuote q) (he : Text.trim e = q :: s) :
    scalar? e = .ok ((stringLiteral? q (q :: s)).map .text) := by
  -- No number and no word starts with a quote, and only one of the two kinds of strings does.
  have hliterals : ((stringLiteral? '\'' (q :: s)).orElse fun _ => stringLiteral? '"' (q :: s)) =
      stringLiteral? q (q :: s) := by
    rcases hq with rfl | rfl
    · rw [stringLiteral?_cons_of_ne (q := '"') (by decide)]
      cases stringLiteral? '\'' ('\'' :: s) <;> rfl
    · rw [stringLiteral?_cons_of_ne (q := '\'') (by decide)]
      rfl
  have hnumber : accepts? number (q :: s) = none := by
    rw [accepts?, number_eq_none]
    · rfl
    · rcases hq with rfl | rfl <;> decide
    · rcases hq with rfl | rfl <;> decide
  have hword : wordScalars.lookup (String.ofList (Text.lower (q :: s))) = none := by
    have hlower : q.toLower ∈ Text.lower (q :: s) :=
      Text.mem_lower (by rcases hq with rfl | rfl <;> decide) List.mem_cons_self
    have hwords : ∀ w ∈ ["true", "false", "null"], q.toLower ∉ w.toList := by
      rcases hq with rfl | rfl <;> decide
    exact lookup_wordScalars fun w hw heq => hwords w hw (heq ▸ hlower)
  cases hlit : stringLiteral? q (q :: s) with
  | some v => simp only [scalar?, he, hliterals, hlit, Option.map_some]
  | none => simp only [scalar?, he, hliterals, hlit, hnumber, hword, Option.map_none]

/-- A number that is read is an integer of not too many digits, or it has a fraction. -/
theorem of_accepts?_number {v : Value} (h : accepts? number s = some (.ok v)) :
    (∃ ds n, readDigits ds = .ok n ∧ (v = .int n ∨ v = .int (-n))) ∨ ∃ x, v = .float x := by
  obtain ⟨⟨a, r⟩, hread, rfl⟩ := Option.map_eq_some_iff.mp h
  rw [number] at hread
  obtain ⟨sign, s₁, -, hread⟩ := bind_eq_some_iff.mp hread
  obtain ⟨whole, s₂, -, hread⟩ := bind_eq_some_iff.mp hread
  obtain ⟨fraction, s₃, -, hread⟩ := bind_eq_some_iff.mp hread
  split at hread
  · have hvalue := (Prod.mk.inj (Option.some.inj hread)).1
    cases fraction with
    | none =>
      cases hdigits : readDigits whole with
      | error f =>
        rw [hdigits] at hvalue
        cases hvalue
      | ok n =>
        rw [hdigits] at hvalue
        obtain rfl := Except.ok.inj hvalue
        refine .inl ⟨whole, n, hdigits, ?_⟩
        by_cases hminus : (sign == some '-') = true
        · exact .inr (congrArg Value.int (if_pos hminus))
        · exact .inl (congrArg Value.int (if_neg hminus))
    | some ds => exact .inr ⟨_, (Except.ok.inj hvalue).symm⟩
  · cases hread

/-- What an expression is read as: a text in quotes, a number or a word. -/
theorem of_scalar? {v : Value} (h : scalar? e = .ok (some v)) :
    (∃ q t, IsQuote q ∧ Text.trim e = q :: (t ++ [q]) ∧
      v = .text (String.ofList (unescaped q t))) ∨
    (∃ ds n, readDigits ds = .ok n ∧ (v = .int n ∨ v = .int (-n))) ∨ (∃ x, v = .float x) ∨
    (∃ b, v = .bool b) ∨ v = .null := by
  rw [scalar?] at h
  split at h
  · next u hlit =>
    obtain rfl : .text u = v := Option.some.inj (Except.ok.inj h)
    rw [Option.orElse_eq_or, Option.or_eq_some_iff] at hlit
    rcases hlit with hlit | ⟨-, hlit⟩
    · obtain ⟨t, ht, rfl⟩ := stringLiteral?_eq_some_iff.mp hlit
      exact .inl ⟨'\'', t, .inl rfl, ht, rfl⟩
    · obtain ⟨t, ht, rfl⟩ := stringLiteral?_eq_some_iff.mp hlit
      exact .inl ⟨'"', t, .inr rfl, ht, rfl⟩
  · split at h
    · next n hnumber =>
      obtain ⟨w, rfl, hw⟩ := exists_of_map_eq_ok h
      obtain rfl : w = v := Option.some.inj hw
      exact .inr ((of_accepts?_number hnumber).imp_right .inl)
    -- What is left are the three words.
    · obtain ⟨front, back, heq, -⟩ := List.lookup_eq_some_iff.mp (Except.ok.inj h)
      have hmem : v ∈ wordScalars.map Prod.snd := by
        rw [heq, List.map_append]
        exact List.mem_append_right _ List.mem_cons_self
      simp only [wordScalars, List.map_cons, List.map_nil, List.mem_cons, List.not_mem_nil,
        or_false] at hmem
      rcases hmem with rfl | rfl | rfl
      · exact .inr (.inr (.inr (.inl ⟨true, rfl⟩)))
      · exact .inr (.inr (.inr (.inl ⟨false, rfl⟩)))
      · exact .inr (.inr (.inr (.inr rfl)))

/-- **What is read as a string** starts and ends with the same quote. -/
theorem scalar?_eq_text_iff {v : String} : scalar? e = .ok (some (.text v)) ↔
    ∃ q t, IsQuote q ∧ Text.trim e = q :: (t ++ [q]) ∧ v = String.ofList (unescaped q t) := by
  constructor
  · intro h
    rcases of_scalar? h with ⟨q, t, hq, he, hv⟩ | ⟨ds, n, -, hv | hv⟩ | ⟨x, hv⟩ | ⟨b, hv⟩ | hv <;>
      cases hv
    exact ⟨q, t, hq, he, rfl⟩
  · rintro ⟨q, t, hq, he, rfl⟩
    rw [scalar?_of_isQuote hq he, stringLiteral?_enclosed, Option.map_some]

/-- A rule that starts with a quote is a text or not read at all. -/
theorem readRule_of_isQuote (scope : Scope) (hq : IsQuote q) (he : Text.trim e = q :: s) :
    readRule scope e = .ok (match stringLiteral? q (q :: s) with
      | some v => .text v
      | none => .unread (String.ofList (q :: s))) := by
  have hscalar : scalar? (Text.trim e) = .ok ((stringLiteral? q (q :: s)).map .text) := by
    rw [scalar?_trim, scalar?_of_isQuote hq he]
  cases hlit : stringLiteral? q (q :: s) with
  | some v =>
    rw [hlit] at hscalar
    exact readRule_of_string hscalar
  | none =>
    -- It starts with no bracket, no `new` and no call either.
    have harray : arrayContent? (Text.trim e) = none := by
      rw [he]
      exact arrayContent?_eq_none (by rcases hq with rfl | rfl <;> decide)
    have hnew : accepts? constructedRule (q :: s) = none := by
      rw [accepts?, constructedRule,
        bind_eq_none (text_eq_none (d := 'n') rfl (by rcases hq with rfl | rfl <;> decide) s)]
      rfl
    have hcall : facadeCall (q :: s) = none := by
      have hslash : char '\\' (q :: s) = none :=
        char_eq_none (by rcases hq with rfl | rfl <;> decide) s
      have hspace : text "Illuminate\\Validation\\" (q :: s) = none :=
        text_eq_none (d := 'I') rfl (by rcases hq with rfl | rfl <;> decide) s
      have hrule : text "Rule::" (q :: s) = none :=
        text_eq_none (d := 'R') rfl (by rcases hq with rfl | rfl <;> decide) s
      rw [facadeCall, bind_eq (maybe_eq_none hslash), bind_eq (maybe_eq_none hspace),
        bind_eq_none hrule]
    rw [hlit] at hscalar
    rw [readRule_of_call hscalar harray, he, callRule]
    simp only [hnew, hcall]

/-! ## The laws of reading strings -/

/-- Nothing but whole strings is read as a string. -/
structure OnlyStrings (scope : Scope) (e : List Char) : Prop where
  /-- A scalar that is a text is written as one whole string. -/
  scalar : ∀ v, scalar? e = .ok (some (.text v)) → IsString (Text.trim e)
  /-- A rule that starts with a quote and is not one whole string is kept as it is. -/
  rule : ∀ q s, IsQuote q → Text.trim e = q :: s → ¬ IsString (q :: s) →
    readRule scope e = .ok (.unread (String.ofList (q :: s)))

/-- How strings are read, at an expression `e`. -/
structure StringLaws (scope : Scope) (e : List Char) : Prop where
  /-- Nothing but whole strings is read exactly where no quote between two of its kind closes the
  first one, and the second one is not escaped. -/
  only : OnlyStrings scope e ↔
    ∀ q t, IsQuote q → Text.trim e = q :: (t ++ [q]) → EscapesQuotes q t
  /-- What is read as a string is what stands between two quotes of one kind. -/
  reads : ∀ v, scalar? e = .ok (some (.text v)) ↔
    ∃ q t, IsQuote q ∧ Text.trim e = q :: (t ++ [q]) ∧ v = String.ofList (unescaped q t)
  /-- A rule that starts with a quote is a text if it ends with that quote as well, and kept as it
  is otherwise. -/
  rule : ∀ q s, IsQuote q → Text.trim e = q :: s →
    readRule scope e = .ok (match Text.before? [q] s with
      | some t => .text (String.ofList (unescaped q t))
      | none => .unread (String.ofList (q :: s)))

theorem onlyStrings_iff : OnlyStrings scope e ↔
    ∀ q t, IsQuote q → Text.trim e = q :: (t ++ [q]) → EscapesQuotes q t := by
  constructor
  · intro h q t hq he
    have hread := scalar?_eq_text_iff.mpr ⟨q, t, hq, he, rfl⟩
    rw [← isString_iff hq, ← he]
    exact h.scalar _ hread
  · intro h
    refine ⟨fun v hv => ?_, fun q s hq he hs => ?_⟩
    · obtain ⟨q, t, hq, he, -⟩ := scalar?_eq_text_iff.mp hv
      rw [he, isString_iff hq]
      exact h q t hq he
    -- A literal that could be read would be one string, which the text in quotes is not.
    · have hnone : stringLiteral? q (q :: s) = none := by
        rw [Option.eq_none_iff_forall_not_mem]
        intro v hv
        obtain ⟨t, ht, -⟩ := stringLiteral?_eq_some_iff.mp hv
        rw [ht] at hs he
        exact hs ((isString_iff hq).mpr (h q t hq he))
      rw [readRule_of_isQuote scope hq he, hnone]

/-- **Strings.** Every expression obeys the laws, in every scope. -/
theorem stringLaws (scope : Scope) (e : List Char) : StringLaws scope e where
  only := onlyStrings_iff
  reads _ := scalar?_eq_text_iff
  rule q s hq he := by
    rw [readRule_of_isQuote scope hq he, stringLiteral?, show q :: s = [q] ++ s from rfl,
      Text.after?_append, Option.bind_some]
    cases Text.before? [q] s <;> rfl

/-- Two strings with a dot between them are read as one. -/
theorem not_onlyStrings_joinedStrings :
    scalar? "'a' . 'b'".toList = .ok (some (.text "a' . 'b")) ∧
      ¬ IsString "'a' . 'b'".toList ∧ ¬ OnlyStrings ⟨"", .empty⟩ "'a' . 'b'".toList := by
  have htrim : Text.trim "'a' . 'b'".toList = "'a' . 'b'".toList := by decide
  have hread : scalar? "'a' . 'b'".toList = .ok (some (.text "a' . 'b")) :=
    scalar?_eq_text_iff.mpr ⟨'\'', "a' . 'b".toList, isQuote_single, htrim, by decide⟩
  have hstring : ¬ IsString "'a' . 'b'".toList := by
    intro h
    have hescaped := (isString_iff (t := "a' . 'b".toList) isQuote_single).mp h
    exact absurd (hescaped.inside ['a'] " . 'b".toList rfl) (by decide)
  refine ⟨hread, hstring, fun h => hstring ?_⟩
  rw [← htrim]
  exact h.scalar _ hread

/-! ## Strings that are written -/

theorem stringEnd?_append (hq : IsQuote q) (ht : StringBody q t) (front rest : List Char) :
    stringEnd? (front ++ (q :: (t ++ q :: rest))) front.length =
      some (front.length + (q :: (t ++ [q])).length) := by
  have hquote : (front ++ (q :: (t ++ q :: rest)))[front.length]? = some q := by
    rw [List.getElem?_append_right (Nat.le_refl _), Nat.sub_self, List.getElem?_cons_zero]
  rw [stringEnd?, hquote, List.drop_length_add_append, List.drop_one, List.tail_cons,
    Option.map_some, ht.cutString_append hq.ne_backslash]
  simp only [List.length_append, List.length_cons, List.length_nil]
  exact congrArg some (by omega)

/-- **A text in quotes is read as that text**, and scanning it, wherever it stands, ends behind its
closing quote. -/
theorem scalar?_quoted_and_stringEnd? (hq : IsQuote q) (s front rest : List Char) :
    scalar? (quoted q s) = .ok (some (.text (String.ofList s))) ∧
      stringEnd? (front ++ (quoted q s ++ rest)) front.length =
        some (front.length + (quoted q s).length) := by
  refine ⟨scalar?_quoted hq s, ?_⟩
  have hbody := stringBody_escaped hq.ne_backslash s
  rw [quoted, List.cons_append, List.append_assoc, List.singleton_append]
  exact stringEnd?_append hq hbody front rest

/-- Backslashes, both quotes and a line break in quotes, between other strings. -/
theorem scalar?_quoted_and_stringEnd?_marked :
    IsQuote '"' ∧
      scalar? (quoted '"' "\\\"'\n\\".toList) = .ok (some (.text "\\\"'\n\\")) ∧
      stringEnd? ("'\"' . ".toList ++ (quoted '"' "\\\"'\n\\".toList ++ " . \"\"".toList)) 6 =
        some 16 := by
  have hq : IsQuote '"' := .inr rfl
  obtain ⟨hscalar, hend⟩ := scalar?_quoted_and_stringEnd? hq "\\\"'\n\\".toList "'\"' . ".toList
    " . \"\"".toList
  exact ⟨hq, hscalar, hend⟩

end PayloadTypes.Source
