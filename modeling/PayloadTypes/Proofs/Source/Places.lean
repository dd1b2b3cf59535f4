import PayloadTypes.Proofs.Source.ClosingBracket
import PayloadTypes.Proofs.Source.Strings
/-!
# Going through a text by its places

A text can also be gone through with a place that is moved on: one place at a
time, two behind a backslash, and over whole strings and comments. Such a loop may
look at a place that the text does not have, or stay where it is for good. Those
over a string, to a closing bracket and over the parts of a list do neither. Every
turn moves the place on (`Loop.Advances`), so there are no more turns than
characters, and what a loop comes to is what the lexemes behind its place give
(`Loop.run_eq_some`). The main statement says this of every text (`placeLaws`).
-/

namespace PayloadTypes.Source

variable {σ α : Type} {o c : Char} {i j n : Nat} {s text : List Char} {l : Lexeme}

/-! ## Loops -/

/-- What a turn of a loop comes to. -/
inductive Turn (σ α : Type) where
  /-- The loop goes on at a place. -/
  | goOn (i : Nat) (st : σ)
  /-- The loop ends. -/
  | stop (a : α)

/-- A loop over the places of `text`. -/
structure Loop (text : List Char) (σ α : Type) where
  /-- The turn at a place: nothing where it looks at a place that the text does not have. -/
  turn : Nat → σ → Option (Turn σ α)
  /-- What the loop comes to behind the text. -/
  atEnd : σ → α

namespace Loop

variable {loop : Loop text σ α} {st : σ}

/-- What the loop comes to from a place on: nothing if it has not ended after `n` turns, or has
looked at a place that the text does not have. -/
def run (loop : Loop text σ α) : (n : Nat) → Nat → σ → Option α
  | 0, _, _ => none
  | n + 1, i, st =>
    if text.length ≤ i then some (loop.atEnd st)
    else
      match loop.turn i st with
      | none => none
      | some (.stop a) => some a
      | some (.goOn j st') => run loop n j st'

theorem run_of_le (h : text.length ≤ i) : loop.run (n + 1) i st = some (loop.atEnd st) := by
  rw [run, if_pos h]

theorem run_of_stop {a : α} (h : i < text.length) (hturn : loop.turn i st = some (.stop a)) :
    loop.run (n + 1) i st = some a := by
  rw [run, if_neg (by omega), hturn]

theorem run_of_goOn {st' : σ} (h : i < text.length)
    (hturn : loop.turn i st = some (.goOn j st')) : loop.run (n + 1) i st = loop.run n j st' := by
  rw [run, if_neg (by omega), hturn]

/-- At every place of the text the loop finds what it looks at, and it ends or goes on farther on,
at the end of the text at last. -/
def Advances (loop : Loop text σ α) : Prop :=
  ∀ i < text.length, ∀ st, (∃ a, loop.turn i st = some (.stop a)) ∨
    ∃ j st', loop.turn i st = some (.goOn j st') ∧ i < j ∧ j ≤ text.length

/-- **A loop that advances ends**: it takes no more turns than there are characters, and one. -/
theorem Advances.exists_run (h : loop.Advances) (i : Nat) (st : σ)
    (hn : text.length - i < n) : ∃ a, loop.run n i st = some a := by
  induction n generalizing i st with
  | zero => omega
  | succ n ih =>
    rcases Nat.lt_or_ge i text.length with hi | hi
    · obtain ⟨a, ha⟩ | ⟨j, st', hj, hij, -⟩ := h i hi st
      · exact ⟨a, run_of_stop hi ha⟩
      · rw [run_of_goOn hi hj]
        exact ih j st' (by omega)
    · exact ⟨loop.atEnd st, run_of_le hi⟩

/-- **What a loop comes to**: a result that no turn changes, as long as every turn moves the place
on. The states that the loop can be in are those with `Inv`. -/
theorem run_eq_some (Inv : σ → Prop) (result : Nat → σ → α)
    (hend : ∀ i st, Inv st → text.length ≤ i → loop.atEnd st = result i st)
    (hturn : ∀ i st, Inv st → i < text.length →
      loop.turn i st = some (.stop (result i st)) ∨
        ∃ j st', loop.turn i st = some (.goOn j st') ∧ i < j ∧ Inv st' ∧
          result j st' = result i st)
    (hst : Inv st) (hn : text.length - i < n) : loop.run n i st = some (result i st) := by
  induction n generalizing i st with
  | zero => omega
  | succ n ih =>
    rcases Nat.lt_or_ge i text.length with hi | hi
    · obtain hstop | ⟨j, st', hj, hij, hst', hresult⟩ := hturn i st hst hi
      · exact run_of_stop hi hstop
      · rw [run_of_goOn hi hj, ih hst' (by omega), hresult]
    · rw [run_of_le hi, hend i st hst hi]

end Loop

/-! ## Pieces of a text -/

/-- A piece that stands at a place ends in the text. -/
theorem add_length_le {a b : List Char} (h : text.drop i = a ++ b) (hi : i ≤ text.length) :
    i + a.length ≤ text.length := by
  have hlen := congrArg List.length h
  simp only [List.length_append, List.length_drop] at hlen
  omega

/-- It is what the text has between its two places. -/
theorem extract_of_drop_eq {a b : List Char} (h : text.drop i = a ++ b) :
    text.extract i (i + a.length) = a := by
  rw [List.extract_eq_take_drop, h, Nat.add_sub_cancel_left, List.take_left]

/-! ## Strings -/

/-- A string ends behind the place where it starts, and in the text. -/
theorem exists_stringEnd? (h : i < text.length) :
    ∃ j, stringEnd? text i = some j ∧ i < j ∧ j ≤ text.length := by
  exact ⟨_, by rw [stringEnd?, List.getElem?_eq_getElem h, Option.map_some], by omega,
    add_length_le (cutString_append text[i] _).symm h⟩

/-- The loop over a string, behind its quote `q`. -/
def stringLoop (q : Char) (text : List Char) : Loop text Unit Nat where
  turn i _ := do
    let c ← text[i]?
    if c = '\\' then return .goOn (i + 2) ()
    else if c = q then return .stop (i + 1)
    else return .goOn (i + 1) ()
  atEnd _ := text.length

/-- Where a string ends of which the text from a place on is the inside; a backslash at the end of
the text has the loop leave the text, and its end is the end of the text. -/
def stringEndFrom (q : Char) (text : List Char) (i : Nat) : Nat :=
  min (i + (cutString q (text.drop i)).1.length) text.length

theorem stringEndFrom_of_le {q : Char} (h : text.length ≤ i) :
    stringEndFrom q text i = text.length := by
  rw [stringEndFrom]
  omega

theorem stringEndFrom_eq {q : Char} (h : i ≤ text.length) :
    stringEndFrom q text i = i + (cutString q (text.drop i)).1.length :=
  Nat.min_eq_left (add_length_le (cutString_append q _).symm h)

/-- A backslash takes the next character with it, if there is one. -/
theorem stringEndFrom_backslash (q : Char) (hi : text[i]? = some '\\') :
    stringEndFrom q text (i + 2) = stringEndFrom q text i := by
  rcases Nat.lt_or_ge (i + 1) text.length with hlt | hge
  · have hpair : text.drop i = '\\' :: text[i + 1] :: text.drop (i + 2) := by
      rw [drop_eq_cons hi, List.drop_eq_getElem_cons hlt]
    rw [stringEndFrom, stringEndFrom, hpair, cutString_pair, List.length_cons, List.length_cons]
    omega
  · -- the backslash is the last character, and the loop leaves the text
    rw [stringEndFrom_of_le (by omega), stringEndFrom, drop_eq_cons hi, List.drop_of_length_le hge,
      cutString, List.length_singleton]
    omega

/-- The string ends behind its quote. -/
theorem stringEndFrom_quote {q : Char} (hi : text[i]? = some q) (hq : q ≠ '\\') :
    stringEndFrom q text i = i + 1 := by
  have hlt : i < text.length := (List.getElem?_eq_some_iff.mp hi).1
  rw [stringEndFrom_eq hlt.le, drop_eq_cons hi, cutString_close hq, List.length_singleton]

/-- Any other character stands in it. -/
theorem stringEndFrom_other {q : Char} (hi : text[i]? = some c) (hb : c ≠ '\\') (hq : c ≠ q) :
    stringEndFrom q text (i + 1) = stringEndFrom q text i := by
  by_cases hrest : text.drop (i + 1) = []
  · have hge : text.length ≤ i + 1 := List.drop_eq_nil_iff.mp hrest
    rw [stringEndFrom_of_le hge, stringEndFrom, drop_eq_cons hi, hrest, cutString,
      List.length_singleton]
    omega
  · rw [stringEndFrom, stringEndFrom, drop_eq_cons hi, cutString_cons hb hq hrest,
      List.length_cons]
    omega

/-- **A turn over a string** moves the place on and leaves the end of the string as it is. -/
theorem stringLoop_turn (q : Char) (h : i < text.length) :
    (stringLoop q text).turn i () = some (.stop (stringEndFrom q text i)) ∨
      ∃ j, (stringLoop q text).turn i () = some (.goOn j ()) ∧ i < j ∧
        stringEndFrom q text j = stringEndFrom q text i := by
  obtain ⟨c, hi⟩ : ∃ c, text[i]? = some c := ⟨text[i], List.getElem?_eq_getElem h⟩
  have hturn : (stringLoop q text).turn i () =
      if c = '\\' then some (.goOn (i + 2) ())
      else if c = q then some (.stop (i + 1))
      else some (.goOn (i + 1) ()) := by
    simp only [stringLoop, hi]
    rfl
  rw [hturn]
  split_ifs with hb hq
  · subst hb
    exact .inr ⟨i + 2, rfl, by omega, stringEndFrom_backslash q hi⟩
  · subst hq
    exact .inl (by rw [stringEndFrom_quote hi hb])
  · exact .inr ⟨i + 1, rfl, by omega, stringEndFrom_other hi hb hq⟩

/-- **The loop over a string ends where the string does.** -/
theorem run_stringLoop {q : Char} (hi : text[i]? = some q) (hn : text.length - (i + 1) < n) :
    (stringLoop q text).run n (i + 1) () = stringEnd? text i := by
  have hlt : i < text.length := (List.getElem?_eq_some_iff.mp hi).1
  have hrun : (stringLoop q text).run n (i + 1) () = some (stringEndFrom q text (i + 1)) := by
    refine Loop.run_eq_some (fun _ => True) (fun i _ => stringEndFrom q text i)
      (fun i _ _ h => (stringEndFrom_of_le h).symm) (fun i _ _ h => ?_) trivial hn
    obtain hstop | ⟨j, hj, hij, heq⟩ := stringLoop_turn q h
    · exact .inl hstop
    · exact .inr ⟨j, (), hj, hij, trivial, heq⟩
  rw [hrun, stringEndFrom_eq hlt, stringEnd?, hi, Option.map_some]

/-! ## Comments -/

/-- The place behind the comment that starts at the place `i`, or `i` itself where none does. -/
def commentEnd? (text : List Char) (i : Nat) : Option Nat :=
  text[i]?.map fun c =>
    i + ((cutComment? (c :: text.drop (i + 1))).map fun p => p.1.length).getD 0

theorem commentEnd?_eq (h : i < text.length) :
    commentEnd? text i =
      some (i + ((cutComment? (text.drop i)).map fun p => p.1.length).getD 0) := by
  rw [commentEnd?, List.getElem?_eq_getElem h, Option.map_some, List.drop_eq_getElem_cons h]

/-- A comment ends in the text, behind the place where it starts; where none starts, nothing is
passed over. -/
theorem exists_commentEnd? (h : i < text.length) :
    ∃ j, commentEnd? text i = some j ∧ i ≤ j ∧ j ≤ text.length ∧
      (j = i ↔ startsComment (text.drop i) = false) := by
  have hend := commentEnd?_eq h
  cases hcut : cutComment? (text.drop i) with
  | none =>
    rw [hcut] at hend
    exact ⟨i, hend, Nat.le_refl i, h.le, iff_of_true rfl (cutComment?_eq_none_iff.mp hcut)⟩
  | some p =>
    obtain ⟨w, r⟩ := p
    obtain ⟨happend, hne⟩ := cutComment?_append hcut
    have hpos : 0 < w.length := List.length_pos_iff.mpr hne
    rw [hcut] at hend
    refine ⟨i + w.length, hend, by omega, add_length_le happend.symm h.le,
      iff_of_false (by omega) fun hstart => ?_⟩
    rw [cutComment?_eq_none_iff.mpr hstart] at hcut
    cases hcut

/-- A comment starts with a slash or a hash. -/
theorem of_startsComment (h : startsComment (c :: s) = true) : c = '/' ∨ c = '#' := by
  cases s with
  | nil => exact .inr (by simpa [startsComment] using h)
  | cons d s =>
    simp only [startsComment, Bool.or_eq_true, Bool.and_eq_true, beq_iff_eq] at h
    exact h.imp And.left And.left

/-! ## Lexemes -/

/-- The lexeme that starts at a place and the place behind it; nothing where the text has no such
place. -/
def lexemeAt? (text : List Char) (i : Nat) : Option (Lexeme × Nat) := do
  let c ← text[i]?
  if c = '\'' ∨ c = '"' then
    let j ← stringEnd? text i
    return (.string (text.extract i j), j)
  else if c = '/' ∨ c = '#' then
    let j ← commentEnd? text i
    if j = i then return (.char c, i + 1) else return (.comment (text.extract i j), j)
  else return (.char c, i + 1)

theorem lexemeAt?_of_isQuote (hi : text[i]? = some c) (hq : IsQuote c) :
    lexemeAt? text i = some (.string (c :: (cutString c (text.drop (i + 1))).1),
      i + (c :: (cutString c (text.drop (i + 1))).1).length) := by
  have htext : text.drop i = (c :: (cutString c (text.drop (i + 1))).1) ++
      (cutString c (text.drop (i + 1))).2 := by
    rw [drop_eq_cons hi, List.cons_append, cutString_append]
  have hend : stringEnd? text i =
      some (i + (c :: (cutString c (text.drop (i + 1))).1).length) := by
    rw [stringEnd?, hi, Option.map_some, List.length_cons, Nat.add_assoc, Nat.add_comm 1]
  have hquote : c = '\'' ∨ c = '"' := hq
  simp only [lexemeAt?, hi, hend, if_pos hquote, extract_of_drop_eq htext, Option.bind_eq_bind,
    Option.bind_some, Option.pure_def]

theorem lexemeAt?_of_comment {w r : List Char} (hi : text[i]? = some c) (hq : ¬ IsQuote c)
    (hcut : cutComment? (text.drop i) = some (w, r)) :
    lexemeAt? text i = some (.comment w, i + w.length) := by
  obtain ⟨happend, hne⟩ := cutComment?_append hcut
  have hpos : 0 < w.length := List.length_pos_iff.mpr hne
  have hpast : i + w.length ≠ i := by omega
  have hend : commentEnd? text i = some (i + w.length) := by
    rw [commentEnd?_eq (List.getElem?_eq_some_iff.mp hi).1, hcut]
    rfl
  have hmark : c = '/' ∨ c = '#' := by
    refine of_startsComment (s := text.drop (i + 1)) ?_
    rw [← Bool.not_eq_false, ← cutComment?_eq_none_iff, ← drop_eq_cons hi, hcut]
    exact Option.some_ne_none _
  have hquote : ¬ (c = '\'' ∨ c = '"') := hq
  simp only [lexemeAt?, hi, hend, if_neg hquote, if_pos hmark, if_neg hpast,
    extract_of_drop_eq happend.symm, Option.bind_eq_bind, Option.bind_some, Option.pure_def]

theorem lexemeAt?_of_not_comment (hi : text[i]? = some c) (hq : ¬ IsQuote c)
    (hcut : cutComment? (text.drop i) = none) : lexemeAt? text i = some (.char c, i + 1) := by
  have hend : commentEnd? text i = some i := by
    rw [commentEnd?_eq (List.getElem?_eq_some_iff.mp hi).1, hcut]
    rfl
  have hquote : ¬ (c = '\'' ∨ c = '"') := hq
  simp only [lexemeAt?, hi, hend, if_neg hquote, if_true, ite_self, Option.bind_eq_bind,
    Option.bind_some, Option.pure_def]

/-- **The lexeme at a place** is the first one of the text from there on. -/
theorem lexemeAt?_eq (hi : text[i]? = some c) :
    lexemeAt? text i = some ((cutLexeme c (text.drop (i + 1))).1,
      i + (cutLexeme c (text.drop (i + 1))).1.chars.length) := by
  by_cases hq : IsQuote c
  · rw [lexemeAt?_of_isQuote hi hq, cutLexeme, if_pos (show c = '\'' ∨ c = '"' from hq)]
    rfl
  · rw [cutLexeme, if_neg (show ¬ (c = '\'' ∨ c = '"') from hq), ← drop_eq_cons hi]
    cases hcut : cutComment? (text.drop i) with
    | none => exact lexemeAt?_of_not_comment hi hq hcut
    | some p => exact lexemeAt?_of_comment hi hq hcut

/-- The lexeme stands at the place `i`: it is the next one of the text from there on. -/
structure StandsAt (text : List Char) (i : Nat) (l : Lexeme) : Prop where
  /-- It is found there. -/
  lexemeAt : lexemeAt? text i = some (l, i + l.chars.length)
  /-- It is not empty. -/
  pos : 0 < l.chars.length
  /-- The text goes on behind it. -/
  drop_eq : text.drop i = l.chars ++ text.drop (i + l.chars.length)
  /-- It is the first lexeme. -/
  lexemes_eq : lexemes (text.drop i) = l :: lexemes (text.drop (i + l.chars.length))

theorem StandsAt.le (h : StandsAt text i l) (hi : i < text.length) :
    i + l.chars.length ≤ text.length :=
  add_length_le h.drop_eq hi.le

/-- Its last character stands in front of the place behind it. -/
theorem StandsAt.getElem?_last (h : StandsAt text i l) :
    text[i + l.chars.length - 1]? = l.chars.getLast? := by
  have hpos := h.pos
  have hlast : (text.drop i)[l.chars.length - 1]? = l.chars.getLast? := by
    rw [h.drop_eq, List.getElem?_append_left (by omega), List.getLast?_eq_getElem?]
  rw [← hlast, List.getElem?_drop, Nat.add_sub_assoc hpos]

/-- **At every place of a text stands a lexeme.** -/
theorem exists_standsAt (h : i < text.length) : ∃ l, StandsAt text i l := by
  have hi : text[i]? = some text[i] := List.getElem?_eq_getElem h
  generalize text[i] = c at hi
  have hdrop : text.drop i = c :: text.drop (i + 1) := drop_eq_cons hi
  have happend := cutLexeme_append c (text.drop (i + 1))
  rw [← hdrop] at happend
  have hrest : text.drop (i + (cutLexeme c (text.drop (i + 1))).1.chars.length) =
      (cutLexeme c (text.drop (i + 1))).2 := by
    rw [← List.drop_drop, ← happend, List.drop_left]
  exact ⟨(cutLexeme c (text.drop (i + 1))).1, lexemeAt?_eq hi,
    List.length_pos_iff.mpr (chars_cutLexeme_ne_nil c _), by rw [hrest, happend],
    by rw [hrest, hdrop, lexemes_cons]⟩

/-! ## Brackets -/

/-- The loop to the bracket `c` that closes the `o` where it starts. -/
def closingLoop (o c : Char) (text : List Char) : Loop text Int (Option Nat) where
  turn i depth := do
    let (l, j) ← lexemeAt? text i
    if l = .char o then return .goOn j (depth + 1)
    else if l = .char c then
      if depth - 1 = 0 then return .stop (some i) else return .goOn j (depth - 1)
    else return .goOn j depth
  atEnd _ := none

/-- **A turn of the search for a bracket** goes over a lexeme, unless it closes the last bracket
that is open. -/
theorem closingLoop_turn (h : StandsAt text i l) (o c : Char) (depth : Int) :
    (closingLoop o c text).turn i depth =
      if l = .char o then some (.goOn (i + l.chars.length) (depth + 1))
      else if l = .char c then
        if depth - 1 = 0 then some (.stop (some i))
        else some (.goOn (i + l.chars.length) (depth - 1))
      else some (.goOn (i + l.chars.length) depth) := by
  simp only [closingLoop, h.lexemeAt]
  rfl

theorem advances_closingLoop (o c : Char) (text : List Char) :
    (closingLoop o c text).Advances := by
  intro i hi depth
  obtain ⟨l, hl⟩ := exists_standsAt hi
  have hpos := hl.pos
  have hle := hl.le hi
  rw [closingLoop_turn hl]
  split_ifs
  · exact .inr ⟨_, _, rfl, by omega, hle⟩
  · exact .inl ⟨_, rfl⟩
  · exact .inr ⟨_, _, rfl, by omega, hle⟩
  · exact .inr ⟨_, _, rfl, by omega, hle⟩

/-- What the search comes to at a place, `depth` brackets being open. The lexemes are searched with
the brackets that are open beside the one that is to be closed. -/
def closedFrom (o c : Char) (text : List Char) (i : Nat) (depth : Int) : Option Nat :=
  (closedAfter? o c (depth - 1).toNat (lexemes (text.drop i))).map (i + ·)

/-- A lexeme that closes nothing is passed over. -/
theorem closedFrom_eq {depth e : Nat} (hl : StandsAt text i l)
    (hstep : ∀ ls, enclosedFrom o c depth (l :: ls) =
      (enclosedFrom o c e ls).map (addEnclosed [l])) :
    closedFrom o c text i (depth + 1) = closedFrom o c text (i + l.chars.length) (e + 1) := by
  simp only [closedFrom, closedAfter?, hl.lexemes_eq, Int.add_sub_cancel, Int.toNat_natCast, hstep]
  cases enclosedFrom o c e (lexemes (text.drop (i + l.chars.length))) with
  | none => rfl
  | some p =>
    simp only [Option.map_some, addEnclosed, List.singleton_append, charsOf_cons,
      List.length_append, Nat.add_assoc]

/-- The closing bracket of the last one that is open is what the search is for. -/
theorem closedFrom_closer (hne : o ≠ c) (hl : StandsAt text i (.char c)) :
    closedFrom o c text i 1 = some i := by
  rw [closedFrom, closedAfter?, hl.lexemes_eq, Int.sub_self, Int.toNat_zero,
    enclosedFrom_closer_zero hne]
  rfl

/-- **From inside of the brackets on**, the loop comes to what the search does. -/
theorem run_closingLoop (hne : o ≠ c) {depth : Int} (hdepth : 1 ≤ depth)
    (hn : text.length - i < n) :
    (closingLoop o c text).run n i depth = some (closedFrom o c text i depth) := by
  -- the loop ends where the last bracket is closed, so one at least is open before each turn
  refine Loop.run_eq_some (1 ≤ ·) (closedFrom o c text) (fun i depth _ h => ?_)
    (fun i depth hdepth h => ?_) hdepth hn
  · rw [closedFrom, List.drop_of_length_le h, lexemes_nil]
    rfl
  · obtain ⟨l, hl⟩ := exists_standsAt h
    have hpos := hl.pos
    obtain ⟨d, rfl⟩ : ∃ d : Nat, depth = d + 1 := ⟨(depth - 1).toNat, by omega⟩
    rw [closingLoop_turn hl]
    split_ifs with ho hc hd
    · subst ho
      exact .inr ⟨_, _, rfl, by omega, by omega,
        (closedFrom_eq (e := d + 1) hl fun _ => enclosedFrom_opener).symm⟩
    · subst hc
      have hlast : (d : Int) + 1 = 1 := by omega
      exact .inl (by rw [hlast, closedFrom_closer hne hl])
    · subst hc
      obtain ⟨e, rfl⟩ : ∃ e, d = e + 1 := ⟨d - 1, by omega⟩
      refine .inr ⟨_, _, rfl, by omega, by omega, ?_⟩
      rw [closedFrom_eq hl fun _ => enclosedFrom_closer_succ hne]
      congr 1
      omega
    · exact .inr ⟨_, _, rfl, by omega, by omega,
        (closedFrom_eq hl fun _ => enclosedFrom_cons_of_ne ho hc).symm⟩

/-- **The loop to a closing bracket** comes to the place of that bracket. -/
theorem IsOpener.run_closingLoop (ho : IsOpener o) (hi : text[i]? = some o) :
    (closingLoop o (closer o) text).run (text.length - i + 1) i 0 =
      some (closingIndex? text i) := by
  have hlt : i < text.length := (List.getElem?_eq_some_iff.mp hi).1
  have hfirst : StandsAt text i (.char o) := by
    obtain ⟨l, hl⟩ := exists_standsAt hlt
    have hlex := hl.lexemes_eq
    rw [drop_eq_cons hi, ho.lexemes_cons] at hlex
    obtain ⟨rfl, -⟩ := List.cons.inj hlex
    exact hl
  have hturn : (closingLoop o (closer o) text).turn i 0 = some (.goOn (i + 1) 1) := by
    rw [closingLoop_turn hfirst, if_pos rfl]
    rfl
  rw [Loop.run_of_goOn hlt hturn, Source.run_closingLoop (ho.ne_closer ho) (by omega) (by omega),
    closingIndex?_eq hi]
  rfl

/-! ## Lists -/

/-- How far a list is split: the parts that are whole, what there is of the next one, and the depth
of brackets. -/
structure Splitting where
  /-- The parts up to the last comma that separates. -/
  parts : List (List Char)
  /-- What has been read since. -/
  current : List Char
  /-- The depth of brackets. -/
  depth : Int

/-- The loop over the parts of a list. -/
def splittingLoop (text : List Char) : Loop text Splitting (List (List Char)) where
  turn i st := do
    let (l, j) ← lexemeAt? text i
    match l with
    | .string cs => return .goOn j { st with current := st.current ++ cs }
    | .comment _ =>
      let e ← text[j - 1]?
      return .goOn j { st with current := st.current ++ [if e = '\n' then '\n' else ' '] }
    | .char c =>
      if c = ',' ∧ st.depth = 0 then
        return .goOn j { st with parts := st.parts ++ [st.current], current := [] }
      else
        return .goOn j
          { st with current := st.current ++ [c], depth := st.depth + depthChange c }
  atEnd st := st.parts ++ if Text.trim st.current = [] then [] else [st.current]

/-- What splitting does with a lexeme. -/
def Splitting.next (st : Splitting) : Lexeme → Splitting
  | .string cs => { st with current := st.current ++ cs }
  | .comment cs => { st with current := st.current ++ [commentMark cs] }
  | .char c =>
    if c = ',' ∧ st.depth = 0 then { st with parts := st.parts ++ [st.current], current := [] }
    else { st with current := st.current ++ [c], depth := st.depth + depthChange c }

/-- **A turn over a list** goes over a lexeme. -/
theorem splittingLoop_turn (h : StandsAt text i l) (st : Splitting) :
    (splittingLoop text).turn i st = some (.goOn (i + l.chars.length) (st.next l)) := by
  simp only [splittingLoop, h.lexemeAt, Option.bind_eq_bind, Option.bind_some]
  cases l with
  | string cs => rfl
  | comment cs =>
    obtain ⟨e, he⟩ : ∃ e, cs.getLast? = some e :=
      ⟨_, List.getLast?_eq_some_getLast (List.length_pos_iff.mp h.pos)⟩
    have hlast : text[i + (Lexeme.comment cs).chars.length - 1]? = some e :=
      h.getElem?_last.trans he
    simp only [hlast, Option.bind_some, Splitting.next, commentMark, he, Option.some.injEq]
    rfl
  | char c =>
    simp only [Splitting.next]
    split <;> rfl

theorem advances_splittingLoop (text : List Char) : (splittingLoop text).Advances := by
  intro i hi st
  obtain ⟨l, hl⟩ := exists_standsAt hi
  have hpos := hl.pos
  exact .inr ⟨_, _, splittingLoop_turn hl st, by omega, hl.le hi⟩

/-- What splitting comes to at a place. -/
def Splitting.partsFrom (st : Splitting) (ls : List Lexeme) : List (List Char) :=
  st.parts ++ splitCommasFrom st.depth st.current ls

theorem Splitting.partsFrom_cons (st : Splitting) (l : Lexeme) (ls : List Lexeme) :
    st.partsFrom (l :: ls) = (st.next l).partsFrom ls := by
  cases l with
  | string cs | comment cs => rw [partsFrom, splitCommasFrom]; rfl
  | char c =>
    rw [partsFrom, splitCommasFrom, next]
    split
    · next h => rw [partsFrom, h.2, List.append_assoc, List.singleton_append]
    · rfl

/-- **The loop over a list** comes to its parts. -/
theorem run_splittingLoop (text : List Char) :
    (splittingLoop text).run (text.length + 1) 0 ⟨[], [], 0⟩ = some (splitCommas text) := by
  refine Loop.run_eq_some (fun _ => True)
    (fun i (st : Splitting) => st.partsFrom (lexemes (text.drop i)))
    (fun i st _ h => ?_) (fun i st _ h => ?_) trivial (Nat.lt_succ_self _)
  · rw [List.drop_of_length_le h, lexemes_nil, Splitting.partsFrom, splitCommasFrom]
    rfl
  · obtain ⟨l, hl⟩ := exists_standsAt h
    have hpos := hl.pos
    refine .inr ⟨_, _, splittingLoop_turn hl st, by omega, trivial, ?_⟩
    rw [hl.lexemes_eq, Splitting.partsFrom_cons]

/-! ## Every text -/

/-- What going through a text by its places comes to. -/
structure PlaceLaws (text : List Char) : Prop where
  /-- A string ends behind the place where it starts, and in the text. -/
  string_end : ∀ i < text.length, ∃ j, stringEnd? text i = some j ∧ i < j ∧ j ≤ text.length
  /-- The loop over its characters comes to that end. -/
  string_run : ∀ i q, text[i]? = some q →
    (stringLoop q text).run (text.length - i) (i + 1) () = stringEnd? text i
  /-- A comment ends in the text, and behind the place where it starts, if one starts there. -/
  comment_end : ∀ i < text.length, ∃ j, commentEnd? text i = some j ∧ i ≤ j ∧ j ≤ text.length ∧
    (j = i ↔ startsComment (text.drop i) = false)
  /-- Every turn of the loop to a closing bracket moves the place on, and not out of the text. -/
  closing_turn : ∀ o c, (closingLoop o c text).Advances
  /-- The loop ends from any place and depth on. -/
  closing_ends : ∀ o c i depth,
    ∃ a, (closingLoop o c text).run (text.length - i + 1) i depth = some a
  /-- From an opening bracket on it comes to the one that closes it. -/
  closing_run : ∀ o c i, (o, c) ∈ brackets → text[i]? = some o →
    (closingLoop o c text).run (text.length - i + 1) i 0 = some (closingIndex? text i)
  /-- Every turn of the loop over a list moves the place on, and not out of the text. -/
  splitting_turn : (splittingLoop text).Advances
  /-- The loop ends from any place on, whatever has been read. -/
  splitting_ends : ∀ i st, ∃ a, (splittingLoop text).run (text.length - i + 1) i st = some a
  /-- From the start on it comes to the parts of the list. -/
  splitting_run :
    (splittingLoop text).run (text.length + 1) 0 ⟨[], [], 0⟩ = some (splitCommas text)

/-- **Going through a text by its places never leaves it and always ends**, whatever strings,
comments and brackets are left open and whatever the text ends with. -/
theorem placeLaws (text : List Char) : PlaceLaws text where
  string_end _ hi := exists_stringEnd? hi
  string_run i q hi := by
    have hlt : i < text.length := (List.getElem?_eq_some_iff.mp hi).1
    exact run_stringLoop hi (by omega)
  comment_end _ hi := exists_commentEnd? hi
  closing_turn o c := advances_closingLoop o c text
  closing_ends o c i depth := (advances_closingLoop o c text).exists_run i depth (by omega)
  closing_run o c i hpair hi := by
    obtain ⟨ho, rfl⟩ := isOpener_of_mem_brackets hpair
    exact ho.run_closingLoop hi
  splitting_turn := advances_splittingLoop text
  splitting_ends i st := (advances_splittingLoop text).exists_run i st (by omega)
  splitting_run := run_splittingLoop text

/-- A backslash at the end of the text takes nothing with it, and the string ends there. -/
example : (stringLoop '\'' "['a\\".toList).run 3 2 () = some 4 := by decide

end PayloadTypes.Source
