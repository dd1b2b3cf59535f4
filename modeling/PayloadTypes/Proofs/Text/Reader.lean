import PayloadTypes.Proofs.Text.Escape
import PayloadTypes.Proofs.Text.Trim
import PayloadTypes.Proofs.Text.Word
import PayloadTypes.Text.Reader
/-!
# Runs of readers

How a reader runs on a text that starts with what it reads.
-/

namespace PayloadTypes.Text.Reader

variable {α β : Type} {r : Reader α} {f : α → Reader β} {p : Char → Bool}
variable {s t w : List Char} {a : α}

theorem forall_mem_head?_cons {P : Char → Prop} {c : Char} (h : P c) (t : List Char) :
    ∀ d ∈ (c :: t).head?, P d := by
  rintro d ⟨⟩
  exact h

/-- A reader goes on where the one in front of it leaves off. -/
theorem bind_eq (h : r s = some (a, t)) : (r >>= f) s = f a t := by
  change (r s).bind (fun x => f x.1 x.2) = f a t
  rw [h]
  rfl

/-- A reader refuses what the one in front of it refuses. -/
theorem bind_eq_none (h : r s = none) : (r >>= f) s = none := by
  change (r s).bind (fun x => f x.1 x.2) = none
  rw [h]
  rfl

theorem text_append {w : String} (hw : w.toList = s) (t : List Char) :
    text w (s ++ t) = some ((), t) := by
  simp [text, hw]

/-- A text that starts otherwise is refused. -/
theorem text_eq_none {w : String} {c d : Char} (hw : w.toList.head? = some d) (h : d ≠ c)
    (s : List Char) : text w (c :: s) = none := by
  obtain ⟨r, hr⟩ := List.head?_eq_some_iff.mp hw
  rw [text, hr, after?_cons_of_ne h]
  rfl

theorem char_cons (c : Char) (t : List Char) : char c (c :: t) = some ((), t) := by
  simp [char]

theorem char_eq_none {c d : Char} (h : d ≠ c) (t : List Char) : char c (d :: t) = none := by
  simp [char, h]

theorem maybe_eq_some (h : r s = some (a, t)) : maybe r s = some (some a, t) := by
  simp [maybe, h]

theorem maybe_eq_none (h : r s = none) : maybe r s = some (none, s) := by
  simp [maybe, h]

/-- A character that may stand there is taken if it does. -/
theorem maybe_one_append {o : Option Char} (ho : ∀ c ∈ o, p c = true)
    (ht : ∀ c ∈ t.head?, p c = false) : maybe (one p) (o.toList ++ t) = some (o, t) := by
  cases o with
  | some c => exact maybe_eq_some (if_pos (ho c rfl))
  | none =>
    cases t with
    | nil => rfl
    | cons c t => exact maybe_eq_none (if_neg (by simp [ht c rfl]))

/-- A longest run is taken where nothing that belongs to it follows. -/
theorem many_append (hw : ∀ c ∈ w, p c = true) (ht : ∀ c ∈ t.head?, p c = false) :
    many p (w ++ t) = some (w, t) := by
  rw [many, takeWhile_append hw ht, dropWhile_append hw ht]

theorem one_cons {c : Char} (h : p c = true) : one p (c :: t) = some (c, t) := by
  simp [one, h]

theorem one_eq_none {c : Char} (h : p c = false) : one p (c :: t) = none := by
  simp [one, h]

theorem many1_eq_none {c : Char} (h : p c = false) : many1 p (c :: t) = none := by
  rw [many1, bind_eq_none (one_eq_none h)]

theorem many1_append (hne : w ≠ []) (hw : ∀ c ∈ w, p c = true) (ht : ∀ c ∈ t.head?, p c = false) :
    many1 p (w ++ t) = some (w, t) := by
  obtain ⟨c, w, rfl⟩ := List.exists_cons_of_ne_nil hne
  have hmany := many_append (fun x hx => hw x (List.mem_cons_of_mem _ hx)) ht
  rw [many1, List.cons_append, bind_eq (one_cons (hw c List.mem_cons_self)), bind_eq hmany]
  rfl

theorem identifier_append {c : Char} (hc : isIdentStart c = true)
    (hw : ∀ d ∈ w, isIdentChar d = true) (ht : ∀ d ∈ t.head?, isIdentChar d = false) :
    identifier (c :: (w ++ t)) = some (c :: w, t) := by
  rw [identifier, bind_eq (one_cons hc), bind_eq (many_append hw ht)]
  rfl

theorem identifier_cons {c : Char} (hc : isIdentStart c = true) (s : List Char) :
    identifier (c :: s) =
      some (c :: s.takeWhile isIdentChar, s.dropWhile isIdentChar) := by
  rw [identifier, bind_eq (one_cons hc)]
  rfl

/-- All blanks in front are taken. -/
theorem blanks_append (hw : AllBlank w) (ht : ∀ c ∈ t.head?, isBlank c = false) :
    blanks (w ++ t) = some ((), t) := by
  rw [blanks, bind_eq (many_append hw ht)]
  rfl

/-- No blanks are taken where there are none. -/
theorem blanks_eq (ht : ∀ c ∈ t.head?, isBlank c = false) : blanks t = some ((), t) :=
  blanks_append allBlank_nil ht

theorem blanks1_append (hne : w ≠ []) (hw : AllBlank w) (ht : ∀ c ∈ t.head?, isBlank c = false) :
    blanks1 (w ++ t) = some ((), t) := by
  rw [blanks1, bind_eq (many1_append hne hw ht)]
  rfl

/-- A blank is taken where no other follows. -/
theorem blanks1_cons {c : Char} (hc : isBlank c = true) (ht : ∀ d ∈ t.head?, isBlank d = false) :
    blanks1 (c :: t) = some ((), t) :=
  blanks1_append (w := [c]) (List.cons_ne_nil _ _) (by simpa [AllBlank] using hc) ht

theorem blanksThen_eq_none (ht : ∀ c ∈ t.head?, isBlank c = false) : blanksThen r t = none := by
  cases t with
  | nil => rfl
  | cons c t => rw [blanksThen, if_neg (by simp [ht c rfl])]

/-- What is accepted behind all blanks in front is read there. -/
theorem blanksThen_append {x : α × List Char} (hne : w ≠ []) (hw : AllBlank w)
    (ht : ∀ c ∈ t.head?, isBlank c = false) (h : r t = some x) :
    blanksThen r (w ++ t) = some x := by
  induction w with
  | nil => exact absurd rfl hne
  | cons c w ih =>
    obtain ⟨hc, hw⟩ := List.forall_mem_cons.mp hw
    rw [List.cons_append, blanksThen, if_pos hc]
    cases w with
    | nil =>
      rw [List.nil_append, blanksThen_eq_none ht]
      exact h
    | cons d w =>
      rw [ih (List.cons_ne_nil _ _) hw]
      rfl

/-! ## Repeated and spanned reading -/

theorem upTo_of_eq_some (h : r s = some (a, t)) (n : ℕ) :
    upTo r (n + 1) s = (upTo r n t).map fun p => (a :: p.1, p.2) := by
  rw [upTo, bind_eq (maybe_eq_some h)]
  cases hmore : upTo r n t with
  | none => exact bind_eq_none hmore
  | some p => exact bind_eq hmore

theorem upTo_of_eq_none (h : r s = none) (n : ℕ) : upTo r (n + 1) s = some ([], s) := by
  rw [upTo, bind_eq (maybe_eq_none h)]
  rfl

/-- What was taken is the text in front of what is left. -/
theorem span_append (h : r (w ++ t) = some (a, t)) : span r (w ++ t) = some (w, t) := by
  simp [span, h]

/-! ## What was read -/

theorem bind_eq_some_iff {b : β} :
    (r >>= f) s = some (b, t) ↔ ∃ a s', r s = some (a, s') ∧ f a s' = some (b, t) := by
  change (r s).bind (fun x => f x.1 x.2) = some (b, t) ↔ _
  simp [Option.bind_eq_some_iff]

theorem orElse_apply (r r' : Reader α) (s : List Char) :
    (r <|> r') s = (r s).orElse fun _ => r' s := rfl

theorem eq_append_of_text {w : String} (h : text w s = some ((), t)) : s = w.toList ++ t := by
  obtain ⟨rest, hrest, hpair⟩ := Option.map_eq_some_iff.mp h
  cases hpair
  exact after?_eq_some hrest

theorem text_eq_none_of {w : String} (h : ∀ t, s ≠ w.toList ++ t) : text w s = none := by
  rw [Option.eq_none_iff_forall_ne_some]
  rintro ⟨⟨⟩, t⟩ hread
  exact h t (eq_append_of_text hread)

/-- One of several words is read off the front. -/
theorem of_oneOf {words : List String} {w : String} (h : oneOf words s = some (w, t)) :
    w ∈ words ∧ s = w.toList ++ t := by
  obtain ⟨w', hw', h⟩ := List.exists_of_findSome?_eq_some h
  obtain ⟨⟨⟨⟩, t'⟩, htext, hpair⟩ := Option.map_eq_some_iff.mp h
  cases hpair
  exact ⟨hw', eq_append_of_text htext⟩

theorem eq_cons_of_char {c : Char} (h : char c s = some ((), t)) : s = c :: t := by
  cases s with
  | nil => cases h
  | cons d s =>
    rw [char] at h
    split at h
    · next hd =>
      cases h
      rw [hd]
    · cases h

theorem of_one {c : Char} (h : one p s = some (c, t)) : p c = true := by
  cases s with
  | nil => cases h
  | cons d s =>
    rw [one] at h
    split at h
    · next hd =>
      cases h
      exact hd
    · cases h

theorem eq_cons_of_one {c : Char} (h : one p s = some (c, t)) : s = c :: t := by
  cases s with
  | nil => cases h
  | cons d s =>
    rw [one] at h
    split at h
    · cases h
      rfl
    · cases h

/-- A longest run is one of the characters that were asked for. -/
theorem of_many1 (h : many1 p s = some (w, t)) : w ≠ [] ∧ ∀ c ∈ w, p c = true := by
  rw [many1] at h
  obtain ⟨c, s', hc, h⟩ := bind_eq_some_iff.mp h
  cases h
  refine ⟨List.cons_ne_nil _ _, List.forall_mem_cons.mpr ⟨of_one hc, fun d hd => ?_⟩⟩
  exact List.mem_takeWhile_imp hd

theorem of_many (h : many p s = some (w, t)) : (∀ c ∈ w, p c = true) ∧ s = w ++ t := by
  cases h
  exact ⟨fun c hc => List.mem_takeWhile_imp hc, List.takeWhile_append_dropWhile.symm⟩

theorem eq_append_of_many1 (h : many1 p s = some (w, t)) : s = w ++ t := by
  rw [many1] at h
  obtain ⟨c, s', hc, h⟩ := bind_eq_some_iff.mp h
  cases h
  rw [eq_cons_of_one hc, List.cons_append, List.takeWhile_append_dropWhile]

/-- An identifier: an ASCII letter or underscore, then letters, digits and underscores. -/
def IsIdentifier (w : List Char) : Prop :=
  ∃ c v, w = c :: v ∧ isIdentStart c = true ∧ ∀ d ∈ v, isIdentChar d = true

theorem isIdentifier_of_identifier (h : identifier s = some (w, t)) : IsIdentifier w := by
  rw [identifier] at h
  obtain ⟨c, s', hc, h⟩ := bind_eq_some_iff.mp h
  cases h
  exact ⟨c, _, rfl, of_one hc, fun d hd => List.mem_takeWhile_imp hd⟩

/-- An identifier is read as a whole. -/
theorem isIdentifier_iff : IsIdentifier w ↔ identifier w = some (w, []) := by
  refine ⟨?_, isIdentifier_of_identifier⟩
  rintro ⟨c, v, rfl, hc, hv⟩
  simpa using identifier_append (t := []) hc hv (by simp)

instance : DecidablePred IsIdentifier := fun _ => decidable_of_iff _ isIdentifier_iff.symm

theorem of_maybe_eq_some (h : maybe r s = some (some a, t)) : r s = some (a, t) := by
  rw [maybe] at h
  split at h
  · next hr =>
    cases h
    exact hr
  · cases h

theorem eq_of_maybe_eq_none (h : maybe r s = some (none, t)) : s = t := by
  rw [maybe] at h
  split at h
  · cases h
  · cases h
    rfl

theorem of_maybe_one {o : Option Char} (h : maybe (one p) s = some (o, t)) :
    (∀ c ∈ o, p c = true) ∧ s = o.toList ++ t := by
  cases o with
  | none => exact ⟨fun _ hc => (nomatch hc), eq_of_maybe_eq_none h⟩
  | some c =>
    have hc := of_maybe_eq_some h
    refine ⟨?_, eq_cons_of_one hc⟩
    rintro d ⟨⟩
    exact of_one hc

theorem exists_eq_append_of_blanks (h : blanks s = some ((), t)) :
    ∃ gap, AllBlank gap ∧ s = gap ++ t := by
  have ht : s.dropWhile isBlank = t := by
    cases h
    rfl
  refine ⟨s.takeWhile isBlank, fun c hc => List.mem_takeWhile_imp hc, ?_⟩
  rw [← ht, List.takeWhile_append_dropWhile]

/-- What stands behind one blank or more was read where they end. -/
theorem exists_eq_append_of_blanksThen (h : blanksThen r s = some (a, t)) :
    ∃ gap s', gap ≠ [] ∧ AllBlank gap ∧ s = gap ++ s' ∧ r s' = some (a, t) := by
  induction s with
  | nil => cases h
  | cons c s ih =>
    rw [blanksThen] at h
    split at h
    · next hc =>
      cases hrest : blanksThen r s with
      | some x =>
        rw [hrest] at h
        obtain ⟨gap, s', hne, hgap, rfl, hs'⟩ := ih (hrest.trans h)
        exact ⟨c :: gap, s', List.cons_ne_nil _ _, List.forall_mem_cons.mpr ⟨hc, hgap⟩, rfl, hs'⟩
      | none =>
        rw [hrest] at h
        exact ⟨[c], s, List.cons_ne_nil _ _, by simpa [AllBlank] using hc, rfl, h⟩
    · cases h

theorem isSome_blanksThen {gap : List Char} (hne : gap ≠ []) (hgap : AllBlank gap)
    (h : (r s).isSome) : (blanksThen r (gap ++ s)).isSome := by
  induction gap with
  | nil => exact absurd rfl hne
  | cons c gap ih =>
    have hc : isBlank c = true := hgap c List.mem_cons_self
    rw [List.cons_append, blanksThen, if_pos hc, Option.orElse_eq_or, Option.isSome_or,
      Bool.or_eq_true]
    cases gap with
    | nil => exact .inr h
    | cons d gap =>
      exact .inl (ih (List.cons_ne_nil _ _) fun x hx => hgap x (List.mem_cons_of_mem _ hx))

theorem wordEnd_eq_some_iff :
    wordEnd s = some ((), t) ↔ s = t ∧ ∀ c ∈ s.head?, isWord c = false := by
  cases s with
  | nil => simp [wordEnd]
  | cons c s => cases hc : isWord c <;> simp [wordEnd, hc]

/-! ## Searches -/

theorem getLast?_cons_or (c : Char) (u : List Char) (prev : Option Char) :
    (c :: u).getLast?.or prev = u.getLast?.or (some c) := by
  rw [List.getLast?_cons]
  cases u.getLast? <;> rfl

/-- What is accepted at the start of a text is found there. -/
theorem find?_of_start {r : Placed α} (hne : s ≠ []) (h : r none s = some (a, t)) :
    find? r s = some ⟨[], a, t⟩ := by
  obtain ⟨c, s, rfl⟩ := List.exists_cons_of_ne_nil hne
  rw [find?, findFrom?, h]

end PayloadTypes.Text.Reader
