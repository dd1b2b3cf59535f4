import PayloadTypes.Proofs.Source.Quoting
import PayloadTypes.Proofs.TypeText.Members
import PayloadTypes.Proofs.TypeText.Nested
import PayloadTypes.TypeText.ArrayType
/-!
# Items of arrays

The brackets of a text balance when they pair up outside of its literals
(`BalancesWith`). The item type of an array is read by its angle brackets alone,
and those inside of literals are counted like the others (`itemType?_eq_some_iff`).
So the item is read off the one member of a type exactly where that count comes
to the same as the pairing, and no bar stands beside the member
(`readsItem_iff_countsLikePairs`). In a text whose brackets balance and whose literals hold no
angle bracket it always does (`BalancesWith.readsItem`).
-/

namespace PayloadTypes.TypeText

open Source (StringBody)
open Text (AllBlank isBlank)

variable {c o q : Char} {p : Char → Bool} {a b s t r w : List Char} {n : ℕ}
variable {u x : String}

/-! ## Texts whose brackets balance -/

/-- The pairs of brackets. -/
def bracketPairs : List (Char × Char) := [('<', '>'), ('(', ')'), ('[', ']'), ('\x7b', '\x7d')]

/-- The brackets of a text pair up outside of its literals, and the characters inside of these
satisfy `p`. -/
inductive BalancesWith (p : Char → Bool) : List Char → Prop
  /-- Nothing is open. -/
  | nil : BalancesWith p []
  /-- A character in front that is neither a quote nor a bracket. -/
  | char {c : Char} {s : List Char} (hc : isInert c = true) (h : BalancesWith p s) :
      BalancesWith p (c :: s)
  /-- A literal in front. -/
  | literal {q : Char} {b s : List Char} (hq : isQuote q = true) (hb : StringBody q b)
      (hp : ∀ c ∈ b, p c = true) (h : BalancesWith p s) : BalancesWith p (q :: (b ++ q :: s))
  /-- A pair of brackets in front. -/
  | brackets {o c : Char} {t s : List Char} (hoc : (o, c) ∈ bracketPairs) (ht : BalancesWith p t)
      (h : BalancesWith p s) : BalancesWith p (o :: (t ++ c :: s))

/-- The brackets of a text pair up outside of its literals. -/
def Balances (s : List Char) : Prop := BalancesWith (fun _ => true) s

theorem BalancesWith.balances (h : BalancesWith p s) : Balances s := by
  induction h with
  | nil => exact .nil
  | char hc _ ih => exact .char hc ih
  | literal hq hb _ _ ih => exact .literal hq hb (fun _ _ => rfl) ih
  | brackets hoc _ _ iht ihs => exact .brackets hoc iht ihs

theorem isBrackets_of_mem (h : (o, c) ∈ bracketPairs) : IsBrackets o c := by
  simp only [bracketPairs, List.mem_cons, Prod.mk.injEq, List.not_mem_nil, or_false] at h
  rcases h with ⟨rfl, rfl⟩ | ⟨rfl, rfl⟩ | ⟨rfl, rfl⟩ | ⟨rfl, rfl⟩ <;>
    exact ⟨rfl, rfl, rfl, rfl, rfl⟩

/-- Inside of a literal one stays inside of it, and nothing separates. -/
theorem after_stringBody (hb : StringBody q b) (n : ℕ) (sep : Char) :
    (Scan.quoted n q false).after b = .quoted n q false ∧
      IsPart sep (.quoted n q false) b := by
  have hsep : ∀ e c, (Scan.quoted n q e).separates sep c = false := fun _ _ => rfl
  induction hb with
  | nil => exact ⟨rfl, isPart_nil⟩
  | @char c s hback hquote _ ih =>
    have hstep : (Scan.quoted n q false).step c = .quoted n q false := by
      simp [Scan.step, hback, hquote]
    rw [Scan.after_cons, isPart_cons, hstep]
    exact ⟨ih.1, hsep _ _, ih.2⟩
  | @pair s d _ ih =>
    have hstep : (Scan.quoted n q false).step '\\' = .quoted n q true := by simp [Scan.step]
    have hstep' : (Scan.quoted n q true).step d = .quoted n q false := rfl
    rw [Scan.after_cons, Scan.after_cons, isPart_cons, isPart_cons, hstep, hstep']
    exact ⟨ih.1, hsep _ _, hsep _ _, ih.2⟩

/-- A literal is nested. -/
theorem isNested_literal (hq : isQuote q = true) (hb : StringBody q b) :
    IsNested (q :: (b ++ [q])) := by
  have hne : q ≠ '\\' := by
    rintro rfl
    cases hq
  have hopen : ∀ n, (Scan.plain n).step q = .quoted n q false := fun n => by simp [Scan.step, hq]
  have hclose : ∀ n, (Scan.quoted n q false).step q = .plain n := fun n => by
    simp [Scan.step, hne]
  refine ⟨fun n => ?_, fun sep n => ?_⟩
  · have hbody := (after_stringBody hb n q).1
    rw [Scan.after_cons, hopen, Scan.after_append, hbody, Scan.after_cons, hclose, Scan.after_nil]
  · obtain ⟨hbody, hpart⟩ := after_stringBody hb (n + 1) sep
    rw [isPart_cons, hopen, isPart_append, hbody, isPart_cons]
    exact ⟨rfl, hpart, rfl, isPart_nil⟩

/-- **A text whose brackets balance is nested.** -/
theorem BalancesWith.isNested (h : BalancesWith p s) : IsNested s := by
  induction h with
  | nil => exact isNested_nil
  | @char c s hc _ ih =>
    exact (isNested_of_isInert (s := [c]) (by simpa using hc)).append ih
  | @literal q b s hq hb _ _ ih =>
    simpa using (isNested_literal hq hb).append ih
  | @brackets o c t s hoc _ _ iht ihs =>
    simpa using ((isBrackets_of_mem hoc).isNested iht).append ihs

/-! ## Angle brackets -/

/-- An angle bracket. -/
def isAngle (c : Char) : Bool := c == '<' || c == '>'

/-- The angle brackets of a text balance, those in its literals counted like the others. -/
structure AnglesBalance (s : List Char) : Prop where
  /-- In front of any place there are no more closing ones than opening ones. -/
  front : ∀ r, r <+: s → r.count '>' ≤ r.count '<'
  /-- There are as many of the one as of the other. -/
  all : s.count '>' = s.count '<'

theorem anglesBalance_opener (n : ℕ) (s : List Char) :
    anglesBalance n ('<' :: s) = anglesBalance (n + 1) s := rfl

theorem anglesBalance_closer_zero (s : List Char) : anglesBalance 0 ('>' :: s) = false := rfl

theorem anglesBalance_closer_succ (n : ℕ) (s : List Char) :
    anglesBalance (n + 1) ('>' :: s) = anglesBalance n s := rfl

theorem anglesBalance_cons_of_not_isAngle (h : isAngle c = false) (n : ℕ) (s : List Char) :
    anglesBalance n (c :: s) = anglesBalance n s := by
  simp only [isAngle, Bool.or_eq_false_iff, beq_eq_false_iff_ne] at h
  unfold anglesBalance
  rw [if_neg h.1, if_neg h.2]
  cases s <;> rfl

theorem anglesBalance_iff_count (n : ℕ) (s : List Char) : anglesBalance n s = true ↔
    (∀ r, r <+: s → r.count '>' ≤ n + r.count '<') ∧ s.count '>' = n + s.count '<' := by
  induction s generalizing n with
  | nil => cases n <;> simp [anglesBalance]
  | cons c s ih =>
    have hfront : ∀ m, (∀ r, r <+: c :: s → r.count '>' ≤ m + r.count '<') ↔
        ∀ r, r <+: s → (c :: r).count '>' ≤ m + (c :: r).count '<' := by
      intro m
      constructor
      · exact fun h r hr => h (c :: r) ((List.prefix_cons_inj c).mpr hr)
      · intro h r hr
        rcases List.prefix_cons_iff.mp hr with rfl | ⟨t, rfl, ht⟩
        · simp
        · exact h t ht
    rw [hfront]
    by_cases hopen : c = '<'
    · subst hopen
      have hcount : ∀ r : List Char, n + ('<' :: r).count '<' = n + 1 + r.count '<' := fun r => by
        rw [List.count_cons_self]
        omega
      have hcloser : ∀ r : List Char, ('<' :: r).count '>' = r.count '>' := fun r =>
        List.count_cons_of_ne (by decide)
      rw [anglesBalance_opener, ih]
      simp only [hcount, hcloser]
    · by_cases hclose : c = '>'
      · subst hclose
        have hopener : ∀ r : List Char, ('>' :: r).count '<' = r.count '<' := fun r =>
          List.count_cons_of_ne (by decide)
        cases n with
        | zero =>
          -- the bracket closes what was never opened
          rw [anglesBalance_closer_zero]
          refine iff_of_false Bool.false_ne_true fun h => ?_
          have hfirst := h.1 [] List.nil_prefix
          simp at hfirst
        | succ n =>
          rw [anglesBalance_closer_succ, ih]
          simp only [hopener, List.count_cons_self, Nat.add_right_comm n 1,
            Nat.add_le_add_iff_right, Nat.add_right_cancel_iff]
      · rw [anglesBalance_cons_of_not_isAngle (by simp [isAngle, hopen, hclose]), ih]
        simp [hopen, hclose]

theorem anglesBalance_iff : anglesBalance 0 s = true ↔ AnglesBalance s := by
  rw [anglesBalance_iff_count]
  simp only [Nat.zero_add]
  exact ⟨fun h => ⟨h.1, h.2⟩, fun h => ⟨h.front, h.all⟩⟩

theorem anglesBalance_append_of_not_isAngle (h : ∀ c ∈ w, isAngle c = false) (n : ℕ)
    (s : List Char) : anglesBalance n (w ++ s) = anglesBalance n s := by
  induction w with
  | nil => rfl
  | cons c w ih =>
    rw [List.cons_append, anglesBalance_cons_of_not_isAngle (h c List.mem_cons_self)]
    exact ih fun x hx => h x (List.mem_cons_of_mem _ hx)

theorem isAngle_of_isInert (h : isInert c = true) : isAngle c = false := by
  by_contra hc
  simp only [isAngle, Bool.not_eq_false, Bool.or_eq_true, beq_iff_eq] at hc
  rcases hc with rfl | rfl <;> cases h

theorem isAngle_of_isQuote (h : isQuote q = true) : isAngle q = false := by
  simp only [isQuote, Bool.or_eq_true, beq_iff_eq] at h
  rcases h with rfl | rfl <;> rfl

theorem isAngle_of_mem (h : (o, c) ∈ bracketPairs) (ho : o ≠ '<') :
    isAngle o = false ∧ isAngle c = false := by
  simp only [bracketPairs, List.mem_cons, Prod.mk.injEq, List.not_mem_nil, or_false] at h
  rcases h with ⟨rfl, rfl⟩ | ⟨rfl, rfl⟩ | ⟨rfl, rfl⟩ | ⟨rfl, rfl⟩
  · exact absurd rfl ho
  · exact ⟨rfl, rfl⟩
  · exact ⟨rfl, rfl⟩
  · exact ⟨rfl, rfl⟩

/-- **Where no literal holds an angle bracket the count passes over a text that balances.** -/
theorem BalancesWith.anglesBalance_append (h : BalancesWith (fun c => !isAngle c) s) (n : ℕ)
    (r : List Char) : anglesBalance n (s ++ r) = anglesBalance n r := by
  induction h generalizing n r with
  | nil => rfl
  | @char c s hc _ ih =>
    rw [List.cons_append, anglesBalance_cons_of_not_isAngle (isAngle_of_isInert hc), ih]
  | @literal q b s hq hb hp _ ih =>
    -- No quote is an angle bracket, and by assumption nothing in the literal is one.
    have hangle : isAngle q = false := isAngle_of_isQuote hq
    have hbody : ∀ c ∈ b, isAngle c = false := fun c hc => by simpa using hp c hc
    rw [List.cons_append, anglesBalance_cons_of_not_isAngle hangle, List.append_assoc,
      anglesBalance_append_of_not_isAngle hbody, List.cons_append,
      anglesBalance_cons_of_not_isAngle hangle, ih]
  | @brackets o c t s hoc _ _ iht ihs =>
    rw [List.cons_append, List.append_assoc, List.cons_append]
    -- Angle brackets are counted up and down again, other brackets are none of them.
    rcases eq_or_ne o '<' with rfl | ho
    · obtain rfl : c = '>' := by simpa [bracketPairs] using hoc
      rw [anglesBalance_opener, iht, anglesBalance_closer_succ, ihs]
    · obtain ⟨hopen, hclose⟩ := isAngle_of_mem hoc ho
      rw [anglesBalance_cons_of_not_isAngle hopen, iht, anglesBalance_cons_of_not_isAngle hclose,
        ihs]

theorem BalancesWith.anglesBalance (h : BalancesWith (fun c => !isAngle c) s) :
    AnglesBalance s := by
  rw [← anglesBalance_iff, ← List.append_nil s, h.anglesBalance_append]
  rfl

/-! ## What is read as an item -/

theorem toList_arrayOf (u : String) :
    (arrayOf u).toList = "Array<".toList ++ (u.toList ++ ['>']) := by
  simp [arrayOf]

theorem trim_arrayOf (u : String) : Text.trim (arrayOf u).toList = (arrayOf u).toList := by
  have htext : (arrayOf u).toList = 'A' :: ("rray<".toList ++ u.toList) ++ ['>'] := by
    simp [arrayOf]
  rw [htext]
  exact (Text.isTrimmed_of_ends (by decide) (by decide)).trim_eq

/-- **The item that is read**: the text is its array but for blanks, and its angle brackets
balance. -/
theorem itemType?_eq_some_iff : itemType? u = some x ↔
    Text.trim u.toList = (arrayOf x).toList ∧ AnglesBalance x.toList := by
  rw [← anglesBalance_iff, toList_arrayOf]
  constructor
  · intro h
    obtain ⟨rest, hrest, h⟩ := Option.bind_eq_some_iff.mp h
    obtain ⟨inner, hinner, h⟩ := Option.bind_eq_some_iff.mp h
    obtain ⟨hbalance, hx⟩ : anglesBalance 0 inner = true ∧ String.ofList inner = x := by
      split at h
      · exact ⟨‹_›, Option.some.inj h⟩
      · cases h
    have hinner' : x.toList = inner := by rw [← hx, String.toList_ofList]
    rw [hinner']
    exact ⟨by rw [Text.after?_eq_some hrest, Text.before?_eq_some hinner], hbalance⟩
  · rintro ⟨htrim, hbalance⟩
    rw [itemType?, htrim, Text.after?_append]
    simp [Text.before?_append, hbalance]

/-- The array of a nested text may be a member of a union. -/
theorem isMember_arrayOf (h : IsNested x.toList) : IsMember (arrayOf x).toList := by
  have hunit : IsUnit ['|'] ("Array".toList ++ '<' :: (x.toList ++ ['>'])) :=
    isBrackets_angle.isUnit (List.all_eq_true.mp (by decide)) h
  have htext : (arrayOf x).toList = "Array".toList ++ '<' :: (x.toList ++ ['>']) := by
    simp [arrayOf]
  rw [htext]
  exact ⟨hunit.trimmed, hunit.ne_nil, hunit.part '|' List.mem_cons_self⟩

/-- A member with blanks around it is the only one. -/
theorem members_of_trim_eq (h : Text.trim u.toList = x.toList) (hx : IsMember x.toList) :
    members u = [x] := by
  obtain ⟨a, b, ha, hb, hu⟩ := Text.exists_eq_trim u.toList
  have htexts : memberTexts u.toList = memberTexts x.toList := by
    rw [hu, h, ← List.append_assoc, memberTexts_append_blank hb]
    exact trimmedParts_blank_append (by decide) ha
  rw [members_eq, htexts, ← members_eq, hx.members_eq]

/-- The only member of a text with no bar beside it is the text but for blanks. -/
theorem trim_eq_of_members_eq (h : IsPart '|' (.plain 0) u.toList) (hx : members u = [x]) :
    Text.trim u.toList = x.toList := by
  have htexts : memberTexts u.toList =
      if Text.trim u.toList = [] then [] else [Text.trim u.toList] := trimmedParts_of_isPart h
  rw [members_eq, htexts] at hx
  split at hx
  · cases hx
  · rw [← (List.cons.inj hx).1, String.toList_ofList]

/-! ## Where the item is the one of the only member -/

/-- What is read as the item of a text is the item of its only member, if that is the array of a
text whose brackets balance, and nothing otherwise. -/
def ReadsItem (u : String) : Prop :=
  ∀ x, itemType? u = some x ↔ members u = [arrayOf x] ∧ Balances x.toList

/-- The array that a text is, or has for its only member, is told by its angle brackets alone. -/
structure CountsLikePairs (u : String) : Prop where
  /-- No bar stands beside an only member that is the array of a text whose brackets balance. -/
  alone : ∀ x, members u = [arrayOf x] → Balances x.toList →
    Text.trim u.toList = (arrayOf x).toList
  /-- The angle brackets of its items balance when those in literals are counted as well. -/
  angles : ∀ x, members u = [arrayOf x] → Balances x.toList → AnglesBalance x.toList
  /-- If the angle brackets of the items balance so, all brackets outside of literals do. -/
  balances : ∀ x, Text.trim u.toList = (arrayOf x).toList → AnglesBalance x.toList →
    Balances x.toList

/-- **The item is the one of the only member exactly where counting angle brackets comes to the
same as pairing all brackets outside of literals.** -/
theorem readsItem_iff_countsLikePairs : ReadsItem u ↔ CountsLikePairs u := by
  constructor
  · intro h
    have hread : ∀ x, members u = [arrayOf x] → Balances x.toList →
        Text.trim u.toList = (arrayOf x).toList ∧ AnglesBalance x.toList :=
      fun x hmembers hbalance => itemType?_eq_some_iff.mp ((h x).mpr ⟨hmembers, hbalance⟩)
    refine ⟨fun x hm hb => (hread x hm hb).1, fun x hm hb => (hread x hm hb).2, ?_⟩
    intro x htrim hangles
    exact ((h x).mp (itemType?_eq_some_iff.mpr ⟨htrim, hangles⟩)).2
  · intro h x
    rw [itemType?_eq_some_iff]
    constructor
    · rintro ⟨htrim, hangles⟩
      have hbalance := h.balances x htrim hangles
      exact ⟨members_of_trim_eq htrim (isMember_arrayOf hbalance.isNested), hbalance⟩
    · rintro ⟨hmembers, hbalance⟩
      exact ⟨h.alone x hmembers hbalance, h.angles x hmembers hbalance⟩

/-! ## Types that balance -/

/-- Behind a nested text a closing bracket closes what stands around it. -/
theorem IsNested.not_isNested_closer (hs : IsNested s) : ¬ IsNested (s ++ '>' :: r) := by
  intro h
  have hstep : ∀ n, (Scan.plain n).after (s ++ '>' :: r) = (Scan.plain (n - 1)).after r := by
    intro n
    rw [Scan.after_append, hs.after, Scan.after_cons]
    rfl
  have hzero : (Scan.plain 0).after r = .plain 0 := (hstep 0).symm.trans (h.after 0)
  have hone : (Scan.plain 0).after r = .plain 1 := (hstep 1).symm.trans (h.after 1)
  rw [hzero] at hone
  cases hone

/-- Where the angle brackets balance, a closing one behind them is one too many. -/
theorem AnglesBalance.not_anglesBalance_closer (h : AnglesBalance s) :
    ¬ AnglesBalance (s ++ '>' :: r) := by
  intro hcloser
  have hlast := hcloser.front (s ++ ['>']) ⟨r, by simp⟩
  have hnone : ['>'].count '<' = 0 := by decide
  rw [List.count_append, List.count_append, List.count_singleton_self, h.all, hnone] at hlast
  omega

/-- What does not mean anything to a scan may be left out in front of a text that balances. -/
theorem BalancesWith.of_append (h : BalancesWith p (w ++ s)) (hw : ∀ c ∈ w, isInert c = true) :
    BalancesWith p s := by
  induction w with
  | nil => exact h
  | cons c w ih =>
    have hc := hw c List.mem_cons_self
    refine ih ?_ fun x hx => hw x (List.mem_cons_of_mem _ hx)
    rw [List.cons_append] at h
    generalize w ++ s = t at h
    cases h with
    | char _ h => exact h
    | literal hq _ _ _ => simp [isInert, hq] at hc
    | brackets hoc _ _ => simp [isInert, (isBrackets_of_mem hoc).opens] at hc

/-- An angle bracket in front has its partner. -/
theorem BalancesWith.exists_partner (h : BalancesWith p ('<' :: s)) :
    ∃ t r, s = t ++ '>' :: r ∧ BalancesWith p t := by
  cases h with
  | char hc _ => cases hc
  | literal hq _ _ _ => cases hq
  | @brackets _ c t r hoc ht _ =>
    obtain rfl : c = '>' := by simpa [bracketPairs] using hoc
    exact ⟨t, r, rfl, ht⟩

/-- In a text that balances the bracket in front of the items of an array has its partner, be it
the one at the end of the array, an earlier or a later one. -/
theorem BalancesWith.exists_item (h : BalancesWith p u.toList)
    (htrim : Text.trim u.toList = (arrayOf x).toList) :
    ∃ b t r, x.toList ++ '>' :: b = t ++ '>' :: r ∧ BalancesWith p t := by
  obtain ⟨a, b, ha, -, hu⟩ := Text.exists_eq_trim u.toList
  have htext : u.toList = (a ++ "Array".toList) ++ '<' :: (x.toList ++ '>' :: b) := by
    rw [hu, htrim, toList_arrayOf]
    simp
  rw [htext] at h
  have harray : ∀ c ∈ "Array".toList, isInert c = true := List.all_eq_true.mp (by decide)
  have hinert : ∀ c ∈ a ++ "Array".toList, isInert c = true := fun c hc =>
    (List.mem_append.mp hc).elim (fun hc => isInert_of_isBlank (ha c hc)) (harray c)
  obtain ⟨t, r, hsplit, ht⟩ := (h.of_append hinert).exists_partner
  exact ⟨b, t, r, hsplit, ht⟩

/-- Two fronts of one text, a closing bracket behind each, are the same if both have a property
that nothing with more behind such a bracket has. -/
theorem eq_of_closer {P : List Char → Prop} (hP : ∀ s r, P s → ¬ P (s ++ '>' :: r))
    (hs : P s) (ht : P t) (h : s ++ '>' :: a = t ++ '>' :: b) : s = t := by
  rcases List.append_eq_append_iff.mp h with ⟨r, rfl, hr⟩ | ⟨r, rfl, hr⟩
  · cases r with
    | nil => simp
    | cons c r =>
      obtain ⟨rfl, -⟩ := List.cons.inj hr
      exact absurd ht (hP s r hs)
  · cases r with
    | nil => simp
    | cons c r =>
      obtain ⟨rfl, -⟩ := List.cons.inj hr
      exact absurd hs (hP t r ht)

/-- **Of a type whose brackets balance, no literal of which holds an angle bracket, the item is
read rightly**, if no bar stands beside an only member. -/
theorem BalancesWith.readsItem (h : BalancesWith (fun c => !isAngle c) u.toList)
    (hbar : (members u).length = 1 → IsPart '|' (.plain 0) u.toList) : ReadsItem u := by
  have halone : ∀ x, members u = [arrayOf x] → Text.trim u.toList = (arrayOf x).toList :=
    fun x hx => trim_eq_of_members_eq (hbar (by rw [hx]; rfl)) hx
  rw [readsItem_iff_countsLikePairs]
  -- the items and what stands in front of the partner both end where a bracket is one too many
  refine ⟨fun x hx _ => halone x hx, fun x hx hbalance => ?_, fun x htrim hangles => ?_⟩
  · obtain ⟨b, t, r, hsplit, ht⟩ := h.exists_item (halone x hx)
    have hxt : x.toList = t :=
      eq_of_closer (fun _ _ => IsNested.not_isNested_closer) hbalance.isNested ht.isNested hsplit
    rw [hxt]
    exact ht.anglesBalance
  · obtain ⟨b, t, r, hsplit, ht⟩ := h.exists_item htrim
    have hxt : x.toList = t :=
      eq_of_closer (fun _ _ => AnglesBalance.not_anglesBalance_closer) hangles ht.anglesBalance
        hsplit
    rw [hxt]
    exact ht.balances

/-! ## The laws of reading an item -/

/-- How items of arrays are read, at a text `u`. -/
structure ItemLaws (u : String) : Prop where
  /-- The item is the one of the only member exactly where counting angle brackets comes to the
  same as pairing all brackets outside of literals. -/
  reads : ReadsItem u ↔ CountsLikePairs u
  /-- It is in a text whose brackets balance, no literal of which holds an angle bracket, if no
  bar stands beside an only member. -/
  reads_of_balances : BalancesWith (fun c => !isAngle c) u.toList →
    ((members u).length = 1 → IsPart '|' (.plain 0) u.toList) → ReadsItem u
  /-- The item of an array is the text it was made of exactly where the angle brackets of that
  text balance, those in literals counted as well. -/
  undoes : itemType? (arrayOf u) = some u ↔ AnglesBalance u.toList

/-- **Items of arrays.** Every text obeys the laws. -/
theorem itemLaws (u : String) : ItemLaws u where
  reads := readsItem_iff_countsLikePairs
  reads_of_balances := BalancesWith.readsItem
  undoes := by rw [itemType?_eq_some_iff, trim_arrayOf, and_iff_right rfl]

/-- An angle bracket in a literal hides the item of an array, and two of them make one array of
a union of arrays. -/
theorem not_readsItem_quotedAngle : ¬ ReadsItem "Array<'<'>" ∧
    members "Array<'<'> | Array<'>'>" = ["Array<'<'>", "Array<'>'>"] ∧
      itemType? "Array<'<'> | Array<'>'>" = some "'<'> | Array<'>'" := by
  refine ⟨fun h => ?_, by decide, by decide⟩
  have hbody : StringBody '\'' ['<'] := .char (by decide) (by decide) .nil
  have hbalance : Balances "'<'".toList := .literal (by decide) hbody (fun _ _ => rfl) .nil
  have hnone : itemType? "Array<'<'>" = none := by decide
  have hmembers : members "Array<'<'>" = [arrayOf "'<'"] := by decide
  rw [(h "'<'").mpr ⟨hmembers, hbalance⟩] at hnone
  cases hnone

end PayloadTypes.TypeText
