import PayloadTypes.Proofs.Text.Matches
import PayloadTypes.Source.ClassDecl
import PayloadTypes.Source.Docblock
/-!
# Doc comments of classes

The doc comment of a class is looked for in what stands above the class, behind
blanks and attributes. It goes from the last mark of a doc comment to the end of
the comment that stands there, so it is that comment where the comment is one for
documentation. Where it is not, and an earlier comment is, the doc comment starts
there (`docblockLaws`).
-/

namespace PayloadTypes.Source

open Text (AllBlank)
open Text.Reader

/-! ## Attributes -/

/-- What is taken for attributes: blanks, and whatever stands between `#[` and `]`. -/
inductive Attributes : List Char → Prop
  /-- Blanks. -/
  | blanks {s : List Char} (h : AllBlank s) : Attributes s
  /-- One more attribute. -/
  | bracketed {a t s : List Char} (h : Attributes a) (ht : ¬ ['#', '['] <:+: t) (hs : AllBlank s) :
      Attributes (a ++ '#' :: '[' :: (t ++ ']' :: s))

variable {a b d front gap s t u : List Char} {before source : List Char}

/-- What stands above a class and its attributes. -/
def aboveAttributes (before : List Char) : List Char := withoutAttributes (Text.trimEnd before)

theorem withoutAttributes_eq_self (h : ¬ [']'] <:+ s) : withoutAttributes s = s := by
  rw [withoutAttributes, if_neg (mt Text.endsWith_iff.mp h)]

theorem withoutAttributes_append (ht : ¬ ['#', '['] <:+: t) (s : List Char) :
    withoutAttributes (s ++ '#' :: '[' :: (t ++ [']'])) = withoutAttributes (Text.trimEnd s) := by
  have hlast : ¬ ['#', '['] <:+: '[' :: (t ++ [']']) := by
    intro hin
    rw [List.infix_cons_iff] at hin
    rcases hin with hin | hin
    · exact absurd (List.cons_prefix_cons.mp hin).1 (by decide)
    · exact ht (Text.infix_of_infix_concat hin (by decide))
  have hcut : Text.cutLast? ['#', '['] (s ++ '#' :: '[' :: (t ++ [']'])) = some (s, t ++ [']']) :=
    Text.cutLast?_append (List.cons_ne_nil _ _) hlast s
  have hend : [']'] <:+ s ++ '#' :: '[' :: (t ++ [']']) := ⟨s ++ '#' :: '[' :: t, by simp⟩
  rw [withoutAttributes, if_pos (Text.endsWith_iff.mpr hend)]
  split
  · next hnone => cases hnone.symm.trans hcut
  · next p hp =>
    obtain rfl : p = (s, t ++ [']']) := Option.some.inj (hp.symm.trans hcut)
    rfl

/-- An attribute is open where a text holds the start of one and ends as one does. -/
theorem exists_attribute (hstart : ['#', '['] <:+: s) (hend : [']'] <:+ s) :
    ∃ a t, s = a ++ '#' :: '[' :: (t ++ [']']) ∧ ¬ ['#', '['] <:+: t := by
  obtain ⟨a, r, rfl, hlast⟩ := Text.exists_last_infix (List.cons_ne_nil _ _) hstart
  obtain ⟨x, hx⟩ := hend
  have hlast' : ¬ ['#', '['] <:+: r := fun hin =>
    hlast (hin.trans (List.suffix_append ['['] r).isInfix)
  rcases List.eq_nil_or_concat' r with rfl | ⟨t, c, rfl⟩
  · have hmarks : x ++ [']'] = (a ++ ['#']) ++ ['['] := by simpa using hx
    exact absurd (List.append_inj_right' hmarks rfl) (by decide)
  · have hmarks : x ++ [']'] = (a ++ '#' :: '[' :: t) ++ [c] := by simpa using hx
    obtain rfl : ']' = c := List.singleton_inj.mp (List.append_inj_right' hmarks rfl)
    exact ⟨a, t, by simp, fun hin => hlast' (hin.trans (List.prefix_append t _).isInfix)⟩

theorem withoutAttributes_eq_self_or (s : List Char) : withoutAttributes s = s ∨
    ∃ a t, s = a ++ '#' :: '[' :: (t ++ [']']) ∧ ¬ ['#', '['] <:+: t := by
  by_cases hend : [']'] <:+ s
  · by_cases hstart : ['#', '['] <:+: s
    · exact .inr (exists_attribute hstart hend)
    · have hnone := (Text.cutLast?_eq_none_iff (List.cons_ne_nil _ _)).mpr hstart
      left
      rw [withoutAttributes, if_pos (Text.endsWith_iff.mpr hend)]
      split
      · rfl
      · next p hp => cases hnone.symm.trans hp
  · exact .inl (withoutAttributes_eq_self hend)

/-- Attributes do not change what stands above them. -/
theorem Attributes.aboveAttributes_append (h : Attributes gap) (s : List Char) :
    aboveAttributes (s ++ gap) = aboveAttributes s := by
  induction h generalizing s with
  | blanks h => rw [aboveAttributes, Text.trimEnd_append h, aboveAttributes]
  | @bracketed a t s' _ ht hs ih =>
    have hsplit : s ++ (a ++ '#' :: '[' :: (t ++ ']' :: s')) =
        ((s ++ a) ++ '#' :: '[' :: (t ++ [']'])) ++ s' := by simp
    have htrim : Text.trimEnd ((s ++ a) ++ '#' :: '[' :: (t ++ [']'])) =
        (s ++ a) ++ '#' :: '[' :: (t ++ [']']) := by
      refine Text.trimEnd_eq_self fun c hc => ?_
      rw [← List.cons_append, ← List.cons_append, ← List.append_assoc, List.getLast?_concat] at hc
      obtain rfl := Option.some.inj hc
      decide
    rw [hsplit, aboveAttributes, Text.trimEnd_append hs, htrim, withoutAttributes_append ht]
    exact ih s

/-- **Between a class and what stands above it are attributes only.** -/
theorem exists_eq_aboveAttributes (before : List Char) :
    ∃ gap, Attributes gap ∧ before = aboveAttributes before ++ gap := by
  -- on the length: what stands in front of the last attribute is shorter
  induction hn : before.length using Nat.strongRecOn generalizing before with
  | ind n ih =>
    subst hn
    obtain ⟨b, hb, hbefore⟩ := Text.exists_eq_trimEnd before
    rcases withoutAttributes_eq_self_or (Text.trimEnd before) with h | ⟨a, t, h, ht⟩
    · exact ⟨b, .blanks hb, by rw [aboveAttributes, h, ← hbefore]⟩
    · have hsplit : before = a ++ '#' :: '[' :: (t ++ ']' :: b) := by
        rw [hbefore, h]
        simp
      have hshort : a.length < before.length := by
        rw [hsplit]
        simp
      obtain ⟨gap, hgap, ha⟩ := ih _ hshort a rfl
      refine ⟨gap ++ '#' :: '[' :: (t ++ ']' :: b), .bracketed hgap ht hb, ?_⟩
      have habove : aboveAttributes before = aboveAttributes a := by
        rw [aboveAttributes, h, withoutAttributes_append ht, aboveAttributes]
      rw [habove, ← List.append_assoc, ← ha, ← hsplit]

/-- Attributes start with a blank or a hash. -/
theorem Attributes.ne_of_mem_head? (h : Attributes gap) : ∀ c ∈ gap.head?, c ≠ '*' := by
  induction h with
  | blanks h =>
    rintro c hc rfl
    exact absurd (h _ (List.mem_of_mem_head? hc)) (by decide)
  | @bracketed a t s _ _ _ ih =>
    intro c hc
    cases a with
    | nil =>
      obtain rfl := Option.some.inj hc
      decide
    | cons x a => exact ih c hc

/-! ## The doc comment above a class -/

/-- What a doc comment starts with. -/
abbrev docMark : List Char := ['/', '*', '*']

/-- What a comment ends with. -/
abbrev endMark : List Char := ['*', '/']

/-- A doc comment, from its first character to its last. -/
structure IsDocComment (d : List Char) : Prop where
  /-- It starts as one. -/
  starts : docMark <+: d
  /-- It ends as comments do. -/
  ends : endMark <:+ d
  /-- It ends nowhere else. -/
  only : ∀ a b, d = a ++ (endMark ++ b) → b = []

theorem IsDocComment.ne_nil (h : IsDocComment d) : d ≠ [] := by
  rintro rfl
  exact absurd (List.prefix_nil.mp h.starts) (List.cons_ne_nil _ _)

theorem IsDocComment.aboveAttributes_append (h : IsDocComment d) (front : List Char) :
    aboveAttributes (front ++ d) = front ++ d := by
  obtain ⟨x, hx⟩ := h.ends
  have hlast : (front ++ d).getLast? = some '/' := by
    rw [← hx, List.getLast?_append_of_ne_nil _ (by simp),
      List.getLast?_append_of_ne_nil _ (List.cons_ne_nil _ _)]
    rfl
  have htrim : Text.trimEnd (front ++ d) = front ++ d := by
    refine Text.trimEnd_eq_self fun c hc => ?_
    obtain rfl := Option.some.inj (hlast.symm.trans hc)
    decide
  rw [aboveAttributes, htrim, withoutAttributes_eq_self]
  rintro ⟨y, hy⟩
  rw [← hy, List.getLast?_concat] at hlast
  exact absurd (Option.some.inj hlast) (by decide)

/-- A text that ends with a comment has no mark of a doc comment in it, or one stands behind every
earlier mark where a comment ends; the slash of that mark may be its first character. -/
def EndsDocumented (s : List Char) : Prop :=
  endMark <:+ s → docMark <:+: s →
    ∀ a b, s = a ++ (endMark ++ b) → b ≠ [] → docMark <:+: '/' :: b

theorem docblockAtEnd_eq_ite (before : List Char) : docblockAtEnd before =
    if Text.endsWith endMark (aboveAttributes before) then
      match Text.cutLast? docMark (aboveAttributes before) with
      | some p => docMark ++ p.2
      | none => []
    else [] := rfl

/-- A docblock goes from the last mark of a doc comment to the end. -/
theorem docblockAtEnd_eq (hs : aboveAttributes before = front ++ (docMark ++ b))
    (hlast : ¬ docMark <:+: docMark.tail ++ b) (hend : endMark <:+ aboveAttributes before) :
    docblockAtEnd before = docMark ++ b := by
  have hcut : Text.cutLast? docMark (aboveAttributes before) = some (front, b) := by
    rw [hs]
    exact Text.cutLast?_append (List.cons_ne_nil _ _) hlast front
  rw [docblockAtEnd_eq_ite, if_pos (Text.endsWith_iff.mpr hend), hcut]

theorem docblockAtEnd_eq_nil
    (h : ¬ (endMark <:+ aboveAttributes before ∧ docMark <:+: aboveAttributes before)) :
    docblockAtEnd before = [] := by
  rw [docblockAtEnd_eq_ite]
  split
  · next hend =>
    have hnone : Text.cutLast? docMark (aboveAttributes before) = none :=
      (Text.cutLast?_eq_none_iff (List.cons_ne_nil _ _)).mpr fun hin =>
        h ⟨Text.endsWith_iff.mp hend, hin⟩
    rw [hnone]
  · rfl

/-- There is no docblock, or one from the last mark of a doc comment. -/
theorem docblockAtEnd_cases (before : List Char) :
    docblockAtEnd before = [] ∧
        ¬ (endMark <:+ aboveAttributes before ∧ docMark <:+: aboveAttributes before) ∨
      ∃ front b, aboveAttributes before = front ++ (docMark ++ b) ∧
        ¬ docMark <:+: docMark.tail ++ b ∧ endMark <:+ aboveAttributes before ∧
        docblockAtEnd before = docMark ++ b := by
  by_cases h : endMark <:+ aboveAttributes before ∧ docMark <:+: aboveAttributes before
  · obtain ⟨front, b, hs, hlast⟩ := Text.exists_last_infix (List.cons_ne_nil _ _) h.2
    exact .inr ⟨front, b, hs, hlast, h.1, docblockAtEnd_eq hs hlast h.1⟩
  · exact .inl ⟨docblockAtEnd_eq_nil h, h⟩

/-- What stands behind the last mark of a doc comment is one comment just where a doc comment starts
behind every other place where a comment ends. -/
theorem isDocComment_iff_of_last (hlast : ¬ docMark <:+: docMark.tail ++ b)
    (hend : endMark <:+ front ++ (docMark ++ b)) :
    IsDocComment (docMark ++ b) ↔
      ∀ a t, front ++ (docMark ++ b) = a ++ (endMark ++ t) →
        t ≠ [] → docMark <:+: '/' :: t := by
  constructor
  · intro h a t hsplit hne
    have hsplit' : front ++ (docMark ++ b) = (a ++ ['*']) ++ '/' :: t := by
      rw [hsplit, List.append_assoc]
      rfl
    rcases List.append_eq_append_iff.mp hsplit' with ⟨x, hx, htail⟩ | ⟨x, hx, htail⟩
    · -- the comment ends inside the docblock, or right at its start
      rcases List.eq_nil_or_concat' x with rfl | ⟨y, c, rfl⟩
      · exact ⟨[], b, by simpa using htail⟩
      · rw [← List.append_assoc] at hx
        obtain rfl : '*' = c := List.singleton_inj.mp (List.append_inj_right' hx rfl)
        have hinner : docMark ++ b = y ++ (endMark ++ t) := by
          rw [htail, List.append_assoc]
          rfl
        exact absurd (h.only y t hinner) hne
    · exact ⟨x, b, by rw [htail, List.append_assoc]⟩
  · intro h
    refine ⟨List.prefix_append _ _, ?_, fun a t hsplit => ?_⟩
    · exact List.suffix_of_suffix_length_le hend (List.suffix_append _ _) (by simp)
    · -- a mark behind an earlier end would be later than the last one
      by_contra hne
      have hmark := h (front ++ a) t (by rw [hsplit, List.append_assoc]) hne
      refine hlast (hmark.trans ?_)
      cases a with
      | nil => exact absurd (List.cons.inj hsplit).1 (by decide)
      | cons c a =>
        exact ⟨a ++ ['*'], [], by simpa using (List.cons.inj hsplit).2.symm⟩

theorem docblockAtEnd_eq_nil_or_isDocComment_iff (before : List Char) :
    docblockAtEnd before = [] ∨ IsDocComment (docblockAtEnd before) ↔
      EndsDocumented (aboveAttributes before) := by
  rcases docblockAtEnd_cases before with ⟨hnil, hnone⟩ | ⟨front, b, hs, hlast, hend, hdoc⟩
  · exact iff_of_true (.inl hnil) fun hend hstart => absurd ⟨hend, hstart⟩ hnone
  · have hne : docblockAtEnd before ≠ [] := by
      rw [hdoc]
      exact List.cons_ne_nil _ _
    have hstart : docMark <:+: aboveAttributes before :=
      ⟨front, b, by rw [hs, List.append_assoc]⟩
    have hiff := isDocComment_iff_of_last hlast (hs ▸ hend)
    rw [← hs, ← hdoc] at hiff
    rw [or_iff_right hne, hiff]
    exact ⟨fun h _ _ => h, fun h => h hend hstart⟩

/-! ## The doc comments of a source -/

/-- The declarations of a source, each with the place of its header. -/
def declarations (source : List Char) : List (Found ClassHeader × ClassDecl) :=
  (findEach (lineStart classHeader) source).filterMap fun f =>
    (classOfHeader? (scopeOf source) f).map fun c => (f, c)

theorem classes_eq (source : List Char) : classes source = (declarations source).map Prod.snd := by
  rw [classes, declarations, List.map_filterMap]
  congr 1
  funext f
  rw [Option.map_map]
  exact Option.map_id'.symm

theorem of_mem_declarations {p : Found ClassHeader × ClassDecl} (h : p ∈ declarations source) :
    p.1 ∈ findEach (lineStart classHeader) source ∧
      p.2.docblock = String.ofList (docblockAtEnd p.1.before) := by
  obtain ⟨f, hf, hp⟩ := List.mem_filterMap.mp h
  obtain ⟨c, hc, rfl⟩ := Option.map_eq_some_iff.mp hp
  obtain ⟨body, -, rfl⟩ := Option.map_eq_some_iff.mp hc
  exact ⟨hf, rfl⟩

theorem exists_eq_append_docblockAtEnd (before : List Char) :
    ∃ front, aboveAttributes before = front ++ docblockAtEnd before := by
  rcases docblockAtEnd_cases before with ⟨hnil, -⟩ | ⟨front, b, hs, -, -, hdoc⟩
  · exact ⟨aboveAttributes before, by rw [hnil, List.append_nil]⟩
  · exact ⟨front, by rw [hdoc, hs]⟩

theorem suffix_of_docblockAtEnd_ne_nil (h : docblockAtEnd before ≠ []) :
    endMark <:+ aboveAttributes before := by
  rcases docblockAtEnd_cases before with ⟨hnil, -⟩ | ⟨-, -, -, -, hend, -⟩
  · exact absurd hnil h
  · exact hend

/-- A doc comment starts behind every comment that ends earlier. -/
theorem prefix_of_isDocComment (hs : endMark <:+ s) (hd : IsDocComment d) (hne : t ≠ [])
    (ht : ∀ c ∈ t.head?, c ≠ '*') (h : s ++ t = front ++ d) : s <+: front := by
  rcases List.append_eq_append_iff.mp h with ⟨x, rfl, -⟩ | ⟨x, hx, rfl⟩
  · exact List.prefix_append _ _
  · -- `x` is what the doc comment would take of the earlier one
    rcases x with _ | ⟨c, _ | ⟨e, x⟩⟩
    · exact ⟨[], by rw [List.append_nil, hx, List.append_nil]⟩
    · obtain ⟨b, hb⟩ := hd.starts
      obtain ⟨e, t, rfl⟩ := List.exists_cons_of_ne_nil hne
      have hmark := (List.cons.inj hb).2
      exact absurd (List.cons.inj hmark).1.symm (ht e rfl)
    · have hend : endMark <:+ c :: e :: x :=
        List.suffix_of_suffix_length_le hs ⟨front, hx.symm⟩ (by simp)
      obtain ⟨a, ha⟩ := hend
      exact absurd (hd.only a t (by rw [← ha, List.append_assoc])) hne

/-- No star stands behind the comment above a class. -/
theorem exists_eq_aboveAttributes_append {f : Found ClassHeader}
    (hf : f ∈ findEach (lineStart classHeader) source)
    (hend : endMark <:+ aboveAttributes f.before) :
    ∃ t, source = aboveAttributes f.before ++ t ∧ ∀ c ∈ t.head?, c ≠ '*' := by
  obtain ⟨u, hsource, hread⟩ := of_mem_findEach hf
  have hline := (lineStart_eq_some_iff.mp hread).1
  obtain ⟨gap, hgap, hbefore⟩ := exists_eq_aboveAttributes f.before
  refine ⟨gap ++ u, by rw [← List.append_assoc, ← hbefore, ← hsource], fun c hc => ?_⟩
  obtain ⟨x, hx⟩ := hend
  cases gap with
  | nil =>
    -- the header would stand right behind the comment
    rw [hbefore, List.append_nil, ← hx,
      List.getLast?_append_of_ne_nil _ (List.cons_ne_nil _ _)] at hline
    exact absurd (hline '/' rfl) (by decide)
  | cons e gap => exact hgap.ne_of_mem_head? c hc

/-- Two headers have docblocks that share no place: one ends in front of the other. -/
def StandApart (f g : Found ClassHeader) : Prop :=
  ∀ x y, aboveAttributes f.before = x ++ docblockAtEnd f.before →
    aboveAttributes g.before = y ++ docblockAtEnd g.before →
    aboveAttributes f.before <+: y ∨ aboveAttributes g.before <+: x

/-- Of two doc comments above classes, the one that ends later starts behind the other. -/
theorem aboveAttributes_in_front {f g : Found ClassHeader}
    (hf : f ∈ findEach (lineStart classHeader) source)
    (hend : endMark <:+ aboveAttributes f.before) (hg : IsDocComment (docblockAtEnd g.before))
    (hsource : source = aboveAttributes g.before ++ u)
    (habove : aboveAttributes g.before = aboveAttributes f.before ++ t)
    (hne : aboveAttributes f.before ≠ aboveAttributes g.before)
    (hfront : aboveAttributes g.before = front ++ docblockAtEnd g.before) :
    aboveAttributes f.before <+: front := by
  obtain ⟨r, hr, hhead⟩ := exists_eq_aboveAttributes_append hf hend
  have htail : r = t ++ u := by
    rw [hr, habove, List.append_assoc] at hsource
    exact List.append_cancel_left hsource
  have htnil : t ≠ [] := by
    rintro rfl
    exact hne (by rw [habove, List.append_nil])
  refine prefix_of_isDocComment hend hg htnil (fun c hc => hhead c ?_) (habove.symm.trans hfront)
  rw [htail, List.head?_append, Option.mem_def.mp hc]
  rfl

theorem standApart {f g : Found ClassHeader} (hf : f ∈ findEach (lineStart classHeader) source)
    (hg : g ∈ findEach (lineStart classHeader) source)
    (hfdoc : IsDocComment (docblockAtEnd f.before))
    (hgdoc : IsDocComment (docblockAtEnd g.before))
    (hne : aboveAttributes f.before ≠ aboveAttributes g.before) : StandApart f g := by
  have hfend := suffix_of_docblockAtEnd_ne_nil hfdoc.ne_nil
  have hgend := suffix_of_docblockAtEnd_ne_nil hgdoc.ne_nil
  obtain ⟨t, ht, -⟩ := exists_eq_aboveAttributes_append hf hfend
  obtain ⟨u, hu, -⟩ := exists_eq_aboveAttributes_append hg hgend
  intro x y hx hy
  -- both texts start the source, so one starts the other
  rcases List.append_eq_append_iff.mp (ht.symm.trans hu) with ⟨z, hz, -⟩ | ⟨z, hz, -⟩
  · exact .inl (aboveAttributes_in_front hf hfend hgdoc hu hz hne hy)
  · exact .inr (aboveAttributes_in_front hg hgend hfdoc ht hz hne.symm hx)

/-- Every class of a source has a doc comment of its own, or none. -/
structure OwnDocblocks (source : List Char) : Prop where
  /-- A docblock is empty or one doc comment. -/
  single : ∀ c ∈ classes source, c.docblock = "" ∨ IsDocComment c.docblock.toList
  /-- No two classes share one, or a part of one. -/
  apart : (declarations source).Pairwise fun p q =>
    p.2.docblock ≠ "" → q.2.docblock ≠ "" → StandApart p.1 q.1

/-- How the docblocks of a source are read. -/
structure DocblockLaws (source : List Char) : Prop where
  /-- Every class has its own exactly where, above each, a doc comment starts behind every earlier
  end of a comment, and nothing with a class in it is taken for the attributes of a later one. -/
  own : OwnDocblocks source ↔
    (∀ p ∈ declarations source, EndsDocumented (aboveAttributes p.1.before)) ∧
      (declarations source).Pairwise fun p q =>
        p.2.docblock ≠ "" → aboveAttributes p.1.before ≠ aboveAttributes q.1.before
  /-- Between a docblock and its class stands nothing but what is taken for attributes. -/
  above : ∀ p ∈ declarations source, ∃ front gap, Attributes gap ∧
    p.1.before = front ++ (p.2.docblock.toList ++ gap)
  /-- A doc comment that stands there is the docblock, if no mark of another is in it. -/
  reads : ∀ p ∈ declarations source, ∀ front b gap, IsDocComment (docMark ++ b) →
    ¬ docMark <:+: docMark.tail ++ b → Attributes gap →
    p.1.before = front ++ (docMark ++ b ++ gap) →
    p.2.docblock.toList = docMark ++ b

theorem docblock_eq_empty_iff {p : Found ClassHeader × ClassDecl} (hp : p ∈ declarations source) :
    p.2.docblock = "" ↔ docblockAtEnd p.1.before = [] := by
  rw [(of_mem_declarations hp).2, String.ofList_eq_empty_iff]

theorem single_iff (source : List Char) :
    (∀ c ∈ classes source, c.docblock = "" ∨ IsDocComment c.docblock.toList) ↔
      ∀ p ∈ declarations source, EndsDocumented (aboveAttributes p.1.before) := by
  rw [classes_eq, List.forall_mem_map]
  refine forall₂_congr fun p hp => ?_
  rw [docblock_eq_empty_iff hp, (of_mem_declarations hp).2, String.toList_ofList]
  exact docblockAtEnd_eq_nil_or_isDocComment_iff _

/-- Headers that the same text stands above share their docblock. -/
theorem not_standApart {f g : Found ClassHeader} (hne : docblockAtEnd f.before ≠ [])
    (h : aboveAttributes f.before = aboveAttributes g.before) : ¬ StandApart f g := by
  intro hapart
  have hdoc : docblockAtEnd f.before = docblockAtEnd g.before := by
    rw [docblockAtEnd_eq_ite, docblockAtEnd_eq_ite, h]
  obtain ⟨x, hx⟩ := exists_eq_append_docblockAtEnd f.before
  have hprefix : aboveAttributes f.before <+: x := by
    rcases hapart x x hx (by rw [← h, ← hdoc, hx]) with hf | hg
    · exact hf
    · rwa [h]
  have hlength := hprefix.length_le
  have hpos := List.length_pos_iff.mpr hne
  rw [hx, List.length_append] at hlength
  omega

theorem ownDocblocks_iff (source : List Char) : OwnDocblocks source ↔
    (∀ p ∈ declarations source, EndsDocumented (aboveAttributes p.1.before)) ∧
      (declarations source).Pairwise fun p q =>
        p.2.docblock ≠ "" → aboveAttributes p.1.before ≠ aboveAttributes q.1.before := by
  have hnil : ∀ p ∈ declarations source, p.2.docblock ≠ "" → docblockAtEnd p.1.before ≠ [] :=
    fun p hp => mt (docblock_eq_empty_iff hp).mpr
  constructor
  · intro h
    -- Equal places would give two classes the one docblock, which cannot stand apart from itself.
    refine ⟨(single_iff source).mp h.single, h.apart.imp_of_mem ?_⟩
    intro p q hp hq hapart hne heq
    have hqne : q.2.docblock ≠ "" := by
      rw [(of_mem_declarations hp).2, docblockAtEnd_eq_ite, heq] at hne
      rwa [(of_mem_declarations hq).2, docblockAtEnd_eq_ite]
    exact not_standApart (hnil p hp hne) heq (hapart hne hqne)
  · rintro ⟨hdocumented, hdistinct⟩
    -- Each docblock that there is is a single comment, so distinct places are enough.
    have hsingle : ∀ p ∈ declarations source, p.2.docblock ≠ "" →
        IsDocComment (docblockAtEnd p.1.before) := fun p hp hne =>
      ((docblockAtEnd_eq_nil_or_isDocComment_iff _).mpr (hdocumented p hp)).resolve_left
        (hnil p hp hne)
    refine ⟨(single_iff source).mpr hdocumented, hdistinct.imp_of_mem ?_⟩
    intro p q hp hq hne hpne hqne
    exact standApart (of_mem_declarations hp).1 (of_mem_declarations hq).1 (hsingle p hp hpne)
      (hsingle q hq hqne) (hne hpne)

/-- **Docblocks.** Every source obeys the laws. -/
theorem docblockLaws (source : List Char) : DocblockLaws source where
  own := ownDocblocks_iff source
  above p hp := by
    obtain ⟨gap, hgap, hbefore⟩ := exists_eq_aboveAttributes p.1.before
    obtain ⟨front, hfront⟩ := exists_eq_append_docblockAtEnd p.1.before
    refine ⟨front, gap, hgap, ?_⟩
    rw [(of_mem_declarations hp).2, String.toList_ofList, ← List.append_assoc, ← hfront, ← hbefore]
  reads p hp front b gap hdoc hlast hgap hbefore := by
    have habove : aboveAttributes p.1.before = front ++ (docMark ++ b) := by
      rw [hbefore, ← List.append_assoc, hgap.aboveAttributes_append, hdoc.aboveAttributes_append]
    rw [(of_mem_declarations hp).2, String.toList_ofList]
    exact docblockAtEnd_eq habove hlast (habove ▸ hdoc.ends.trans (List.suffix_append _ _))

/-- A class with a doc comment, and one with a plain comment above it. -/
def plainCommentAbove : String :=
  "<?php\n/** @mixin A */\nclass A \x7b\x7d\n/* plain */\nclass B \x7b\x7d\n"

/-- The docblock of the second class goes from the doc comment of the first one, through that class,
to the plain comment; so it has the tags of the first class. -/
theorem not_ownDocblocks_plainCommentAbove :
    ((classes plainCommentAbove.toList).map fun c => (c.docblock, mixin? c.docblock.toList)) =
        [("/** @mixin A */", some "A"),
          ("/** @mixin A */\nclass A \x7b\x7d\n/* plain */", some "A")] ∧
      ¬ OwnDocblocks plainCommentAbove.toList := by
  have hread : ((classes plainCommentAbove.toList).map fun c =>
      (c.docblock, mixin? c.docblock.toList)) =
        [("/** @mixin A */", some "A"),
          ("/** @mixin A */\nclass A \x7b\x7d\n/* plain */", some "A")] := by decide +kernel
  refine ⟨hread, fun h => ?_⟩
  have hmem := List.mem_of_getElem? (congrArg (·[1]?) hread)
  obtain ⟨c, hc, hsecond⟩ := List.mem_map.mp hmem
  obtain ⟨hdoc, -⟩ := Prod.mk.inj hsecond
  rcases h.single c hc with hempty | hsingle
  · exact absurd (hempty.symm.trans hdoc) (by decide)
  · have hrest := hsingle.only "/** @mixin A ".toList "\nclass A \x7b\x7d\n/* plain */".toList
    rw [hdoc] at hrest
    exact absurd (hrest rfl) (by decide)

end PayloadTypes.Source
