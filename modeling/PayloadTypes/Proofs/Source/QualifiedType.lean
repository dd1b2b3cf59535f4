import PayloadTypes.Proofs.Source.Closing
import PayloadTypes.Proofs.Source.DeclaredName
import PayloadTypes.Proofs.Text.Matches
/-!
# Types with names in full

A type is rewritten name by name. Read from the left it parts into names, each
the longest that starts at its place, quoted literals and other characters, in
one way only (`exists_isParted`, `IsParted.unique`). Names are looked for between
quotes as well, so what stands there is rewritten like a type of its own
(`qualify_eq_flatMap_rewritten`). It stays as it was just where its names are
keywords or have a backslash in front (`qualify_eq_self_iff`).
-/

namespace PayloadTypes.Source

open Text.Reader

variable {c q : Char} {prev : Option Char} {s t w r body : List Char} {literals : Bool}

/-! ## The pieces of a type -/

/-- A piece of a type. -/
inductive TypePiece where
  /-- A name. -/
  | name (text : List Char)
  /-- A literal: a text between two quotes. -/
  | literal (quote : Char) (body : List Char)
  /-- Any other character. -/
  | other (c : Char)
deriving DecidableEq

/-- The text of a piece. -/
def TypePiece.text : TypePiece → List Char
  | .name w => w
  | .literal q body => q :: (body ++ [q])
  | .other c => [c]

/-- A text starts with a literal, with something behind it. -/
structure StartsLiteral (q : Char) (body r s : List Char) : Prop where
  /-- It stands in quotes. -/
  isQuote : IsQuote q
  /-- Between them no quote is left on its own. -/
  isBody : StringBody q body
  /-- The text is the literal and what is behind it. -/
  eq : s = q :: (body ++ q :: r)

/-- The first piece of a text that has a character in front, and what is behind it. Literals may be
told from names or not. -/
inductive FirstPiece (literals : Bool) (prev : Option Char) (s r : List Char) : TypePiece → Prop
  /-- A literal. -/
  | literal {q : Char} {body : List Char} (hliterals : literals = true)
      (h : StartsLiteral q body r s) : FirstPiece literals prev s r (.literal q body)
  /-- The longest name, where one may start. -/
  | name {w : List Char} (hprev : nameMayFollow prev = true) (hw : IsLongestName w s)
      (hs : s = w ++ r) : FirstPiece literals prev s r (.name w)
  /-- A character, where neither starts. -/
  | other {c : Char} (hliteral : literals = true → ∀ q body r, ¬ StartsLiteral q body r s)
      (hname : nameMayFollow prev = true → ∀ w, ¬ IsLongestName w s) (hs : s = c :: r) :
      FirstPiece literals prev s r (.other c)

/-- The pieces of a text that has a character in front. -/
inductive IsParted (literals : Bool) : Option Char → List Char → List TypePiece → Prop
  /-- Nothing has none. -/
  | nil {prev : Option Char} : IsParted literals prev [] []
  /-- The first one, and those of what is behind it. -/
  | cons {prev : Option Char} {s r : List Char} {p : TypePiece} {ps : List TypePiece}
      (hp : FirstPiece literals prev s r p) (h : IsParted literals p.text.getLast? r ps) :
      IsParted literals prev s (p :: ps)

variable {p p' : TypePiece} {ps : List TypePiece} {r' : List Char}

theorem FirstPiece.eq_append (h : FirstPiece literals prev s r p) : s = p.text ++ r := by
  cases h with
  | literal _ h => simpa [TypePiece.text] using h.eq
  | name _ _ hs => exact hs
  | other _ _ hs => exact hs

theorem FirstPiece.text_ne_nil (h : FirstPiece literals prev s r p) : p.text ≠ [] := by
  cases h with
  | literal => exact List.cons_ne_nil _ _
  | name _ hw => exact hw.name.ne_nil
  | other => exact List.cons_ne_nil _ _

theorem isDeclaredChar_of_isQuote (hq : IsQuote q) : isDeclaredChar q = false := by
  rcases hq with rfl | rfl <;> rfl

/-- No name starts with a quote. -/
theorem not_isLongestName_quote (hq : IsQuote q) : ¬ IsLongestName w (q :: s) := by
  intro h
  have := (isLongestName_append_iff (s := []) (isDeclaredChar_of_isQuote hq)).mp h
  exact this.name.ne_nil (List.prefix_nil.mp this.front)

/-- A literal ends at the first quote that closes it. -/
theorem StartsLiteral.unique {q' : Char} {body' : List Char} (h : StartsLiteral q body r s)
    (h' : StartsLiteral q' body' r' s) : q = q' ∧ body = body' := by
  obtain ⟨rfl, heq⟩ := List.cons.inj (h.eq.symm.trans h'.eq)
  have hcut := h.isBody.cutString_append h.isQuote.ne_backslash r
  rw [heq, h'.isBody.cutString_append h.isQuote.ne_backslash] at hcut
  exact ⟨rfl, List.append_cancel_right (congrArg Prod.fst hcut).symm⟩

theorem FirstPiece.unique (h : FirstPiece literals prev s r p)
    (h' : FirstPiece literals prev s r' p') : p = p' := by
  -- No name starts with a quote, so a literal and a name never start at one place.
  cases h with
  | literal hl h =>
    cases h' with
    | literal _ h' =>
      obtain ⟨rfl, rfl⟩ := h.unique h'
      rfl
    | name _ hw => exact absurd (h.eq ▸ hw) (not_isLongestName_quote h.isQuote)
    | other hliteral => exact absurd h (hliteral hl _ _ _)
  | name hprev hw =>
    cases h' with
    | literal _ h' => exact absurd (h'.eq ▸ hw) (not_isLongestName_quote h'.isQuote)
    | name _ hw' => rw [hw.unique hw']
    | other _ hname => exact absurd hw (hname hprev _)
  | other hliteral hname hs =>
    cases h' with
    | literal hl h' => exact absurd h' (hliteral hl _ _ _)
    | name hprev hw => exact absurd hw (hname hprev _)
    | other _ _ hs' => rw [(List.cons.inj (hs.symm.trans hs')).1]

theorem exists_firstPiece (literals : Bool) (prev : Option Char) (hs : s ≠ []) :
    ∃ p r, FirstPiece literals prev s r p := by
  by_cases hliteral : literals = true ∧ ∃ q body r, StartsLiteral q body r s
  · obtain ⟨hl, q, body, r, h⟩ := hliteral
    exact ⟨_, r, .literal hl h⟩
  · by_cases hname : nameMayFollow prev = true ∧ ∃ w, IsLongestName w s
    · obtain ⟨hprev, w, hw⟩ := hname
      obtain ⟨r, hr⟩ := hw.front
      exact ⟨_, r, .name hprev hw hr.symm⟩
    · obtain ⟨c, r, rfl⟩ := List.exists_cons_of_ne_nil hs
      exact ⟨_, r, .other (fun hl q body r h => hliteral ⟨hl, q, body, r, h⟩)
        (fun hprev w hw => hname ⟨hprev, w, hw⟩) rfl⟩

/-- **Every text parts into pieces.** -/
theorem exists_isParted (literals : Bool) (prev : Option Char) (s : List Char) :
    ∃ ps, IsParted literals prev s ps := by
  induction hn : s.length using Nat.strong_induction_on generalizing prev s with
  | _ n ih =>
    by_cases hs : s = []
    · exact ⟨[], hs ▸ .nil⟩
    · obtain ⟨p, r, hp⟩ := exists_firstPiece literals prev hs
      have hlen := congrArg List.length hp.eq_append
      have hpos := List.length_pos_iff.mpr hp.text_ne_nil
      rw [List.length_append] at hlen
      obtain ⟨ps, hps⟩ := ih r.length (by omega) p.text.getLast? r rfl
      exact ⟨p :: ps, .cons hp hps⟩

/-- **It does so in one way.** -/
theorem IsParted.unique {ps' : List TypePiece} (h : IsParted literals prev s ps)
    (h' : IsParted literals prev s ps') : ps = ps' := by
  induction h generalizing ps' with
  | nil =>
    cases h' with
    | nil => rfl
    | cons hp => exact absurd (List.append_eq_nil_iff.mp hp.eq_append.symm).1 hp.text_ne_nil
  | cons hp _ ih =>
    cases h' with
    | nil => exact absurd (List.append_eq_nil_iff.mp hp.eq_append.symm).1 hp.text_ne_nil
    | cons hp' h' =>
      obtain rfl := hp.unique hp'
      obtain rfl := List.append_cancel_left (hp.eq_append.symm.trans hp'.eq_append)
      rw [ih h']

theorem IsParted.eq_flatMap (h : IsParted literals prev s ps) : s = ps.flatMap TypePiece.text := by
  induction h with
  | nil => rfl
  | cons hp _ ih => rw [List.flatMap_cons, ← ih, ← hp.eq_append]

theorem IsParted.isDeclaredName (h : IsParted literals prev s ps) (hw : .name w ∈ ps) :
    IsDeclaredName w := by
  induction h with
  | nil => cases hw
  | cons hp _ ih =>
    rcases List.mem_cons.mp hw with rfl | hw
    · cases hp with
      | name _ hw => exact hw.name
    · exact ih hw

theorem IsParted.literal (h : IsParted literals prev s ps) (hmem : .literal q body ∈ ps) :
    literals = true ∧ IsQuote q := by
  induction h with
  | nil => cases hmem
  | cons hp _ ih =>
    rcases List.mem_cons.mp hmem with rfl | hmem
    · cases hp with
      | literal hl h => exact ⟨hl, h.isQuote⟩
    · exact ih hmem

/-! ## Rewriting -/

namespace Scope

variable (sc : Scope)

/-- What is replaced in a type. -/
def qualifier : Placed (List Char) := fun before s =>
  if nameMayFollow before then (typeName s).map fun p => (sc.qualifyName p.1, p.2) else none

theorem qualify_eq (type : String) :
    sc.qualify type = String.ofList (replaceAll sc.qualifier type.toList) := rfl

/-- A piece as it is meant: names are rewritten. -/
def qualified : TypePiece → List Char
  | .name w => sc.qualifyName w
  | .literal q body => q :: (body ++ [q])
  | .other c => [c]

/-- A piece as it comes out: literals are rewritten like types of their own. -/
def rewritten : TypePiece → List Char
  | .name w => sc.qualifyName w
  | .literal q body => q :: ((sc.qualify (String.ofList body)).toList ++ [q])
  | .other c => [c]

theorem qualifier_of_isLongestName (hprev : nameMayFollow prev = true)
    (h : IsLongestName w (w ++ s)) : sc.qualifier prev (w ++ s) = some (sc.qualifyName w, s) := by
  rw [qualifier, if_pos hprev, typeName_eq_some_iff.mpr ⟨rfl, h⟩]
  rfl

variable {sc}

theorem qualifier_eq_none (h : nameMayFollow prev = true → ∀ w, ¬ IsLongestName w s) :
    sc.qualifier prev s = none := by
  rw [qualifier]
  split
  · next hprev => rw [typeName_eq_none_iff.mpr (h hprev), Option.map_none]
  · rfl

theorem replaceFrom_quote (hq : IsQuote q) :
    replaceFrom sc.qualifier prev 0 (q :: s) = q :: replaceFrom sc.qualifier (some q) 0 s :=
  replaceFrom_of_eq_none (qualifier_eq_none fun _ _ => not_isLongestName_quote hq)

/-- **No name reaches over a quote.** -/
theorem replaceFrom_append_quote (hq : IsQuote q) (prev : Option Char) (s t : List Char) :
    replaceFrom sc.qualifier prev 0 (s ++ q :: t) =
      replaceFrom sc.qualifier prev 0 s ++ q :: replaceFrom sc.qualifier (some q) 0 t := by
  -- The pieces are those of a type without literals: a quote is none of them on its own.
  obtain ⟨ps, h⟩ := exists_isParted false prev s
  induction h with
  | nil => exact replaceFrom_quote hq
  | @cons prev s r p ps hp h ih =>
    cases hp with
    | literal hl => cases hl
    | @name w hprev hw hs =>
      subst hs
      -- The longest name is the same with the quote behind it, as no quote is in a name.
      have hw' : IsLongestName w (w ++ (r ++ q :: t)) := by
        rw [← List.append_assoc]
        exact (isLongestName_append_iff (isDeclaredChar_of_isQuote hq)).mpr hw
      have hread := qualifier_of_isLongestName sc hprev hw
      have hread' := qualifier_of_isLongestName sc hprev hw'
      rw [List.append_assoc, replaceFrom_of_eq_some hw.name.ne_nil hread',
        replaceFrom_of_eq_some hw.name.ne_nil hread, List.append_assoc]
      exact congrArg _ ih
    | @other c _ hname hs =>
      subst hs
      -- Nor is there a name with the quote behind it where there was none.
      have hname' : nameMayFollow prev = true → ∀ w, ¬ IsLongestName w (c :: (r ++ q :: t)) :=
        fun hprev w hw => hname hprev w
          ((isLongestName_append_iff (s := c :: r) (isDeclaredChar_of_isQuote hq)).mp hw)
      rw [replaceFrom_of_eq_none (qualifier_eq_none hname), List.cons_append,
        replaceFrom_of_eq_none (qualifier_eq_none hname'), List.cons_append]
      exact congrArg _ ih

/-- Behind a quote a text is rewritten as at the start. -/
theorem replaceFrom_behind_quote (hq : IsQuote q) (s : List Char) :
    replaceFrom sc.qualifier (some q) 0 s = (sc.qualify (String.ofList s)).toList := by
  have hplaced : sc.qualifier (some q) = sc.qualifier none := by
    rcases hq with rfl | rfl <;> rfl
  rw [qualify_eq, String.toList_ofList, String.toList_ofList, replaceAll]
  cases s with
  | nil => rfl
  | cons c s => rw [replaceFrom, replaceFrom, hplaced]

/-- **A type is rewritten piece by piece.** -/
theorem replaceFrom_eq_flatMap (h : IsParted literals prev s ps) :
    replaceFrom sc.qualifier prev 0 s = ps.flatMap sc.rewritten := by
  induction h with
  | nil => rfl
  | @cons prev s r p ps hp h ih =>
    rw [List.flatMap_cons, ← ih]
    cases hp with
    | @literal q body _ hstart =>
      -- Behind a literal the last character is its quote, so a name may follow it at once.
      have hlast : (TypePiece.literal q body).text.getLast? = some q := by
        rw [TypePiece.text, ← List.cons_append, List.getLast?_concat]
      rw [hstart.eq, replaceFrom_quote hstart.isQuote, replaceFrom_append_quote hstart.isQuote,
        replaceFrom_behind_quote hstart.isQuote, hlast, rewritten]
      simp
    | name hprev hw hs =>
      subst hs
      exact replaceFrom_of_eq_some hw.name.ne_nil (qualifier_of_isLongestName sc hprev hw)
    | other _ hname hs =>
      subst hs
      exact replaceFrom_of_eq_none (qualifier_eq_none hname)

theorem qualify_eq_flatMap_rewritten {type : String} (h : IsParted literals none type.toList ps) :
    (sc.qualify type).toList = ps.flatMap sc.rewritten := by
  rw [qualify_eq, String.toList_ofList]
  exact replaceFrom_eq_flatMap h

end Scope

/-! ## What stays as it was -/

/-- Two texts have different characters at some place, and the same in front of it. -/
def Differ (s t : List Char) : Prop :=
  ∃ front x y u v, s = front ++ x :: u ∧ t = front ++ y :: v ∧ x ≠ y

theorem Differ.ne (h : Differ s t) : s ≠ t := by
  obtain ⟨front, x, y, u, v, rfl, rfl, hne⟩ := h
  intro heq
  exact hne (List.cons.inj (List.append_cancel_left heq)).1

theorem Differ.append (h : Differ s t) (front back back' : List Char) :
    Differ (front ++ (s ++ back)) (front ++ (t ++ back')) := by
  obtain ⟨f, x, y, u, v, rfl, rfl, hne⟩ := h
  exact ⟨front ++ f, x, y, u ++ back, v ++ back', by simp, by simp, hne⟩

/-- Pieces that are the same or differ make texts that are the same or differ. -/
theorem forall_eq_or_differ {f g : TypePiece → List Char}
    (h : ∀ p ∈ ps, f p = g p ∨ Differ (f p) (g p)) :
    (∀ p ∈ ps, f p = g p) ∨ Differ (ps.flatMap f) (ps.flatMap g) := by
  induction ps with
  | nil => exact .inl (by simp)
  | cons p ps ih =>
    rw [List.flatMap_cons, List.flatMap_cons]
    rcases h p List.mem_cons_self with hp | hp
    · refine (ih fun p hp => h p (List.mem_cons_of_mem _ hp)).imp
        (fun hps => List.forall_mem_cons.mpr ⟨hp, hps⟩) fun hps => ?_
      rw [hp]
      simpa using hps.append (g p) [] []
    · exact .inr (by simpa using hp.append [] (ps.flatMap f) (ps.flatMap g))

theorem flatMap_eq_iff {f g : TypePiece → List Char}
    (h : ∀ p ∈ ps, f p = g p ∨ Differ (f p) (g p)) :
    ps.flatMap f = ps.flatMap g ↔ ∀ p ∈ ps, f p = g p := by
  constructor
  · exact fun heq => (forall_eq_or_differ h).resolve_right fun hdiffer => hdiffer.ne heq
  · exact List.flatMap_congr

/-- A name that is left as it is: a keyword, or a name with a backslash in front. -/
def IsKept (w : List Char) : Prop := isKeyword w = true ∨ '\\' ∈ w.head?

/-- All names of a text are left as they are. -/
def NamesKept (s : List Char) : Prop :=
  ∀ ps, IsParted false none s ps → ∀ w, .name w ∈ ps → IsKept w

namespace Scope

variable {sc : Scope}

/-- **A name changes in its first character**, or not at all. -/
theorem qualifyName_eq_or_differ (sc : Scope) (h : IsDeclaredName w) :
    (IsKept w ∧ sc.qualifyName w = w) ∨ (¬ IsKept w ∧ Differ (sc.qualifyName w) w) := by
  by_cases hkeyword : isKeyword w = true
  -- A keyword stays, any other name gets a backslash in front of what it is resolved to.
  · exact .inl ⟨.inl hkeyword, by rw [qualifyName, if_pos hkeyword]⟩
  have hname : sc.qualifyName w = '\\' :: (sc.resolve (String.ofList w)).toList := by
    rw [qualifyName, if_neg hkeyword]
  have htrim : Text.trim w = w := by
    refine Text.IsTrimmed.trim_eq (Text.isTrimmed_of_forall fun d hd => ?_)
    have := h.forall_mem d hd
    simp only [isDeclaredChar, isHeadChar, Bool.or_eq_true, beq_iff_eq] at this
    rcases this with (hd | rfl) | rfl
    · have hcode := Text.toNat_of_isIdentChar hd
      exact Text.isBlank_eq_false (by omega)
    · decide
    · decide
  obtain ⟨lead, c, head, more, rfl | rfl, hc, -, -, rfl⟩ := h
  · have hne : c ≠ '\\' := by
      rintro rfl
      cases hc
    refine .inr ⟨fun hkept => ?_, [], '\\', c, _, _, hname, rfl, hne.symm⟩
    rcases hkept with hkept | hkept
    · exact hkeyword hkept
    · exact hne (Option.some.inj hkept)
  -- With its backslash in front a name is resolved to itself.
  · refine .inl ⟨.inr rfl, ?_⟩
    rw [hname, resolve, String.toList_ofList, htrim]
    simp

/-- **A text comes out as it was just where its names are left as they are**, and otherwise with
another character at some place. -/
theorem qualify_eq_or_differ (sc : Scope) (s : List Char) :
    (NamesKept s ∧ (sc.qualify (String.ofList s)).toList = s) ∨
      (¬ NamesKept s ∧ Differ (sc.qualify (String.ofList s)).toList s) := by
  obtain ⟨ps, h⟩ := exists_isParted false none s
  -- The pieces are unique, so they may be read off any one way to part the text.
  have hkept : NamesKept s ↔ ∀ w, .name w ∈ ps → IsKept w :=
    ⟨fun hnames => hnames ps h, fun hnames ps' h' => h.unique h' ▸ hnames⟩
  have htext : (sc.qualify (String.ofList s)).toList = ps.flatMap sc.rewritten :=
    qualify_eq_flatMap_rewritten (by rwa [String.toList_ofList])
  have hpieces : ∀ p ∈ ps, sc.rewritten p = p.text ∨ Differ (sc.rewritten p) p.text := by
    intro p hp
    cases p with
    | name w => exact (qualifyName_eq_or_differ sc (h.isDeclaredName hp)).imp And.right And.right
    | literal q body => cases (h.literal hp).1
    | other c => exact .inl rfl
  rw [hkept, htext]
  rcases forall_eq_or_differ hpieces with hsame | hdiffer
  · refine .inl ⟨fun w hw => ?_, ?_⟩
    · obtain ⟨hkept, -⟩ | ⟨-, hdiffer⟩ := qualifyName_eq_or_differ sc (h.isDeclaredName hw)
      · exact hkept
      · exact absurd (hsame _ hw) hdiffer.ne
    · rw [List.flatMap_congr hsame, ← h.eq_flatMap]
  -- One place that differs is enough, since the texts of the pieces are put together in order.
  · rw [← h.eq_flatMap] at hdiffer
    refine .inr ⟨fun hnames => hdiffer.ne ?_, hdiffer⟩
    have hsame : ∀ p ∈ ps, sc.rewritten p = p.text := by
      intro p hp
      cases p with
      | name w =>
        obtain ⟨-, hsame⟩ | ⟨hnot, -⟩ := qualifyName_eq_or_differ sc (h.isDeclaredName hp)
        · exact hsame
        · exact absurd (hnames w hp) hnot
      | literal q body => cases (h.literal hp).1
      | other c => rfl
    rw [List.flatMap_congr hsame, ← h.eq_flatMap]

theorem qualify_eq_self_iff (sc : Scope) (s : List Char) :
    (sc.qualify (String.ofList s)).toList = s ↔ NamesKept s := by
  obtain ⟨hkept, hsame⟩ | ⟨hnot, hdiffer⟩ := sc.qualify_eq_or_differ s
  · exact iff_of_true hsame hkept
  · exact iff_of_false hdiffer.ne hnot

/-- A piece comes out as it is meant, unless it is a literal with a name that changes. -/
theorem rewritten_eq_qualified_iff {p : TypePiece} :
    sc.rewritten p = sc.qualified p ↔ ∀ q body, p = .literal q body → NamesKept body := by
  cases p with
  | name w => exact iff_of_true rfl fun q body h => by cases h
  | literal q body =>
    rw [rewritten, qualified, List.cons_inj_right, List.append_cancel_right_eq,
      qualify_eq_self_iff]
    refine ⟨fun h q body hp => ?_, fun h => h q body rfl⟩
    cases hp
    exact h
  | other c => exact iff_of_true rfl fun q body h => by cases h

theorem rewritten_eq_or_differ (sc : Scope) (p : TypePiece) :
    sc.rewritten p = sc.qualified p ∨ Differ (sc.rewritten p) (sc.qualified p) := by
  cases p with
  | name w => exact .inl rfl
  | literal q body =>
    obtain ⟨-, hsame⟩ | ⟨-, hdiffer⟩ := sc.qualify_eq_or_differ body
    · exact .inl (by rw [rewritten, hsame]; rfl)
    · have hquoted := hdiffer.append [q] [q] [q]
      rw [List.singleton_append, List.singleton_append] at hquoted
      exact .inr hquoted
  | other c => exact .inl rfl

end Scope

/-! ## Whole types -/

/-- How a type is rewritten, with the pieces that it parts into. -/
structure QualifyLaws (sc : Scope) (type : String) (ps : List TypePiece) : Prop where
  /-- It parts into these pieces and no others. -/
  parted : ∀ ps', IsParted true none type.toList ps' ↔ ps' = ps
  /-- They are the text of the type. -/
  text : type.toList = ps.flatMap TypePiece.text
  /-- A name comes out as a keyword or in full, a literal with its text rewritten like a type, and
  any other character as it was. -/
  result : (sc.qualify type).toList = ps.flatMap sc.rewritten
  /-- Names are all that is rewritten just where the names in literals are left as they are. -/
  exact : (sc.qualify type).toList = ps.flatMap sc.qualified ↔
    ∀ q body, .literal q body ∈ ps → NamesKept body

/-- **The laws of rewriting hold of every type in every scope.** -/
theorem exists_qualifyLaws (sc : Scope) (type : String) : ∃ ps, QualifyLaws sc type ps := by
  obtain ⟨ps, h⟩ := exists_isParted true none type.toList
  have hresult : (sc.qualify type).toList = ps.flatMap sc.rewritten :=
    Scope.qualify_eq_flatMap_rewritten h
  refine ⟨ps, fun ps' => ⟨fun h' => h'.unique h, fun heq => heq ▸ h⟩, h.eq_flatMap, hresult, ?_⟩
  rw [hresult, flatMap_eq_iff fun p _ => sc.rewritten_eq_or_differ p]
  simp only [Scope.rewritten_eq_qualified_iff]
  exact ⟨fun hall q body hp => hall _ hp q body rfl,
    fun hall p hp q body heq => hall q body (heq ▸ hp)⟩

/-- A scope with a namespace and no imports. -/
def appScope : Scope := ⟨"App", OrderedMap.empty⟩

/-- The words of two literals come out as names of classes. -/
theorem qualify_literals :
    IsParted true none "'draft'|'live'".toList
      [.literal '\'' "draft".toList, .other '|', .literal '\'' "live".toList] ∧
    appScope.qualify "'draft'|'live'" = "'\\App\\draft'|'\\App\\live'" ∧
    (appScope.qualify "'draft'|'live'").toList ≠
      [TypePiece.literal '\'' "draft".toList, .other '|', .literal '\'' "live".toList].flatMap
        appScope.qualified := by
  have hresult : appScope.qualify "'draft'|'live'" = "'\\App\\draft'|'\\App\\live'" := by
    decide +kernel
  have hdraft : StartsLiteral '\'' "draft".toList ('|' :: "'live'".toList)
      "'draft'|'live'".toList :=
    ⟨isQuote_single, stringBody_escaped (by decide) "draft".toList, rfl⟩
  have hlive : StartsLiteral '\'' "live".toList [] "'live'".toList :=
    ⟨isQuote_single, stringBody_escaped (by decide) "live".toList, rfl⟩
  have hbar : FirstPiece true (some '\'') ('|' :: "'live'".toList) "'live'".toList
      (.other '|') := by
    refine .other (fun _ q body r h => ?_) (fun _ => typeName_eq_none_iff.mp (by decide)) rfl
    have hquote : IsQuote '|' := (List.cons.inj h.eq).1 ▸ h.isQuote
    rcases hquote with hquote | hquote <;> cases hquote
  refine ⟨.cons (.literal rfl hdraft) (.cons hbar (.cons (.literal rfl hlive) .nil)), hresult, ?_⟩
  rw [hresult]
  decide

end PayloadTypes.Source
