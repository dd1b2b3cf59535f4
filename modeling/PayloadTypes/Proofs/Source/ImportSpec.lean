import PayloadTypes.Proofs.Text.Join
import PayloadTypes.Proofs.Text.Reader
import PayloadTypes.Source.Scope
/-!
# Written imports

A source imports names in statements at the starts of its lines. A statement
lists full names, or names in a group that share a common front; a name may be
given an alias, blanks and line breaks may stand around the words, the marks and
the names with their backslashes, and a comma may stand behind the last name.

Neither a blank nor a mark stands in a name, so the names of a statement are what
stands between its commas (`ItemList.splitOn_text`, `ItemList.map_trim_pieces`).
Behind its blanks a statement starts with a name, and not with a word that makes
it an import of functions or of constants (`ImportClause.startsName`).
-/

namespace PayloadTypes.Source

open Text (AllBlank isBlank)
open Text.Reader (forall_mem_head?_cons)

variable {s : List Char} {c : Char}

/-! ## Names and aliases -/

/-- What stands between the names of a statement. -/
def itemMarks : List Char := [',', ';', '\x7b', '\x7d']

/-- A character of a segment: neither blank nor a mark nor a backslash. -/
def isSegmentChar (c : Char) : Bool := !(isBlank c || c == '\\' || itemMarks.contains c)

/-- A segment of a name. -/
structure Segment where
  /-- Its characters. -/
  text : List Char
  /-- There is one at least. -/
  ne_nil : text ≠ []
  /-- None of them is a blank or a mark. -/
  isSegmentChar : ∀ c ∈ text, isSegmentChar c = true

/-- Blanks and line breaks between two parts of a statement. -/
structure Gap where
  /-- The blanks. -/
  text : List Char
  /-- They are blank. -/
  allBlank : AllBlank text

/-- A full name. -/
structure QualifiedName where
  /-- The segments in front of the last one. -/
  front : List Segment
  /-- The last segment. -/
  last : Segment

/-- The segments with backslashes between them. -/
def QualifiedName.text (n : QualifiedName) : List Char :=
  n.front.flatMap (fun g => g.text ++ ['\\']) ++ n.last.text

/-- The name with a backslash in front of it or without. -/
def QualifiedName.rootedText (n : QualifiedName) (rooted : Bool) : List Char :=
  if rooted then '\\' :: n.text else n.text

/-- The name behind another one. -/
def QualifiedName.within (n p : QualifiedName) : QualifiedName where
  front := p.front ++ p.last :: n.front
  last := n.last

/-- An alias and the word in front of it. -/
structure AliasClause where
  /-- The blanks in front of the word. -/
  before : Gap
  /-- The blanks behind the word. -/
  behind : Gap
  /-- The alias. -/
  name : Segment
  /-- The word stands alone. -/
  apart : before.text ≠ [] ∧ behind.text ≠ []

/-- The word and the alias. -/
def AliasClause.text (a : AliasClause) : List Char :=
  a.before.text ++ ("as".toList ++ (a.behind.text ++ a.name.text))

/-- An imported name. -/
structure Import where
  /-- What is imported. -/
  name : QualifiedName
  /-- The alias that it is given, if any. -/
  given : Option AliasClause

namespace Import

/-- What follows the name. -/
def givenText (i : Import) : List Char := (i.given.map AliasClause.text).getD []

/-- The alias, which is the last segment of the name where none is given. -/
def localName (i : Import) : Segment := (i.given.map AliasClause.name).getD i.name.last

/-- The alias and what it stands for. -/
def entry (i : Import) : String × String :=
  (String.ofList i.localName.text, String.ofList i.name.text)

/-- The import of the name behind another one. -/
def within (i : Import) (p : QualifiedName) : Import := { i with name := i.name.within p }

end Import

/-! ## Statements -/

/-- A name in a statement. -/
structure ImportItem extends Import where
  /-- The blanks in front of it. -/
  before : Gap
  /-- A backslash stands in front of the name. -/
  rooted : Bool
  /-- The blanks behind it. -/
  behind : Gap

/-- The name without the blanks around it. -/
def ImportItem.bare (i : ImportItem) : List Char := i.name.rootedText i.rooted ++ i.givenText

/-- The name with the blanks around it. -/
def ImportItem.text (i : ImportItem) : List Char := i.before.text ++ (i.bare ++ i.behind.text)

/-- Names with commas between them. -/
structure ItemList where
  /-- The first name. -/
  first : ImportItem
  /-- The other names. -/
  more : List ImportItem
  /-- The blanks behind a comma at the end, if there is one. -/
  trailing : Option Gap

/-- All names of a list. -/
def ItemList.items (l : ItemList) : List ImportItem := l.first :: l.more

/-- What stands between the commas. -/
def ItemList.pieces (l : ItemList) : List (List Char) :=
  l.items.map ImportItem.text ++ l.trailing.toList.map Gap.text

/-- The names with commas between them, and behind the last one if there is a comma. -/
def ItemList.text (l : ItemList) : List Char := [','].intercalate l.pieces

/-- Words that make an import one of functions or of constants. -/
def kindWords : List String := ["function", "const"]

/-- The name is such a word alone. -/
def ImportItem.isKindWord (i : ImportItem) : Bool :=
  !i.rooted && i.name.front.isEmpty && kindWords.contains (String.ofList i.name.last.text)

/-- What a statement imports. -/
inductive ImportClause where
  /-- Full names. -/
  | list (items : ItemList) (first_ne : items.first.isKindWord = false)
  /-- Names in braces behind a common front, of which none starts anew. -/
  | group (rooted : Bool) (front : QualifiedName) (inner : Gap) (items : ItemList) (back : Gap)
    (unrooted : ∀ i ∈ items.items, i.rooted = false)

namespace ImportClause

/-- The names as they are written. -/
def text : ImportClause → List Char
  | list items _ => items.text
  | group rooted front inner items back _ =>
    front.rootedText rooted ++
      '\\' :: (inner.text ++ '\x7b' :: (items.text ++ '\x7d' :: back.text))

/-- The imports. -/
def imports : ImportClause → List Import
  | list items _ => items.items.map ImportItem.toImport
  | group _ front _ items _ _ => items.items.map fun i => i.within front

end ImportClause

/-- A statement. -/
structure ImportStatement where
  /-- The blanks behind the word that starts it. -/
  gap : Gap
  /-- The word stands alone. -/
  apart : gap.text ≠ []
  /-- What is imported. -/
  clause : ImportClause

/-- A statement up to its semicolon. -/
def ImportStatement.text (s : ImportStatement) : List Char :=
  "use".toList ++ (s.gap.text ++ (s.clause.text ++ [';']))

/-- A line that starts with no statement. -/
structure OtherLine where
  /-- The line. -/
  text : List Char
  /-- It is one. -/
  newline_not_mem : '\n' ∉ text
  /-- It does not start with the word of a statement alone. -/
  not_use : ∀ s, text = "use".toList ++ s → ∃ c ∈ s.head?, isBlank c = false

/-- A line that starts with another character. -/
def OtherLine.cons (c : Char) (s : List Char) (hc : c ≠ 'u') (h : '\n' ∉ c :: s) : OtherLine where
  text := c :: s
  newline_not_mem := h
  not_use := fun _ ht => absurd (List.cons.inj ht).1 hc

/-- A line that is set in, whatever stands on it. -/
def OtherLine.indented (c : Char) (s : List Char) (hc : isBlank c = true)
    (h : '\n' ∉ c :: s) : OtherLine :=
  cons c s (fun heq => absurd (heq ▸ hc) (by decide)) h

/-- What follows a line break, or starts a source. -/
inductive ImportBlock where
  /-- A statement, and what else stands on its last line. -/
  | statement (s : ImportStatement) (rest : List Char) (h : '\n' ∉ rest)
  /-- Another line. -/
  | other (l : OtherLine)

namespace ImportBlock

/-- The lines of a block. -/
def text : ImportBlock → List Char
  | statement s rest _ => s.text ++ rest
  | other l => l.text

/-- The imports of a block. -/
def imports : ImportBlock → List Import
  | statement s _ _ => s.clause.imports
  | other _ => []

end ImportBlock

/-- The source that blocks make. -/
def sourceText (bs : List ImportBlock) : List Char := ['\n'].intercalate (bs.map ImportBlock.text)

/-- The imports of blocks, each as its alias and what that stands for. -/
def importEntries (bs : List ImportBlock) : List (String × String) :=
  bs.flatMap fun b => b.imports.map Import.entry

/-! ## The characters of names -/

theorem isSegmentChar_eq_true_iff :
    isSegmentChar c = true ↔ isBlank c = false ∧ c ≠ '\\' ∧ c ∉ itemMarks := by
  simp [isSegmentChar, and_assoc]

/-- A character of a full name. -/
def IsFullNameChar (c : Char) : Prop := isBlank c = false ∧ c ∉ itemMarks

theorem isFullNameChar_of_isSegmentChar (h : isSegmentChar c = true) : IsFullNameChar c := by
  rw [isSegmentChar_eq_true_iff] at h
  exact ⟨h.1, h.2.2⟩

theorem isFullNameChar_backslash : IsFullNameChar '\\' := ⟨by decide, by decide⟩

theorem Segment.isFullNameChar (g : Segment) : ∀ c ∈ g.text, IsFullNameChar c :=
  fun c hc => isFullNameChar_of_isSegmentChar (g.isSegmentChar c hc)

theorem Segment.backslash_not_mem (g : Segment) : '\\' ∉ g.text :=
  Text.not_mem_of_forall g.isSegmentChar (by decide)

theorem Segment.isTrimmed (g : Segment) : Text.IsTrimmed g.text :=
  Text.isTrimmed_of_forall fun c hc => (g.isFullNameChar c hc).1

theorem Segment.head?_text (g : Segment) : ∀ c ∈ g.text.head?, isBlank c = false :=
  fun c hc => (g.isFullNameChar c (List.mem_of_mem_head? hc)).1

namespace QualifiedName

variable (n p : QualifiedName) (rooted : Bool)

theorem rootedText_false : n.rootedText false = n.text := rfl

theorem rootedText_within :
    (n.within p).rootedText rooted = p.rootedText rooted ++ '\\' :: n.text := by
  cases rooted <;> simp [rootedText, text, within]

theorem isFullNameChar_rootedText : ∀ c ∈ n.rootedText rooted, IsFullNameChar c := by
  have hname : ∀ c ∈ n.text, IsFullNameChar c := by
    refine List.forall_mem_append.mpr ⟨fun c hc => ?_, n.last.isFullNameChar⟩
    obtain ⟨g, -, hc⟩ := List.mem_flatMap.mp hc
    rcases List.mem_append.mp hc with hc | hc
    · exact g.isFullNameChar c hc
    · exact List.mem_singleton.mp hc ▸ isFullNameChar_backslash
  cases rooted with
  | false => exact hname
  | true => exact List.forall_mem_cons.mpr ⟨isFullNameChar_backslash, hname⟩

theorem isBlank_rootedText : ∀ c ∈ n.rootedText rooted, isBlank c = false :=
  fun c hc => (n.isFullNameChar_rootedText rooted c hc).1

theorem isTrimmed_rootedText : Text.IsTrimmed (n.rootedText rooted) :=
  Text.isTrimmed_of_forall (n.isBlank_rootedText rooted)

theorem text_ne_nil : n.text ≠ [] := List.append_ne_nil_of_right_ne_nil _ n.last.ne_nil

theorem rootedText_ne_nil : n.rootedText rooted ≠ [] := by
  cases rooted with
  | false => exact n.text_ne_nil
  | true => exact List.cons_ne_nil _ _

theorem getLast?_rootedText_ne : ∀ c ∈ (n.rootedText rooted).getLast?, c ≠ '\\' := by
  have hname : (n.rootedText rooted).getLast? = n.last.text.getLast? := by
    have htext : n.text.getLast? = n.last.text.getLast? :=
      List.getLast?_append_of_ne_nil _ n.last.ne_nil
    cases rooted with
    | false => exact htext
    | true => exact (List.getLast?_cons_of_ne_nil n.text_ne_nil).trans htext
  rw [hname]
  rintro c hc rfl
  exact n.last.backslash_not_mem (List.mem_of_mem_getLast? hc)

theorem lastPiece_text : Text.lastPiece '\\' n.text = n.last.text := by
  refine Text.lastPiece_append (fun c hc => ?_) n.last.backslash_not_mem
  rcases List.eq_nil_or_concat n.front with hnil | ⟨gs, g, hgs⟩
  · rw [hnil] at hc
    cases hc
  · rw [hgs, List.concat_eq_append, List.flatMap_append, List.flatMap_singleton,
      ← List.append_assoc, List.getLast?_concat] at hc
    exact (Option.some.inj hc).symm

/-- A name starts with a segment, which is all of it or ends in front of a backslash. -/
theorem exists_start : ∃ (g : Segment) (s : List Char), n.text = g.text ++ s ∧
    ((n.front = [] ∧ g = n.last ∧ s = []) ∨ s.head? = some '\\') := by
  cases hfront : n.front with
  | nil => exact ⟨n.last, [], by simp [text, hfront], .inl ⟨rfl, rfl, rfl⟩⟩
  | cons g gs =>
    refine ⟨g, '\\' :: (⟨gs, n.last⟩ : QualifiedName).text, ?_, .inr rfl⟩
    simp [text, hfront]

theorem dropWhile_rootedText : (n.rootedText rooted).dropWhile (· == '\\') = n.text := by
  have hname : n.text.dropWhile (· == '\\') = n.text := by
    obtain ⟨g, s, hn, -⟩ := n.exists_start
    obtain ⟨c, r, hg⟩ := List.exists_cons_of_ne_nil g.ne_nil
    have hc : c ≠ '\\' := by
      rintro rfl
      exact g.backslash_not_mem (hg ▸ List.mem_cons_self)
    rw [hn, hg, List.cons_append, List.dropWhile_cons_of_neg (by simpa using hc)]
  cases rooted with
  | false => exact hname
  | true => rw [rootedText, if_pos rfl, List.dropWhile_cons_of_pos (by decide), hname]

end QualifiedName

/-! ## The names of a statement -/

theorem Gap.not_mem_itemMarks (g : Gap) : ∀ c ∈ g.text, c ∉ itemMarks := by
  have hmarks : itemMarks.any isBlank = false := by decide
  exact fun c hc hmem => List.any_eq_false.mp hmarks c hmem (g.allBlank c hc)

theorem AliasClause.not_mem_itemMarks (a : AliasClause) : ∀ c ∈ a.text, c ∉ itemMarks := by
  have hword : ∀ c ∈ "as".toList, c ∉ itemMarks :=
    List.forall_mem_cons.mpr ⟨by decide, List.forall_mem_singleton.mpr (by decide)⟩
  refine List.forall_mem_append.mpr ⟨a.before.not_mem_itemMarks,
    List.forall_mem_append.mpr ⟨hword,
      List.forall_mem_append.mpr ⟨a.behind.not_mem_itemMarks, ?_⟩⟩⟩
  exact fun c hc => (a.name.isFullNameChar c hc).2

namespace ImportItem

variable (i : ImportItem)

theorem not_mem_itemMarks : ∀ c ∈ i.text, c ∉ itemMarks := by
  have hgiven : ∀ c ∈ i.givenText, c ∉ itemMarks := by
    rw [Import.givenText]
    cases i.given with
    | none => exact List.forall_mem_nil _
    | some a => exact a.not_mem_itemMarks
  have hname : ∀ c ∈ i.name.rootedText i.rooted, c ∉ itemMarks :=
    fun c hc => (i.name.isFullNameChar_rootedText i.rooted c hc).2
  exact List.forall_mem_append.mpr ⟨i.before.not_mem_itemMarks,
    List.forall_mem_append.mpr ⟨List.forall_mem_append.mpr ⟨hname, hgiven⟩,
      i.behind.not_mem_itemMarks⟩⟩

theorem isTrimmed_bare : Text.IsTrimmed i.bare := by
  have hname := i.name.isTrimmed_rootedText i.rooted
  rw [bare, Import.givenText]
  cases i.given with
  | none => rwa [Option.map_none, Option.getD_none, List.append_nil]
  | some a =>
    rw [Option.map_some, Option.getD_some, AliasClause.text, ← List.append_assoc "as".toList,
      ← List.append_assoc a.before.text, ← List.append_assoc]
    exact hname.append_append (i.name.rootedText_ne_nil _) a.name.isTrimmed a.name.ne_nil

theorem trim_text : Text.trim i.text = i.bare := by
  rw [text, Text.trim_append_left i.before.allBlank, Text.trim_append_right i.behind.allBlank,
    i.isTrimmed_bare.trim_eq]

end ImportItem

namespace ItemList

variable (l : ItemList)

theorem not_mem_itemMarks {p : List Char} (hp : p ∈ l.pieces) : ∀ c ∈ p, c ∉ itemMarks := by
  rcases List.mem_append.mp hp with hp | hp
  · obtain ⟨i, -, rfl⟩ := List.mem_map.mp hp
    exact i.not_mem_itemMarks
  · obtain ⟨g, -, rfl⟩ := List.mem_map.mp hp
    exact g.not_mem_itemMarks

/-- No mark but the comma stands in a list. -/
theorem not_mem_text (hc : c ∈ itemMarks) (hne : c ≠ ',') : c ∉ l.text := by
  intro hmem
  rcases Text.mem_intercalate hmem with h | ⟨p, hp, h⟩
  · exact hne (List.mem_singleton.mp h)
  · exact l.not_mem_itemMarks hp c h hc

theorem splitOn_text : Text.splitOn ',' l.text = l.pieces :=
  Text.splitOn_intercalate (fun _ hp hmem => l.not_mem_itemMarks hp ',' hmem (by decide))
    (List.cons_ne_nil _ _)

/-- What is left of the pieces without the blanks around them: the names, and nothing behind a
comma at the end. -/
theorem map_trim_pieces :
    l.pieces.map Text.trim = l.items.map ImportItem.bare ++ l.trailing.toList.map fun _ => [] := by
  rw [pieces, List.map_append, List.map_map, List.map_map]
  exact congrArg₂ _ (List.map_congr_left fun i _ => i.trim_text)
    (List.map_congr_left fun g _ => Text.trim_eq_nil g.allBlank)

end ItemList

/-! ## The start of a statement -/

/-- The text starts with a name, and with no word that makes an import one of functions or of
constants. -/
inductive StartsName : List Char → Prop
  /-- The name has a backslash in front. -/
  | root (s : List Char) : StartsName ('\\' :: s)
  /-- The name starts with a segment. -/
  | segment (g : Segment) (s : List Char) (hs : ∀ c ∈ s.head?, isSegmentChar c = false)
    (hword : String.ofList g.text ∈ kindWords → ∀ c ∈ s.head?, isBlank c = false) :
    StartsName (g.text ++ s)

theorem StartsName.exists_cons (h : StartsName s) : ∃ c t, s = c :: t ∧ isBlank c = false := by
  cases h with
  | root s => exact ⟨_, _, rfl, by decide⟩
  | segment g s hs hword =>
    obtain ⟨c, r, hg⟩ := List.exists_cons_of_ne_nil g.ne_nil
    exact ⟨c, r ++ s, by rw [hg, List.cons_append], g.head?_text c (by rw [hg]; rfl)⟩

theorem isSegmentChar_of_isBlank (h : isBlank c = true) : isSegmentChar c = false := by
  simp [isSegmentChar, h]

theorem Gap.isSegmentChar_head? (g : Gap) : ∀ c ∈ g.text.head?, isSegmentChar c = false :=
  fun c hc => isSegmentChar_of_isBlank (g.allBlank c (List.mem_of_mem_head? hc))

theorem Import.isSegmentChar_head?_givenText (i : Import) :
    ∀ c ∈ i.givenText.head?, isSegmentChar c = false := by
  rw [givenText]
  cases i.given with
  | none => simp
  | some a =>
    rw [Option.map_some, Option.getD_some, AliasClause.text,
      List.head?_append_of_ne_nil _ a.apart.1]
    exact a.before.isSegmentChar_head?

theorem QualifiedName.startsName {n : QualifiedName} {rooted : Bool}
    (hs : ∀ c ∈ s.head?, isSegmentChar c = false)
    (hword : rooted = false → n.front = [] → String.ofList n.last.text ∈ kindWords →
      ∀ c ∈ s.head?, isBlank c = false) :
    StartsName (n.rootedText rooted ++ s) := by
  cases rooted with
  | true => exact .root _
  | false =>
    obtain ⟨g, r, htext, ⟨hfront, rfl, rfl⟩ | hr⟩ := n.exists_start
    · rw [rootedText_false, htext, List.append_nil]
      exact .segment n.last s hs (hword rfl hfront)
    · obtain ⟨r, rfl⟩ := List.head?_eq_some_iff.mp hr
      rw [rootedText_false, htext, List.append_assoc]
      refine .segment g _ (forall_mem_head?_cons (P := fun c => isSegmentChar c = false) ?_ _)
        fun _ => forall_mem_head?_cons (P := fun c => isBlank c = false) ?_ _
      · decide
      · decide

/-- Behind the blanks in front of it, a list starts with its first name. -/
theorem ItemList.startsName {l : ItemList} (h : l.first.isKindWord = false) :
    ∃ s, l.text = l.first.before.text ++ s ∧ StartsName s := by
  obtain ⟨more, hmore, hcomma⟩ := Text.exists_intercalate_cons ',' l.first.text
    (l.more.map ImportItem.text ++ l.trailing.toList.map Gap.text)
  have hhead : ∀ c ∈ more.head?, isSegmentChar c = false := by
    intro c hc
    rw [hcomma c hc]
    decide
  refine ⟨l.first.name.rootedText l.first.rooted ++
    (l.first.givenText ++ (l.first.behind.text ++ more)), ?_, QualifiedName.startsName ?_ ?_⟩
  · refine hmore.trans ?_
    simp only [ImportItem.text, ImportItem.bare, List.append_assoc]
  · exact Text.forall_mem_head?_append l.first.isSegmentChar_head?_givenText
      (Text.forall_mem_head?_append l.first.behind.isSegmentChar_head? hhead)
  · intro hrooted hfront hmem
    simp [ImportItem.isKindWord, hrooted, hfront, hmem] at h

theorem ImportClause.startsName (k : ImportClause) :
    ∃ a s, AllBlank a ∧ k.text = a ++ s ∧ StartsName s := by
  cases k with
  | list l first_ne =>
    obtain ⟨s, htext, hs⟩ := ItemList.startsName first_ne
    exact ⟨_, s, l.first.before.allBlank, htext, hs⟩
  | group rooted n inner l back unrooted =>
    refine ⟨[], _, Text.allBlank_nil, rfl, QualifiedName.startsName ?_ fun _ _ _ => ?_⟩
    · exact forall_mem_head?_cons (P := fun c => isSegmentChar c = false) (by decide) _
    · exact forall_mem_head?_cons (P := fun c => isBlank c = false) (by decide) _

theorem ImportClause.semicolon_not_mem (k : ImportClause) : ';' ∉ k.text := by
  cases k with
  | list l first_ne => exact l.not_mem_text (by decide) (by decide)
  | group rooted n inner l back unrooted =>
    simp only [text, List.mem_append, List.mem_cons]
    rintro (h | h | h | h | h | h | h)
    · exact (n.isFullNameChar_rootedText rooted _ h).2 (by decide)
    · exact absurd h (by decide)
    · exact inner.not_mem_itemMarks _ h (by decide)
    · exact absurd h (by decide)
    · exact l.not_mem_text (by decide) (by decide) h
    · exact absurd h (by decide)
    · exact back.not_mem_itemMarks _ h (by decide)

end PayloadTypes.Source
