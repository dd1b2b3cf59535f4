import PayloadTypes.Proofs.Data.OrderedMap
import PayloadTypes.Proofs.Source.ImportSpec
import PayloadTypes.Proofs.Text.Matches
import PayloadTypes.Proofs.Text.Search
/-!
# Reading written imports

However imports are written, they are read again in order, as long as no alias is
given twice; then each alias stands for what it was given to, in every namespace
(`entries_importsOf_sourceText`).

A statement is read up to its semicolon (`ImportStatement.importLine_append`), the
names in it are cut at the commas, and a name is cut from its alias at the first
blank in it (`Import.importEntry_text`). Lines that start otherwise are gone over
(`ImportBlock.readEntries_append`).
-/

namespace PayloadTypes.Source

open Text (AllBlank isBlank)
open Text.Reader

variable {s t u : List Char} {c : Char}

/-! ## Reading a name -/

theorem aliasWord_eq_none (hs : ∀ c ∈ s.head?, isBlank c = false) : aliasWord s = none := by
  have hblank : blanks1 s = none := by
    cases s with
    | nil => rfl
    | cons c s => rw [blanks1, bind_eq_none (many1_eq_none (hs c rfl))]
  rw [aliasWord, bind_eq_none hblank]

/-- No word in front of an alias starts at a character that is not blank. -/
theorem aliasWord_append_eq_none (hs : ∀ c ∈ s, isBlank c = false) (hne : s ≠ []) :
    aliasWord (s ++ t) = none := by
  refine aliasWord_eq_none fun c hc => hs c (List.mem_of_mem_head? ?_)
  rwa [List.head?_append_of_ne_nil _ hne] at hc

theorem AliasClause.aliasWord_text (a : AliasClause) :
    aliasWord a.text = some ((), a.name.text) := by
  have hword : ∀ c ∈ ("as".toList ++ (a.behind.text ++ a.name.text)).head?, isBlank c = false :=
    forall_mem_head?_cons (P := fun c => isBlank c = false) (by decide) _
  rw [aliasWord, text, bind_eq (blanks1_append a.apart.1 a.before.allBlank hword),
    bind_eq (text_append rfl _)]
  exact blanks1_append a.apart.2 a.behind.allBlank a.name.head?_text

namespace Import

variable (i : Import)

/-- The alias is found behind a name without blanks. -/
theorem find?_aliasWord (hs : ∀ c ∈ s, isBlank c = false) :
    find? (anywhere aliasWord) (s ++ i.givenText) =
      i.given.map fun a => ⟨s, (), a.name.text⟩ := by
  rw [givenText]
  cases i.given with
  | none =>
    refine findFrom?_eq_none (fun prev u v huv => ?_) none
    rw [Option.map_none, Option.getD_none, List.append_nil] at huv
    refine aliasWord_eq_none fun c hc => hs c ?_
    exact huv ▸ List.mem_append_right u (List.mem_of_mem_head? hc)
  | some a =>
    have hne : a.text ≠ [] := List.append_ne_nil_of_left_ne_nil a.apart.1 _
    -- the blank that ends the name is the first place where the word can stand
    have hskip : ∀ u v, s = u ++ v → v ≠ [] →
        anywhere aliasWord (u.getLast?.or none) (v ++ a.text) = none := by
      rintro u v rfl hv
      exact aliasWord_append_eq_none (fun c hc => hs c (List.mem_append_right u hc)) hv
    rw [Option.map_some, Option.getD_some, find?, findFrom?_append hskip, findFrom?_anywhere,
      find?_of_start hne a.aliasWord_text]
    simp [Found.behind]

theorem getLast?_ne (rooted : Bool) :
    ∀ c ∈ (i.name.rootedText rooted ++ i.givenText).getLast?, c ≠ '\\' := by
  rw [givenText]
  cases i.given with
  | none => simpa using i.name.getLast?_rootedText_ne rooted
  | some a =>
    rw [Option.map_some, Option.getD_some, AliasClause.text, ← List.append_assoc "as".toList,
      ← List.append_assoc a.before.text, ← List.append_assoc,
      List.getLast?_append_of_ne_nil _ a.name.ne_nil]
    rintro c hc rfl
    exact a.name.backslash_not_mem (List.mem_of_mem_getLast? hc)

/-- **A name is read** with the alias that it is given, or else under its last segment. -/
theorem importEntry_text (rooted : Bool) :
    importEntry? (i.name.rootedText rooted ++ i.givenText) = some i.entry := by
  -- The last character of a name is no backslash, with an alias or without.
  have hend : ¬ ((i.name.rootedText rooted ++ i.givenText).isEmpty ||
      Text.endsWith ['\\'] (i.name.rootedText rooted ++ i.givenText)) = true := by
    rw [Bool.or_eq_true, List.isEmpty_iff, Text.endsWith_iff, not_or]
    refine ⟨List.append_ne_nil_of_left_ne_nil (i.name.rootedText_ne_nil rooted) _, ?_⟩
    rintro ⟨t, ht⟩
    refine i.getLast?_ne rooted '\\' ?_ rfl
    rw [← ht, Option.mem_def, List.getLast?_concat]
  have htrim := (i.name.isTrimmed_rootedText rooted).trim_eq
  unfold importEntry?
  rw [if_neg hend, i.find?_aliasWord (i.name.isBlank_rootedText rooted), entry, localName]
  cases hgiven : i.given with
  | none =>
    have hnone : i.givenText = [] := by rw [givenText, hgiven, Option.map_none, Option.getD_none]
    simp only [Option.map_none, Option.getD_none, hnone, List.append_nil, htrim,
      i.name.dropWhile_rootedText, i.name.lastPiece_text, List.isEmpty_nil, if_true]
  | some a =>
    have hempty : ¬ a.name.text.isEmpty = true := by simpa using a.name.ne_nil
    simp only [Option.map_some, Option.getD_some, a.name.isTrimmed.trim_eq, htrim,
      i.name.dropWhile_rootedText, if_neg hempty]

end Import

theorem importEntry_eq_none (h : s = [] ∨ s.getLast? = some '\\') : importEntry? s = none := by
  refine if_pos ?_
  rw [Bool.or_eq_true, List.isEmpty_iff, Text.endsWith_iff]
  refine h.imp_right fun h => ?_
  obtain ⟨t, rfl⟩ := List.getLast?_eq_some_iff.mp h
  exact ⟨t, rfl⟩

/-! ## Reading the names of a statement -/

/-- Names that are put together with what is left of the pieces are read one by one. -/
theorem ItemList.filterMap_importEntry (l : ItemList) {f : List Char → List Char}
    {g : ImportItem → String × String} (hnil : importEntry? (f []) = none)
    (hf : ∀ i ∈ l.items, importEntry? (f i.bare) = some (g i)) :
    ((l.pieces.map Text.trim).map f).filterMap importEntry? = l.items.map g := by
  have hitems : (l.items.map (f ∘ ImportItem.bare)).filterMap importEntry? = l.items.map g := by
    rw [List.filterMap_map, ← List.filterMap_eq_map]
    exact List.filterMap_congr hf
  have htrailing : (l.trailing.toList.map (f ∘ fun _ => [])).filterMap importEntry? = [] := by
    refine List.filterMap_eq_nil_iff.mpr fun s hs => ?_
    obtain ⟨-, -, rfl⟩ := List.mem_map.mp hs
    exact hnil
  rw [map_trim_pieces, List.map_append, List.map_map, List.map_map, List.filterMap_append, hitems,
    htrailing, List.append_nil]

/-- The names of a list are what stands between its commas. -/
theorem importNames_list (l : ItemList) :
    importNames (Text.trim l.text) = l.pieces.map Text.trim := by
  have hcut : Text.cut? '\x7b' (Text.trim l.text) = none :=
    Text.cut?_eq_none fun h => l.not_mem_text (by decide) (by decide) (Text.mem_of_mem_trim h)
  rw [importNames, hcut]
  have hcomma : isBlank ',' = false := by decide
  simp only [Text.map_trim_splitOn_trim hcomma, l.splitOn_text]

/-- The common front of a group is what stands in front of the brace, without its last
backslash. -/
theorem QualifiedName.dropEndWhile_trim (n : QualifiedName) (rooted : Bool) (inner : Gap) :
    Text.dropEndWhile (· == '\\') (Text.trim (n.rootedText rooted ++ '\\' :: inner.text)) =
      n.rootedText rooted := by
  have hall : ∀ c ∈ n.rootedText rooted ++ ['\\'], isBlank c = false :=
    List.forall_mem_append.mpr
      ⟨n.isBlank_rootedText rooted, List.forall_mem_singleton.mpr (by decide)⟩
  rw [← List.singleton_append, ← List.append_assoc, Text.trim_append_right inner.allBlank,
    (Text.isTrimmed_of_forall hall).trim_eq]
  exact Text.dropEndWhile_concat rfl fun c hc =>
    beq_eq_false_iff_ne.mpr (n.getLast?_rootedText_ne rooted c hc)

theorem ItemList.dropEndWhile_text (l : ItemList) :
    Text.dropEndWhile (· == '\x7d') (l.text ++ ['\x7d']) = l.text := by
  refine Text.dropEndWhile_concat rfl fun c hc => ?_
  refine beq_eq_false_iff_ne.mpr ?_
  rintro rfl
  exact l.not_mem_text (by decide) (by decide) (List.mem_of_mem_getLast? hc)

/-- The names of a group are what stands between its commas, behind the common front. -/
theorem importNames_group (rooted : Bool) (n : QualifiedName) (inner : Gap) (l : ItemList)
    (back : Gap) :
    importNames (Text.trim (n.rootedText rooted ++
      '\\' :: (inner.text ++ '\x7b' :: (l.text ++ '\x7d' :: back.text)))) =
    (l.pieces.map Text.trim).map fun s => n.rootedText rooted ++ '\\' :: s := by
  -- Blanks behind the closing brace go, those inside the braces stay for the items.
  have htrim : Text.trim (n.rootedText rooted ++
      '\\' :: (inner.text ++ '\x7b' :: (l.text ++ '\x7d' :: back.text))) =
      (n.rootedText rooted ++ '\\' :: inner.text) ++ '\x7b' :: (l.text ++ ['\x7d']) := by
    have hbrace : Text.IsTrimmed ['\x7d'] :=
      Text.isTrimmed_of_forall (List.forall_mem_singleton.mpr (by decide))
    have htrimmed := (n.isTrimmed_rootedText rooted).append_append
      (w := '\\' :: (inner.text ++ '\x7b' :: l.text)) (n.rootedText_ne_nil rooted) hbrace
      (List.cons_ne_nil _ _)
    have htext : n.rootedText rooted ++
        '\\' :: (inner.text ++ '\x7b' :: (l.text ++ '\x7d' :: back.text)) =
        n.rootedText rooted ++ ('\\' :: (inner.text ++ '\x7b' :: l.text)) ++ ['\x7d'] ++
          back.text := by simp
    rw [htext, Text.trim_append_right back.allBlank, htrimmed.trim_eq]
    simp
  have hcut : '\x7b' ∉ n.rootedText rooted ++ '\\' :: inner.text := by
    refine List.not_mem_append (fun h => ?_) (List.not_mem_cons_of_ne_of_not_mem (by decide) ?_)
    · exact (n.isFullNameChar_rootedText rooted _ h).2 (by decide)
    · exact fun h => inner.not_mem_itemMarks _ h (by decide)
  -- The common front is cut off at the first brace.
  rw [importNames, htrim, Text.cut?_append hcut]
  simp only [n.dropEndWhile_trim, l.dropEndWhile_text, l.splitOn_text, List.map_map]
  rfl

/-- **The imports of a statement** are read off what stands between its words, in order. -/
theorem ImportClause.filterMap_importEntry (k : ImportClause) :
    (importNames (Text.trim k.text)).filterMap importEntry? = k.imports.map Import.entry := by
  cases k with
  | list l first_ne =>
    have hread := l.filterMap_importEntry (f := id) (importEntry_eq_none (.inl rfl))
      fun i _ => i.importEntry_text i.rooted
    rw [text, importNames_list, imports, List.map_map]
    rwa [List.map_id] at hread
  | group rooted n inner l back unrooted =>
    have hend : (n.rootedText rooted ++ ['\\']).getLast? = some '\\' := List.getLast?_concat
    have hitem : ∀ i ∈ l.items, importEntry? (n.rootedText rooted ++ '\\' :: i.bare) =
        some (i.within n).entry := by
      intro i hi
      have hread := (i.within n).importEntry_text rooted
      rw [ImportItem.bare, unrooted i hi, QualifiedName.rootedText_false]
      rwa [Import.within, QualifiedName.rootedText_within, List.append_assoc,
        List.cons_append] at hread
    have hread := l.filterMap_importEntry (f := fun s => n.rootedText rooted ++ '\\' :: s)
      (importEntry_eq_none (.inr hend)) hitem
    rw [text, importNames_group, imports, hread, List.map_map]
    rfl

/-! ## Reading a statement -/

theorem isSegmentChar_of_mem_kindWords {k : String} (hk : k ∈ kindWords) :
    k.toList ≠ [] ∧ ∀ c ∈ k.toList, isSegmentChar c = true := by
  have hall : (kindWords.all fun k => !k.toList.isEmpty && k.toList.all isSegmentChar) = true := by
    decide
  simpa using List.all_eq_true.mp hall k hk

/-- No word that makes an import one of another kind stands alone in front. -/
theorem StartsName.isBlank_eq_false (h : StartsName s) {k : String} (hk : k ∈ kindWords)
    (heq : s ++ ';' :: t = k.toList ++ c :: u) : isBlank c = false := by
  rw [← Bool.not_eq_true]
  intro hc
  have hblank : ∀ d ∈ (c :: u).head?, isSegmentChar d = false :=
    forall_mem_head?_cons (P := fun d => isSegmentChar d = false) (by simp [isSegmentChar, hc]) u
  obtain ⟨hne, hword⟩ := isSegmentChar_of_mem_kindWords hk
  -- the word is the longest run of characters of segments in front
  have hrun := congrArg (List.takeWhile isSegmentChar) heq
  rw [Text.takeWhile_append hword hblank] at hrun
  cases h with
  | root r =>
    rw [List.cons_append, List.takeWhile_cons_of_neg (by decide)] at hrun
    exact hne hrun.symm
  | segment g r hs hkind =>
    have hrest : ∀ d ∈ (r ++ ';' :: t).head?, isSegmentChar d = false := by
      cases r with
      | nil => exact forall_mem_head?_cons (P := fun d => isSegmentChar d = false) (by decide) t
      | cons e r => exact hs
    rw [List.append_assoc, Text.takeWhile_append g.isSegmentChar hrest] at hrun
    rw [List.append_assoc, hrun, List.append_cancel_left_eq] at heq
    have hmem : String.ofList g.text ∈ kindWords := by rwa [hrun, String.ofList_toList]
    cases r with
    | nil =>
      rw [← (List.cons.inj heq).1] at hc
      exact absurd hc (by decide)
    | cons e r =>
      rw [← (List.cons.inj heq).1, hkind hmem e rfl] at hc
      cases hc

/-- A clause is read up to the semicolon. -/
theorem StartsName.importClause_append (h : StartsName s) (hs : ';' ∉ s) (t : List Char) :
    importClause (s ++ ';' :: t) = some (s, t) := by
  have hne : s ≠ [] := by
    obtain ⟨c, r, rfl, -⟩ := h.exists_cons
    exact List.cons_ne_nil c r
  have hall : ∀ c ∈ s, (c != ';') = true := by
    intro c hc
    refine bne_iff_ne.mpr ?_
    rintro rfl
    exact hs hc
  have hend : ∀ c ∈ (';' :: t).head?, (c != ';') = false :=
    forall_mem_head?_cons (P := fun c => (c != ';') = false) rfl t
  -- No name starts with one of these words and a blank.
  have hword : ∀ k ∈ kindWords, ∀ c u, Text.after? k.toList (s ++ ';' :: t) = some (c :: u) →
      ¬ isBlank c = true :=
    fun k hk c u hafter => Bool.eq_false_iff.mp (h.isBlank_eq_false hk (Text.after?_eq_some hafter))
  refine (if_neg fun hstarts => ?_).trans ?_
  · rcases (Bool.or_eq_true _ _).mp hstarts with hstarts | hstarts
    · dsimp only at hstarts
      split at hstarts
      · next c u hafter => exact hword "function" (by decide) c u hafter hstarts
      · cases hstarts
    · dsimp only at hstarts
      split at hstarts
      · next c u hafter => exact hword "const" (by decide) c u hafter hstarts
      · cases hstarts
  · rw [bind_eq (many1_append hne hall hend), bind_eq (char_cons ';' t)]
    rfl

/-- **A statement is read up to its semicolon**, whatever follows. -/
theorem ImportStatement.importLine_append (x : ImportStatement) (t : List Char) :
    ∃ s, importLine (x.text ++ t) = some (s, t) ∧ Text.trim s = Text.trim x.clause.text := by
  obtain ⟨a, s, ha, htext, hs⟩ := x.clause.startsName
  have hsemicolon : ';' ∉ s := fun h =>
    x.clause.semicolon_not_mem (htext ▸ List.mem_append_right a h)
  have hhead : ∀ c ∈ (s ++ ';' :: t).head?, isBlank c = false := by
    obtain ⟨c, r, rfl, hc⟩ := hs.exists_cons
    exact forall_mem_head?_cons (P := fun c => isBlank c = false) hc _
  have hgap : AllBlank (x.gap.text ++ a) := List.forall_mem_append.mpr ⟨x.gap.allBlank, ha⟩
  refine ⟨s, ?_, by rw [htext, Text.trim_append_left ha]⟩
  have hsplit : x.text ++ t = "use".toList ++ ((x.gap.text ++ a) ++ (s ++ ';' :: t)) := by
    simp [text, htext]
  rw [hsplit, importLine, bind_eq (text_append rfl _)]
  exact blanksThen_append (List.append_ne_nil_of_left_ne_nil x.apart _) hgap hhead
    (hs.importClause_append hsemicolon t)

/-! ## Reading a source -/

theorem importLine_newline (t : List Char) : importLine ('\n' :: t) = none :=
  bind_eq_none (text_eq_none (d := 'u') rfl (by decide) t)

/-- No statement starts with another line. -/
theorem OtherLine.importLine_eq_none (l : OtherLine) (ht : ∀ c ∈ t.head?, c = '\n') :
    importLine (l.text ++ t) = none := by
  rw [importLine]
  cases hread : Text.Reader.text "use" (l.text ++ t) with
  | none => exact bind_eq_none hread
  | some x =>
    obtain ⟨⟨⟩, r⟩ := x
    rw [bind_eq hread]
    -- the word ends in the line, or the line with the word, or the word behind the line
    obtain ⟨a, huse, ha⟩ | ⟨a, htext, hr⟩ :=
      List.append_eq_append_iff.mp (eq_append_of_text hread)
    · cases a with
      | nil =>
        rw [List.append_nil] at huse
        obtain ⟨c, hc, -⟩ := l.not_use [] (by rw [← huse, List.append_nil])
        cases hc
      | cons d a =>
        obtain rfl : d = '\n' := ht d (by rw [ha]; rfl)
        exact absurd (huse ▸ List.mem_append_right l.text List.mem_cons_self) (by decide)
    · obtain ⟨c, hc, hblank⟩ := l.not_use a htext
      obtain ⟨b, rfl⟩ := List.head?_eq_some_iff.mp hc
      rw [hr]
      exact blanksThen_eq_none (forall_mem_head?_cons (P := fun c => isBlank c = false) hblank _)

/-- What is read off a text with `seen` in front of it, last to first. -/
def readEntries (seen s : List Char) : List (String × String) :=
  (findEachFrom (lineStart importLine) seen 0 s).flatMap fun f =>
    (importNames (Text.trim f.value)).filterMap importEntry?

theorem importsOf_eq (source : List Char) :
    importsOf source = OrderedMap.ofList (readEntries [] source) := by
  rw [importsOf, findAll, List.flatMap_map]
  rfl

/-- **A block is read** where a line starts, and reading goes on behind it within the line. -/
theorem ImportBlock.readEntries_append (b : ImportBlock) {seen : List Char}
    (hseen : ∀ c ∈ seen.head?, c = '\n') (ht : ∀ c ∈ t.head?, c = '\n') :
    ∃ seen', readEntries seen (b.text ++ t) =
      b.imports.map Import.entry ++ readEntries seen' t := by
  cases b with
  | statement x rest hrest =>
    obtain ⟨s, hread, htrim⟩ := x.importLine_append (rest ++ t)
    have hne : x.text ≠ [] := List.cons_ne_nil _ _
    have hlast : ∃ c ∈ (x.text.reverse ++ seen).head?, c ≠ '\n' :=
      ⟨';', by simp [ImportStatement.text], by decide⟩
    -- Behind the statement the line is not over, so nothing is read up to its end.
    refine ⟨rest.reverse ++ (x.text.reverse ++ seen), ?_⟩
    rw [text, List.append_assoc, readEntries,
      findEachFrom_of_eq_some hne (lineStart_eq_some_iff.mpr ⟨hseen, hread⟩),
      findEachFrom_lineStart_append hrest hlast, List.flatMap_cons, htrim,
      x.clause.filterMap_importEntry]
    rfl
  | other l =>
    -- A line that is no statement is passed over from its first character on.
    have hread := l.importLine_eq_none ht
    have hline := l.newline_not_mem
    change ∃ seen', readEntries seen (l.text ++ t) = readEntries seen' t
    cases htext : l.text with
    | nil => exact ⟨seen, rfl⟩
    | cons c s =>
      rw [htext, List.cons_append] at hread
      rw [htext, List.mem_cons, not_or] at hline
      have hlast : ∃ d ∈ (c :: seen).head?, d ≠ '\n' := ⟨c, rfl, Ne.symm hline.1⟩
      refine ⟨s.reverse ++ c :: seen, ?_⟩
      rw [readEntries, List.cons_append, findEachFrom_of_eq_none (lineStart_eq_none_of hread _),
        findEachFrom_lineStart_append hline.2 hlast]
      rfl

theorem readEntries_newline (seen t : List Char) :
    readEntries seen ('\n' :: t) = readEntries ('\n' :: seen) t := by
  rw [readEntries, findEachFrom_of_eq_none (lineStart_eq_none_of (importLine_newline t) _)]
  rfl

/-- **The blocks of a source are read one by one.** -/
theorem readEntries_sourceText (bs : List ImportBlock) {seen : List Char}
    (hseen : ∀ c ∈ seen.head?, c = '\n') :
    readEntries seen (sourceText bs) = importEntries bs := by
  induction bs generalizing seen with
  | nil => rfl
  | cons b bs ih =>
    rw [importEntries, List.flatMap_cons]
    cases bs with
    | nil =>
      obtain ⟨seen', hread⟩ := b.readEntries_append (t := []) hseen (by simp)
      rw [List.append_nil] at hread
      rw [sourceText, List.map_singleton, List.intercalate_singleton, hread]
      rfl
    | cons b' bs =>
      obtain ⟨seen', hread⟩ := b.readEntries_append (t := '\n' :: sourceText (b' :: bs)) hseen
        (forall_mem_head?_cons (P := (· = '\n')) rfl _)
      have hsource : sourceText (b :: b' :: bs) = b.text ++ '\n' :: sourceText (b' :: bs) := by
        simp [sourceText, List.intercalate_cons_cons]
      rw [hsource, hread, readEntries_newline,
        ih (forall_mem_head?_cons (P := (· = '\n')) rfl _)]
      rfl

/-- An alias stands for what it is imported for. -/
theorem Import.resolve_entry (i : Import) {sc : Scope}
    (h : sc.imports.get? i.entry.1 = some i.entry.2) : sc.resolve i.entry.1 = i.entry.2 := by
  obtain ⟨c, s, hname⟩ := List.exists_cons_of_ne_nil i.localName.ne_nil
  have htrim : Text.trim i.entry.1.toList = c :: s := by
    rw [entry, String.toList_ofList, i.localName.isTrimmed.trim_eq, hname]
  have hslash : '\\' ∉ c :: s := hname ▸ i.localName.backslash_not_mem
  have hcut := Text.cut?_eq_none hslash
  have hc : c ≠ '\\' := fun h => hslash (h ▸ List.mem_cons_self)
  have hhead : i.entry.1 = String.ofList (c :: s) := by rw [← hname, entry]
  rw [Scope.resolve, htrim]
  split
  · next rest heq => exact absurd (List.cons.inj heq).1 hc
  · simp only [hcut, ← hhead, h]
    simp

/-- **Imports are read as they are written**, and in order, however the statements are written and
whatever stands on the other lines, as long as no alias is given twice. Each alias then stands for
what it was given to, whatever the namespace is, and even if the alias is a keyword. -/
theorem entries_importsOf_sourceText (bs : List ImportBlock)
    (h : ((importEntries bs).map Prod.fst).Nodup) :
    (importsOf (sourceText bs)).entries = importEntries bs ∧
      ∀ (namespaceName : String), ∀ e ∈ importEntries bs,
        (⟨namespaceName, importsOf (sourceText bs)⟩ : Scope).resolve e.1 = e.2 := by
  have hentries : (importsOf (sourceText bs)).entries = importEntries bs := by
    rw [importsOf_eq, readEntries_sourceText bs (by simp), OrderedMap.entries_ofList h]
  refine ⟨hentries, fun namespaceName e he => ?_⟩
  obtain ⟨b, -, he'⟩ := List.mem_flatMap.mp he
  obtain ⟨i, -, rfl⟩ := List.mem_map.mp he'
  exact i.resolve_entry (OrderedMap.get?_eq_some_iff.mpr (hentries ▸ he))

/-- The name of segments that are texts. -/
def QualifiedName.ofStrings (front : List String) (last : String)
    (h : (last :: front).all fun s => !s.toList.isEmpty && s.toList.all isSegmentChar) :
    QualifiedName :=
  have hall : ∀ s ∈ last :: front, s.toList ≠ [] ∧ ∀ c ∈ s.toList, isSegmentChar c = true := by
    simpa using h
  { front := front.pmap (fun s hs => ⟨s.toList, hs.1, hs.2⟩)
      fun s hs => hall s (List.mem_cons_of_mem _ hs)
    last := ⟨last.toList, (hall last List.mem_cons_self).1, (hall last List.mem_cons_self).2⟩ }

/-- No blanks. -/
def Gap.empty : Gap := ⟨[], Text.allBlank_nil⟩

/-- A blank. -/
def Gap.space : Gap := ⟨[' '], Text.allBlank_space⟩

/-- A line break. -/
def Gap.newline : Gap := ⟨['\n'], Text.allBlank_newline⟩

/-- A line break and a blank that sets the next line in. -/
def Gap.indent : Gap :=
  ⟨['\n'] ++ [' '], List.forall_mem_append.mpr ⟨Text.allBlank_newline, Text.allBlank_space⟩⟩

/-- A source with statements of every form: a name alone, a name from the root under a keyword, a
list, and a group on lines of its own with a comma at the end. A line that is set in follows. -/
def mixedBlocks : List ImportBlock :=
  let plain (before : Gap) (n : QualifiedName) : ImportItem := ⟨⟨n, none⟩, before, false, .empty⟩
  let aliased (before : Gap) (rooted : Bool) (n m : QualifiedName) : ImportItem :=
    ⟨⟨n, some ⟨.space, .space, m.last, by decide⟩⟩, before, rooted, .empty⟩
  let user := QualifiedName.ofStrings ["App", "Models"] "User" (by decide)
  let kind := QualifiedName.ofStrings ["App"] "Kind" (by decide)
  [.other (.cons '<' "?php".toList (by decide) (by decide)),
    .statement ⟨.space, by decide, .list ⟨plain .empty user, [], none⟩ (by decide)⟩ [] (by decide),
    .statement ⟨.space, by decide,
      .list ⟨aliased .empty true kind (.ofStrings [] "string" (by decide)), [], none⟩ (by decide)⟩
      " // a keyword".toList (by decide),
    .statement ⟨.space, by decide,
      .list ⟨plain .empty (.ofStrings ["Carbon"] "Carbon" (by decide)),
        [aliased .space false kind (.ofStrings [] "Tag" (by decide))], none⟩ (by decide)⟩
      [] (by decide),
    .statement ⟨.space, by decide, .group false (.ofStrings [] "App" (by decide)) .empty
      ⟨plain .indent (.ofStrings [] "Post" (by decide)),
        [aliased .indent false (.ofStrings ["Http"] "Request" (by decide))
          (.ofStrings [] "Input" (by decide))], some .newline⟩
      .empty (by decide)⟩ [] (by decide),
    .other (.indented ' ' "   use Helpers;".toList (by decide) (by decide))]

/-- The imports of that source are read again. -/
theorem entries_importsOf_sourceText_mixed :
    let entries := [("User", "App\\Models\\User"), ("string", "App\\Kind"),
      ("Carbon", "Carbon\\Carbon"), ("Tag", "App\\Kind"), ("Post", "App\\Post"),
      ("Input", "App\\Http\\Request")]
    (mixedBlocks.map fun b => String.ofList b.text) = ["<?php", "use App\\Models\\User;",
      "use \\App\\Kind as string; // a keyword", "use Carbon\\Carbon, App\\Kind as Tag;",
      "use App\\\x7b\n Post,\n Http\\Request as Input,\n\x7d;", "    use Helpers;"] ∧
    ((importEntries mixedBlocks).map Prod.fst).Nodup ∧
    (importsOf (sourceText mixedBlocks)).entries = entries ∧
    (⟨"App\\Http", importsOf (sourceText mixedBlocks)⟩ : Scope).resolve "string" = "App\\Kind" := by
  intro entries
  have hentries : importEntries mixedBlocks = entries := rfl
  have hnodup : ((importEntries mixedBlocks).map Prod.fst).Nodup := by
    rw [hentries]
    decide
  have hread := entries_importsOf_sourceText mixedBlocks hnodup
  refine ⟨rfl, hnodup, hread.1.trans hentries, hread.2 "App\\Http" ("string", "App\\Kind") ?_⟩
  rw [hentries]
  exact List.mem_cons_of_mem _ List.mem_cons_self

end PayloadTypes.Source
