import PayloadTypes.Generation.Output
import PayloadTypes.Proofs.Files.TextFiles
/-!
# Drift of generated files

A file is written with the line ends of its text and read with one line break
for each. What was written is therefore read again just when the text holds no
carriage return: then the file is up to date and is not written again
(`upToDate_of_writeOutput`). A text with a carriage return is never held by a
file, so that it is written on every run and found out of date after each.
-/

namespace PayloadTypes

open Files (Change FileError FileTree Path unifyLineEnds carriageReturn_not_mem_unifyLineEnds
  unifyLineEnds_eq_self_iff exists_of_readText exists_withFile_of_writeText)

variable {t t' : FileTree} {path : Path} {text : String} {written : Bool}

/-- A file is up to date where its text with its line ends unified is the one that is wanted. -/
theorem upToDate_of_find {held : String} (h : t.find path = .ok (.file held.toUTF8)) :
    upToDate t path text = .ok (String.ofList (unifyLineEnds held.toList) == text) := by
  have hfile : t.isFile path = .ok true := by
    rw [FileTree.isFile, FileTree.find?, h]
    rfl
  rw [upToDate, hfile, Files.readText_of_find h]
  rfl

/-- **No file is up to date with a carriage return.** -/
theorem carriageReturn_not_mem_of_upToDate (h : upToDate t path text = .ok true) :
    '\r' ∉ text.toList := by
  rw [upToDate] at h
  cases hfile : t.isFile path with
  | error e => rw [hfile] at h; cases h
  | ok isFile =>
    cases isFile with
    | false => rw [hfile] at h; cases h
    | true =>
      cases hheld : t.readText path with
      | error e => rw [hfile, hheld] at h; cases h
      | ok held =>
        rw [hfile, hheld] at h
        have heq : held = text := beq_iff_eq.mp (Except.ok.inj h)
        obtain ⟨s, hs⟩ := exists_of_readText hheld
        rw [← heq, hs, String.toList_ofList]
        exact carriageReturn_not_mem_unifyLineEnds s

/-- **An output is written just where it is not up to date.** -/
theorem writeOutput_eq_ok_iff : (writeOutput path text).apply t = (.ok written, t') ↔
    upToDate t path text = .ok true ∧ written = false ∧ t' = t ∨
      upToDate t path text = .ok false ∧ written = true ∧
        (Files.writeText path text).apply t = (.ok (), t') := by
  rw [writeOutput, Change.apply_bind_eq_ok]
  constructor
  · rintro ⟨current, t₁, hask, h⟩
    obtain ⟨hcurrent, rfl⟩ := Prod.mk.inj hask
    cases current with
    | true =>
      cases h
      exact .inl ⟨hcurrent, rfl, rfl⟩
    | false =>
      obtain ⟨⟨⟩, t₂, hwrite, h⟩ := Change.apply_bind_eq_ok.mp h
      cases h
      exact .inr ⟨hcurrent, rfl, hwrite⟩
  · rintro (⟨hcurrent, rfl, rfl⟩ | ⟨hcurrent, rfl, hwrite⟩)
    · exact ⟨true, t', Prod.ext hcurrent rfl, rfl⟩
    · exact ⟨false, t, Prod.ext hcurrent rfl, Change.apply_bind_eq_ok.mpr ⟨(), t', hwrite, rfl⟩⟩

/-- **What was written is up to date and is not written again** just where its text holds no
carriage return. -/
theorem upToDate_of_writeOutput (h : (writeOutput path text).apply t = (.ok written, t')) :
    upToDate t' path text = .ok (decide ('\r' ∉ text.toList)) ∧
      ((writeOutput path text).apply t' = (.ok false, t') ↔ '\r' ∉ text.toList) := by
  have hcurrent : upToDate t' path text = .ok (decide ('\r' ∉ text.toList)) := by
    rcases writeOutput_eq_ok_iff.mp h with ⟨hcurrent, -, rfl⟩ | ⟨-, -, hwrite⟩
    · rw [hcurrent, decide_eq_true (carriageReturn_not_mem_of_upToDate hcurrent)]
    · obtain ⟨t₁, hput⟩ := exists_withFile_of_writeText hwrite
      rw [upToDate_of_find (FileTree.find_of_withFile hput)]
      refine congrArg Except.ok (Bool.eq_iff_iff.mpr ?_)
      rw [beq_iff_eq, decide_eq_true_iff, ← unifyLineEnds_eq_self_iff]
      constructor
      · rintro heq
        have := congrArg String.toList heq
        rwa [String.toList_ofList] at this
      · intro heq
        rw [heq, String.ofList_toList]
  refine ⟨hcurrent, ?_⟩
  rw [writeOutput_eq_ok_iff, hcurrent]
  simp

/-- Nothing but the directory one works in. -/
def bareTree : FileTree := ⟨.dir [], []⟩

/-- A file in a directory that is not there yet. -/
def outputPath : Path := ⟨.here, ["types", "api.d.ts"]⟩

/-- The tree in which an output was written. -/
def writtenTree (text : String) : FileTree :=
  ⟨.dir [("types", .dir [("api.d.ts", .file text.toUTF8)])], []⟩

theorem writeOutput_bareTree (text : String) :
    (writeOutput outputPath text).apply bareTree = (.ok true, writtenTree text) := rfl

/-- A choice with a line feed. -/
def lineFeedText : String := "export type Mark = '\n';\n"

theorem upToDate_writtenTree :
    (writeOutput outputPath lineFeedText).apply bareTree = (.ok true, writtenTree lineFeedText) ∧
      upToDate (writtenTree lineFeedText) outputPath lineFeedText =
        .ok (decide ('\r' ∉ lineFeedText.toList)) ∧
      ((writeOutput outputPath lineFeedText).apply (writtenTree lineFeedText) =
        (.ok false, writtenTree lineFeedText) ↔ '\r' ∉ lineFeedText.toList) :=
  ⟨writeOutput_bareTree _, upToDate_of_writeOutput (writeOutput_bareTree _)⟩

/-- A choice with a carriage return. -/
def carriageReturnText : String := "export type Mark = '\r';\n"

/-- The file is found out of date right after it was written, and is written again. -/
theorem not_upToDate_writtenTree :
    (writeOutput outputPath carriageReturnText).apply bareTree =
        (.ok true, writtenTree carriageReturnText) ∧
      upToDate (writtenTree carriageReturnText) outputPath carriageReturnText ≠ .ok true ∧
      ∀ t', (writeOutput outputPath carriageReturnText).apply (writtenTree carriageReturnText) ≠
        (.ok false, t') := by
  have hdrift : upToDate (writtenTree carriageReturnText) outputPath carriageReturnText ≠
      .ok true := fun h => absurd (carriageReturn_not_mem_of_upToDate h) (by decide)
  refine ⟨writeOutput_bareTree _, hdrift, fun t' h => ?_⟩
  rcases writeOutput_eq_ok_iff.mp h with ⟨hcurrent, -⟩ | ⟨-, hwritten, -⟩
  · exact hdrift hcurrent
  · cases hwritten

end PayloadTypes
