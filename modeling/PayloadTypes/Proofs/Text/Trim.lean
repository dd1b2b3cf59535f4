import Mathlib.Data.List.Basic
import Mathlib.Data.List.DropRight
import Mathlib.Data.List.TakeWhile
import Mathlib.Tactic.Conv
import PayloadTypes.Text.Blank
/-!
# Trimmed texts

A text is the trimmed one with blanks on both sides (`exists_eq_trim`), and
the trimmed one neither starts nor ends with a blank. These two facts decide
what trimming does to a text that is put together of others.
-/

namespace PayloadTypes.Text

variable {s a b : List Char} {c : Char}

/-- The text neither starts nor ends with a blank. -/
def IsTrimmed (s : List Char) : Prop :=
  (∀ c ∈ s.head?, isBlank c = false) ∧ ∀ c ∈ s.getLast?, isBlank c = false

/-- The text holds blanks only. -/
def AllBlank (s : List Char) : Prop := ∀ c ∈ s, isBlank c = true

theorem allBlank_nil : AllBlank [] := fun _ h => absurd h List.not_mem_nil

theorem allBlank_space : AllBlank [' '] := by
  simpa [AllBlank] using by decide

theorem allBlank_newline : AllBlank ['\n'] := List.forall_mem_singleton.mpr (by decide)

theorem trimStart_eq_self (h : ∀ c ∈ s.head?, isBlank c = false) : trimStart s = s := by
  cases s with
  | nil => rfl
  | cons c s => rw [trimStart, List.dropWhile_cons_of_neg (by simp [h c rfl])]

theorem dropEndWhile_eq (p : Char → Bool) (s : List Char) :
    dropEndWhile p s = s.rdropWhile p := by
  rw [dropEndWhile, List.rdropWhile]

theorem dropEndWhile_eq_self {p : Char → Bool} (h : ∀ c ∈ s.getLast?, p c = false) :
    dropEndWhile p s = s := by
  rw [dropEndWhile_eq, List.rdropWhile_eq_self_iff]
  intro hne
  simp [h _ (List.getLast?_eq_some_getLast hne)]

theorem trimEnd_eq_self (h : ∀ c ∈ s.getLast?, isBlank c = false) : trimEnd s = s :=
  dropEndWhile_eq_self h

/-- A text without blanks at its ends is left as it is. -/
theorem IsTrimmed.trim_eq (h : IsTrimmed s) : trim s = s := by
  rw [trim, trimStart_eq_self h.1, trimEnd_eq_self h.2]

theorem trimStart_append (h : AllBlank a) : trimStart (a ++ s) = trimStart s :=
  List.dropWhile_append_of_pos h

theorem dropEndWhile_append {p : Char → Bool} (h : ∀ c ∈ b, p c = true) :
    dropEndWhile p (s ++ b) = dropEndWhile p s := by
  rw [dropEndWhile, List.reverse_append,
    List.dropWhile_append_of_pos fun c hc => h c (List.mem_reverse.mp hc)]
  rfl

theorem dropEndWhile_concat {p : Char → Bool} (hc : p c = true)
    (hs : ∀ d ∈ s.getLast?, p d = false) : dropEndWhile p (s ++ [c]) = s := by
  rw [dropEndWhile_eq, List.rdropWhile_concat_pos p s c hc, ← dropEndWhile_eq,
    dropEndWhile_eq_self hs]

theorem trimEnd_append (h : AllBlank b) : trimEnd (s ++ b) = trimEnd s := dropEndWhile_append h

/-- What trimming takes off the start of a text. -/
theorem exists_eq_trimStart (s : List Char) : ∃ a, AllBlank a ∧ s = a ++ trimStart s :=
  ⟨s.takeWhile isBlank, fun _ hc => List.mem_takeWhile_imp hc,
    (List.takeWhile_append_dropWhile).symm⟩

/-- What trimming takes off the end of a text. -/
theorem exists_eq_trimEnd (s : List Char) : ∃ b, AllBlank b ∧ s = trimEnd s ++ b := by
  refine ⟨s.rtakeWhile isBlank, fun _ hc => List.mem_rtakeWhile_imp hc, ?_⟩
  rw [trimEnd, dropEndWhile_eq, List.rdropWhile_append_rtakeWhile]

/-- **Trimming takes blanks off both ends and nothing else.** -/
theorem exists_eq_trim (s : List Char) :
    ∃ a b, AllBlank a ∧ AllBlank b ∧ s = a ++ (trim s ++ b) := by
  obtain ⟨a, ha, hs⟩ := exists_eq_trimStart s
  obtain ⟨b, hb, hs'⟩ := exists_eq_trimEnd (trimStart s)
  exact ⟨a, b, ha, hb, hs.trans (congrArg (a ++ ·) hs')⟩

theorem mem_of_mem_trim (h : c ∈ trim s) : c ∈ s := by
  obtain ⟨a, b, -, -, hs⟩ := exists_eq_trim s
  rw [hs]
  exact List.mem_append_right _ (List.mem_append_left _ h)

theorem head?_trimStart (hc : c ∈ (trimStart s).head?) : isBlank c = false := by
  have := List.head?_dropWhile_not isBlank s
  simp only [trimStart, Option.mem_def] at hc
  rwa [hc] at this

theorem head?_trimEnd (hc : c ∈ (trimEnd s).head?) : c ∈ s.head? := by
  obtain ⟨b, -, hs⟩ := exists_eq_trimEnd s
  rw [hs, List.head?_append, Option.mem_def.mp hc]
  rfl

/-- **What is left neither starts nor ends with a blank.** -/
theorem isTrimmed_trim (s : List Char) : IsTrimmed (trim s) := by
  refine ⟨fun c hc => head?_trimStart (head?_trimEnd hc), fun c hc => ?_⟩
  rw [trim, trimEnd, dropEndWhile, List.getLast?_reverse] at hc
  exact head?_trimStart hc

theorem isTrimmed_iff : IsTrimmed s ↔ trim s = s :=
  ⟨IsTrimmed.trim_eq, fun h => h ▸ isTrimmed_trim s⟩

@[simp] theorem trim_trim (s : List Char) : trim (trim s) = trim s := (isTrimmed_trim s).trim_eq

/-- Blanks in front of a text do not matter. -/
theorem trim_append_left (h : AllBlank a) : trim (a ++ s) = trim s := by
  rw [trim, trimStart_append h, trim]

theorem trim_eq_nil (h : AllBlank s) : trim s = [] := by
  simpa [trim, trimStart, trimEnd, dropEndWhile] using trim_append_left (s := []) h

theorem trim_eq_nil_iff : trim s = [] ↔ AllBlank s := by
  refine ⟨fun h => ?_, trim_eq_nil⟩
  obtain ⟨a, b, ha, hb, hs⟩ := exists_eq_trim s
  rw [h, List.nil_append] at hs
  rw [hs]
  exact fun c hc => (List.mem_append.mp hc).elim (ha c) (hb c)

/-- Blanks behind a text do not matter. -/
theorem trim_append_right (h : AllBlank b) : trim (s ++ b) = trim s := by
  obtain ⟨a, ha, hs⟩ := exists_eq_trimStart s
  by_cases hnil : trimStart s = []
  · have hblank : AllBlank s := by rw [hs, hnil, List.append_nil]; exact ha
    rw [trim_eq_nil hblank, trim_eq_nil]
    intro c hc
    exact (List.mem_append.mp hc).elim (hblank c) (h c)
  · have hstart : trimStart (s ++ b) = trimStart s ++ b := by
      conv_lhs => rw [hs, List.append_assoc, trimStart_append ha]
      refine trimStart_eq_self fun c hc => ?_
      obtain ⟨x, t, hx⟩ := List.exists_cons_of_ne_nil hnil
      rw [hx, List.cons_append, List.head?_cons] at hc
      exact head?_trimStart (s := s) (by rw [hx]; exact hc)
    rw [trim, hstart, trimEnd_append h, trim]

/-- A text between two characters that are not blank is trimmed. -/
theorem isTrimmed_of_ends {d : Char} (hc : isBlank c = false) (hd : isBlank d = false) :
    IsTrimmed (c :: (s ++ [d])) := by
  refine ⟨fun x hx => ?_, fun x hx => ?_⟩
  · obtain rfl : c = x := by simpa using hx
    exact hc
  · rw [← List.cons_append, List.getLast?_concat] at hx
    obtain rfl : d = x := by simpa using hx
    exact hd

/-- A text without blanks is trimmed. -/
theorem isTrimmed_of_forall (h : ∀ c ∈ s, isBlank c = false) : IsTrimmed s :=
  ⟨fun c hc => h c (List.mem_of_mem_head? hc), fun c hc => h c (List.mem_of_mem_getLast? hc)⟩

/-- A text between two trimmed ones is trimmed with them, whatever it is. -/
theorem IsTrimmed.append_append {t w : List Char} (hs : IsTrimmed s) (hsne : s ≠ [])
    (ht : IsTrimmed t) (htne : t ≠ []) : IsTrimmed (s ++ w ++ t) := by
  refine ⟨fun x hx => hs.1 x ?_, fun x hx => ht.2 x ?_⟩
  · rwa [List.append_assoc, List.head?_append_of_ne_nil _ hsne] at hx
  · rwa [List.getLast?_append_of_ne_nil _ htne] at hx

/-- No character that is not blank is lost. -/
theorem count_trim (hc : isBlank c = false) (s : List Char) : (trim s).count c = s.count c := by
  have count_blank : ∀ {t : List Char}, AllBlank t → t.count c = 0 := by
    intro t ht
    refine List.count_eq_zero.mpr fun hmem => ?_
    rw [ht c hmem] at hc
    cases hc
  obtain ⟨a, b, ha, hb, hs⟩ := exists_eq_trim s
  conv_rhs => rw [hs]
  rw [List.count_append, List.count_append, count_blank ha, count_blank hb]
  omega

end PayloadTypes.Text
