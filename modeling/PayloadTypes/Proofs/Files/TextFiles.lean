import PayloadTypes.Proofs.Files.Placing
/-!
# Texts in files

A text is put into a file as it is (`find_of_writeText`), and read with one line
break for every kind of line end (`readText_of_find`). It is read as it was written
just where it holds no carriage return (`unifyLineEnds_eq_self_iff`).
-/

namespace PayloadTypes.Files

variable {s : List Char} {t t' : FileTree} {path : Path} {text held : String}

/-! ## Line ends -/

theorem carriageReturn_not_mem_unifyLineEnds (s : List Char) : '\r' ∉ unifyLineEnds s := by
  fun_induction unifyLineEnds s with
  | case1 => exact List.not_mem_nil
  | case2 c =>
    refine List.not_mem_cons_of_ne_of_not_mem ?_ List.not_mem_nil
    split
    · decide
    · next hc => exact Ne.symm hc
  | case3 c d s h ih => exact List.not_mem_cons_of_ne_of_not_mem (by decide) ih
  | case4 c d s h ih =>
    refine List.not_mem_cons_of_ne_of_not_mem ?_ ih
    split
    · decide
    · next hc => exact Ne.symm hc

theorem unifyLineEnds_eq_self (h : '\r' ∉ s) : unifyLineEnds s = s := by
  fun_induction unifyLineEnds s with
  | case1 => rfl
  | case2 c =>
    have hc : c ≠ '\r' := fun hc => h (hc ▸ List.mem_cons_self)
    rw [if_neg hc]
  | case3 c d s hcd ih => exact absurd (hcd.1 ▸ List.mem_cons_self) h
  | case4 c d s hcd ih =>
    have hc : c ≠ '\r' := fun hc => h (hc ▸ List.mem_cons_self)
    rw [if_neg hc, ih fun hmem => h (List.mem_cons_of_mem _ hmem)]

/-- **Line ends are left as they are** just where there is no carriage return. -/
theorem unifyLineEnds_eq_self_iff : unifyLineEnds s = s ↔ '\r' ∉ s :=
  ⟨fun h => h ▸ carriageReturn_not_mem_unifyLineEnds s, unifyLineEnds_eq_self⟩

/-! ## Files that are read -/

/-- **A file that holds a text is read as that text**, its line ends unified. -/
theorem readText_of_find (h : t.find path = .ok (.file held.toUTF8)) :
    t.readText path = .ok (String.ofList (unifyLineEnds held.toList)) := by
  have hbytes : t.readBytes path = .ok held.toUTF8 := by rw [FileTree.readBytes, h]; rfl
  have hdecode : decode held.toUTF8 = .ok held := by
    have hvalid : held.toUTF8.IsValidUTF8 := held.isValidUTF8
    rw [decode, String.fromUTF8?, dif_pos hvalid]
    rfl
  rw [FileTree.readText, hbytes]
  simp only [textOfBytes, hdecode]
  rfl

/-- The text that is read off a file has its line ends unified. -/
theorem exists_of_readText (h : t.readText path = .ok held) :
    ∃ s, held = String.ofList (unifyLineEnds s) := by
  rw [FileTree.readText] at h
  cases hbytes : t.readBytes path with
  | error e => rw [hbytes] at h; cases h
  | ok bytes =>
    rw [hbytes] at h
    cases hdecode : decode bytes with
    | error f => simp only [textOfBytes, hdecode] at h; cases h
    | ok stored =>
      simp only [textOfBytes, hdecode] at h
      exact ⟨stored.toList, (Except.ok.inj h).symm⟩

/-! ## Files that are written -/

/-- A file that is written is put into a tree. -/
theorem exists_withFile_of_writeText (h : (writeText path text).apply t = (.ok (), t')) :
    ∃ t₁ : FileTree, t₁.withFile path text.toUTF8 = .ok t' := by
  rw [writeText] at h
  -- first the directories above it are made, then the path of the draft is followed
  obtain ⟨_, t₁, -, h⟩ := Change.apply_bind_eq_ok.mp h
  obtain ⟨_, t₂, -, h⟩ := Change.apply_bind_eq_ok.mp h
  dsimp only at h
  split at h
  · obtain ⟨_, t₃, hthrow, -⟩ := Change.apply_bind_eq_ok.mp h
    cases hthrow
  · exact ⟨t₂, Change.apply_become_eq_ok.mp h⟩

/-- **A text that is written stands in the file.** -/
theorem find_of_writeText (h : (writeText path text).apply t = (.ok (), t')) :
    t'.find path = .ok (.file text.toUTF8) := by
  obtain ⟨t₁, hput⟩ := exists_withFile_of_writeText h
  exact FileTree.find_of_withFile hput

end PayloadTypes.Files
