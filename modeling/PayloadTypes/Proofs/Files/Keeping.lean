import PayloadTypes.Proofs.Files.Placing
/-!
# What changes keep

A directory is made where nothing stands, so that every file stays where it is
(`find_of_makeDirs`), and no change leads away from the directory in which one
works. What every step of a change keeps is kept by the whole change
(`Change.Keeps`), also where it ends half way.
-/

namespace PayloadTypes.Files

variable {α β : Type} {names route : List String} {new root root' : Node} {content : ByteArray}
  {e : FileError} {t t' : FileTree} {p q : Path} {P : FileTree → Prop}

/-- **A file stays** where something is put in the place of nothing. -/
theorem Node.find_set_of_error (h : set new names root = .ok root')
    (hnone : find names root = .error e) (hfile : find route root = .ok (.file content)) :
    find route root' = .ok (.file content) := by
  obtain ⟨rest, rfl, -⟩ | ⟨_, _, hdir, -⟩ | hsame := find_set_cases h route
  · rw [find_append, hnone] at hfile
    cases hfile
  · rw [hfile] at hdir
    cases hdir
  · exact hsame.trans hfile

namespace FileTree

/-- A directory is put where nothing stands. -/
theorem exists_of_withDir (h : t.withDir p = .ok t') :
    ∃ names root', Node.find names t.root = .error .notFound ∧
      Node.set (.dir []) names t.root = .ok root' ∧ t' = { t with root := root' } := by
  rw [withDir] at h
  cases hlocate : t.locate p with
  | error e => rw [hlocate] at h; cases h
  | ok names =>
    rw [hlocate] at h
    change (if _ then _ else _) = _ at h
    split at h
    · cases h
    · split at h
      · cases h
      · next hnone =>
        cases hset : Node.set (.dir []) names t.root with
        | error e => rw [hset] at h; cases h
        | ok root' =>
          rw [hset] at h
          cases h
          exact ⟨names, root', hnone, hset, rfl⟩
      · cases h

/-- **A file stays** where a directory is made. -/
theorem find_of_withDir (h : t.withDir p = .ok t') (hfile : t.find q = .ok (.file content)) :
    t'.find q = .ok (.file content) := by
  obtain ⟨names, root', hnone, hset, rfl⟩ := exists_of_withDir h
  have hleaf : ∀ es, Node.find names t.root ≠ .ok (.dir es) := by simp [hnone]
  rw [find] at hfile ⊢
  cases hlocate : t.locate q with
  | error e => rw [hlocate] at hfile; cases hfile
  | ok route =>
    rw [hlocate] at hfile
    rw [locate_set hset hleaf hlocate]
    exact Node.find_set_of_error hset hnone hfile

theorem here_of_withDir (h : t.withDir p = .ok t') : t'.here = t.here := by
  obtain ⟨names, root', -, -, rfl⟩ := exists_of_withDir h
  rfl

theorem here_of_withFile (h : t.withFile p content = .ok t') : t'.here = t.here := by
  obtain ⟨names, root', -, -, -, rfl⟩ := exists_of_withFile h
  rfl

end FileTree

namespace Change

/-- What holds of a tree holds behind the change, also where the change fails. -/
def Keeps (x : Change α) (P : FileTree → Prop) : Prop := ∀ t, P t → P (x.apply t).2

theorem keeps_pure (a : α) : Keeps (pure a) P := fun _ ht => ht

theorem keeps_throw (e : FileError) : Keeps (throw e : Change α) P := fun _ ht => ht

theorem keeps_ask (f : FileTree → Except FileError α) : Keeps (ask f) P := fun _ ht => ht

theorem keeps_set (h : P t) : Keeps (set t) P := fun _ _ => h

theorem Keeps.bind {x : Change α} {f : α → Change β} (hx : Keeps x P) (hf : ∀ a, Keeps (f a) P) :
    Keeps (x >>= f) P := by
  intro t ht
  have hx' := hx t ht
  rw [apply_bind]
  rcases hrun : x.apply t with ⟨e | a, t₁⟩
  · rw [hrun] at hx'
    exact hx'
  · rw [hrun] at hx'
    exact hf a t₁ hx'

/-- A change that looks at the tree keeps what it keeps in each tree. -/
theorem keeps_get_bind {f : FileTree → Change α} (hf : ∀ t, P t → Keeps (f t) P) :
    Keeps (get >>= f) P := fun t ht => hf t ht t ht

theorem keeps_become {f : FileTree → Except FileError FileTree}
    (hf : ∀ t t', f t = .ok t' → P t → P t') : Keeps (become f) P := by
  intro t ht
  have hrun : (become f).apply t = become f t := rfl
  rw [hrun, become]
  cases h : f t with
  | ok t' => exact hf t t' h ht
  | error e => exact ht

end Change

/-! ## Directories that are made -/

open Change

theorem keeps_unlessDir (p : Path) (e : FileError) : Keeps (unlessDir p e) P := by
  rw [unlessDir]
  split
  · exact (keeps_throw e).bind fun _ => (keeps_ask _).bind fun found => by
      split
      · exact keeps_throw e
      · exact keeps_pure ()
  · exact (keeps_ask _).bind fun found => by
      split
      · exact keeps_throw e
      · exact keeps_pure ()

/-- **What making one directory keeps is kept by making all those above it.** -/
theorem keeps_makeDirs (hdir : ∀ p t t', t.withDir p = .ok t' → P t → P t') (p : Path) :
    Keeps (makeDirs p) P := by
  rw [makeDirs]
  induction p.segments.reverse with
  | nil => exact keeps_unlessDir _ _
  | cons name above ih =>
    rw [makeDirsAt]
    refine keeps_get_bind fun t ht => ?_
    -- the directory is made, or those above it are made first, or something stands there
    split
    · next t' h => exact keeps_set (hdir _ _ _ h ht)
    · refine ih.bind fun _ => keeps_get_bind fun t ht => ?_
      split
      · next t' h => exact keeps_set (hdir _ _ _ h ht)
      · exact keeps_unlessDir _ _
    · exact keeps_unlessDir _ _

/-- **A file stays where it is** while directories are made. -/
theorem find_of_makeDirs {r : Except FileError Unit} (h : (makeDirs p).apply t = (r, t'))
    (hfile : t.find q = .ok (.file content)) :
    t'.find q = .ok (.file content) ∧ t'.here = t.here := by
  have hkeeps := keeps_makeDirs
    (P := fun s => s.find q = .ok (.file content) ∧ s.here = t.here)
    (fun _ _ _ hdir hs =>
      ⟨FileTree.find_of_withDir hdir hs.1, (FileTree.here_of_withDir hdir).trans hs.2⟩) p t
    ⟨hfile, rfl⟩
  rw [h] at hkeeps
  exact hkeeps

/-- One works in the same directory after a file was written. -/
theorem here_of_writeText {text : String} {r : Except FileError Unit}
    (h : (writeText p text).apply t = (r, t')) : t'.here = t.here := by
  have hkeeps : Keeps (writeText p text) fun s => s.here = t.here := by
    rw [writeText]
    refine (keeps_makeDirs (fun _ _ _ hdir hs => ?_) _).bind fun _ => (keeps_ask _).bind fun _ => ?_
    · exact (FileTree.here_of_withDir hdir).trans hs
    · have hput := keeps_become (f := (·.withFile p text.toUTF8)) (P := fun s => s.here = t.here)
        fun _ _ hfile hs => (FileTree.here_of_withFile hfile).trans hs
      split
      · exact (keeps_throw _).bind fun _ => hput
      · exact hput
  have hhere := hkeeps t rfl
  rw [h] at hhere
  exact hhere

end PayloadTypes.Files
