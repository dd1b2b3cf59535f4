import PayloadTypes.Files.Change
import PayloadTypes.Proofs.Data.Outcome
/-!
# Files put into a tree

A file that is put where a path leads is found there again (`find_of_withFile`).
It takes the place of a file or of nothing, so that every directory stays one,
and a path is followed through directories alone: it leads to the same place
before and after. Where a path leads nowhere, it is the character 0 that is to
blame just if the path holds it (`readText_eq_zeroCharacter_iff`).
-/

namespace PayloadTypes.Files

variable {α β : Type} {names route start : List String} {new root root' : Node}
  {entries : List (String × Node)} {t t' : FileTree} {p : Path} {content : ByteArray}

namespace Node

/-! ## Nodes under names -/

theorem lookup_put (name : String) (n : Node) (other : String) (es : List (String × Node)) :
    lookup other (put name n es) = if name = other then some n else lookup other es := by
  induction es with
  | nil => simp [put, lookup]
  | cons e es ih =>
    rw [put]
    by_cases hname : e.1 = name
    · by_cases hother : name = other <;> simp [hname, hother, lookup]
    · rw [if_neg hname, lookup, lookup, ih]
      by_cases hother : e.1 = other
      · have hne : name ≠ other := fun h => hname (hother.trans h.symm)
        rw [if_pos hother, if_neg hne, if_pos hother]
      · rw [if_neg hother, if_neg hother]

/-- Under the name of an entry stands what is put there. -/
theorem find_put (name : String) (n : Node) (es : List (String × Node)) (route : List String) :
    find (name :: route) (.dir (put name n es)) = find route n := by
  rw [find, lookup_put, if_pos rfl]

/-- Under other names stands what stood there before. -/
theorem find_put_of_ne {name other : String} (h : name ≠ other) (n : Node)
    (es : List (String × Node)) (route : List String) :
    find (other :: route) (.dir (put name n es)) = find (other :: route) (.dir es) := by
  rw [find, lookup_put, if_neg h, find]

theorem find_cons_of_lookup {name : String} {n : Node} {es : List (String × Node)}
    (h : lookup name es = some n) (route : List String) :
    find (name :: route) (.dir es) = find route n := by
  rw [find, h]

theorem find_cons_of_lookup_none {name : String} {es : List (String × Node)}
    (h : lookup name es = none) (route : List String) :
    find (name :: route) (.dir es) = .error .notFound := by
  rw [find, h]

/-- A longer row of names goes on where a shorter one leads to. -/
theorem find_append (names route : List String) (root : Node) :
    find (names ++ route) root = find names root >>= find route := by
  fun_induction find names root with
  | case1 => rfl
  | case2 => rfl
  | case3 name names es n hn ih => rw [List.cons_append, find_cons_of_lookup hn, ih]
  | case4 name names es hn => rw [List.cons_append, find_cons_of_lookup_none hn]; rfl

/-- **What stands where after something is set**: at and below the end of its names what is set,
above it directories as before, and elsewhere what stood there. -/
theorem find_set_cases (h : set new names root = .ok root') (route : List String) :
    (∃ rest, route = names ++ rest ∧ find route root' = find rest new) ∨
    (∃ es es', find route root = .ok (.dir es) ∧ find route root' = .ok (.dir es')) ∨
    find route root' = find route root := by
  -- The cases are those of setting, and the names are gone down together with the route.
  fun_induction set new names root generalizing root' route with
  | case1 =>
    cases h
    exact .inl ⟨route, rfl, rfl⟩
  | case2 => cases h
  | case3 name es =>
    cases h
    cases route with
    | nil => exact .inr (.inl ⟨_, _, rfl, rfl⟩)
    | cons other route =>
      by_cases hname : name = other
      · subst hname
        exact .inl ⟨route, rfl, find_put name new es route⟩
      · exact .inr (.inr (find_put_of_ne hname new es route))
  | case4 name names es _ n hn ih =>
    obtain ⟨n', hset, rfl⟩ := exists_of_map_eq_ok h
    cases route with
    | nil => exact .inr (.inl ⟨_, _, rfl, rfl⟩)
    | cons other route =>
      by_cases hname : name = other
      · subst hname
        rw [find_put, find_cons_of_lookup hn]
        obtain ⟨rest, rfl, hfind⟩ | hdir | hfind := ih hset route
        · exact .inl ⟨rest, rfl, hfind⟩
        · exact .inr (.inl hdir)
        · exact .inr (.inr hfind)
      · exact .inr (.inr (find_put_of_ne hname n' es route))
  | case5 => cases h

/-- **What is set at the end of a row of names stands there.** -/
theorem find_set (h : set new names root = .ok root') : find names root' = .ok new := by
  fun_induction set new names root generalizing root' with
  | case1 =>
    cases h
    rfl
  | case2 => cases h
  | case3 name entries =>
    cases h
    exact find_put name new entries []
  | case4 name names entries _ n _ ih =>
    obtain ⟨n', hset, rfl⟩ := exists_of_map_eq_ok h
    rw [find_put, ih hset]
  | case5 => cases h

/-- **Directories stay directories**, unless one is replaced. -/
theorem exists_find_set_dir (h : set new names root = .ok root')
    (hleaf : ∀ es, find names root ≠ .ok (.dir es)) (hdir : find route root = .ok (.dir entries)) :
    ∃ es, find route root' = .ok (.dir es) := by
  obtain ⟨rest, rfl, -⟩ | ⟨_, es, -, hes⟩ | hsame := find_set_cases h route
  · -- no directory stands where no directory is replaced, nor below
    rw [find_append] at hdir
    cases hfind : find names root with
    | error e =>
      rw [hfind] at hdir
      cases hdir
    | ok n =>
      rw [hfind] at hdir
      cases n with
      | file content => cases rest <;> cases hdir
      | dir es => exact absurd hfind (hleaf es)
  · exact ⟨es, hes⟩
  · exact ⟨entries, hsame.trans hdir⟩

end Node

/-! ## Files under paths -/

namespace FileTree

/-- **A path leads to the same place before and after.** -/
theorem locateFrom_set (h : Node.set new names root = .ok root')
    (hleaf : ∀ es, Node.find names root ≠ .ok (.dir es)) {segments out : List String}
    (hout : locateFrom root start segments = .ok out) :
    locateFrom root' start segments = .ok out := by
  induction segments generalizing start with
  | nil => exact hout
  -- Only directories are passed on the way, and what is set leaves them directories.
  | cons name segments ih =>
    rw [locateFrom] at hout ⊢
    cases hfind : Node.find start.reverse root with
    | error e => simp [hfind] at hout
    | ok n =>
      cases n with
      | file content => simp [hfind] at hout
      | dir es =>
        obtain ⟨es', hes'⟩ := Node.exists_find_set_dir h hleaf hfind
        simp only [hfind, hes'] at hout ⊢
        split at hout
        · cases hout
        · next hlen => rw [if_neg hlen]; exact ih hout

/-- A path leads to the same place where something is put that takes the place of no directory. -/
theorem locate_set (h : Node.set new names t.root = .ok root')
    (hleaf : ∀ es, Node.find names t.root ≠ .ok (.dir es)) (hlocate : t.locate p = .ok route) :
    locate { t with root := root' } p = .ok route := by
  rw [locate] at hlocate ⊢
  split at hlocate
  · cases hlocate
  · next hzero =>
    split at hlocate
    · cases hlocate
    · next hlong =>
      obtain ⟨out, hout, rfl⟩ := exists_of_map_eq_ok hlocate
      rw [if_neg hzero, if_neg hlong, locateFrom_set h hleaf hout]
      rfl

/-- A file is put into the directory that a path leads to, where no directory stands. -/
theorem exists_of_withFile (h : t.withFile p content = .ok t') :
    ∃ names root', t.locate p = .ok names ∧ (∀ es, Node.find names t.root ≠ .ok (.dir es)) ∧
      Node.set (.file content) names t.root = .ok root' ∧ t' = { t with root := root' } := by
  rw [withFile] at h
  cases hlocate : t.locate p with
  | error e =>
    simp only [find, hlocate] at h
    cases e <;> cases h
  | ok names =>
    have hfind : t.find p = Node.find names t.root := by rw [find, hlocate]; rfl
    rw [hfind, hlocate] at h
    have hset : (∀ es, Node.find names t.root ≠ .ok (.dir es)) ∧
        (Node.set (.file content) names t.root).map (fun r => { t with root := r }) = .ok t' := by
      split at h
      · cases h
      · next hfile => exact ⟨by simp [hfile], h⟩
      · next hnone => exact ⟨by simp [hnone], h⟩
      · cases h
    obtain ⟨root', hroot, rfl⟩ := exists_of_map_eq_ok hset.2
    exact ⟨names, root', rfl, hset.1, hroot, rfl⟩

/-- **A file that is put where a path leads is found there.** -/
theorem find_of_withFile (h : t.withFile p content = .ok t') : t'.find p = .ok (.file content) := by
  obtain ⟨names, root', hlocate, hleaf, hset, rfl⟩ := exists_of_withFile h
  rw [find, locate_set hset hleaf hlocate]
  exact Node.find_set hset

end FileTree

/-! ## Paths that hold the character 0 -/

theorem Node.find_ne_zeroCharacter : find names root ≠ .error .zeroCharacter := by
  fun_induction find names root with
  | case3 name names entries n hn ih => exact ih
  | _ => exact fun h => nomatch h

namespace FileTree

theorem locateFrom_ne_zeroCharacter : locateFrom root start names ≠ .error .zeroCharacter := by
  fun_induction locateFrom root start names with
  | case2 start name names e he =>
    rintro ⟨⟩
    exact Node.find_ne_zeroCharacter he
  | case5 start name names entries hdir hname ih => exact ih
  | _ => exact fun h => nomatch h

theorem locate_eq_zeroCharacter_iff :
    t.locate p = .error .zeroCharacter ↔ Char.ofNat 0 ∈ p.text.toList := by
  rw [locate]
  split
  · next hzero => exact iff_of_true rfl (List.contains_iff_mem.mp hzero)
  · next hzero =>
    refine iff_of_false ?_ fun hmem => hzero (List.contains_iff_mem.mpr hmem)
    split
    · exact fun h => nomatch h
    · intro h
      cases hout : locateFrom t.root (if p.isAbsolute then [] else t.here.reverse) p.segments with
      | ok out => rw [hout] at h; cases h
      | error e =>
        rw [hout] at h
        cases h
        exact locateFrom_ne_zeroCharacter hout

theorem find_eq_zeroCharacter_iff :
    t.find p = .error .zeroCharacter ↔ Char.ofNat 0 ∈ p.text.toList := by
  rw [← locate_eq_zeroCharacter_iff (t := t), find]
  cases t.locate p with
  | error e => exact ⟨fun h => by cases h; rfl, fun h => by cases h; rfl⟩
  | ok names => exact iff_of_false Node.find_ne_zeroCharacter fun h => nomatch h

/-- **A file cannot be read for the character 0** just if its path holds it. -/
theorem readText_eq_zeroCharacter_iff :
    t.readText p = .error (.file .zeroCharacter) ↔ Char.ofNat 0 ∈ p.text.toList := by
  rw [← find_eq_zeroCharacter_iff (t := t), readText, readBytes]
  cases t.find p with
  | error e => exact ⟨fun h => by cases h; rfl, fun h => by cases h; rfl⟩
  | ok n =>
    refine iff_of_false (fun h => ?_) fun h => nomatch h
    cases n with
    | dir entries => cases h
    | file content =>
      change (textOfBytes content).mapError _ = _ at h
      cases htext : textOfBytes content <;> rw [htext] at h <;> cases h

end FileTree

/-! ## Runs of changes -/

/-- A change goes on from what the one in front of it comes to. -/
theorem Change.apply_bind (x : Change α) (f : α → Change β) (t : FileTree) :
    (x >>= f).apply t =
      match x.apply t with
      | (.ok a, t₁) => (f a).apply t₁
      | (.error e, t₁) => (.error e, t₁) := by
  rw [Change.apply, ExceptT.run_bind, StateT.run_bind]
  rcases hx : x.run.run t with ⟨e | a, t₁⟩ <;> simp [Change.apply, hx] <;> rfl

/-- A change that comes to something has come to something at each of its steps. -/
theorem Change.apply_bind_eq_ok {x : Change α} {f : α → Change β} {b : β} :
    (x >>= f).apply t = (.ok b, t') ↔
      ∃ a t₁, x.apply t = (.ok a, t₁) ∧ (f a).apply t₁ = (.ok b, t') := by
  rw [Change.apply_bind]
  rcases x.apply t with ⟨e | a, t₁⟩
  · simp
  · refine ⟨fun h => ⟨a, t₁, rfl, h⟩, ?_⟩
    rintro ⟨a', t₁', ⟨⟩, h⟩
    exact h

theorem Change.apply_become_eq_ok {f : FileTree → Except FileError FileTree} :
    (Change.become f).apply t = (.ok (), t') ↔ f t = .ok t' := by
  have hrun : (Change.become f).apply t = Change.become f t := rfl
  rw [hrun, Change.become]
  cases f t with
  | ok t₁ => simp
  | error e => simp

end PayloadTypes.Files
