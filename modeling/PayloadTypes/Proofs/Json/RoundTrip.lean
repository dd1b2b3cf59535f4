import PayloadTypes.Json.Parser
import PayloadTypes.Proofs.Data.NamedValues
import PayloadTypes.Proofs.Json.StringText
import PayloadTypes.Proofs.Text.Ascii
/-!
# Values that are written and read again

A value of texts, truth values and nothing, in lists and in maps under texts, is
read off the text that writes it, however it is laid out (`parse_render`). Its
text is cut into its tokens (`tokensOf`), whatever follows it, and each row of
tokens makes the reader take in one value (`takes_tokensOf`).
-/

namespace PayloadTypes.Json

open Text.Reader

/-- A value that holds texts, truth values and nothing; its maps have texts as their keys. -/
inductive IsTextual : Value → Prop
  /-- Nothing. -/
  | null : IsTextual .null
  /-- A truth value. -/
  | bool (b : Bool) : IsTextual (.bool b)
  /-- A text. -/
  | text (s : String) : IsTextual (.text s)
  /-- A list of such values. -/
  | list {items : List Value} (h : ∀ v ∈ items, IsTextual v) : IsTextual (.list items)
  /-- A map of such values. -/
  | map (m : OrderedMap Value) (h : ∀ e ∈ m.entries, IsTextual e.2) :
    IsTextual (.map (Value.named m.entries))

mutual
/-- The tokens of a value. -/
def tokensOf : Value → List Token
  | .list items => .openList :: itemTokens items ++ [.closeList]
  | .map entries => .openMap :: entryTokens entries ++ [.closeMap]
  | v => [.scalar v]
/-- The tokens of the items of a list. -/
def itemTokens : List Value → List Token
  | [] => []
  | [v] => tokensOf v
  | v :: w :: vs => tokensOf v ++ .comma :: itemTokens (w :: vs)
/-- The tokens of the entries of a map. -/
def entryTokens : List (Value × Value) → List Token
  | [] => []
  | [(k, v)] => .scalar k :: .colon :: tokensOf v
  | (k, v) :: e :: es => .scalar k :: .colon :: tokensOf v ++ .comma :: entryTokens (e :: es)
end

variable {x y rest : List Char} {ts us : List Token} {c : Char} {t : Token} {v : Value}

/-! ## Texts that are cut into tokens -/

/-- The text is cut into the tokens, whatever follows it, and holds no carriage return. -/
structure Writes (x : List Char) (ts : List Token) : Prop where
  /-- In enough rounds the tokens are cut off, and enough rounds for the rest are left. -/
  cut : ∀ n rest, (x ++ rest).length ≤ n →
    ∃ m, rest.length ≤ m ∧ tokensFrom n (x ++ rest) = ts ++ tokensFrom m rest
  /-- The text holds no carriage return. -/
  unbroken : '\r' ∉ x

theorem writes_nil : Writes [] [] where
  cut n _ h := ⟨n, h, rfl⟩
  unbroken := List.not_mem_nil

theorem Writes.append (hx : Writes x ts) (hy : Writes y us) : Writes (x ++ y) (ts ++ us) where
  cut n rest h := by
    rw [List.append_assoc] at h ⊢
    -- the rounds that `x` leaves are enough for `y` and the rest
    obtain ⟨m, hm, hcut⟩ := hx.cut n (y ++ rest) h
    obtain ⟨k, hk, hcut'⟩ := hy.cut m rest hm
    exact ⟨k, hk, by rw [hcut, hcut', List.append_assoc]⟩
  unbroken := List.not_mem_append hx.unbroken hy.unbroken

/-- A text that is taken in one round. -/
theorem writes_of_token {t : Option Token} (hne : x ≠ []) (hbreak : '\r' ∉ x)
    (h : ∀ rest, token (x ++ rest) = some (t, rest)) : Writes x t.toList where
  cut n rest hn := by
    obtain ⟨c, w, rfl⟩ := List.exists_cons_of_ne_nil hne
    obtain ⟨m, rfl⟩ : ∃ m, n = m + 1 := ⟨n - 1, by simp at hn; omega⟩
    refine ⟨m, by simp at hn; omega, ?_⟩
    have htoken := h rest
    rw [List.cons_append] at htoken ⊢
    simp only [tokensFrom, htoken]
  unbroken := hbreak

theorem writes_punctuation (h : punctuation? c = some t) (hspace : isSpace c = false) :
    Writes [c] [t] := by
  refine writes_of_token (t := some t) (List.cons_ne_nil _ _) ?_ fun rest => ?_
  · rintro hmem
    rw [← List.mem_singleton.mp hmem] at hspace
    cases hspace
  · simp [token, hspace, h]

theorem writes_space (hspace : isSpace c = true) (hbreak : c ≠ '\r') : Writes [c] [] := by
  refine writes_of_token (t := none) (List.cons_ne_nil _ _) ?_ fun rest => ?_
  · exact fun hmem => hbreak (List.mem_singleton.mp hmem).symm
  · simp [token, hspace]

theorem writes_replicate_space (n : Nat) : Writes (List.replicate n ' ') [] := by
  induction n with
  | zero => exact writes_nil
  | succ n ih => exact (writes_space (c := ' ') rfl (by decide)).append ih

theorem writes_gap (l : Layout) (depth : Nat) : Writes (l.gap depth) [] := by
  rw [Layout.gap]
  cases l.indent with
  | none => exact writes_nil
  | some n =>
    exact (writes_space (c := '\n') rfl (by decide)).append (writes_replicate_space _)

theorem writes_colon (l : Layout) : Writes l.colon [.colon] := by
  have hcolon : Writes [':'] [.colon] := writes_punctuation rfl rfl
  rw [Layout.colon]
  cases l.indent with
  | none => exact hcolon
  | some n => exact hcolon.append (writes_space (c := ' ') rfl (by decide))

theorem writes_quoted (ascii : Bool) (s : String) :
    Writes (quoted ascii s.toList) [.scalar (.text s)] := by
  refine writes_of_token (t := some (.scalar (.text s))) (List.cons_ne_nil _ _)
    (carriageReturn_not_mem_quoted ascii s.toList) fun rest => ?_
  have hstring := string_quoted ascii s.toList rest
  rw [String.ofList_toList] at hstring
  rw [quoted, List.append_assoc, List.cons_append] at hstring ⊢
  rw [token, if_neg (by decide), orElse_apply, bind_eq hstring]
  rfl

/-- What starts with a letter in lower case is a word. -/
theorem token_of_isLower {s : List Char} {v : Value} (hc : c.isLower = true)
    (h : word (c :: s) = some (v, rest)) : token (c :: s) = some (some (.scalar v), rest) := by
  -- None of the readers in front of the one for words starts with a letter.
  have hdigit : c.isDigit = false := by
    have hrange := Text.isLower_iff.mp hc
    rw [← Bool.not_eq_true, Text.isDigit_iff]
    omega
  have hne {d : Char} (hd : d.isLower = false) : c ≠ d := by
    rintro rfl
    exact absurd hc (by simp [hd])
  have hspace : isSpace c = false := by
    simp [isSpace, hne (d := ' ') rfl, hne (d := '\t') rfl, hne (d := '\n') rfl,
      hne (d := '\r') rfl]
  have hpunctuation : punctuation? c = none := by
    simp [punctuation?, hne (d := '[') rfl, hne (d := ']') rfl, hne (d := '\x7b') rfl,
      hne (d := '\x7d') rfl, hne (d := ',') rfl, hne (d := ':') rfl]
  have hstring : string (c :: s) = none := bind_eq_none (char_eq_none (hne rfl) s)
  have hwhole : wholeDigits (c :: s) = none := by
    rw [wholeDigits]
    · exact many1_eq_none hdigit
    · rintro r ⟨⟩
      exact hne (d := '0') rfl rfl
  have hnumber : number (c :: s) = none := by
    rw [number, bind_eq (maybe_eq_none (char_eq_none (hne rfl) s)), bind_eq_none hwhole]
  rw [token, if_neg (by simp [hspace]), hpunctuation]
  simp only [orElse_apply, bind_eq_none hstring, bind_eq_none hnumber, bind_eq h]
  rfl

theorem writes_null : Writes "null".toList [.scalar .null] :=
  writes_of_token (t := some (.scalar .null)) (by decide) (by decide) fun _ =>
    token_of_isLower rfl rfl

theorem writes_bool (b : Bool) :
    Writes (if b then "true" else "false").toList [.scalar (.bool b)] := by
  cases b with
  | true =>
    exact writes_of_token (t := some (.scalar (.bool true))) (by decide) (by decide) fun _ =>
      token_of_isLower rfl rfl
  | false =>
    exact writes_of_token (t := some (.scalar (.bool false))) (by decide) (by decide) fun _ =>
      token_of_isLower rfl rfl

theorem Writes.tokens_eq (h : Writes x ts) : tokens x = ts := by
  obtain ⟨m, -, hcut⟩ := h.cut x.length [] (by simp)
  rw [List.append_nil] at hcut
  rw [tokens, hcut, tokensFrom, List.append_nil]

/-! ## Texts of values -/

variable {l : Layout}

theorem writes_renderItems {items : List Value}
    (h : ∀ v ∈ items, ∀ depth, Writes (renderAt l depth v) (tokensOf v)) (depth : Nat) :
    Writes (renderItems l depth items) (itemTokens items) := by
  induction items with
  | nil => exact writes_nil
  | cons v vs ih =>
    obtain ⟨hv, hvs⟩ := List.forall_mem_cons.mp h
    cases vs with
    | nil => exact hv depth
    | cons w vs =>
      have hcomma := (writes_punctuation (c := ',') rfl rfl).append (writes_gap l depth)
      have hall := (hv depth).append (hcomma.append (ih hvs))
      simpa [renderItems, itemTokens] using hall

theorem writes_renderEntries {es : List (String × Value)}
    (h : ∀ e ∈ es, ∀ depth, Writes (renderAt l depth e.2) (tokensOf e.2)) (depth : Nat) :
    Writes (renderEntries l depth (Value.named es)) (entryTokens (Value.named es)) := by
  induction es with
  | nil => exact writes_nil
  | cons e es ih =>
    obtain ⟨he, hes⟩ := List.forall_mem_cons.mp h
    have hentry := ((writes_quoted l.ascii e.1).append (writes_colon l)).append (he depth)
    cases es with
    | nil => simpa [renderEntries, entryTokens, keyText, Value.named] using hentry
    | cons f es =>
      have hcomma := (writes_punctuation (c := ',') rfl rfl).append (writes_gap l depth)
      have hall := hentry.append (hcomma.append (ih hes))
      simpa [renderEntries, entryTokens, keyText, Value.named] using hall

/-- **The text of a value is cut into the tokens of the value**, whatever follows it. -/
theorem writes_renderAt (h : IsTextual v) (depth : Nat) :
    Writes (renderAt l depth v) (tokensOf v) := by
  -- each kind of value, the tokens of what it holds being cut off by induction
  induction h generalizing depth with
  | null => exact writes_null
  | bool b => exact writes_bool b
  | text s => exact writes_quoted l.ascii s
  | @list items h ih =>
    have hopen : Writes ['['] [.openList] := writes_punctuation rfl rfl
    have hclose : Writes [']'] [.closeList] := writes_punctuation rfl rfl
    cases items with
    | nil => exact hopen.append hclose
    | cons v vs =>
      have hinside := ((writes_gap l (depth + 1)).append
        (writes_renderItems ih (depth + 1))).append (writes_gap l depth)
      have hall := (hopen.append hinside).append hclose
      simpa [renderAt, tokensOf] using hall
  | map m h ih =>
    have hopen : Writes ['\x7b'] [.openMap] := writes_punctuation rfl rfl
    have hclose : Writes ['\x7d'] [.closeMap] := writes_punctuation rfl rfl
    rcases hes : m.entries with _ | ⟨e, es⟩
    · exact hopen.append hclose
    · rw [hes] at ih
      have hinside := ((writes_gap l (depth + 1)).append
        (writes_renderEntries ih (depth + 1))).append (writes_gap l depth)
      have hall := (hopen.append hinside).append hclose
      simpa [renderAt, tokensOf, Value.named_cons] using hall

/-! ## Tokens that are read -/

theorem run_cons (st : State) (t : Token) (ts : List Token) :
    run st (t :: ts) = step st t >>= fun st' => run st' ts := List.foldlM_cons

/-- A token is read, and then those behind it. -/
theorem run_of_step (st' : State) {st : State} (h : step st t = .ok st') (ts : List Token) :
    run st (t :: ts) = run st' ts := by
  rw [run_cons, h]
  rfl

/-- The reader takes in the value, whatever is open around it and whatever follows it. -/
def Takes (ts : List Token) (v : Value) : Prop :=
  ∀ frames more, run (frames, .value) (ts ++ more) = run (frames, .after v) more

/-- The items of a list are taken in, and the list is closed. -/
theorem run_itemTokens {w : Value} {vs : List Value} (h : ∀ v ∈ w :: vs, Takes (tokensOf v) v)
    (taken : List Value) (frames : List Frame) (more : List Token) :
    run (.list taken :: frames, .value) (itemTokens (w :: vs) ++ .closeList :: more) =
      run (frames, .after (.list (taken.reverse ++ w :: vs))) more := by
  induction vs generalizing w taken with
  | nil =>
    rw [itemTokens, h w List.mem_cons_self]
    rw [run_of_step (frames, .after (.list (w :: taken).reverse)) rfl]
    simp
  | cons v vs ih =>
    obtain ⟨hw, hvs⟩ := List.forall_mem_cons.mp h
    rw [itemTokens, List.append_assoc, hw, List.cons_append]
    rw [run_of_step (.list (w :: taken) :: frames, .value) rfl, ih hvs]
    simp

/-- A key, a colon and a value are taken in. -/
theorem run_entry (h : Takes ts v) (k : String) (taken : List (Value × Value))
    (frames : List Frame) (more : List Token) :
    run (.map taken :: frames, .key) (.scalar (.text k) :: .colon :: (ts ++ more)) =
      run (.entry taken (.text k) :: frames, .after v) more := by
  rw [run_of_step (.entry taken (.text k) :: frames, .colon) rfl]
  rw [run_of_step (.entry taken (.text k) :: frames, .value) rfl, h]

/-- The entries of a map are taken in, and the map is closed. -/
theorem run_entryTokens {e : String × Value} {es : List (String × Value)}
    (h : ∀ f ∈ e :: es, Takes (tokensOf f.2) f.2) (taken : List (Value × Value))
    (frames : List Frame) (more : List Token) :
    run (.map taken :: frames, .key) (entryTokens (Value.named (e :: es)) ++ .closeMap :: more) =
      run (frames, .after (mapOf ((Value.named (e :: es)).reverse ++ taken))) more := by
  -- The entries behind the first one are taken in by induction, with a comma in front of each.
  induction es generalizing e taken with
  | nil =>
    rw [Value.named_cons]
    change run _ (.scalar (.text e.1) :: .colon :: (tokensOf e.2 ++ .closeMap :: more)) = _
    rw [run_entry (h e List.mem_cons_self)]
    rw [run_of_step (frames, .after (mapOf ((.text e.1, e.2) :: taken))) rfl]
    rfl
  | cons f es ih =>
    obtain ⟨he, hes⟩ := List.forall_mem_cons.mp h
    have hsplit : entryTokens (Value.named (e :: f :: es)) ++ .closeMap :: more =
        .scalar (.text e.1) :: .colon :: (tokensOf e.2 ++
          .comma :: (entryTokens (Value.named (f :: es)) ++ .closeMap :: more)) := by
      simp [Value.named_cons, entryTokens]
    rw [hsplit, run_entry he]
    rw [run_of_step (.map ((.text e.1, e.2) :: taken) :: frames, .key) rfl, ih hes]
    simp [Value.named_cons]

theorem step_firstItem (frames : List Frame) (h : t ≠ .closeList) :
    step (frames, .firstItem) t = step (frames, .value) t := by
  rw [step.eq_def]
  split <;> simp_all [step]

/-- The first token of a value does not close a list. -/
theorem exists_tokensOf_eq_cons (v : Value) : ∃ t ts, tokensOf v = t :: ts ∧ t ≠ .closeList := by
  cases v with
  | list items => exact ⟨.openList, _, rfl, fun h => nomatch h⟩
  | map entries => exact ⟨.openMap, _, rfl, fun h => nomatch h⟩
  | _ => exact ⟨.scalar _, [], rfl, fun h => nomatch h⟩

/-- The first item of a list is read as any other. -/
theorem run_firstItem (v : Value) (vs : List Value) (frames : List Frame) (more : List Token) :
    run (frames, .firstItem) (itemTokens (v :: vs) ++ more) =
      run (frames, .value) (itemTokens (v :: vs) ++ more) := by
  obtain ⟨t, ts, htokens, hclose⟩ := exists_tokensOf_eq_cons v
  obtain ⟨us, hitems⟩ : ∃ us, itemTokens (v :: vs) = t :: us := by
    cases vs with
    | nil => exact ⟨ts, by rw [itemTokens, htokens]⟩
    | cons w vs => exact ⟨_, by rw [itemTokens, htokens, List.cons_append]⟩
  rw [hitems, List.cons_append, run_cons, run_cons, step_firstItem frames hclose]

/-- The first key of a map is read as any other. -/
theorem run_firstKey (e : String × Value) (es : List (String × Value)) (frames : List Frame)
    (more : List Token) :
    run (.map [] :: frames, .firstKey) (entryTokens (Value.named (e :: es)) ++ more) =
      run (.map [] :: frames, .key) (entryTokens (Value.named (e :: es)) ++ more) := by
  obtain ⟨us, hentries⟩ :
      ∃ us, entryTokens (Value.named (e :: es)) = .scalar (.text e.1) :: us := by
    cases es <;> exact ⟨_, rfl⟩
  rw [hentries, List.cons_append, run_cons, run_cons]
  rfl

/-- **The tokens of a value are taken in as the value.** -/
theorem takes_tokensOf (h : IsTextual v) : Takes (tokensOf v) v := by
  induction h with
  | null => exact fun frames more => run_of_step _ rfl more
  | bool b => exact fun frames more => run_of_step _ rfl more
  | text s => exact fun frames more => run_of_step _ rfl more
  | @list items h ih =>
    intro frames more
    change run _ (.openList :: (itemTokens items ++ [.closeList]) ++ more) = _
    rw [List.cons_append, run_of_step (.list [] :: frames, .firstItem) rfl,
      List.append_assoc, List.singleton_append]
    cases items with
    | nil => exact run_of_step _ rfl more
    | cons v vs => rw [run_firstItem, run_itemTokens ih, List.reverse_nil, List.nil_append]
  | map m h ih =>
    intro frames more
    change run _ (.openMap :: (entryTokens (Value.named m.entries) ++ [.closeMap]) ++ more) = _
    rw [List.cons_append, run_of_step (.map [] :: frames, .firstKey) rfl,
      List.append_assoc, List.singleton_append]
    -- no key comes twice, so that no entry takes the place of another one
    have hmap : mapOf (Value.named m.entries).reverse = .map (Value.named m.entries) := by
      rw [mapOf, List.reverse_reverse, Value.ofEntries_named]
    rcases hes : m.entries with _ | ⟨e, es⟩
    · exact run_of_step _ rfl more
    · rw [hes] at ih hmap
      rw [run_firstKey, run_entryTokens ih, List.append_nil, hmap]

theorem parse_of_writes (h : IsTextual v) (hx : Writes x (tokensOf v)) : parse x = .ok v := by
  have htakes := takes_tokensOf h [] []
  rw [List.append_nil] at htakes
  rw [parse, hx.tokens_eq, ofTokens, htakes]
  rfl

/-- **A value is read off the text that writes it**, however it is laid out. -/
theorem parse_render (l : Layout) (h : IsTextual v) : parse (render l v).toList = .ok v := by
  rw [render, String.toList_ofList]
  exact parse_of_writes h (writes_renderAt h 0)

end PayloadTypes.Json
