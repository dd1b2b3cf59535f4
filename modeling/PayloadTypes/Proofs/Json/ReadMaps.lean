import PayloadTypes.Json.Parser
import PayloadTypes.Proofs.Data.NamedValues
import PayloadTypes.Proofs.Data.Outcome
import PayloadTypes.Proofs.Text.Reader
/-!
# Maps that are read

The keys of a map in a JSON text are texts, and none of them is in the map twice: a
map that is read is one from names (`exists_named_of_parse`). While a text is read,
the maps that are still open have texts as their keys (`State.IsNamed`), and each
token keeps it so.
-/

namespace PayloadTypes.Json

open Text (Reader)
open Text.Reader
open Value (named)

variable {s rest : List Char} {t : Token} {v : Value} {es : List (Value × Value)}
  {frames : List Frame} {st st' : State} {ts : List Token}

/-! ## Tokens -/

/-- The value is no map. -/
def IsNoMap (v : Value) : Prop := ∀ es, v ≠ .map es

theorem isNoMap_text (s : String) : IsNoMap (.text s) := by
  rintro es ⟨⟩

/-- A token that holds no map. -/
def Token.IsPlain (t : Token) : Prop := ∀ v, t = .scalar v → IsNoMap v

theorem isPlain_scalar (h : IsNoMap v) : (Token.scalar v).IsPlain := by
  rintro w ⟨⟩
  exact h

theorem isPlain_ofInteger (negative : Bool) (digits : List Char) :
    (Token.ofInteger negative digits).IsPlain := by
  rw [Token.ofInteger]
  split
  · exact isPlain_scalar nofun
  · exact nofun

theorem isPlain_punctuation {c : Char} (h : punctuation? c = some t) : t.IsPlain := by
  simp only [punctuation?] at h
  rintro v rfl
  repeat' split at h
  all_goals cases h

theorem isPlain_number (h : number s = some (t, rest)) : t.IsPlain := by
  rw [number, bind_eq_some_iff] at h
  obtain ⟨minus, _, -, h⟩ := h
  obtain ⟨whole, _, -, h⟩ := bind_eq_some_iff.mp h
  obtain ⟨frac, _, -, h⟩ := bind_eq_some_iff.mp h
  obtain ⟨exp, _, -, h⟩ := bind_eq_some_iff.mp h
  split at h
  · cases h
    exact isPlain_ofInteger _ _
  · cases h
    exact isPlain_scalar nofun

theorem isNoMap_word (h : word s = some (v, rest)) : IsNoMap v := by
  obtain ⟨w, hw, hv⟩ := List.exists_of_findSome?_eq_some h
  obtain ⟨p, -, hp⟩ := Option.map_eq_some_iff.mp hv
  obtain ⟨rfl, -⟩ := Prod.mk.inj hp
  simp only [wordValues, List.mem_cons, List.not_mem_nil, or_false] at hw
  rcases hw with rfl | rfl | rfl | rfl | rfl | rfl <;> exact nofun

theorem isPlain_token (h : token s = some (some t, rest)) : t.IsPlain := by
  cases s with
  | nil => cases h
  | cons c r =>
    rw [token] at h
    split at h
    · cases h
    · split at h
      · next hmark =>
        cases h
        exact isPlain_punctuation hmark
      · -- what stands there is a string, a number or a word
        simp only [orElse_apply, Option.orElse_eq_or, Option.or_eq_some_iff] at h
        rcases h with h | ⟨-, h | ⟨-, h⟩⟩
        all_goals
          obtain ⟨a, _, hread, ha⟩ := bind_eq_some_iff.mp h
          cases ha
        · exact isPlain_scalar (isNoMap_text _)
        · exact isPlain_number hread
        · exact isPlain_scalar (isNoMap_word hread)

theorem isPlain_of_mem_tokensFrom {n : ℕ} (h : t ∈ tokensFrom n s) : t.IsPlain := by
  induction n generalizing s with
  | zero => cases s <;> cases h
  | succ n ih =>
    cases s with
    | nil => cases h
    | cons c r =>
      simp only [tokensFrom] at h
      split at h
      · next t' rest htoken =>
        rcases List.mem_append.mp h with h | h
        · rw [Option.mem_toList] at h
          rw [Option.mem_def.mp h] at htoken
          exact isPlain_token htoken
        · exact ih h
      · rw [List.mem_singleton.mp h]
        exact nofun

/-! ## Open maps -/

/-- The keys of the entries are texts. -/
def AreNamed (es : List (Value × Value)) : Prop := ∃ ps, es = named ps

theorem AreNamed.cons {k : Value} (hk : ∃ name, k = .text name) (h : AreNamed es) (v : Value) :
    AreNamed ((k, v) :: es) := by
  obtain ⟨name, rfl⟩ := hk
  obtain ⟨ps, rfl⟩ := h
  exact ⟨(name, v) :: ps, rfl⟩

/-- If the value is a map, it is one from names. -/
def IsNamedMap (v : Value) : Prop :=
  ∀ es, v = .map es → ∃ m : OrderedMap Value, es = named m.entries

theorem IsNoMap.isNamedMap (h : IsNoMap v) : IsNamedMap v :=
  fun es hes => absurd hes (h es)

/-- **Entries under texts make up a map from names.** -/
theorem isNamedMap_mapOf (h : AreNamed es) : IsNamedMap (mapOf es) := by
  obtain ⟨ps, rfl⟩ := h
  rintro entries ⟨⟩
  refine ⟨OrderedMap.ofList ps.reverse, ?_⟩
  have hreverse : (named ps).reverse = named ps.reverse := List.map_reverse.symm
  rw [Value.ofEntries, hreverse]
  exact Value.foldl_put_named .empty ps.reverse

/-- The maps that are open have texts as their keys. -/
def Frame.IsNamed : Frame → Prop
  | .list _ => True
  | .map es => AreNamed es
  | .entry es k => AreNamed es ∧ ∃ name, k = .text name

/-- What stands before the next token is no map but one from names. -/
def Phase.IsNamed : Phase → Prop
  | .after v => IsNamedMap v
  | _ => True

/-- All that was read so far has texts as keys. -/
def State.IsNamed (st : State) : Prop := (∀ f ∈ st.1, f.IsNamed) ∧ st.2.IsNamed

theorem isNamed_startValue (hst : ∀ f ∈ frames, f.IsNamed) (ht : t.IsPlain)
    (h : startValue frames t = .ok st) : State.IsNamed st := by
  cases t with
  | scalar v =>
    cases h
    exact ⟨hst, (ht v rfl).isNamedMap⟩
  | openList =>
    cases h
    exact ⟨List.forall_mem_cons.mpr ⟨trivial, hst⟩, trivial⟩
  | openMap =>
    cases h
    exact ⟨List.forall_mem_cons.mpr ⟨⟨[], rfl⟩, hst⟩, trivial⟩
  | _ => cases h

theorem isNamed_startKey (hst : ∀ f ∈ frames, f.IsNamed) (h : startKey frames t = .ok st) :
    State.IsNamed st := by
  rw [startKey.eq_def] at h
  split at h
  · next k =>
    split at h
    · cases h
      obtain ⟨hmap, houter⟩ := List.forall_mem_cons.mp hst
      exact ⟨List.forall_mem_cons.mpr ⟨⟨hmap, k, rfl⟩, houter⟩, trivial⟩
    · cases h
  · cases h

/-- **A token keeps texts as keys.** -/
theorem State.IsNamed.step (hst : State.IsNamed st) (ht : t.IsPlain) (h : step st t = .ok st') :
    State.IsNamed st' := by
  obtain ⟨hframes, hphase⟩ := hst
  rw [Json.step.eq_def] at h
  split at h
  · exact isNamed_startValue hframes ht h
  · cases h
    exact ⟨(List.forall_mem_cons.mp hframes).2, nofun⟩
  · exact isNamed_startValue hframes ht h
  · exact isNamed_startKey hframes h
  · cases h
    exact ⟨(List.forall_mem_cons.mp hframes).2, isNamedMap_mapOf ⟨[], rfl⟩⟩
  · exact isNamed_startKey hframes h
  · cases h
    exact ⟨hframes, trivial⟩
  · cases h
    exact ⟨List.forall_mem_cons.mpr ⟨trivial, (List.forall_mem_cons.mp hframes).2⟩, trivial⟩
  · cases h
    exact ⟨(List.forall_mem_cons.mp hframes).2, nofun⟩
  · -- the entry that was read stands under its text
    cases h
    obtain ⟨⟨hentries, hkey⟩, houter⟩ := List.forall_mem_cons.mp hframes
    exact ⟨List.forall_mem_cons.mpr ⟨hentries.cons hkey _, houter⟩, trivial⟩
  · cases h
    obtain ⟨⟨hentries, hkey⟩, houter⟩ := List.forall_mem_cons.mp hframes
    exact ⟨houter, isNamedMap_mapOf (hentries.cons hkey _)⟩
  · cases h

theorem State.IsNamed.run (hst : State.IsNamed st) (hts : ∀ t ∈ ts, t.IsPlain)
    (h : run st ts = .ok st') : State.IsNamed st' := by
  induction ts generalizing st with
  | nil =>
    cases h
    exact hst
  | cons t ts ih =>
    obtain ⟨ht, hts⟩ := List.forall_mem_cons.mp hts
    rw [Json.run, List.foldlM_cons] at h
    obtain ⟨st₁, hstep, h⟩ := bind_eq_ok_iff.mp h
    exact ih (hst.step ht hstep) hts h

/-- **A map that is read off a JSON text is one from names.** -/
theorem exists_named_of_parse (h : parse s = .ok (.map es)) :
    ∃ m : OrderedMap Value, es = named m.entries := by
  have hstart : State.IsNamed ([], .value) := ⟨nofun, trivial⟩
  rw [parse, ofTokens] at h
  obtain ⟨st, hrun, h⟩ := bind_eq_ok_iff.mp h
  have hst : State.IsNamed st := hstart.run (fun t => isPlain_of_mem_tokensFrom) hrun
  split at h
  · cases h
    exact hst.2 es rfl
  · cases h

end PayloadTypes.Json
