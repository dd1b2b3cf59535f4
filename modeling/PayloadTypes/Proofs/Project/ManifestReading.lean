import PayloadTypes.Project.Manifest
import PayloadTypes.Proofs.Data.Outcome
import PayloadTypes.Proofs.Files.Placing
import PayloadTypes.Proofs.Project.Settling
/-!
# Reading manifests

A manifest is made ready piece by piece before it is checked: a section has to
be a map, an entry has to stand for entries of its own, the rules of a request
have to be rules and the file of a resource has to be read. A section that is no
map and a file that cannot be read are refused with a failure; an entry of
another shape is faulty. The check itself only ever refuses, so it is the faulty
pieces alone that keep a manifest from settling
(`settles_projectOfManifest_iff`).
-/

namespace PayloadTypes

open Files (FileTree Path)
open Noting (Reading)

variable {tree : FileTree} {base : Option Path} {es own : List (Value × Value)} {v item : Value}
  {parts : List Value} {p : Value × Value} {name k file : String}

/-! ## What an entry declares -/

/-- The parts that a value is made of when it is gone through. -/
inductive HasParts : Value → List Value → Prop
  /-- A list has its items. -/
  | list (vs : List Value) : HasParts (.list vs) vs
  /-- A text has its characters. -/
  | text (s : String) : HasParts (.text s) (s.toList.map fun c => .text (String.singleton c))
  /-- A map has its keys. -/
  | map (es : List (Value × Value)) : HasParts (.map es) (es.map Prod.fst)

/-- The value has no parts that may change, so that it can be a key. -/
def IsKey (v : Value) : Prop := (∀ vs, v ≠ .list vs) ∧ ∀ es, v ≠ .map es

/-- The item lists a key and a value. -/
def Lists (item : Value) (p : Value × Value) : Prop := HasParts item [p.1, p.2] ∧ IsKey p.1

/-- The entry stands for entries: those of a map, or the pairs of a list. -/
inductive Declares : Value → List (Value × Value) → Prop
  /-- What counts as not there stands for none. -/
  | nothing (v : Value) : v.isTruthy = false → Declares v []
  /-- A map stands for its own. -/
  | map (es : List (Value × Value)) : Declares (.map es) es
  /-- A list stands for its pairs, of which a later one is put over an earlier one. -/
  | pairs (items : List Value) (ps : List (Value × Value)) : List.Forall₂ Lists items ps →
      Declares (.list items) (Value.ofEntries ps)

theorem partsOf_eq_ok_iff : partsOf item = .ok parts ↔ HasParts item parts := by
  constructor
  · intro h
    cases item with
    | list vs => cases h; exact .list _
    | text s => cases h; exact .text s
    | map es => cases h; exact .map es
    | _ => cases h
  · rintro (_ | _ | _) <;> rfl

theorem pairOfParts_eq_ok_iff : pairOfParts parts = .ok p ↔ parts = [p.1, p.2] ∧ IsKey p.1 := by
  constructor
  · intro h
    unfold pairOfParts at h
    split at h
    · cases h
    · cases h
    · next hlist hmap =>
      cases h
      exact ⟨rfl, hlist, hmap⟩
    · cases h
  · rintro ⟨rfl, hlist, hmap⟩
    unfold pairOfParts
    split
    · next h => exact absurd (List.cons.inj h).1 (hlist _)
    · next h => exact absurd (List.cons.inj h).1 (hmap _)
    · next h =>
      cases h
      rfl
    · next h => exact absurd rfl (h _ _)

/-- **An item is read as a pair just if it lists it.** -/
theorem pairOfItem_eq_ok_iff : pairOfItem item = .ok p ↔ Lists item p := by
  have hitem : pairOfItem item = .ok p ↔
      ∃ parts, partsOf item = .ok parts ∧ pairOfParts parts = .ok p := by
    rw [pairOfItem]
    cases partsOf item with
    | error f => exact ⟨(nomatch ·), fun ⟨_, h, _⟩ => nomatch h⟩
    | ok parts => exact ⟨fun h => ⟨parts, rfl, h⟩, fun ⟨_, h, hp⟩ => Except.ok.inj h ▸ hp⟩
  rw [hitem]
  constructor
  · rintro ⟨parts, hparts, hp⟩
    obtain ⟨rfl, hkey⟩ := pairOfParts_eq_ok_iff.mp hp
    exact ⟨partsOf_eq_ok_iff.mp hparts, hkey⟩
  · rintro ⟨hparts, hkey⟩
    exact ⟨_, partsOf_eq_ok_iff.mpr hparts, pairOfParts_eq_ok_iff.mpr ⟨rfl, hkey⟩⟩

/-- The items of a list are read as pairs just if each lists its own. -/
theorem mapM_pairOfItem_eq_ok_iff {items : List Value} {ps : List (Value × Value)} :
    items.mapM pairOfItem = .ok ps ↔ List.Forall₂ Lists items ps := by
  rw [mapM_eq_ok_iff]
  exact ⟨List.Forall₂.imp fun _ _ => pairOfItem_eq_ok_iff.mp,
    List.Forall₂.imp fun _ _ => pairOfItem_eq_ok_iff.mpr⟩

/-- **An entry is read as entries just if it stands for them.** -/
theorem declarationEntries_eq_ok_iff : declarationEntries v = .ok own ↔ Declares v own := by
  constructor
  · intro h
    unfold declarationEntries at h
    split at h
    · next hv =>
      cases h
      exact .nothing v (by simpa using hv)
    · split at h
      · cases h
        exact .map _
      · next items hv =>
        cases hread : items.mapM pairOfItem with
        | error f => rw [hread] at h; cases h
        | ok ps =>
          rw [hread] at h
          cases h
          exact .pairs items ps (mapM_pairOfItem_eq_ok_iff.mp hread)
      · cases h
      · cases h
  · intro h
    cases h with
    | nothing v hv =>
      unfold declarationEntries
      rw [if_pos (by rw [hv]; rfl)]
    | map own => cases own <;> rfl
    | pairs items ps hps =>
      have hread := mapM_pairOfItem_eq_ok_iff.mpr hps
      cases hps with
      | nil => rfl
      | cons hp hps =>
        exact congrArg (Except.map Value.ofEntries) hread

/-! ## Pieces -/

/-- A piece of a manifest, in the order in which the pieces are read. -/
inductive Piece where
  /-- A section. -/
  | section (name : String) (v : Value)
  /-- An entry of a section. -/
  | entry (name : String) (v : Value)

/-- A section and its entries. -/
def sectionPieces (name : String) (v : Value) : List Piece :=
  .section name v ::
    match v with
    | .map es => es.map fun e => .entry name e.2
    | _ => []

/-- The pieces of a manifest. -/
def piecesOf (es : ManifestEntries) : List Piece :=
  Failure.sections.flatMap fun name => sectionPieces name ((Value.get? name es).getD .null)

/-- The rules that are given are rules. -/
def HasRules (own : List (Value × Value)) : Prop :=
  ∀ v, Value.get? "rules" own = some v → v.isTruthy = true →
    ∃ rules, v = .map rules ∧ ∀ e ∈ rules, Rule.isRule e.2 = true

/-- The file that is given is a text that can name a file. -/
def NamesFile (base : Option Path) (own : List (Value × Value)) : Prop :=
  ∀ v, Value.get? "file" own = some v →
    ∃ file, v = .text file ∧ Char.ofNat 0 ∉ (filePath base file).text.toList

namespace Piece

/-- A section that is no map, or a resource of a file that cannot be read. -/
def Refuses (tree : FileTree) (base : Option Path) : Piece → Prop
  | .section _ v => v.isTruthy = true ∧ ∀ es, v ≠ .map es
  | .entry name v => name = "resources" ∧ ∃ own file, Declares v own ∧
      Value.get? "file" own = some (.text file) ∧
      Char.ofNat 0 ∉ (filePath base file).text.toList ∧
      ∀ text, tree.readText (filePath base file) ≠ .ok text

/-- An entry that stands for no entries, or a request or resource that they do not fit. -/
def Faults (base : Option Path) : Piece → Prop
  | .section _ _ => False
  | .entry name v => ¬ ∃ own, Declares v own ∧ (name = "requests" → HasRules own) ∧
      (name = "resources" → NamesFile base own)

end Piece

/-- An entry stands for one list of entries at most. -/
theorem Declares.eq {own' : List (Value × Value)} (h : Declares v own) (h' : Declares v own') :
    own = own' :=
  Except.ok.inj
    ((declarationEntries_eq_ok_iff.mpr h).symm.trans (declarationEntries_eq_ok_iff.mpr h'))

theorem faults_entry_iff (h : Declares v own) : Piece.Faults base (.entry name v) ↔
    ¬ ((name = "requests" → HasRules own) ∧ (name = "resources" → NamesFile base own)) := by
  refine not_congr ⟨?_, fun hfit => ⟨own, h, hfit⟩⟩
  rintro ⟨own', hown', hfit⟩
  exact h.eq hown' ▸ hfit

theorem refuses_entry_iff (h : Declares v own) : Piece.Refuses tree base (.entry name v) ↔
    name = "resources" ∧ ∃ file, Value.get? "file" own = some (.text file) ∧
      Char.ofNat 0 ∉ (filePath base file).text.toList ∧
      ∀ text, tree.readText (filePath base file) ≠ .ok text := by
  refine and_congr_right fun _ => ⟨?_, fun ⟨file, hfile⟩ => ⟨own, file, h, hfile⟩⟩
  rintro ⟨own', file, hown', hfile⟩
  exact ⟨file, h.eq hown' ▸ hfile⟩

/-- How the pieces of a manifest are read. -/
def manifestReading (tree : FileTree) (base : Option Path) : Reading Piece where
  Refuses := Piece.Refuses tree base
  Faults := Piece.Faults base
  not_faults {p} hrefused := by
    cases p with
    | «section» name v => exact id
    | entry name v =>
      obtain ⟨rfl, own, file, hown, hfile, hzero, -⟩ := hrefused
      rw [faults_entry_iff hown, not_not]
      refine ⟨fun h => absurd h (by decide), fun _ v hv => ⟨file, ?_, hzero⟩⟩
      exact Option.some.inj (hv.symm.trans hfile)

/-! ## Entries made ready -/

/-- What is put under a name that is not there goes to the end. -/
theorem put_of_get?_eq_none (h : Value.get? k es = none) :
    Value.put (.text k) v es = es ++ [(.text k, v)] := by
  induction es with
  | nil => rfl
  | cons e es ih =>
    rw [Value.get?, Option.map_eq_none_iff, List.find?_cons] at h
    cases he : e.1.sameKey (.text k) with
    | true => rw [he] at h; cases h
    | false =>
      rw [he] at h
      rw [Value.put, if_neg (by rw [he]; decide), ih (Option.map_eq_none_iff.mpr h)]
      rfl

/-- A default under one name leaves what stands under another. -/
theorem get?_withDefault (h : name ≠ k) :
    Value.get? k (withDefault name v es) = Value.get? k es := by
  unfold withDefault
  split
  · rfl
  · next hname =>
    rw [put_of_get?_eq_none (Option.not_isSome_iff_eq_none.mp hname), Value.get?,
      List.find?_append]
    have hlast : [((Value.text name), v)].find? (fun e => e.1.sameKey (.text k)) = none := by
      rw [List.find?_cons, Value.sameKey, beq_eq_false_iff_ne.mpr h]
      rfl
    rw [hlast, Option.or_none]
    rfl

theorem hasRules_withDefault : HasRules (withDefault "name" v own) ↔ HasRules own := by
  unfold HasRules
  rw [get?_withDefault (by decide)]

/-- The entries of a request are ready as they are, if their rules are rules. -/
theorem requestDraft_ends (h : HasRules own) : (requestDraft own).Ends (.ok own) := by
  unfold requestDraft
  cases hv : Value.get? "rules" own with
  | none => exact Noting.ends_pure own
  | some v =>
    rw [Option.getD_some]
    -- Rules that are a map are checked, and anything else counts only if it is truthy.
    split
    · next rules =>
      have hall : (rules.all fun e => Rule.isRule e.2) = true := by
        cases rules with
        | nil => rfl
        | cons e rules =>
          obtain ⟨rules', heq, hrules⟩ := h _ hv rfl
          cases heq
          exact List.all_eq_true.mpr hrules
      rw [if_pos hall]
      exact Noting.ends_pure own
    · next hmap =>
      rw [if_neg fun htruthy => ?_]
      · exact Noting.ends_pure own
      · obtain ⟨rules, rfl, -⟩ := h v hv htruthy
        exact hmap rules rfl

/-- The entries of a request are faulty if their rules are no rules. -/
theorem exists_requestDraft_ends (h : ¬ HasRules own) :
    ∃ f, (requestDraft own).Ends (.error (.fault f)) := by
  unfold requestDraft
  unfold HasRules at h
  push Not at h
  obtain ⟨v, hv, htruthy, hrules⟩ := h
  rw [hv, Option.getD_some]
  split
  · next rules =>
    obtain ⟨e, he, hrule⟩ := hrules rules rfl
    rw [if_neg fun hall => hrule (List.all_eq_true.mp hall e he)]
    exact ⟨_, Noting.ends_fault _⟩
  · rw [if_pos htruthy]
    exact ⟨_, Noting.ends_fault _⟩

/-- The source of a resource is found in every text. -/
theorem exists_resourceSource_ends (path : Path) (text : String) :
    ∃ source, (resourceSource path text).Ends (.ok source) := by
  unfold resourceSource
  split
  · exact ⟨_, Noting.ends_pure _⟩
  · exact ⟨_, (Noting.ends_note _).bind (Noting.ends_pure _)⟩

theorem exists_readResource_ends {text : String}
    (h : tree.readText (filePath base file) = .ok text) :
    ∃ source, (readResource tree base file).Ends (.ok source) := by
  obtain ⟨source, hsource⟩ := exists_resourceSource_ends (filePath base file) text
  refine ⟨source, ?_⟩
  unfold readResource
  rw [h]
  exact hsource

theorem readResource_ends_fault (h : Char.ofNat 0 ∈ (filePath base file).text.toList) :
    (readResource tree base file).Ends (.error (.fault (.file .zeroCharacter))) := by
  unfold readResource
  rw [FileTree.readText_eq_zeroCharacter_iff.mpr h]
  exact Noting.ends_fault _

theorem readResource_ends_fail (hzero : Char.ofNat 0 ∉ (filePath base file).text.toList)
    (h : ∀ text, tree.readText (filePath base file) ≠ .ok text) :
    (readResource tree base file).Ends
      (.error (.failure (.unreadableSource (filePath base file).text))) := by
  unfold readResource
  split
  · next text htext => exact absurd htext (h text)
  · next hread => exact absurd (FileTree.readText_eq_zeroCharacter_iff.mp hread) hzero
  · exact Noting.ends_fail _

/-- A text names a file if it makes a path without the character 0. -/
theorem namesFile_iff (h : Value.get? "file" own = some (.text file)) :
    NamesFile base own ↔ Char.ofNat 0 ∉ (filePath base file).text.toList := by
  constructor
  · intro hnames
    obtain ⟨file', heq, hzero⟩ := hnames _ h
    cases heq
    exact hzero
  · intro hzero v hv
    exact ⟨file, Option.some.inj (hv.symm.trans h), hzero⟩

/-! ## Pieces that are read -/

variable (tree base)

/-- A request is made ready or is faulty, by its rules. -/
theorem reads_requestDraft (key : Value) (h : Declares v own) :
    (manifestReading tree base).Reads .source (requestDraft (withDefault "name" key own))
      [.entry "requests" v] := by
  have hrefuses : ¬ Piece.Refuses tree base (.entry "requests" v) := fun hr =>
    absurd hr.1 (by decide)
  have hfaults : Piece.Faults base (.entry "requests" v) ↔ ¬ HasRules own := by
    rw [faults_entry_iff h]
    refine not_congr ⟨fun hfit => hfit.1 rfl, fun hfit => ⟨fun _ => hfit, ?_⟩⟩
    exact fun hname => absurd hname (by decide)
  by_cases hrules : HasRules own
  · exact .of_clear (requestDraft_ends (hasRules_withDefault.mpr hrules))
      ⟨hrefuses, fun hf => hfaults.mp hf hrules⟩
  · obtain ⟨f, hf⟩ := exists_requestDraft_ends (mt hasRules_withDefault.mp hrules)
    exact .faults f hf (.singleton (hfaults.mpr hrules))

/-- A resource is made ready, is refused or is faulty, by its file. -/
theorem reads_resourceDraft (key : Value) (h : Declares v own) :
    (manifestReading tree base).Reads .source
      (resourceDraft tree base (withDefault "name" key own)) [.entry "resources" v] := by
  have hfaults : Piece.Faults base (.entry "resources" v) ↔ ¬ NamesFile base own := by
    rw [faults_entry_iff h]
    refine not_congr ⟨fun hfit => hfit.2 rfl, fun hfit => ⟨?_, fun _ => hfit⟩⟩
    exact fun hname => absurd hname (by decide)
  unfold resourceDraft
  rw [get?_withDefault (by decide)]
  cases hv : Value.get? "file" own with
  | none =>
    refine .of_clear (Noting.ends_pure _) ⟨fun hr => ?_, fun hf => ?_⟩
    · obtain ⟨-, file, hnamed, -⟩ := (refuses_entry_iff h).mp hr
      cases hv.symm.trans hnamed
    · exact hfaults.mp hf fun v hnamed => nomatch hv.symm.trans hnamed
  | some w =>
    cases w with
    | text file =>
      -- the path is looked at before the tree: one with the character 0 is faulty and not refused
      rw [namesFile_iff hv, not_not] at hfaults
      by_cases hzero : Char.ofNat 0 ∈ (filePath base file).text.toList
      · exact .faults _ (readResource_ends_fault hzero).bind_error (.singleton (hfaults.mpr hzero))
      · by_cases hread : ∀ text, tree.readText (filePath base file) ≠ .ok text
        · refine .refuses _ rfl (readResource_ends_fail hzero hread).bind_error (.singleton ?_)
          exact (refuses_entry_iff h).mpr ⟨rfl, file, hv, hzero, hread⟩
        · obtain ⟨text, htext⟩ := not_forall_not.mp hread
          obtain ⟨source, hsource⟩ := exists_readResource_ends htext
          refine .of_clear (hsource.bind (Noting.ends_pure _)) ⟨fun hr => ?_, mt hfaults.mp hzero⟩
          obtain ⟨-, file', hv', -, hunread⟩ := (refuses_entry_iff h).mp hr
          cases hv.symm.trans hv'
          exact hunread text htext
    | _ =>
      refine .faults _ (Noting.ends_fault _) (.singleton (hfaults.mpr fun hnames => ?_))
      obtain ⟨file, heq, -⟩ := hnames _ hv
      cases heq

/-- In the other sections an entry is ready as soon as it stands for entries. -/
theorem reads_pure (key : Value) (hrequests : name ≠ "requests") (hresources : name ≠ "resources")
    (h : Declares v own) :
    (manifestReading tree base).Reads .source (pure (withDefault "name" key own))
      [.entry name v] := by
  refine .of_clear (Noting.ends_pure _) ⟨fun hr => hresources hr.1, fun hf => ?_⟩
  exact (faults_entry_iff h).mp hf ⟨fun hname => absurd hname hrequests,
    fun hname => absurd hname hresources⟩

/-- A section is a map, or counts as not there, or is refused. -/
theorem sectionEntries_cases (es : ManifestEntries) (name : String) :
    (∃ entries, (Value.get? name es).getD .null = .map entries ∧
        sectionEntries es name = .ok entries) ∨
      (∀ entries, (Value.get? name es).getD .null ≠ .map entries) ∧
        (((Value.get? name es).getD .null).isTruthy = false ∧ sectionEntries es name = .ok [] ∨
          ((Value.get? name es).getD .null).isTruthy = true ∧
            sectionEntries es name = .error (.sectionNotMap name)) := by
  unfold sectionEntries
  generalize (Value.get? name es).getD .null = v
  cases v with
  | map entries => exact .inl ⟨entries, rfl, by cases entries <;> rfl⟩
  | _ =>
    refine .inr ⟨fun entries h => (nomatch h), ?_⟩
    dsimp only
    split
    · next h => exact .inl ⟨by rwa [Bool.not_eq_true'] at h, rfl⟩
    · next h => exact .inr ⟨by rwa [Bool.not_eq_true', Bool.not_eq_false] at h, rfl⟩

/-- **The pieces of a section are read**, given that those of each of its entries are. -/
theorem reads_sectionDraft {draft : List (Value × Value) → Noting (List (Value × Value))}
    (hdraft : ∀ (key : Value) {v : Value} {own : List (Value × Value)}, Declares v own →
      (manifestReading tree base).Reads .source (draft (withDefault "name" key own))
        [.entry name v]) :
    (manifestReading tree base).Reads .source (sectionDraft es name draft)
      (sectionPieces name ((Value.get? name es).getD .null)) := by
  unfold sectionDraft sectionPieces
  rcases sectionEntries_cases es name with ⟨entries, hmap, hentries⟩ | ⟨hmap, hentries⟩
  · rw [hmap, hentries]
    have hclear : (manifestReading tree base).Clear (.section name (.map entries)) :=
      ⟨fun hr => hr.2 entries rfl, id⟩
    dsimp only
    rw [List.map_eq_flatMap]
    -- Each entry is read or found faulty on its own, in the order of the section.
    refine .cons hclear (Reading.reads_mapM fun e _ => ?_)
    cases hown : declarationEntries e.2 with
    | error f =>
      refine .faults f (Noting.ends_fault f) (.singleton ?_)
      rintro ⟨own, hdeclares, -⟩
      cases hown.symm.trans (declarationEntries_eq_ok_iff.mpr hdeclares)
    | ok own =>
      rw [← List.append_nil [Piece.entry name e.2]]
      exact (hdraft e.1 (declarationEntries_eq_ok_iff.mp hown)).bind fun _ => Reading.reads_pure _
  · generalize (Value.get? name es).getD .null = v at hmap hentries
    have hpieces : (match v with
        | .map es => es.map fun e => Piece.entry name e.2
        | _ => []) = [] := by
      split
      · exact absurd rfl (hmap _)
      · rfl
    rw [hpieces]
    rcases hentries with ⟨htruthy, hentries⟩ | ⟨htruthy, hentries⟩
    · rw [hentries]
      refine .of_clear (Noting.ends_pure []) ⟨fun hr => ?_, id⟩
      cases htruthy.symm.trans hr.1
    · rw [hentries]
      exact .refuses _ rfl (Noting.ends_fail _) (.singleton ⟨htruthy, hmap⟩)

/-! ## Manifests -/

variable {tree base}

/-- The keys of sections are texts, or one of them is not and is faulty. -/
theorem mapM_sectionName_cases (keys : List Value) :
    (∃ key ∈ keys, ∀ s, key ≠ .text s) ∧ keys.mapM sectionName = .error .sectionName ∨
      ∃ names : List String, keys = names.map .text ∧ keys.mapM sectionName = .ok names := by
  induction keys with
  | nil => exact .inr ⟨[], rfl, rfl⟩
  | cons key keys ih =>
    rw [List.mapM_cons]
    cases key with
    | text s =>
      rcases ih with ⟨⟨key, hkey, hno⟩, hread⟩ | ⟨names, rfl, hread⟩
      · rw [hread]
        exact .inl ⟨⟨key, List.mem_cons_of_mem _ hkey, hno⟩, rfl⟩
      · rw [hread]
        exact .inr ⟨s :: names, rfl, rfl⟩
    | _ => exact .inl ⟨⟨_, List.mem_cons_self, fun s h => nomatch h⟩, rfl⟩

/-- The sections that are not known are told, unless one is named by no text. -/
theorem unknownSections_cases (es : ManifestEntries) :
    (∃ e ∈ es, ∀ k, e.1 ≠ .text k) ∧ unknownSections es = .error .sectionName ∨
      (∀ e ∈ es, ∃ k, e.1 = .text k) ∧ ∃ names, unknownSections es = .ok names ∧
        ∀ k, k ∈ names ↔ ∃ e ∈ es, e.1 = .text k ∧ k ∉ Failure.sections := by
  unfold unknownSections
  rcases mapM_sectionName_cases ((es.map Prod.fst).filter isUnknownSection) with
    ⟨⟨key, hkey, hno⟩, hread⟩ | ⟨names, hnames, hread⟩
  · obtain ⟨e, he, rfl⟩ := List.mem_map.mp (List.mem_filter.mp hkey).1
    rw [hread]
    exact .inl ⟨⟨e, he, hno⟩, rfl⟩
  · have hmem (e : Value × Value) (he : e ∈ es) (hunknown : isUnknownSection e.1 = true) :
        ∃ k ∈ names, e.1 = .text k := by
      have hfilter := List.mem_filter.mpr ⟨List.mem_map_of_mem (f := Prod.fst) he, hunknown⟩
      rw [hnames] at hfilter
      obtain ⟨k, hk, heq⟩ := List.mem_map.mp hfilter
      exact ⟨k, hk, heq.symm⟩
    rw [hread]
    refine .inr ⟨fun e he => ?_, sortedNames names, rfl, fun k => ?_⟩
    · cases hkey : e.1 with
      | text k => exact ⟨k, rfl⟩
      | _ =>
        obtain ⟨k, -, heq⟩ := hmem e he (by rw [hkey]; rfl)
        exact absurd (hkey.symm.trans heq) (fun h => nomatch h)
    · rw [mem_sortedNames]
      constructor
      · intro hk
        have hfilter : Value.text k ∈ (es.map Prod.fst).filter isUnknownSection := by
          rw [hnames]
          exact List.mem_map_of_mem hk
        obtain ⟨hkeys, hunknown⟩ := List.mem_filter.mp hfilter
        obtain ⟨e, he, heq⟩ := List.mem_map.mp hkeys
        refine ⟨e, he, heq, fun hknown => ?_⟩
        rw [isUnknownSection, Bool.not_eq_true'] at hunknown
        exact absurd (List.contains_iff_mem.mpr hknown) (by rw [hunknown]; decide)
      · rintro ⟨e, he, heq, hunknown⟩
        obtain ⟨k', hk', heq'⟩ := hmem e he (by
          rw [heq, isUnknownSection, Bool.not_eq_true']
          exact Bool.eq_false_iff.mpr fun h => hunknown (List.contains_iff_mem.mp h))
        cases heq.symm.trans heq'
        exact hk'

/-- **The pieces of a manifest are read**, one section after the other. -/
theorem reads_manifestDrafts (tree : FileTree) (base : Option Path) (es : ManifestEntries) :
    (manifestReading tree base).Reads .source (manifestDrafts tree base es) (piecesOf es) := by
  unfold manifestDrafts
  refine (reads_sectionDraft tree base fun key _ _ => reads_requestDraft tree base key).bind
    fun _ => ?_
  refine (reads_sectionDraft tree base fun key _ _ => reads_resourceDraft tree base key).bind
    fun _ => ?_
  have hplain {name : String} (hrequests : name ≠ "requests") (hresources : name ≠ "resources") :
      (manifestReading tree base).Reads .source (sectionDraft es name pure)
        (sectionPieces name ((Value.get? name es).getD .null)) :=
    reads_sectionDraft tree base fun key _ _ => reads_pure tree base key hrequests hresources
  refine (hplain (by decide) (by decide)).bind fun _ => ?_
  refine (hplain (by decide) (by decide)).bind fun _ => ?_
  exact (hplain (by decide) (by decide)).bind fun _ => Reading.reads_pure _

/-- **A manifest settles**, as a project or with a failure of the sources, just if its sections are
named by texts and, unless one of these is not known, a refused piece stands in front of every
faulty one. -/
theorem settles_projectOfManifest_iff (tree : FileTree) (base : Option Path)
    (es : ManifestEntries) :
    (projectOfManifest tree base es).Settles .source ↔
      (∀ e ∈ es, ∃ k, e.1 = .text k) ∧
        ((∃ e ∈ es, ∃ k, e.1 = .text k ∧ k ∉ Failure.sections) ∨
          ∀ front piece back, piecesOf es = front ++ piece :: back → piece.Faults base →
            ∃ other ∈ front, other.Refuses tree base) := by
  unfold projectOfManifest
  rcases unknownSections_cases es with ⟨⟨e, he, hno⟩, hnames⟩ | ⟨htexts, names, hnames, hmem⟩
  · rw [hnames]
    refine iff_of_false (Noting.ends_fault _).not_settles fun h => ?_
    obtain ⟨k, hk⟩ := h.1 e he
    exact hno k hk
  · rw [hnames, and_iff_right htexts]
    cases names with
    | cons k names =>
      obtain ⟨e, he, heq, hunknown⟩ := (hmem k).mp List.mem_cons_self
      exact iff_of_true ((Noting.ends_fail _).settles_of_kind rfl)
        (.inl ⟨e, he, k, heq, hunknown⟩)
    | nil =>
      rw [or_iff_right]
      · -- what was read is only checked any more, and the check ends with a failure at most
        refine (reads_manifestDrafts tree base es).settles_bind_iff fun drafts => ?_
        split
        · exact (Noting.ends_pure _).settles
        · exact (Noting.ends_fail _).settles_of_kind rfl
      · rintro ⟨e, he, k, heq, hunknown⟩
        exact List.not_mem_nil ((hmem k).mpr ⟨e, he, heq, hunknown⟩)

/-- A manifest in which a number stands for the entries of a data object. -/
def numberedData : ManifestEntries := [(.text "data", .map [(.text "UserData", .int 5)])]

/-- A manifest whose keys are all texts need not settle. -/
theorem not_settles_numberedData :
    (∀ e ∈ numberedData, ∃ k, e.1 = .text k) ∧
      ¬ (projectOfManifest ⟨.dir [], []⟩ none numberedData).Settles .source := by
  have hends : (projectOfManifest ⟨.dir [], []⟩ none numberedData).Ends
      (.error (.fault .entryNotCollection)) := fun _ => rfl
  exact ⟨List.forall_mem_singleton.mpr ⟨"data", rfl⟩, hends.not_settles⟩

end PayloadTypes
