import Mathlib.Data.List.Chain
import Mathlib.Data.List.Perm.Subperm
import PayloadTypes.Proofs.Project.ScannedClasses
import PayloadTypes.Project.Scan
/-!
# Inherited members

The lineage of a class lists it and the classes above it, each followed by the
one that it extends and none twice, also where the parents lead in a ring
(`isLineage_lineage`). What a class inherits is told by the nearest class of its
lineage that tells it, in the words of that class (`inheritsNearest`): the
source of a method, the class that a collection collects, and the type of a
property of a data object.
-/

namespace PayloadTypes.ClassTable

open Source (ClassDecl)

/-! ## Lineages -/

/-- The class `d` extends the class `e` of the table. -/
def Extends (t : ClassTable) (d e : ClassDecl) : Prop :=
  ∃ name c, d.parent = some name ∧ t.get? name = some c ∧ c.decl = e

/-- The classes are `d` and the classes above it, nearest first. -/
structure IsLineage (t : ClassTable) (d : ClassDecl) (l : List ClassDecl) : Prop where
  /-- The class itself comes first. -/
  head : l.head? = some d
  /-- Each class is followed by the one that it extends. -/
  chain : l.IsChain t.Extends
  /-- No class comes twice. -/
  nodup : (l.map ClassDecl.fullName).Nodup
  /-- No other classes are above it. -/
  mem_iff : ∀ e, e ∈ l ↔ Relation.ReflTransGen t.Extends d e

variable {α : Type} {t : ClassTable} {seen : List String} {parent : Option String} {name : String}
  {c : ClassEntry} {d e : ClassDecl}

theorem Extends.unique (h : t.Extends d e) {e' : ClassDecl} (h' : t.Extends d e') : e = e' := by
  obtain ⟨name, c, hparent, hc, rfl⟩ := h
  obtain ⟨name', c', hparent', hc', rfl⟩ := h'
  cases hparent.symm.trans hparent'
  cases hc.symm.trans hc'
  rfl

/-- On the way up each class extends the next. -/
theorem isChain_above (hd : d.parent = parent) : (d :: t.above seen parent).IsChain t.Extends := by
  fun_induction above t seen parent generalizing d with
  | case1 => exact List.isChain_singleton d
  | case2 => exact List.isChain_singleton d
  | case3 seen name hs c hc ih =>
    exact List.isChain_cons_cons.mpr ⟨⟨name, c, hd, hc, rfl⟩, ih rfl⟩
  | case4 => exact List.isChain_singleton d

/-- The way up comes to no name that was passed. -/
theorem fullName_not_mem_of_mem_above (ht : t.Scanned) (he : e ∈ t.above seen parent) :
    e.fullName ∉ seen := by
  fun_induction above t seen parent with
  | case1 => cases he
  | case2 => cases he
  | case3 seen name hs c hc ih =>
    rcases List.mem_cons.mp he with rfl | he
    · rw [ht.fullName_eq hc]
      exact fun hname => absurd hs (by simp [hname])
    · exact fun hname => ih he (List.mem_cons_of_mem _ hname)
  | case4 => cases he

theorem nodup_above (ht : t.Scanned) : ((t.above seen parent).map ClassDecl.fullName).Nodup := by
  fun_induction above t seen parent with
  | case1 => exact List.nodup_nil
  | case2 => exact List.nodup_nil
  | case3 seen name hs c hc ih =>
    refine List.nodup_cons.mpr ⟨fun hmem => ?_, ih⟩
    obtain ⟨e, he, hname⟩ := List.mem_map.mp hmem
    refine fullName_not_mem_of_mem_above ht he ?_
    rw [hname, ht.fullName_eq hc]
    exact List.mem_cons_self
  | case4 => exact List.nodup_nil

/-- The way up ends only where it would come to a name that was passed. -/
theorem mem_above_or_seen (ht : t.Scanned) (hd : d.parent = parent)
    (he : e ∈ d :: t.above seen parent) {f : ClassDecl} (hf : t.Extends e f) :
    f ∈ t.above seen parent ∨ f.fullName ∈ seen := by
  -- The cases are those of the way up: no parent, a name that was passed, a class, no class.
  fun_induction above t seen parent generalizing d with
  | case1 =>
    obtain ⟨name, c, hparent, -⟩ := hf
    rw [List.mem_singleton.mp he, hd] at hparent
    cases hparent
  | case2 seen name hs =>
    obtain ⟨name', c, hparent, hc, rfl⟩ := hf
    rw [List.mem_singleton.mp he, hd] at hparent
    cases hparent
    rw [ht.fullName_eq hc]
    exact .inr (List.contains_iff_mem.mp hs)
  | case3 seen name hs c hc ih =>
    rcases List.mem_cons.mp he with rfl | he
    · have hnext : t.Extends e c.decl := ⟨name, c, hd, hc, rfl⟩
      exact .inl (hf.unique hnext ▸ List.mem_cons_self)
    · rcases ih rfl he with hmem | hmem
      · exact .inl (List.mem_cons_of_mem _ hmem)
      · rcases List.mem_cons.mp hmem with hname | hmem
        · -- the ring closes at the class under this name
          obtain ⟨name', c', -, hc', rfl⟩ := hf
          have hsame : name' = name := (ht.fullName_eq hc').symm.trans hname
          subst hsame
          cases hc.symm.trans hc'
          exact .inl List.mem_cons_self
        · exact .inr hmem
  | case4 seen name hs hc =>
    obtain ⟨name', c, hparent, hc', rfl⟩ := hf
    rw [List.mem_singleton.mp he, hd] at hparent
    cases hparent
    cases hc.symm.trans hc'

/-- **The lineage of a class of the table** lists it and all classes above it, nearest first and
none twice. -/
theorem isLineage_lineage (ht : t.Scanned) (hc : t.get? c.decl.fullName = some c) :
    t.IsLineage c.decl (t.lineage c.decl) where
  head := rfl
  chain := isChain_above rfl
  nodup := by
    refine List.nodup_cons.mpr ⟨fun hmem => ?_, nodup_above ht⟩
    obtain ⟨e, he, hname⟩ := List.mem_map.mp hmem
    exact fullName_not_mem_of_mem_above ht he (hname ▸ List.mem_cons_self)
  mem_iff e := by
    constructor
    · intro he
      rcases List.mem_cons.mp he with rfl | he
      · exact .refl
      · have hchain : (t.lineage c.decl).IsChain (Relation.ReflTransGen t.Extends) :=
          (isChain_above rfl).imp fun _ _ => .single
        exact hchain.rel_cons he
    · intro habove
      induction habove with
      | refl => exact List.mem_cons_self
      | @tail e f _ hf ih =>
        rcases mem_above_or_seen ht rfl ih hf with hmem | hmem
        · exact List.mem_cons_of_mem _ hmem
        · -- the class itself is the only one of its name
          obtain ⟨name, c', -, hc', rfl⟩ := hf
          have hname := List.mem_singleton.mp hmem
          rw [ht.fullName_eq hc'] at hname
          subst hname
          cases hc.symm.trans hc'
          exact List.mem_cons_self

/-- A lineage is no longer than the table. -/
theorem length_lineage_le (ht : t.Scanned) (hc : t.get? c.decl.fullName = some c) :
    (t.lineage c.decl).length ≤ t.size := by
  have hsub : (t.lineage c.decl).map ClassDecl.fullName ⊆ t.keys := by
    intro name hname
    obtain ⟨e, he, rfl⟩ := List.mem_map.mp hname
    rcases Relation.ReflTransGen.cases_tail ((isLineage_lineage ht hc).mem_iff e |>.mp he) with
      rfl | ⟨_, -, name, c', -, hc', rfl⟩
    · exact mem_keys_of_lookup hc
    · exact ht.fullName_eq hc' ▸ mem_keys_of_lookup hc'
  have hle := (List.subperm_of_subset (isLineage_lineage ht hc).nodup hsub).length_le
  rwa [List.length_map, OrderedMap.keys, List.length_map] at hle

/-! ## The nearest class that has something -/

/-- The first of some classes that has something is `owner`, and it has `a`. -/
def IsNearest (has : ClassDecl → Option α) (l : List ClassDecl) (owner : ClassDecl) (a : α) :
    Prop :=
  ∃ front back, l = front ++ owner :: back ∧ (∀ d ∈ front, has d = none) ∧ has owner = some a

theorem findSome?_eq_some_iff_isNearest {has : ClassDecl → Option α} {l : List ClassDecl} {a : α} :
    l.findSome? has = some a ↔ ∃ owner, IsNearest has l owner a := by
  rw [List.findSome?_eq_some_iff]
  constructor
  · rintro ⟨front, owner, back, hl, hhas, hfront⟩
    exact ⟨owner, front, back, hl, hfront, hhas⟩
  · rintro ⟨owner, front, back, hl, hfront, hhas⟩
    exact ⟨front, owner, back, hl, hhas, hfront⟩

theorem isNearest_map_iff {β : Type} {has : ClassDecl → Option α} {f : ClassDecl → α → β}
    {l : List ClassDecl} {owner : ClassDecl} {b : β} :
    IsNearest (fun d => (has d).map (f d)) l owner b ↔
      ∃ a, IsNearest has l owner a ∧ f owner a = b := by
  constructor
  · rintro ⟨front, back, hl, hfront, howner⟩
    obtain ⟨a, ha, hb⟩ := Option.map_eq_some_iff.mp howner
    exact ⟨a, ⟨front, back, hl, fun d hd => Option.map_eq_none_iff.mp (hfront d hd), ha⟩, hb⟩
  · rintro ⟨a, ⟨front, back, hl, hfront, ha⟩, hb⟩
    exact ⟨front, back, hl, fun d hd => Option.map_eq_none_iff.mpr (hfront d hd),
      Option.map_eq_some_iff.mpr ⟨a, ha, hb⟩⟩

theorem method?_eq_some_iff {source : List Char} {owner : ClassDecl} :
    t.method? d name = some (source, owner) ↔
      IsNearest (fun x => Source.methodSource? x.body.toList name) (t.lineage d) owner source := by
  rw [method?, findSome?_eq_some_iff_isNearest]
  simp only [isNearest_map_iff]
  constructor
  · rintro ⟨_, _, h, hpair⟩
    cases hpair
    exact h
  · exact fun h => ⟨owner, source, h, rfl⟩

theorem filled?_of_filled? {given : Option String} {s : String} (h : filled? given = some s) :
    filled? (some s) = some s := by
  cases given with
  | none => cases h
  | some s' =>
    by_cases hempty : s' = ""
    · subst hempty
      cases h
    · have hs : filled? (some s') = some s' := by simp [filled?, hempty]
      cases hs.symm.trans h
      exact hs

theorem filled?_collectedBy (l : List ClassDecl) :
    filled? (collectedBy l) =
      l.findSome? fun x => filled? (Source.collects? x.scope x.body.toList) := by
  fun_induction collectedBy l with
  | case1 => rfl
  | case2 c => rw [List.findSome?_singleton]
  | case3 c cs _ hempty ih => rw [List.findSome?_cons, hempty, ih]
  | case4 c cs _ name hname => rw [List.findSome?_cons, hname, filled?_of_filled? hname]

theorem get?_ownProperties (d : ClassDecl) (prop : String) :
    (ownProperties d).get? prop =
      ((Source.typedProperties d.body.toList).get? prop).map d.scope.qualify :=
  OrderedMap.get?_mapValues _ _ _

/-- Of the properties of some classes, those of the classes in front hide the others. -/
theorem get?_mergedProperties (l : List ClassDecl) (prop : String) :
    (l.reverse.foldl (fun m owner => m.merge (ownProperties owner)) OrderedMap.empty).get? prop =
      l.findSome? fun d => (ownProperties d).get? prop := by
  rw [List.foldl_reverse]
  induction l with
  | nil => rfl
  | cons d l ih =>
    rw [List.foldr_cons, OrderedMap.get?_merge, ih, List.findSome?_cons]
    cases (ownProperties d).get? prop <;> rfl

theorem get?_properties_eq_some_iff {prop type : String} :
    (t.dataOf c).properties.get? prop = some type ↔
      ∃ owner written, IsNearest (fun d => (Source.typedProperties d.body.toList).get? prop)
        (t.lineage c.decl) owner written ∧ owner.scope.qualify written = type := by
  rw [dataOf, get?_mergedProperties, findSome?_eq_some_iff_isNearest]
  simp only [get?_ownProperties, isNearest_map_iff]

/-! ## What is inherited -/

/-- What a class inherits is told by the nearest class of its lineage that tells it. -/
structure InheritsNearest (t : ClassTable) (c : ClassEntry) : Prop where
  /-- The lineage lists the class and all classes above it, nearest first and none twice. -/
  lineage : t.IsLineage c.decl (t.lineage c.decl)
  /-- It ends, and is no longer than the table. -/
  length_le : (t.lineage c.decl).length ≤ t.size
  /-- The source of a method is that of the nearest class that has it with a body. -/
  method : ∀ name source owner, t.method? c.decl name = some (source, owner) ↔
    IsNearest (fun d => Source.methodSource? d.body.toList name) (t.lineage c.decl) owner source
  /-- A collection collects what the nearest class says that says so, in the scope of that class. -/
  collects : ∀ name, filled? (t.collectionOf c).collects = some name ↔
    ∃ owner, IsNearest (fun d => filled? (Source.collects? d.scope d.body.toList))
      (t.lineage c.decl) owner name
  /-- A property has the type that the nearest class writes, in the scope of that class. -/
  property : ∀ prop type, (t.dataOf c).properties.get? prop = some type ↔
    ∃ owner written, IsNearest (fun d => (Source.typedProperties d.body.toList).get? prop)
      (t.lineage c.decl) owner written ∧ owner.scope.qualify written = type

/-- **A class inherits from the nearest**, wherever the parents lead. -/
theorem inheritsNearest (ht : t.Scanned) (hc : t.get? c.decl.fullName = some c) :
    t.InheritsNearest c where
  lineage := isLineage_lineage ht hc
  length_le := length_lineage_le ht hc
  method _ _ _ := method?_eq_some_iff
  collects name := by
    rw [collectionOf, filled?_collectedBy, findSome?_eq_some_iff_isNearest]
  property _ _ := get?_properties_eq_some_iff

/-- A point in space, which adds a coordinate and changes the type of another one. -/
def spacePoint : ClassEntry :=
  ⟨appClass "SpacePoint" (some "App\\Point") "public float $x; public float $z;", "SpacePoint.php"⟩

/-- Points in space extend points, and these extend points in space. -/
def pointTable : ClassTable where
  entries := [
    ("App\\Point", ⟨appClass "Point" (some "App\\SpacePoint") "public int $x; public Unit $y;",
      "Point.php"⟩),
    ("App\\SpacePoint", spacePoint)]
  nodup := by decide

theorem scanned_pointTable : pointTable.Scanned where
  keyed := by
    change ∀ e ∈ pointTable.entries, _
    decide
  named := by decide

theorem inheritsNearest_spacePoint :
    pointTable.Scanned ∧ pointTable.get? spacePoint.decl.fullName = some spacePoint ∧
      pointTable.InheritsNearest spacePoint :=
  have hget : pointTable.get? spacePoint.decl.fullName = some spacePoint := rfl
  ⟨scanned_pointTable, hget, inheritsNearest scanned_pointTable hget⟩

end PayloadTypes.ClassTable
