import PayloadTypes.Proofs.Project.ScannedClasses
/-!
# What a class is

The way up from a class goes from parent to parent, one in each round. Every
round but the last passes another name of the table, so that the way is over
after one round more than there are classes (`Climb.rounds_eq`). A way that
leads to a kind comes to no name twice: the names passed can be left aside there
(`kindAbove_eq_some_iff`), and a class is what the class is that it extends
(`kind?_ends_and_inherits`).
-/

namespace PayloadTypes.ClassTable

open Source (ClassDecl)

/-- Where the way up stands. -/
structure Climb where
  /-- The names that it has passed. -/
  seen : List String
  /-- The parent that it comes to next. -/
  next : Option String

namespace Climb

/-- One round of the way up: it is over, or it goes on from the next class. -/
def round (t : ClassTable) (x : Climb) : Option DeclKind ⊕ Climb :=
  match x.next with
  | none | some "" => .inl none
  | some name =>
    if name ∈ x.seen then .inl none
    else
      match baseKind? name with
      | some kind => .inl (some kind)
      | none =>
        match t.get? name with
        | some c => .inr ⟨name :: x.seen, c.decl.parent⟩
        | none => .inl (shortBaseKind? name)

/-- What comes of so many rounds. -/
def rounds (t : ClassTable) : Nat → Climb → Option DeclKind ⊕ Climb
  | 0, x => .inr x
  | n + 1, x =>
    match x.round t with
    | .inl kind => .inl kind
    | .inr y => y.rounds t n

end Climb

/-- So many classes up, the way from a parent comes to a class that tells a kind. -/
inductive LeadsTo (t : ClassTable) : Nat → Option String → DeclKind → Prop
  /-- A class of the framework tells it. -/
  | base {name : String} {kind : DeclKind} (hne : name ≠ "")
      (hbase : baseKind? name = some kind) : LeadsTo t 0 (some name) kind
  /-- The short name of a class that is not in the table tells it. -/
  | outside {name : String} {kind : DeclKind} (hne : name ≠ "") (hbase : baseKind? name = none)
      (hget : t.get? name = none) (hshort : shortBaseKind? name = some kind) :
      LeadsTo t 0 (some name) kind
  /-- A class of the table is what the class is that it extends. -/
  | up {n : Nat} {name : String} {c : ClassEntry} {kind : DeclKind} (hne : name ≠ "")
      (hbase : baseKind? name = none) (hget : t.get? name = some c)
      (habove : LeadsTo t n c.decl.parent kind) : LeadsTo t (n + 1) (some name) kind

variable {t : ClassTable} {seen : List String} {parent : Option String} {name : String}
  {kind kind' : DeclKind} {c : ClassEntry} {n m : Nat}

/-! ## The way up, in rounds -/

theorem kindAbove_none : t.kindAbove seen none = none := by
  rw [kindAbove]

theorem kindAbove_empty : t.kindAbove seen (some "") = none := by
  rw [kindAbove]

theorem kindAbove_of_mem (h : name ∈ seen) : t.kindAbove seen (some name) = none := by
  by_cases hne : name = ""
  · rw [hne, kindAbove_empty]
  · rw [kindAbove]
    · split
      · rfl
      · next hs => exact absurd (List.contains_iff_mem.mpr h) (Bool.not_eq_true _ ▸ hs)
    · exact hne

theorem kindAbove_of_not_mem (hne : name ≠ "") (h : name ∉ seen) :
    t.kindAbove seen (some name) =
      match baseKind? name with
      | some kind => some kind
      | none =>
        match t.get? name with
        | some c => t.kindAbove (name :: seen) c.decl.parent
        | none => shortBaseKind? name := by
  rw [kindAbove]
  · split
    · next hs => exact absurd (List.contains_iff_mem.mp hs) h
    · cases baseKind? name with
      | some kind => rfl
      | none =>
        dsimp only
        split <;> simp_all
  · exact hne

/-- The way up leads to what comes of its next round. -/
theorem Climb.kindAbove_eq (x : Climb) :
    t.kindAbove x.seen x.next =
      match x.round t with
      | .inl kind => kind
      | .inr y => t.kindAbove y.seen y.next := by
  obtain ⟨seen, next⟩ := x
  cases next with
  | none => exact kindAbove_none
  | some name =>
    by_cases hne : name = ""
    · subst hne
      exact kindAbove_empty
    · by_cases hs : name ∈ seen
      · rw [kindAbove_of_mem hs]
        simp [round, hs]
      · rw [kindAbove_of_not_mem hne hs]
        simp only [round, hs, if_false]
        cases baseKind? name with
        | some kind => rfl
        | none => cases t.get? name <;> rfl

/-- A round from which the way goes on passes another name of the table. -/
theorem Climb.unseen_round_lt {x y : Climb} (h : x.round t = .inr y) :
    t.unseen y.seen < t.unseen x.seen := by
  rw [round] at h
  split at h
  · cases h
  · cases h
  · split at h
    · cases h
    · next name _ _ hs =>
      cases hbase : baseKind? name with
      | some kind => simp [hbase] at h
      | none =>
        cases hc : t.get? name with
        | none => simp [hbase, hc] at h
        | some c =>
          simp only [hbase, hc, Sum.inr.injEq] at h
          subst h
          exact unseen_cons_lt (by simpa using hs) hc

/-- **The way up is over** after more rounds than there are names that it has not passed. -/
theorem Climb.rounds_eq {x : Climb} (h : t.unseen x.seen < n) :
    x.rounds t n = .inl (t.kindAbove x.seen x.next) := by
  induction n generalizing x with
  | zero => exact absurd h (Nat.not_lt_zero _)
  | succ n ih =>
    rw [rounds, kindAbove_eq]
    cases hround : x.round t with
    | inl kind => rfl
    | inr y =>
      have hless := unseen_round_lt hround
      exact ih (by omega)

/-! ## Ways that lead to a kind -/

namespace LeadsTo

/-- There is one way up from a parent. -/
theorem unique (h : t.LeadsTo n parent kind) (h' : t.LeadsTo m parent kind') :
    n = m ∧ kind = kind' := by
  induction h generalizing m with
  | base hne hbase =>
    cases h' with
    | base _ hbase' => exact ⟨rfl, Option.some.inj (hbase.symm.trans hbase')⟩
    | outside _ hbase' => cases hbase.symm.trans hbase'
    | up _ hbase' => cases hbase.symm.trans hbase'
  | outside hne hbase hget hshort =>
    cases h' with
    | base _ hbase' => cases hbase.symm.trans hbase'
    | outside _ _ _ hshort' => exact ⟨rfl, Option.some.inj (hshort.symm.trans hshort')⟩
    | up _ _ hget' => cases hget.symm.trans hget'
  | up hne hbase hget habove ih =>
    cases h' with
    | base _ hbase' => cases hbase.symm.trans hbase'
    | outside _ _ hget' => cases hget.symm.trans hget'
    | up _ _ hget' habove' =>
      cases hget.symm.trans hget'
      obtain ⟨rfl, rfl⟩ := ih habove'
      exact ⟨rfl, rfl⟩

/-- Every name passed is farther from a kind than so many classes. -/
def Farther (t : ClassTable) (n : Nat) (seen : List String) : Prop :=
  ∀ name ∈ seen, ∀ m kind, t.LeadsTo m (some name) kind → n < m

theorem not_mem_of_farther (h : t.LeadsTo n (some name) kind) (hseen : Farther t n seen) :
    name ∉ seen :=
  fun hname => Nat.lt_irrefl n (hseen name hname n kind h)

theorem Farther.up (h : t.LeadsTo (n + 1) (some name) kind) (hseen : Farther t (n + 1) seen) :
    Farther t n (name :: seen) := by
  intro other hother m kind' h'
  rcases List.mem_cons.mp hother with rfl | hother
  · have := (h.unique h').1
    omega
  · have := hseen other hother m kind' h'
    omega

/-- A way that leads to a kind is found, where it comes to no name that was passed. -/
theorem kindAbove_eq (h : t.LeadsTo n parent kind) (hseen : Farther t n seen) :
    t.kindAbove seen parent = some kind := by
  induction h generalizing seen with
  | base hne hbase =>
    have hnew := not_mem_of_farther (.base hne hbase) hseen
    rw [kindAbove_of_not_mem hne hnew, hbase]
  | outside hne hbase hget hshort =>
    have hnew := not_mem_of_farther (.outside hne hbase hget hshort) hseen
    rw [kindAbove_of_not_mem hne hnew, hbase, hget, hshort]
  | up hne hbase hget habove ih =>
    have hway := LeadsTo.up hne hbase hget habove
    rw [kindAbove_of_not_mem hne (not_mem_of_farther hway hseen), hbase, hget]
    exact ih (hseen.up hway)

end LeadsTo

theorem exists_leadsTo (h : t.kindAbove seen parent = some kind) :
    ∃ n, t.LeadsTo n parent kind := by
  fun_induction kindAbove t seen parent with
  | case1 => cases h
  | case2 => cases h
  | case3 => cases h
  | case4 seen name hne hs k hbase =>
    cases h
    exact ⟨0, .base hne hbase⟩
  | case5 seen name hne hs hbase c hc ih =>
    obtain ⟨n, habove⟩ := ih h
    exact ⟨n + 1, .up hne hbase hc habove⟩
  | case6 seen name hne hs hbase hc => exact ⟨0, .outside hne hbase hc h⟩

/-- **What the way up leads to** does not depend on the names passed on it. -/
theorem kindAbove_eq_some_iff :
    t.kindAbove [] parent = some kind ↔ ∃ n, t.LeadsTo n parent kind :=
  ⟨exists_leadsTo, fun ⟨_, h⟩ => h.kindAbove_eq fun _ hname => absurd hname List.not_mem_nil⟩

/-! ## Classes -/

/-- What a class is found to be, if the way up from it is over after so many rounds. -/
def kindWithin? (t : ClassTable) (n : Nat) (d : ClassDecl) : Option (Option DeclKind) :=
  match d.kind with
  | .enumeration => some (some .enum)
  | .ordinary => ((Climb.mk [] d.parent).rounds t n).getLeft?
  | _ => some none

theorem unseen_nil : t.unseen [] = t.size := by
  rw [unseen, List.filter_eq_self.mpr]
  · exact List.length_map ..
  · exact fun _ _ => rfl

theorem kind?_of_ordinary {d : ClassDecl} (hd : d.kind = .ordinary) :
    t.kind? d = t.kindAbove [] d.parent := by
  rw [kind?, hd]

/-- What a class is found to be after more rounds than there are classes is what it is. -/
theorem kindWithin?_eq (d : ClassDecl) (h : t.size < n) : t.kindWithin? n d = some (t.kind? d) := by
  rw [kindWithin?, kind?]
  cases d.kind with
  | ordinary =>
    have hover : t.unseen (Climb.mk [] d.parent).seen < n := unseen_nil (t := t) ▸ h
    dsimp only
    rw [Climb.rounds_eq hover]
    rfl
  | _ => rfl

/-- A class is what the class of the table is that it extends. -/
theorem kind?_eq_of_parent {d : ClassDecl} (hd : d.kind = .ordinary)
    (hparent : d.parent = some name) (hne : name ≠ "") (hbase : baseKind? name = none)
    (hc : t.get? name = some c) (hkind : c.decl.kind = .ordinary) :
    t.kind? d = t.kind? c.decl := by
  refine Option.ext fun kind => ?_
  rw [kind?_of_ordinary hd, kind?_of_ordinary hkind, kindAbove_eq_some_iff, kindAbove_eq_some_iff,
    hparent]
  constructor
  · rintro ⟨n, h⟩
    cases h with
    | base _ hbase' => cases hbase.symm.trans hbase'
    | outside _ _ hget => cases hc.symm.trans hget
    | up _ _ hget habove =>
      cases hc.symm.trans hget
      exact ⟨_, habove⟩
  · rintro ⟨n, h⟩
    exact ⟨n + 1, .up hne hbase hc h⟩

/-- **It is settled for every class what it is**, after one round more than there are classes,
whatever the parents; and a class is what the class is that it extends. -/
theorem kind?_ends_and_inherits (ht : t.Scanned) :
    (∀ d n, t.size < n → t.kindWithin? n d = some (t.kind? d)) ∧
      ∀ (d : ClassDecl) (name : String) (c : ClassEntry), d.kind = .ordinary →
        d.parent = some name → t.get? name = some c → c.decl.kind = .ordinary →
        baseKind? name = none → t.kind? d = t.kind? c.decl :=
  ⟨fun d _ h => kindWithin?_eq d h, fun _ _ _ hd hparent hc hkind hbase =>
    kind?_eq_of_parent hd hparent (ht.ne_empty hc) hbase hc hkind⟩

/-- A base of requests, and three classes that extend one another in a ring. -/
def ringTable : ClassTable where
  entries := [
    ("App\\Base",
      ⟨appClass "Base" (some "Illuminate\\Foundation\\Http\\FormRequest") "", "Base.php"⟩),
    ("App\\One", ⟨appClass "One" (some "App\\Two") "", "One.php"⟩),
    ("App\\Two", ⟨appClass "Two" (some "App\\Three") "", "Two.php"⟩),
    ("App\\Three", ⟨appClass "Three" (some "App\\One") "", "Three.php"⟩)]
  nodup := by decide

theorem scanned_ringTable : ringTable.Scanned where
  keyed := by
    change ∀ e ∈ ringTable.entries, _
    decide
  named := by decide

theorem kind?_ringTable :
    ringTable.Scanned ∧
      ringTable.kindWithin? 5 (appClass "One" (some "App\\Two") "") =
        some (ringTable.kind? (appClass "One" (some "App\\Two") "")) ∧
      ringTable.kind? (appClass "Store" (some "App\\Base") "") =
        ringTable.kind?
          (appClass "Base" (some "Illuminate\\Foundation\\Http\\FormRequest") "") ∧
      ringTable.kind? (appClass "One" (some "App\\Two") "") =
        ringTable.kind? (appClass "Two" (some "App\\Three") "") := by
  have hall := kind?_ends_and_inherits scanned_ringTable
  refine ⟨scanned_ringTable, hall.1 _ 5 (by decide), ?_, ?_⟩
  · exact hall.2 _ "App\\Base" ⟨_, "Base.php"⟩ rfl rfl rfl rfl (by decide)
  · exact hall.2 _ "App\\Two" ⟨_, "Two.php"⟩ rfl rfl rfl rfl (by decide)

end PayloadTypes.ClassTable
