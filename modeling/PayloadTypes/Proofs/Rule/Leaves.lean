import PayloadTypes.Proofs.Text.Join
import PayloadTypes.Rule.Token
/-!
# Rules and their leaves

A rule that is a list is nested to any depth, and the nesting says nothing: its
tokens are those of its leaves from left to right (`tokens_eq_flatMap_leaves`). A
text becomes its pieces between bars, an object with a textual form one token that
is not split again, and every other object stands for itself (`flattening`).
-/

namespace PayloadTypes.Rule

open Text (IsTrimmed)

variable {rule token : Rule} {rules : List Rule} {s form : String}

/-! ## Leaves -/

mutual
/-- The rules that a rule is made of and that are no lists, from left to right. -/
def leaves : Rule → List Rule
  | .list rules => leavesOfList rules
  | rule => [rule]
/-- The leaves of some rules, one after the other. -/
def leavesOfList : List Rule → List Rule
  | [] => []
  | r :: rs => leaves r ++ leavesOfList rs
end

/-- A rule that is no list. -/
def isLeaf : Rule → Bool
  | .list _ => false
  | _ => true

/-- An object that is a token as it is: it names a type, or has no textual form. -/
def isKept : Rule → Bool
  | .text _ | .list _ | .plain .null => false
  | rule => rule.isConstraint || rule.textForm?.isNone

/-- **What holds of leaves and of lists of rules for which it holds**, holds of all rules. -/
theorem nestedInduction {P : Rule → Prop} (hleaf : ∀ rule : Rule, rule.isLeaf = true → P rule)
    (hlist : ∀ rules, (∀ r ∈ rules, P r) → P (.list rules)) (rule : Rule) : P rule := by
  cases rule with
  | list rules => exact hlist rules fun r _ => nestedInduction hleaf hlist r
  | _ => exact hleaf _ rfl

theorem leavesOfList_eq_flatMap (rules : List Rule) :
    leavesOfList rules = rules.flatMap leaves := by
  induction rules with
  | nil => rfl
  | cons r rs ih => rw [leavesOfList, ih, List.flatMap_cons]

theorem tokensOfList_eq_flatMap (rules : List Rule) :
    tokensOfList rules = rules.flatMap tokens := by
  induction rules with
  | nil => rfl
  | cons r rs ih => rw [tokensOfList, ih, List.flatMap_cons]

theorem leaves_of_isLeaf (h : rule.isLeaf = true) : rule.leaves = [rule] := by
  cases rule with
  | list => cases h
  | _ => rfl

theorem leaves_list (rules : List Rule) : leaves (.list rules) = rules.flatMap leaves := by
  rw [leaves, leavesOfList_eq_flatMap]

/-- **The tokens of a list are those of its rules**, one after the other. -/
theorem tokens_list (rules : List Rule) : tokens (.list rules) = rules.flatMap tokens := by
  rw [tokens, tokensOfList_eq_flatMap]

theorem isLeaf_of_mem_leaves : ∀ leaf ∈ rule.leaves, leaf.isLeaf = true := by
  induction rule using nestedInduction with
  | hleaf rule h =>
    rw [leaves_of_isLeaf h]
    exact List.forall_mem_singleton.mpr h
  | hlist rules ih =>
    intro leaf hleaf
    rw [leaves_list, List.mem_flatMap] at hleaf
    obtain ⟨r, hr, hleaf⟩ := hleaf
    exact ih r hr leaf hleaf

/-- **The tokens of a rule are those of its leaves**, from left to right. -/
theorem tokens_eq_flatMap_leaves (rule : Rule) : rule.tokens = rule.leaves.flatMap tokens := by
  induction rule using nestedInduction with
  | hleaf rule h => rw [leaves_of_isLeaf h, List.flatMap_singleton]
  | hlist rules ih =>
    rw [tokens_list, leaves_list, List.flatMap_assoc]
    exact List.flatMap_congr ih

/-! ## Tokens of leaves -/

theorem tokens_of_isKept (h : rule.isKept = true) : rule.tokens = [rule] := by
  cases rule with
  | text | list | choice => cases h
  | enum | enumValue | constraint | broken | unread => rfl
  | call name parameters => cases parameters <;> cases h
  | plain v =>
    cases v with
    | null | moment => cases h
    | _ => rfl

theorem tokens_of_textForm? (h : rule.textForm? = some form) : rule.tokens = formToken form := by
  cases rule with
  | choice values => cases h; rfl
  | call name parameters => cases parameters <;> cases h <;> rfl
  | plain v =>
    cases v with
    | moment => cases h; rfl
    | _ => cases h
  | _ => cases h

/-- A text that may be a token: it is not empty and neither starts nor ends with a blank. -/
def IsTextToken (token : Rule) : Prop := ∃ s, token = .text s ∧ s ≠ "" ∧ IsTrimmed s.toList

theorem isTextToken_trim {cs : List Char} (h : Text.trim cs ≠ []) :
    IsTextToken (.text (String.ofList (Text.trim cs))) := by
  refine ⟨_, rfl, fun hempty => h ?_, ?_⟩
  · simpa using congrArg String.toList hempty
  · rw [String.toList_ofList]
    exact Text.isTrimmed_trim cs

theorem mem_textTokens_iff : token ∈ textTokens s ↔
    ∃ p ∈ Text.splitOn '|' s.toList, Text.trim p ≠ [] ∧
      .text (String.ofList (Text.trim p)) = token := by
  simp [textTokens, and_assoc]

theorem isTextToken_of_mem_textTokens (h : token ∈ textTokens s) : IsTextToken token := by
  obtain ⟨p, -, hne, rfl⟩ := mem_textTokens_iff.mp h
  exact isTextToken_trim hne

/-- A token that comes from a text has no bar. -/
theorem bar_not_mem_of_mem_textTokens (h : token ∈ textTokens s) :
    ∃ u, token = .text u ∧ '|' ∉ u.toList := by
  obtain ⟨p, hp, -, rfl⟩ := mem_textTokens_iff.mp h
  refine ⟨_, rfl, fun hbar => Text.not_mem_of_mem_splitOn hp (Text.mem_of_mem_trim ?_)⟩
  rwa [String.toList_ofList] at hbar

theorem formToken_eq (form : String) : formToken form =
    if Text.trim form.toList = [] then [] else [.text (String.ofList (Text.trim form.toList))] := by
  rw [formToken]
  split
  · next h => rw [if_pos h]
  · next h => rw [if_neg h]

theorem isTextToken_of_mem_formToken (h : token ∈ formToken form) : IsTextToken token := by
  rw [formToken_eq] at h
  split at h
  · cases h
  · next hne =>
    rw [List.mem_singleton.mp h]
    exact isTextToken_trim hne

/-- **A leaf that is not kept** is replaced by texts, or by nothing. -/
theorem isTextToken_of_isLeaf (hleaf : rule.isLeaf = true) (hkept : rule.isKept = false)
    (h : token ∈ rule.tokens) : IsTextToken token := by
  cases hform : rule.textForm? with
  | some form =>
    rw [tokens_of_textForm? hform] at h
    exact isTextToken_of_mem_formToken h
  | none =>
    cases rule with
    | text s => exact isTextToken_of_mem_textTokens h
    | list => cases hleaf
    | plain v =>
      cases v with
      | null => cases h
      | _ => simp [isKept, hform] at hkept
    | _ => simp [isKept, hform] at hkept

theorem IsTextToken.isKept_eq_false (h : IsTextToken token) : token.isKept = false := by
  obtain ⟨s, rfl, -⟩ := h
  rfl

theorem filter_isKept_flatMap_tokens (h : ∀ r ∈ rules, r.isLeaf = true) :
    (rules.flatMap tokens).filter isKept = rules.filter isKept := by
  induction rules with
  | nil => rfl
  | cons r rs ih =>
    have hrest := ih fun x hx => h x (List.mem_cons_of_mem _ hx)
    rw [List.flatMap_cons, List.filter_append, hrest]
    cases hkept : r.isKept with
    | true =>
      rw [tokens_of_isKept hkept, List.filter_cons_of_pos hkept, List.filter_cons_of_pos hkept]
      rfl
    | false =>
      have hnone : r.tokens.filter isKept = [] := by
        refine List.filter_eq_nil_iff.mpr fun token htoken => ?_
        rw [(isTextToken_of_isLeaf (h r List.mem_cons_self) hkept htoken).isKept_eq_false]
        exact Bool.false_ne_true
      rw [hnone, List.filter_cons_of_neg (by simp [hkept]), List.nil_append]

/-! ## Flattening -/

/-- How a rule is flattened into tokens. -/
structure Flattening (rule : Rule) : Prop where
  /-- The tokens are those of the leaves, one leaf after the other. -/
  of_leaves : rule.tokens = rule.leaves.flatMap tokens
  /-- So a rule that nests the same leaves in another way has the same tokens. -/
  of_nesting : ∀ other : Rule, other.leaves = rule.leaves → other.tokens = rule.tokens
  /-- The tokens of a list are those of its rules. -/
  of_list : ∀ rules, rule = .list rules → rule.tokens = rules.flatMap tokens
  /-- The tokens of a text are its pieces between bars, trimmed, that are not blank. -/
  of_text : ∀ s ps, rule = .text s → s.toList = Text.join ['|'] ps → ps ≠ [] →
    (∀ p ∈ ps, '|' ∉ p) → rule.tokens =
      ((ps.map Text.trim).filter fun p => !p.isEmpty).map fun p => .text (String.ofList p)
  /-- The token of an object with a textual form is that form, trimmed, and not split again. -/
  of_form : ∀ form, rule.textForm? = some form → rule.tokens =
    if Text.trim form.toList = [] then [] else [.text (String.ofList (Text.trim form.toList))]
  /-- Nothing has no tokens. -/
  of_null : rule = .plain .null → rule.tokens = []
  /-- A token that is a text is neither empty nor has blanks at its ends. -/
  trimmed : ∀ s, .text s ∈ rule.tokens → s ≠ "" ∧ IsTrimmed s.toList
  /-- A token that comes from a text has no bar. -/
  unbarred : ∀ s, .text s ∈ rule.leaves → ∀ token ∈ tokens (.text s),
    ∃ u, token = .text u ∧ '|' ∉ u.toList
  /-- Objects that name a type and objects without a textual form are kept, in order. -/
  kept : rule.tokens.filter isKept = rule.leaves.filter isKept
  /-- All other tokens are texts. -/
  others : ∀ token ∈ rule.tokens, token.isKept = false → ∃ s, token = .text s

theorem isTextToken_of_mem_tokens (h : token ∈ rule.tokens) (hkept : token.isKept = false) :
    IsTextToken token := by
  rw [tokens_eq_flatMap_leaves, List.mem_flatMap] at h
  obtain ⟨leaf, hleaf, htoken⟩ := h
  cases hk : leaf.isKept with
  | true =>
    rw [tokens_of_isKept hk, List.mem_singleton] at htoken
    rw [htoken, hk] at hkept
    cases hkept
  | false => exact isTextToken_of_isLeaf (isLeaf_of_mem_leaves leaf hleaf) hk htoken

/-- **A rule is flattened leaf by leaf**, however deep its leaves are nested. -/
theorem flattening (rule : Rule) : Flattening rule where
  of_leaves := tokens_eq_flatMap_leaves rule
  of_nesting other h := by rw [tokens_eq_flatMap_leaves, h, ← tokens_eq_flatMap_leaves]
  of_list rules h := h ▸ tokens_list rules
  of_text s ps h hs hne hbar := by
    rw [h, tokens, textTokens, hs, Text.join, Text.splitOn_intercalate hbar hne]
  of_form form h := by rw [tokens_of_textForm? h, formToken_eq]
  of_null h := h ▸ rfl
  trimmed s h := by
    obtain ⟨u, hu, hne, htrim⟩ := isTextToken_of_mem_tokens h rfl
    cases hu
    exact ⟨hne, htrim⟩
  unbarred s _ token htoken := by
    rw [tokens] at htoken
    exact bar_not_mem_of_mem_textTokens htoken
  kept := by rw [tokens_eq_flatMap_leaves, filter_isKept_flatMap_tokens isLeaf_of_mem_leaves]
  others token h hkept := by
    obtain ⟨s, hs, -⟩ := isTextToken_of_mem_tokens h hkept
    exact ⟨s, hs⟩

/-- Only the bars of a text separate, not those inside of an object's parameters. -/
example : tokens (.list [.text " required| |max:5 ", .list [.plain .null, .enum "Role"],
    .list [.list [.call "regex" ["/a|b/"]], .unread "fn"]]) =
    [.text "required", .text "max:5", .enum "Role", .text "regex:/a|b/", .unread "fn"] := by rfl

end PayloadTypes.Rule
