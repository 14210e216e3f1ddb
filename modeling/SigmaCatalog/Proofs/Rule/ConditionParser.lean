import SigmaCatalog.Rule.Condition.Grammar
import SigmaCatalog.Rule.Condition.Parser

/-!
# What the reader of conditions accepts

Every step of the reader takes a front part of the tokens that the grammar derives, and hands on the
rest.  It follows that in an expression which was read, every `and` and every `or` has at least two
operands.
-/

namespace SigmaCatalog.Condition

/-! ## Soundness with respect to the grammar -/

namespace Parser

open Grammar

theorem pattern_sound {node : NamePattern → Expr} {tokens : List Token}
    {step : Reading.Step tokens Expr} (h : pattern node tokens = .ok step) :
    ∃ token selected, tokens = token :: step.rest ∧ Selection token selected ∧
      step.value = node selected := by
  unfold pattern at h
  split at h
  · obtain rfl := Except.ok.inj h
    exact ⟨_, _, rfl, .them, rfl⟩
  · obtain rfl := Except.ok.inj h
    exact ⟨_, _, rfl, .glob _, rfl⟩
  · cases h
  · cases h

theorem quantified_sound {quantifier : Token} {node : NamePattern → Expr} {tokens : List Token}
    {step : Reading.Step tokens Expr} (h : quantified quantifier node tokens = .ok step) :
    ∃ token selected, tokens = .ofWord :: token :: step.rest ∧ Selection token selected ∧
      step.value = node selected := by
  unfold quantified at h
  split at h
  · split at h
    · next hpattern =>
      obtain rfl := Except.ok.inj h
      obtain ⟨token, selected, htokens, hselection, hvalue⟩ := pattern_sound hpattern
      exact ⟨token, selected, congrArg (List.cons .ofWord) htokens, hselection, hvalue⟩
    · cases h
  · cases h

mutual

theorem disjunction_sound {tokens : List Token} {size : Nat}
    {step : Reading.Step tokens Expr} (_hsize : tokens.length = size)
    (h : disjunction tokens = .ok step) :
    ∃ used, tokens = used ++ step.rest ∧ Disjunction used step.value := by
  rw [disjunction] at h
  split at h
  · cases h
  · next first rest hshorter hfirst =>
    split at h
    · cases h
    · next others last hlast hothers =>
      obtain rfl := Except.ok.inj h
      obtain ⟨used, htokens, hused⟩ := conjunction_sound rfl hfirst
      obtain ⟨more, hrest, hmore⟩ := moreDisjuncts_sound rfl hothers
      exact ⟨used ++ more, by simp_all, .intro hused hmore⟩
  termination_by size * 6 + 5
  decreasing_by all_goals omega

theorem moreDisjuncts_sound {tokens : List Token} {size : Nat}
    {left : { left : List Expr × List Token // left.2.length ≤ tokens.length }}
    (hsize : tokens.length = size) (h : moreDisjuncts tokens = .ok left) :
    ∃ used, tokens = used ++ left.1.2 ∧ MoreDisjuncts used left.1.1 := by
  cases tokens with
  | nil =>
    simp only [moreDisjuncts] at h
    obtain rfl := Except.ok.inj h
    exact ⟨[], rfl, .nil⟩
  | cons token rest =>
    cases token with
    | orWord =>
      rw [moreDisjuncts] at h
      split at h
      · cases h
      · next next later hshorter hnext =>
        split at h
        · cases h
        · next others last hlast hothers =>
          obtain rfl := Except.ok.inj h
          obtain ⟨used, hrest, hused⟩ := conjunction_sound rfl hnext
          obtain ⟨more, hlater, hmore⟩ := moreDisjuncts_sound rfl hothers
          exact ⟨.orWord :: (used ++ more), by simp_all, .cons hused hmore⟩
    | _ =>
      simp only [moreDisjuncts] at h
      obtain rfl := Except.ok.inj h
      exact ⟨[], rfl, .nil⟩
  termination_by size * 6 + 4
  decreasing_by all_goals (try simp only [List.length_cons] at *); omega

theorem conjunction_sound {tokens : List Token} {size : Nat}
    {step : Reading.Step tokens Expr} (_hsize : tokens.length = size)
    (h : conjunction tokens = .ok step) :
    ∃ used, tokens = used ++ step.rest ∧ Conjunction used step.value := by
  rw [conjunction] at h
  split at h
  · cases h
  · next first rest hshorter hfirst =>
    split at h
    · cases h
    · next others last hlast hothers =>
      obtain rfl := Except.ok.inj h
      obtain ⟨used, htokens, hused⟩ := negation_sound rfl hfirst
      obtain ⟨more, hrest, hmore⟩ := moreConjuncts_sound rfl hothers
      exact ⟨used ++ more, by simp_all, .intro hused hmore⟩
  termination_by size * 6 + 3
  decreasing_by all_goals omega

theorem moreConjuncts_sound {tokens : List Token} {size : Nat}
    {left : { left : List Expr × List Token // left.2.length ≤ tokens.length }}
    (hsize : tokens.length = size) (h : moreConjuncts tokens = .ok left) :
    ∃ used, tokens = used ++ left.1.2 ∧ MoreConjuncts used left.1.1 := by
  cases tokens with
  | nil =>
    simp only [moreConjuncts] at h
    obtain rfl := Except.ok.inj h
    exact ⟨[], rfl, .nil⟩
  | cons token rest =>
    cases token with
    | andWord =>
      rw [moreConjuncts] at h
      split at h
      · cases h
      · next next later hshorter hnext =>
        split at h
        · cases h
        · next others last hlast hothers =>
          obtain rfl := Except.ok.inj h
          obtain ⟨used, hrest, hused⟩ := negation_sound rfl hnext
          obtain ⟨more, hlater, hmore⟩ := moreConjuncts_sound rfl hothers
          exact ⟨.andWord :: (used ++ more), by simp_all, .cons hused hmore⟩
    | _ =>
      simp only [moreConjuncts] at h
      obtain rfl := Except.ok.inj h
      exact ⟨[], rfl, .nil⟩
  termination_by size * 6 + 2
  decreasing_by all_goals (try simp only [List.length_cons] at *); omega

theorem negation_sound {tokens : List Token} {size : Nat}
    {step : Reading.Step tokens Expr} (hsize : tokens.length = size)
    (h : negation tokens = .ok step) :
    ∃ used, tokens = used ++ step.rest ∧ Negation used step.value := by
  cases tokens with
  | nil =>
    simp only [negation] at h
    obtain ⟨used, htokens, hused⟩ := primary_sound hsize h
    exact ⟨used, htokens, .primary hused⟩
  | cons token rest =>
    cases token with
    | notWord =>
      rw [negation] at h
      split at h
      · cases h
      · next operand last hshorter hoperand =>
        obtain rfl := Except.ok.inj h
        obtain ⟨used, hrest, hused⟩ := negation_sound rfl hoperand
        exact ⟨.notWord :: used, congrArg (List.cons .notWord) hrest, .not hused⟩
    | _ =>
      simp only [negation] at h
      obtain ⟨used, htokens, hused⟩ := primary_sound hsize h
      exact ⟨used, htokens, .primary hused⟩
  termination_by size * 6 + 1
  decreasing_by all_goals (try simp only [List.length_cons] at *); omega

theorem primary_sound {tokens : List Token} {size : Nat}
    {step : Reading.Step tokens Expr} (hsize : tokens.length = size)
    (h : primary tokens = .ok step) :
    ∃ used, tokens = used ++ step.rest ∧ Primary used step.value := by
  cases tokens with
  | nil =>
    rw [primary] at h
    cases h
  | cons token rest =>
    cases token with
    | openParen =>
      rw [primary] at h
      split at h
      · cases h
      · next inner last hshorter hinner =>
        obtain rfl := Except.ok.inj h
        obtain ⟨used, hrest, hused⟩ := disjunction_sound rfl hinner
        exact ⟨.openParen :: (used ++ [.closeParen]), by simp_all, .parenthesised hused⟩
      · cases h
    | oneWord =>
      rw [primary] at h
      cases hquantified : quantified .oneWord .oneOf rest with
      | error problem => rw [hquantified] at h; cases h
      | ok found =>
        rw [hquantified] at h
        obtain rfl := Except.ok.inj h
        obtain ⟨token, selected, hrest, hselection, hvalue⟩ := quantified_sound hquantified
        refine ⟨[.oneWord, .ofWord, token], congrArg (List.cons .oneWord) hrest, ?_⟩
        exact hvalue ▸ Primary.oneOf hselection
    | allWord =>
      rw [primary] at h
      cases hquantified : quantified .allWord .allOf rest with
      | error problem => rw [hquantified] at h; cases h
      | ok found =>
        rw [hquantified] at h
        obtain rfl := Except.ok.inj h
        obtain ⟨token, selected, hrest, hselection, hvalue⟩ := quantified_sound hquantified
        refine ⟨[.allWord, .ofWord, token], congrArg (List.cons .allWord) hrest, ?_⟩
        exact hvalue ▸ Primary.allOf hselection
    | word name =>
      rw [primary] at h
      obtain rfl := Except.ok.inj h
      exact ⟨[.word name], rfl, .word name⟩
    | _ =>
      simp only [primary] at h
      cases h
  termination_by size * 6 + 0
  decreasing_by all_goals (try simp only [List.length_cons] at *); omega

end

theorem whole_sound {tokens : List Token} {expr : Expr} (h : whole tokens = .ok expr) :
    Disjunction tokens expr := by
  unfold whole at h
  split at h
  · cases h
  · next hdisjunction =>
    obtain rfl := Except.ok.inj h
    obtain ⟨used, htokens, hused⟩ := disjunction_sound rfl hdisjunction
    rw [List.append_nil] at htokens
    exact htokens ▸ hused
  · cases h

end Parser

/-! ## Proper expressions -/

/-- An expression in which every `and` and every `or` has at least two operands. -/
inductive Expr.Proper : Expr → Prop
  | identifier (name : String) : Proper (.identifier name)
  | not {operand : Expr} : Proper operand → Proper (.not operand)
  | and {operands : List Expr} :
    2 ≤ operands.length → (∀ operand ∈ operands, Proper operand) → Proper (.and operands)
  | or {operands : List Expr} :
    2 ≤ operands.length → (∀ operand ∈ operands, Proper operand) → Proper (.or operands)
  | oneOf (pattern : NamePattern) : Proper (.oneOf pattern)
  | allOf (pattern : NamePattern) : Proper (.allOf pattern)

namespace Expr

theorem Proper.combine_or {first : Expr} {others : List Expr} (hfirst : first.Proper)
    (hothers : ∀ operand ∈ others, operand.Proper) : (combine .or first others).Proper := by
  cases others with
  | nil => exact hfirst
  | cons next later => exact .or (by simp) (List.forall_mem_cons.mpr ⟨hfirst, hothers⟩)

theorem Proper.combine_and {first : Expr} {others : List Expr} (hfirst : first.Proper)
    (hothers : ∀ operand ∈ others, operand.Proper) : (combine .and first others).Proper := by
  cases others with
  | nil => exact hfirst
  | cons next later => exact .and (by simp) (List.forall_mem_cons.mpr ⟨hfirst, hothers⟩)

end Expr

namespace Grammar

mutual

/-- What the grammar derives is proper. -/
theorem Disjunction.proper {tokens : List Token} {expr : Expr} :
    Disjunction tokens expr → expr.Proper
  | .intro hfirst hothers => hfirst.proper.combine_or hothers.proper

theorem MoreDisjuncts.proper {tokens : List Token} {operands : List Expr} :
    MoreDisjuncts tokens operands → ∀ operand ∈ operands, operand.Proper
  | .nil => List.forall_mem_nil _
  | .cons hnext hothers => List.forall_mem_cons.mpr ⟨hnext.proper, hothers.proper⟩

theorem Conjunction.proper {tokens : List Token} {expr : Expr} :
    Conjunction tokens expr → expr.Proper
  | .intro hfirst hothers => hfirst.proper.combine_and hothers.proper

theorem MoreConjuncts.proper {tokens : List Token} {operands : List Expr} :
    MoreConjuncts tokens operands → ∀ operand ∈ operands, operand.Proper
  | .nil => List.forall_mem_nil _
  | .cons hnext hothers => List.forall_mem_cons.mpr ⟨hnext.proper, hothers.proper⟩

theorem Negation.proper {tokens : List Token} {expr : Expr} :
    Negation tokens expr → expr.Proper
  | .not hoperand => .not hoperand.proper
  | .primary hprimary => hprimary.proper

theorem Primary.proper {tokens : List Token} {expr : Expr} :
    Primary tokens expr → expr.Proper
  | .parenthesised hinner => hinner.proper
  | .oneOf _ => .oneOf _
  | .allOf _ => .allOf _
  | .word name => .identifier name

end

end Grammar

/-- The expression of a condition that was read is proper. -/
theorem proper_of_parse {source : String} {condition : Condition}
    (h : parse source = .ok condition) : condition.expr.Proper := by
  unfold parse at h
  split at h
  · split at h
    · cases h
    · split at h
      · cases h
      · next hwhole =>
        obtain rfl := Except.ok.inj h
        exact (Parser.whole_sound hwhole).proper

end SigmaCatalog.Condition
