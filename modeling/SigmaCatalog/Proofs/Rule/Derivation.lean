import SigmaCatalog.Proofs.Rule.ConditionParser
import SigmaCatalog.Rule.Condition.Derivation

/-!
# Derivations and the reader of conditions

The grammar looks one token ahead: a disjunction ends where neither an `and` nor an `or` follows, a
conjunction where no `and` follows, and an operand ends by itself.  With such tokens after it, a
derivation is found again by the reader, and no other derivation makes the same tokens.
-/

namespace SigmaCatalog.Condition

open SigmaCatalog.Condition.Derivation

namespace Derivation

/-! ## The first token -/

theorem MoreDisjuncts.head?_ne_andWord {rest : List Token} (others : MoreDisjuncts)
    (h : rest.head? ≠ some .andWord) : (others.tokens ++ rest).head? ≠ some .andWord := by
  cases others with
  | nil => exact h
  | cons next others => simp [MoreDisjuncts.tokens]

theorem Primary.head?_ne_notWord (operand : Primary) (rest : List Token) :
    (operand.tokens ++ rest).head? ≠ some .notWord := by
  cases operand <;> simp [Primary.tokens]

end Derivation

/-! ## The reader finds every derivation -/

namespace Parser

theorem moreDisjuncts_of_head? {tokens : List Token} (h : tokens.head? ≠ some .orWord) :
    moreDisjuncts tokens = .ok ⟨([], tokens), Nat.le_refl _⟩ := by
  cases tokens with
  | nil => simp [moreDisjuncts]
  | cons token rest => cases token <;> simp_all [moreDisjuncts]

theorem moreConjuncts_of_head? {tokens : List Token} (h : tokens.head? ≠ some .andWord) :
    moreConjuncts tokens = .ok ⟨([], tokens), Nat.le_refl _⟩ := by
  cases tokens with
  | nil => simp [moreConjuncts]
  | cons token rest => cases token <;> simp_all [moreConjuncts]

theorem negation_of_head? {tokens : List Token} (h : tokens.head? ≠ some .notWord) :
    negation tokens = primary tokens := by
  cases tokens with
  | nil => simp [negation]
  | cons token rest => cases token <;> simp_all [negation]

theorem quantified_ofWord (quantifier : Token) (node : NamePattern → Expr) (pattern : NamePattern)
    (rest : List Token) :
    ∃ h, quantified quantifier node (.ofWord :: patternToken pattern :: rest) =
      .ok ⟨node pattern, rest, h⟩ := by
  cases pattern with
  | them => exact ⟨_, rfl⟩
  | glob text => exact ⟨_, rfl⟩

mutual

theorem disjunction_complete {tokens rest : List Token} (hand : rest.head? ≠ some .andWord)
    (hor : rest.head? ≠ some .orWord) : (derivation : Derivation.Disjunction) →
    tokens = derivation.tokens ++ rest →
    ∃ h, disjunction tokens = .ok ⟨derivation.expr, rest, h⟩
  | .intro first others, htokens => by
    rw [Disjunction.tokens, List.append_assoc] at htokens
    obtain ⟨hlt, hfirst⟩ := conjunction_complete (others.head?_ne_andWord hand) first htokens
    obtain ⟨hle, hothers⟩ := moreDisjuncts_complete hand hor others rfl
    rw [disjunction, hfirst]
    simp only [hothers]
    exact ⟨Nat.lt_of_le_of_lt hle hlt, rfl⟩

theorem moreDisjuncts_complete {tokens rest : List Token} (hand : rest.head? ≠ some .andWord)
    (hor : rest.head? ≠ some .orWord) : (derivation : Derivation.MoreDisjuncts) →
    tokens = derivation.tokens ++ rest →
    ∃ h, moreDisjuncts tokens = .ok ⟨(derivation.exprs, rest), h⟩
  | .nil, htokens => by
    obtain rfl : tokens = rest := htokens
    exact ⟨_, moreDisjuncts_of_head? hor⟩
  | .cons next others, htokens => by
    rw [MoreDisjuncts.tokens, List.cons_append, List.append_assoc] at htokens
    subst htokens
    obtain ⟨hlt, hnext⟩ := conjunction_complete (others.head?_ne_andWord hand) next rfl
    obtain ⟨hle, hothers⟩ := moreDisjuncts_complete hand hor others rfl
    rw [moreDisjuncts, hnext]
    simp only [hothers]
    exact ⟨Nat.le_succ_of_le (Nat.le_trans hle (Nat.le_of_lt hlt)), rfl⟩

theorem conjunction_complete {tokens rest : List Token} (hand : rest.head? ≠ some .andWord) :
    (derivation : Derivation.Conjunction) → tokens = derivation.tokens ++ rest →
    ∃ h, conjunction tokens = .ok ⟨derivation.expr, rest, h⟩
  | .intro first others, htokens => by
    rw [Conjunction.tokens, List.append_assoc] at htokens
    obtain ⟨hlt, hfirst⟩ := negation_complete first htokens
    obtain ⟨hle, hothers⟩ := moreConjuncts_complete hand others rfl
    rw [conjunction, hfirst]
    simp only [hothers]
    exact ⟨Nat.lt_of_le_of_lt hle hlt, rfl⟩

theorem moreConjuncts_complete {tokens rest : List Token} (hand : rest.head? ≠ some .andWord) :
    (derivation : Derivation.MoreConjuncts) → tokens = derivation.tokens ++ rest →
    ∃ h, moreConjuncts tokens = .ok ⟨(derivation.exprs, rest), h⟩
  | .nil, htokens => by
    obtain rfl : tokens = rest := htokens
    exact ⟨_, moreConjuncts_of_head? hand⟩
  | .cons next others, htokens => by
    rw [MoreConjuncts.tokens, List.cons_append, List.append_assoc] at htokens
    subst htokens
    obtain ⟨hlt, hnext⟩ := negation_complete next rfl
    obtain ⟨hle, hothers⟩ := moreConjuncts_complete hand others rfl
    rw [moreConjuncts, hnext]
    simp only [hothers]
    exact ⟨Nat.le_succ_of_le (Nat.le_trans hle (Nat.le_of_lt hlt)), rfl⟩

theorem negation_complete {tokens rest : List Token} :
    (derivation : Derivation.Negation) → tokens = derivation.tokens ++ rest →
    ∃ h, negation tokens = .ok ⟨derivation.expr, rest, h⟩
  | .not operand, htokens => by
    rw [Negation.tokens, List.cons_append] at htokens
    subst htokens
    obtain ⟨_, hoperand⟩ := negation_complete operand rfl
    rw [negation, hoperand]
    exact ⟨_, rfl⟩
  | .primary operand, htokens => by
    rw [Negation.tokens] at htokens
    rw [negation_of_head? (htokens ▸ operand.head?_ne_notWord rest)]
    exact primary_complete operand htokens

theorem primary_complete {tokens rest : List Token} :
    (derivation : Derivation.Primary) → tokens = derivation.tokens ++ rest →
    ∃ h, primary tokens = .ok ⟨derivation.expr, rest, h⟩
  | .parenthesised inner, htokens => by
    rw [Primary.tokens, List.cons_append, List.append_assoc] at htokens
    subst htokens
    have hand : (Token.closeParen :: rest).head? ≠ some .andWord := by simp
    have hor : (Token.closeParen :: rest).head? ≠ some .orWord := by simp
    obtain ⟨hlt, hinner⟩ := disjunction_complete hand hor inner rfl
    rw [primary]
    simp only [List.singleton_append, hinner]
    exact ⟨Nat.lt_of_succ_lt (Nat.lt_succ_of_lt hlt), rfl⟩
  | .oneOf pattern, htokens => by
    obtain rfl : tokens = .oneWord :: .ofWord :: patternToken pattern :: rest := htokens
    obtain ⟨_, hquantified⟩ := quantified_ofWord .oneWord .oneOf pattern rest
    rw [primary, hquantified]
    exact ⟨_, rfl⟩
  | .allOf pattern, htokens => by
    obtain rfl : tokens = .allWord :: .ofWord :: patternToken pattern :: rest := htokens
    obtain ⟨_, hquantified⟩ := quantified_ofWord .allWord .allOf pattern rest
    rw [primary, hquantified]
    exact ⟨_, rfl⟩
  | .word name, htokens => by
    obtain rfl : tokens = .word name :: rest := htokens
    rw [primary]
    exact ⟨_, rfl⟩

end

theorem whole_complete (derivation : Derivation.Disjunction) :
    whole derivation.tokens = .ok derivation.expr := by
  obtain ⟨_, hread⟩ := disjunction_complete (by simp) (by simp) derivation
    (List.append_nil derivation.tokens).symm
  rw [whole, hread]

end Parser

/-! ## One derivation for some tokens -/

namespace Derivation

theorem patternToken_injective {pattern other : NamePattern}
    (h : patternToken pattern = patternToken other) : pattern = other := by
  cases pattern <;> cases other <;> simp_all [patternToken]

mutual

theorem Disjunction.eq_of_append_eq {rest later : List Token} (hand : rest.head? ≠ some .andWord)
    (hor : rest.head? ≠ some .orWord) (hand' : later.head? ≠ some .andWord)
    (hor' : later.head? ≠ some .orWord) : (derivation other : Disjunction) →
    derivation.tokens ++ rest = other.tokens ++ later → derivation = other ∧ rest = later
  | .intro first others, .intro first' others', h => by
    rw [Disjunction.tokens, Disjunction.tokens, List.append_assoc, List.append_assoc] at h
    obtain ⟨rfl, hothers⟩ := Conjunction.eq_of_append_eq (others.head?_ne_andWord hand)
      (others'.head?_ne_andWord hand') first first' h
    obtain ⟨rfl, hrest⟩ :=
      MoreDisjuncts.eq_of_append_eq hand hor hand' hor' others others' hothers
    exact ⟨rfl, hrest⟩

theorem MoreDisjuncts.eq_of_append_eq {rest later : List Token}
    (hand : rest.head? ≠ some .andWord) (hor : rest.head? ≠ some .orWord)
    (hand' : later.head? ≠ some .andWord) (hor' : later.head? ≠ some .orWord) :
    (derivation other : MoreDisjuncts) →
    derivation.tokens ++ rest = other.tokens ++ later → derivation = other ∧ rest = later
  | .nil, .nil, h => ⟨rfl, h⟩
  | .nil, .cons next others, h => by
    obtain rfl : rest = .orWord :: (next.tokens ++ others.tokens) ++ later := h
    exact absurd rfl hor
  | .cons next others, .nil, h => by
    obtain rfl : .orWord :: (next.tokens ++ others.tokens) ++ rest = later := h
    exact absurd rfl hor'
  | .cons next others, .cons next' others', h => by
    rw [MoreDisjuncts.tokens, MoreDisjuncts.tokens, List.cons_append, List.cons_append,
      List.append_assoc, List.append_assoc] at h
    obtain ⟨rfl, hothers⟩ := Conjunction.eq_of_append_eq (others.head?_ne_andWord hand)
      (others'.head?_ne_andWord hand') next next' (List.cons.inj h).2
    obtain ⟨rfl, hrest⟩ :=
      MoreDisjuncts.eq_of_append_eq hand hor hand' hor' others others' hothers
    exact ⟨rfl, hrest⟩

theorem Conjunction.eq_of_append_eq {rest later : List Token} (hand : rest.head? ≠ some .andWord)
    (hand' : later.head? ≠ some .andWord) : (derivation other : Conjunction) →
    derivation.tokens ++ rest = other.tokens ++ later → derivation = other ∧ rest = later
  | .intro first others, .intro first' others', h => by
    rw [Conjunction.tokens, Conjunction.tokens, List.append_assoc, List.append_assoc] at h
    obtain ⟨rfl, hothers⟩ := Negation.eq_of_append_eq first first' h
    obtain ⟨rfl, hrest⟩ := MoreConjuncts.eq_of_append_eq hand hand' others others' hothers
    exact ⟨rfl, hrest⟩

theorem MoreConjuncts.eq_of_append_eq {rest later : List Token}
    (hand : rest.head? ≠ some .andWord) (hand' : later.head? ≠ some .andWord) :
    (derivation other : MoreConjuncts) →
    derivation.tokens ++ rest = other.tokens ++ later → derivation = other ∧ rest = later
  | .nil, .nil, h => ⟨rfl, h⟩
  | .nil, .cons next others, h => by
    obtain rfl : rest = .andWord :: (next.tokens ++ others.tokens) ++ later := h
    exact absurd rfl hand
  | .cons next others, .nil, h => by
    obtain rfl : .andWord :: (next.tokens ++ others.tokens) ++ rest = later := h
    exact absurd rfl hand'
  | .cons next others, .cons next' others', h => by
    rw [MoreConjuncts.tokens, MoreConjuncts.tokens, List.cons_append, List.cons_append,
      List.append_assoc, List.append_assoc] at h
    obtain ⟨rfl, hothers⟩ := Negation.eq_of_append_eq next next' (List.cons.inj h).2
    obtain ⟨rfl, hrest⟩ := MoreConjuncts.eq_of_append_eq hand hand' others others' hothers
    exact ⟨rfl, hrest⟩

theorem Negation.eq_of_append_eq {rest later : List Token} : (derivation other : Negation) →
    derivation.tokens ++ rest = other.tokens ++ later → derivation = other ∧ rest = later
  | .not operand, .not operand', h => by
    obtain ⟨rfl, hrest⟩ := Negation.eq_of_append_eq operand operand' (List.cons.inj h).2
    exact ⟨rfl, hrest⟩
  | .not operand, .primary operand', h =>
    absurd (congrArg List.head? h).symm (operand'.head?_ne_notWord later)
  | .primary operand, .not operand', h =>
    absurd (congrArg List.head? h) (operand.head?_ne_notWord rest)
  | .primary operand, .primary operand', h => by
    obtain ⟨rfl, hrest⟩ := Primary.eq_of_append_eq operand operand' h
    exact ⟨rfl, hrest⟩

theorem Primary.eq_of_append_eq {rest later : List Token} : (derivation other : Primary) →
    derivation.tokens ++ rest = other.tokens ++ later → derivation = other ∧ rest = later
  | .parenthesised inner, .parenthesised inner', h => by
    rw [Primary.tokens, Primary.tokens, List.cons_append, List.cons_append, List.append_assoc,
      List.append_assoc] at h
    obtain ⟨rfl, hrest⟩ := Disjunction.eq_of_append_eq (by simp) (by simp) (by simp) (by simp)
      inner inner' (List.cons.inj h).2
    exact ⟨rfl, (List.cons.inj hrest).2⟩
  | .oneOf pattern, .oneOf pattern', h => by
    obtain ⟨htoken, hrest⟩ := List.cons.inj (List.cons.inj (List.cons.inj h).2).2
    exact ⟨congrArg _ (patternToken_injective htoken), hrest⟩
  | .allOf pattern, .allOf pattern', h => by
    obtain ⟨htoken, hrest⟩ := List.cons.inj (List.cons.inj (List.cons.inj h).2).2
    exact ⟨congrArg _ (patternToken_injective htoken), hrest⟩
  | .word name, .word name', h => by
    obtain ⟨hname, hrest⟩ := List.cons.inj h
    exact ⟨congrArg _ (Token.word.inj hname), hrest⟩
  | .parenthesised _, .oneOf _, h | .parenthesised _, .allOf _, h | .parenthesised _, .word _, h
  | .oneOf _, .parenthesised _, h | .oneOf _, .allOf _, h | .oneOf _, .word _, h
  | .allOf _, .parenthesised _, h | .allOf _, .oneOf _, h | .allOf _, .word _, h
  | .word _, .parenthesised _, h | .word _, .oneOf _, h | .word _, .allOf _, h =>
    nomatch (List.cons.inj h).1

end

/-- A derivation is told by its tokens. -/
theorem Disjunction.tokens_injective {derivation other : Disjunction}
    (h : derivation.tokens = other.tokens) : derivation = other := by
  have happend : derivation.tokens ++ [] = other.tokens ++ [] := congrArg (· ++ []) h
  have hend (token : Token) : ([] : List Token).head? ≠ some token := nofun
  exact (eq_of_append_eq (hend _) (hend _) (hend _) (hend _) derivation other happend).1

end Derivation

/-! ## A derivation for all that the grammar derives -/

namespace Grammar

theorem Selection.eq_patternToken {token : Token} {pattern : NamePattern}
    (h : Selection token pattern) : token = patternToken pattern := by
  cases h with
  | them => rfl
  | glob text => rfl

mutual

theorem Disjunction.exists_derivation {tokens : List Token} {expr : Expr} :
    Disjunction tokens expr →
      ∃ derivation : Derivation.Disjunction, derivation.tokens = tokens ∧ derivation.expr = expr
  | .intro hfirst hothers => by
    obtain ⟨first, rfl, rfl⟩ := hfirst.exists_derivation
    obtain ⟨others, rfl, rfl⟩ := hothers.exists_derivation
    exact ⟨.intro first others, rfl, rfl⟩

theorem MoreDisjuncts.exists_derivation {tokens : List Token} {exprs : List Expr} :
    MoreDisjuncts tokens exprs →
      ∃ derivation : Derivation.MoreDisjuncts,
        derivation.tokens = tokens ∧ derivation.exprs = exprs
  | .nil => ⟨.nil, rfl, rfl⟩
  | .cons hnext hothers => by
    obtain ⟨next, rfl, rfl⟩ := hnext.exists_derivation
    obtain ⟨others, rfl, rfl⟩ := hothers.exists_derivation
    exact ⟨.cons next others, rfl, rfl⟩

theorem Conjunction.exists_derivation {tokens : List Token} {expr : Expr} :
    Conjunction tokens expr →
      ∃ derivation : Derivation.Conjunction, derivation.tokens = tokens ∧ derivation.expr = expr
  | .intro hfirst hothers => by
    obtain ⟨first, rfl, rfl⟩ := hfirst.exists_derivation
    obtain ⟨others, rfl, rfl⟩ := hothers.exists_derivation
    exact ⟨.intro first others, rfl, rfl⟩

theorem MoreConjuncts.exists_derivation {tokens : List Token} {exprs : List Expr} :
    MoreConjuncts tokens exprs →
      ∃ derivation : Derivation.MoreConjuncts,
        derivation.tokens = tokens ∧ derivation.exprs = exprs
  | .nil => ⟨.nil, rfl, rfl⟩
  | .cons hnext hothers => by
    obtain ⟨next, rfl, rfl⟩ := hnext.exists_derivation
    obtain ⟨others, rfl, rfl⟩ := hothers.exists_derivation
    exact ⟨.cons next others, rfl, rfl⟩

theorem Negation.exists_derivation {tokens : List Token} {expr : Expr} :
    Negation tokens expr →
      ∃ derivation : Derivation.Negation, derivation.tokens = tokens ∧ derivation.expr = expr
  | .not hoperand => by
    obtain ⟨operand, rfl, rfl⟩ := hoperand.exists_derivation
    exact ⟨.not operand, rfl, rfl⟩
  | .primary hoperand => by
    obtain ⟨operand, rfl, rfl⟩ := hoperand.exists_derivation
    exact ⟨.primary operand, rfl, rfl⟩

theorem Primary.exists_derivation {tokens : List Token} {expr : Expr} :
    Primary tokens expr →
      ∃ derivation : Derivation.Primary, derivation.tokens = tokens ∧ derivation.expr = expr
  | .parenthesised hinner => by
    obtain ⟨inner, rfl, rfl⟩ := hinner.exists_derivation
    exact ⟨.parenthesised inner, rfl, rfl⟩
  | .oneOf hselection => ⟨.oneOf _, hselection.eq_patternToken ▸ rfl, rfl⟩
  | .allOf hselection => ⟨.allOf _, hselection.eq_patternToken ▸ rfl, rfl⟩
  | .word name => ⟨.word name, rfl, rfl⟩

end

end Grammar

/-- The reader accepts the tokens that have a derivation, and gives the expression of it. -/
theorem Parser.whole_eq_ok_iff {tokens : List Token} {expr : Expr} :
    whole tokens = .ok expr ↔
      ∃ derivation : Derivation.Disjunction,
        derivation.tokens = tokens ∧ derivation.expr = expr := by
  constructor
  · intro h
    exact (whole_sound h).exists_derivation
  · rintro ⟨derivation, rfl, rfl⟩
    exact whole_complete derivation

end SigmaCatalog.Condition
