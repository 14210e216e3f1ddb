import SigmaCatalog.Proofs.Rule.Derivation
import SigmaCatalog.Proofs.Rule.Lexing

/-!
# Reading a condition and writing it

A condition is read as the grammar derives it: the tokens of its search text have at most one
derivation, and what is read is the expression of that derivation.  An expression whose words can
be told apart is written in tokens that the grammar derives with the same expression, so it is read
back from its text.
-/

namespace SigmaCatalog.Condition

/-! ## The search text -/

theorem searchText_eq_self {source : String} (h : '|' ∉ source.toList) :
    searchText source = source.toList := by
  have hall : ∀ c ∈ source.toList, decide (c ≠ '|') = true :=
    fun c hc => decide_eq_true fun heq => h (heq ▸ hc)
  rw [searchText, ← List.append_nil source.toList, List.takeWhile_append_of_pos hall,
    List.takeWhile_nil]

theorem searchText_of_splitFirst {source : String} {before after : List Char}
    (h : Text.splitFirst '|' source.toList = some (before, after)) :
    searchText source = before := by
  obtain ⟨hsource, hbefore⟩ := Text.append_of_splitFirst_eq_some h
  have hall : ∀ c ∈ before, decide (c ≠ '|') = true :=
    fun c hc => decide_eq_true fun heq => hbefore (heq ▸ hc)
  rw [searchText, hsource, List.takeWhile_append_of_pos hall]
  simp

theorem Parser.whole_nil : whole [] = .error .unexpectedEnd := by
  simp [whole, disjunction, conjunction, negation, primary]

/-- The tokens of the search text decide whether a condition is read, and its expression. -/
theorem exists_parse_eq (source : String) :
    ∃ aggregation, parse source =
      match Token.ofText (searchText source) with
      | [] => .error .empty
      | token :: tokens =>
        match Parser.whole (token :: tokens) with
        | .error problem => .error problem
        | .ok expr => .ok { source := Text.trim source, expr, aggregation } := by
  unfold parse
  cases hsplit : Text.splitFirst '|' source.toList with
  | none =>
    rw [searchText_eq_self ((Text.splitFirst_eq_none_iff '|' source.toList).mp hsplit)]
    exact ⟨none, rfl⟩
  | some parts =>
    rw [searchText_of_splitFirst hsplit]
    exact ⟨_, rfl⟩

theorem exists_parse_iff {source : String} {expr : Expr} :
    (∃ condition, parse source = .ok condition ∧ condition.expr = expr) ↔
      Parser.whole (Token.ofText (searchText source)) = .ok expr := by
  obtain ⟨aggregation, hparse⟩ := exists_parse_eq source
  rw [hparse]
  cases Token.ofText (searchText source) with
  | nil => simp [Parser.whole_nil]
  | cons token tokens =>
    cases hwhole : Parser.whole (token :: tokens) with
    | error problem => simp [hwhole]
    | ok found => simp [hwhole]

/-! ## The text of an expression -/

namespace Token

/-- Whether the text of a token is read back as that token. -/
def IsLegible (token : Token) : Prop :=
  ofText token.text.toList = [token] ∧ '|' ∉ token.text.toList

theorem consWord_append (pending : List Char) (tokens : List Token) :
    consWord pending tokens = consWord pending [] ++ tokens := by
  unfold consWord
  split <;> rfl

theorem scan_append_blank {c : Char} (h : Text.isBlank c = true) (text rest : List Char)
    (pending : List Char) :
    scan pending (text ++ c :: rest) = scan pending text ++ ofText rest := by
  induction text generalizing pending with
  | nil =>
    have hend : ∀ d ∈ (c :: rest).head?, ¬ IsWordChar d := by
      intro d hd hword
      obtain rfl : c = d := Option.some.inj hd
      exact Bool.false_ne_true (hword.1.symm.trans h)
    rw [List.nil_append, scan_of_end hend, consWord_append]
    exact congrArg (consWord pending [] ++ ·) (ofText_blank h rest)
  | cons d text ih =>
    rw [List.cons_append, scan, scan]
    repeat' split
    · rw [ih, ← List.cons_append, consWord_append, consWord_append pending (_ :: scan [] text),
        List.append_assoc]
    · rw [ih, ← List.cons_append, consWord_append, consWord_append pending (_ :: scan [] text),
        List.append_assoc]
    · rw [ih, consWord_append, consWord_append pending (scan [] text), List.append_assoc]
    · exact ih _

theorem ofText_joinWith {tokens : List Token} (h : ∀ token ∈ tokens, token.IsLegible) :
    ofText (Text.joinWith " " (tokens.map text)).toList = tokens ∧
      '|' ∉ (Text.joinWith " " (tokens.map text)).toList := by
  induction tokens with
  | nil => exact ⟨rfl, by decide⟩
  | cons token tokens ih =>
    obtain ⟨⟨htoken, hbar⟩, htokens⟩ := List.forall_mem_cons.mp h
    obtain ⟨hrest, hbars⟩ := ih htokens
    cases tokens with
    | nil => exact ⟨htoken, hbar⟩
    | cons next later =>
      have hlist : (Text.joinWith " " ((token :: next :: later).map text)).toList =
          token.text.toList ++ ' ' :: (Text.joinWith " " ((next :: later).map text)).toList := by
        simp [Text.joinWith]
      rw [hlist]
      constructor
      · rw [ofText, scan_append_blank (by decide), hrest]
        exact congrArg (· ++ next :: later) htoken
      · simp only [List.mem_append, List.mem_cons, not_or]
        exact ⟨hbar, by decide, hbars⟩

end Token

theorem patternToken_isLegible {pattern : NamePattern} (h : Expr.IsWritablePattern pattern) :
    (patternToken pattern).IsLegible := by
  cases pattern with
  | them => exact ⟨by decide, by decide⟩
  | glob text => exact h

namespace Expr

theorem enclosed_isLegible {operand : Expr} {tokens : List Token}
    (h : ∀ token ∈ tokens, token.IsLegible) :
    ∀ token ∈ operand.enclosed tokens, token.IsLegible := by
  have hopen : Token.openParen.IsLegible := ⟨by decide, by decide⟩
  have hclose : Token.closeParen.IsLegible := ⟨by decide, by decide⟩
  unfold enclosed
  split
  · refine List.forall_mem_cons.mpr ⟨hopen, List.forall_mem_append.mpr ⟨h, ?_⟩⟩
    exact List.forall_mem_singleton.mpr hclose
  · exact h

theorem separated_isLegible {separator : Token} (hseparator : separator.IsLegible)
    {parts : List (List Token)} (h : ∀ tokens ∈ parts, ∀ token ∈ tokens, token.IsLegible) :
    ∀ token ∈ separated separator parts, token.IsLegible := by
  induction parts with
  | nil => exact List.forall_mem_nil _
  | cons tokens parts ih =>
    obtain ⟨htokens, hparts⟩ := List.forall_mem_cons.mp h
    cases parts with
    | nil => exact htokens
    | cons next later =>
      exact List.forall_mem_append.mpr ⟨htokens, List.forall_mem_cons.mpr ⟨hseparator, ih hparts⟩⟩

mutual

theorem tokens_isLegible : (expr : Expr) → expr.IsWritable → ∀ token ∈ expr.tokens, token.IsLegible
  | .identifier name, h => List.forall_mem_singleton.mpr h
  | .not operand, h => by
    have hnot : Token.notWord.IsLegible := ⟨by decide, by decide⟩
    exact List.forall_mem_cons.mpr ⟨hnot, enclosed_isLegible (tokens_isLegible operand h)⟩
  | .and operands, h => by
    have hand : Token.andWord.IsLegible := ⟨by decide, by decide⟩
    exact separated_isLegible hand (operandTokens_isLegible operands h.2)
  | .or operands, h => by
    have hor : Token.orWord.IsLegible := ⟨by decide, by decide⟩
    exact separated_isLegible hor (operandTokens_isLegible operands h.2)
  | .oneOf pattern, h => by
    have hone : Token.oneWord.IsLegible := ⟨by decide, by decide⟩
    have hof : Token.ofWord.IsLegible := ⟨by decide, by decide⟩
    simpa [tokens, hone, hof] using patternToken_isLegible h
  | .allOf pattern, h => by
    have hall : Token.allWord.IsLegible := ⟨by decide, by decide⟩
    have hof : Token.ofWord.IsLegible := ⟨by decide, by decide⟩
    simpa [tokens, hall, hof] using patternToken_isLegible h

theorem operandTokens_isLegible : (operands : List Expr) → AreWritable operands →
    ∀ tokens ∈ operandTokens operands, ∀ token ∈ tokens, token.IsLegible
  | [], _ => List.forall_mem_nil _
  | operand :: operands, h =>
    List.forall_mem_cons.mpr ⟨enclosed_isLegible (tokens_isLegible operand h.1),
      operandTokens_isLegible operands h.2⟩

end

end Expr

/-! ## The grammar derives what is written -/

namespace Grammar

open SigmaCatalog.Condition.Expr

theorem Conjunction.of_negation {tokens : List Token} {expr : Expr} (h : Negation tokens expr) :
    Conjunction tokens expr :=
  List.append_nil tokens ▸ Conjunction.intro h .nil

theorem Disjunction.of_conjunction {tokens : List Token} {expr : Expr}
    (h : Conjunction tokens expr) : Disjunction tokens expr :=
  List.append_nil tokens ▸ Disjunction.intro h .nil

theorem Disjunction.of_primary {tokens : List Token} {expr : Expr} (h : Primary tokens expr) :
    Disjunction tokens expr :=
  .of_conjunction (.of_negation (.primary h))

theorem Selection.of_pattern (pattern : NamePattern) :
    Selection (patternToken pattern) pattern := by
  cases pattern with
  | them => exact .them
  | glob text => exact .glob text

/-- An operand is derived by itself, in its parentheses if it needs them. -/
theorem Primary.of_operand {operand : Expr} (h : Disjunction operand.tokens operand) :
    Primary (operand.enclosed operand.tokens) operand := by
  cases operand with
  | identifier name => exact .word name
  | oneOf pattern => exact .oneOf (.of_pattern pattern)
  | allOf pattern => exact .allOf (.of_pattern pattern)
  | not operand => exact .parenthesised h
  | and operands => exact .parenthesised h
  | or operands => exact .parenthesised h

/-- Whether every operand is derived from the tokens it is written in. -/
def Operands (operands : List Expr) : Prop :=
  ∀ operand ∈ operands, Primary (operand.enclosed operand.tokens) operand

theorem separated_cons (separator : Token) (tokens : List Token) (parts : List (List Token)) :
    separated separator (tokens :: parts) = tokens ++ parts.flatMap (separator :: ·) := by
  induction parts generalizing tokens with
  | nil => exact (List.append_nil tokens).symm
  | cons next later ih =>
    rw [separated, ih, List.flatMap_cons, List.cons_append]
    exact List.cons_ne_nil next later

theorem MoreConjuncts.of_operands {operands : List Expr} (h : Operands operands) :
    MoreConjuncts ((operandTokens operands).flatMap (.andWord :: ·)) operands := by
  induction operands with
  | nil => exact .nil
  | cons operand operands ih =>
    obtain ⟨hoperand, hoperands⟩ := List.forall_mem_cons.mp h
    exact .cons (.primary hoperand) (ih hoperands)

theorem MoreDisjuncts.of_operands {operands : List Expr} (h : Operands operands) :
    MoreDisjuncts ((operandTokens operands).flatMap (.orWord :: ·)) operands := by
  induction operands with
  | nil => exact .nil
  | cons operand operands ih =>
    obtain ⟨hoperand, hoperands⟩ := List.forall_mem_cons.mp h
    exact .cons (.of_negation (.primary hoperand)) (ih hoperands)

theorem Disjunction.of_and {operands : List Expr} (hlength : 2 ≤ operands.length)
    (h : Operands operands) :
    Disjunction (separated .andWord (operandTokens operands)) (.and operands) := by
  match operands, hlength with
  | first :: second :: others, _ =>
    obtain ⟨hfirst, hothers⟩ := List.forall_mem_cons.mp h
    rw [operandTokens, separated_cons]
    exact .of_conjunction (.intro (.primary hfirst) (.of_operands hothers))

theorem Disjunction.of_or {operands : List Expr} (hlength : 2 ≤ operands.length)
    (h : Operands operands) :
    Disjunction (separated .orWord (operandTokens operands)) (.or operands) := by
  match operands, hlength with
  | first :: second :: others, _ =>
    obtain ⟨hfirst, hothers⟩ := List.forall_mem_cons.mp h
    rw [operandTokens, separated_cons]
    exact .intro (.of_negation (.primary hfirst)) (.of_operands hothers)

mutual

theorem Disjunction.of_isWritable :
    (expr : Expr) → expr.IsWritable → Disjunction expr.tokens expr
  | .identifier name, _ => .of_primary (.word name)
  | .not operand, h =>
    have hoperand := Primary.of_operand (Disjunction.of_isWritable operand h)
    .of_conjunction (.of_negation (.not (.primary hoperand)))
  | .and operands, h => .of_and h.1 (Operands.of_areWritable operands h.2)
  | .or operands, h => .of_or h.1 (Operands.of_areWritable operands h.2)
  | .oneOf pattern, _ => .of_primary (.oneOf (.of_pattern pattern))
  | .allOf pattern, _ => .of_primary (.allOf (.of_pattern pattern))

theorem Operands.of_areWritable :
    (operands : List Expr) → AreWritable operands → Operands operands
  | [], _ => List.forall_mem_nil _
  | operand :: operands, h =>
    List.forall_mem_cons.mpr ⟨.of_operand (Disjunction.of_isWritable operand h.1),
      Operands.of_areWritable operands h.2⟩

end

end Grammar

/-- An expression as it is written in the place of an operand. -/
def Expr.operandText (expr : Expr) : String :=
  Text.joinWith " " ((expr.enclosed expr.tokens).map Token.text)

/-! ## The reader and the grammar -/

/-- What is read from legible tokens is what the grammar derives from them. -/
theorem exists_parse_of_tokens {tokens : List Token} {expr : Expr}
    (hlegible : ∀ token ∈ tokens, token.IsLegible) (h : Grammar.Disjunction tokens expr) :
    ∃ condition, parse (Text.joinWith " " (tokens.map Token.text)) = .ok condition ∧
      condition.expr = expr := by
  obtain ⟨htokens, hbar⟩ := Token.ofText_joinWith hlegible
  rw [exists_parse_iff, searchText_eq_self hbar, htokens, Parser.whole_eq_ok_iff]
  exact h.exists_derivation

/-- The words of a search text are cut in one way and have at most one derivation.  A condition is
read when there is a derivation, as the expression of it, and a writable expression is read back
from its text, with or without parentheses around the whole. -/
theorem parse_iff_derivation (source : String) (expr : Expr) :
    (∃ tokens, (∀ other, Token.Lexed (searchText source) other ↔ other = tokens) ∧
      ((∃ condition, parse source = .ok condition ∧ condition.expr = expr) ↔
        ∃ derivation : Derivation.Disjunction,
          derivation.tokens = tokens ∧ derivation.expr = expr) ∧
      ∀ derivation other : Derivation.Disjunction,
        derivation.tokens = tokens → other.tokens = tokens → derivation = other) ∧
    (expr.IsWritable → ∀ rendering ∈ [expr.text, expr.operandText],
      ∃ condition, parse rendering = .ok condition ∧ condition.expr = expr) := by
  constructor
  · refine ⟨Token.ofText (searchText source), fun other => Token.lexed_iff, ?_, ?_⟩
    · rw [exists_parse_iff, Parser.whole_eq_ok_iff]
    · intro derivation other hderivation hother
      exact Derivation.Disjunction.tokens_injective (hderivation.trans hother.symm)
  · intro hwritable
    have hlegible := Expr.tokens_isLegible expr hwritable
    have hderived := Grammar.Disjunction.of_isWritable expr hwritable
    have hplain := exists_parse_of_tokens hlegible hderived
    have henclosed := exists_parse_of_tokens (Expr.enclosed_isLegible hlegible)
      (.of_primary (.of_operand hderived))
    exact List.forall_mem_cons.mpr ⟨hplain, List.forall_mem_singleton.mpr henclosed⟩

/-- Every kind of expression, with a compound operand of `not`. -/
def Expr.nested : Expr :=
  .and [.not (.or [.identifier "a", .oneOf (.glob "sel_*")]), .allOf .them]

theorem nested_read_back :
    let text := "( not ( a or 1 of sel_* ) ) and all of them"
    Expr.nested.IsWritable ∧
      (∀ rendering ∈ [text, "( ( not ( a or 1 of sel_* ) ) and all of them )"],
        ∃ condition, parse rendering = .ok condition ∧ condition.expr = Expr.nested) ∧
      ∃ derivation : Derivation.Disjunction,
        Token.Lexed (searchText text) derivation.tokens ∧ derivation.expr = Expr.nested := by
  intro text
  have hwritable : Expr.nested.IsWritable := by
    simp [Expr.nested, Expr.IsWritable, Expr.AreWritable, Expr.IsWritablePattern,
      Token.IsPlainWord]
    decide
  have htext : Expr.nested.text = text := by decide
  have hoperand :
      Expr.nested.operandText = "( ( not ( a or 1 of sel_* ) ) and all of them )" := by decide
  obtain ⟨⟨tokens, hlexed, hread, -⟩, hback⟩ := parse_iff_derivation text Expr.nested
  have hrenderings := hback hwritable
  rw [htext, hoperand] at hrenderings
  obtain ⟨derivation, htokens, hexpr⟩ := hread.mp (hrenderings text List.mem_cons_self)
  exact ⟨hwritable, hrenderings, derivation, (hlexed _).mpr htokens, hexpr⟩

end SigmaCatalog.Condition
