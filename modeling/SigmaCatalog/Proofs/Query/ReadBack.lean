import Mathlib.Data.List.Forall2
import SigmaCatalog.Proofs.Query.Truth
import SigmaCatalog.Proofs.Query.Words

/-!
# Reading queries back

The query string of a condition is read as one clause with no text left over, and that clause is
true exactly when the condition is.  The way back has two stages: the characters of a clause are
scanned to its symbols, and the symbols are read to the clause.  Both are proved with any text or
symbols after the clause, which is what the induction over clauses needs.
-/

namespace SigmaCatalog.Query

namespace Clause

mutual

/-- The symbols of a clause whose leaves are words. -/
def symbols : Clause String → List Symbol
  | .leaf word => [.word word]
  | .not operand => .notOperator :: operand.symbols
  | .group _ [] => [.openParen, .closeParen]
  | .group joint (first :: others) =>
    .openParen :: (first.symbols ++ (moreSymbols joint others ++ [.closeParen]))

/-- The symbols of the operands after the first one of a group, each after the operator. -/
def moreSymbols (joint : Joint) : List (Clause String) → List Symbol
  | [] => []
  | operand :: operands => joint.symbol :: (operand.symbols ++ moreSymbols joint operands)

end

/-- The characters of the operands after the first one of a group, each after the operator. -/
def moreChars (joint : Joint) : List (Clause String) → List Char
  | [] => []
  | operand :: operands =>
    (" " ++ joint.operator ++ " ").toList ++ ((operand.text id).toList ++ moreChars joint operands)

theorem text_group_toList (joint : Joint) (first : Clause String) (others : List (Clause String)) :
    ((group joint (first :: others)).text id).toList =
      '(' :: ((first.text id).toList ++ (moreChars joint others ++ [')'])) := by
  have hjoin : ∀ first : Clause String,
      (Text.joinWith (" " ++ joint.operator ++ " ")
        (first.text id :: texts id others)).toList =
        (first.text id).toList ++ moreChars joint others := by
    induction others with
    | nil =>
      intro first
      rw [texts, Text.joinWith, moreChars, List.append_nil]
    | cons second others ih =>
      intro first
      rw [texts, Text.joinWith, String.toList_append, String.toList_append, ih, moreChars,
        List.append_assoc]
      exact List.cons_ne_nil _ _
  rw [text, texts, String.toList_append, String.toList_append, hjoin]
  simp

end Clause

/-! ## From characters to symbols -/

namespace Symbol

/-- Whether a word ends where some characters begin. -/
def Ends (chars : List Char) : Prop :=
  ∀ pending, scan .bare pending chars = (scan .bare [] chars).map (consWord pending)

theorem ends_nil : Ends [] := by
  intro pending
  simp [scan, consWord]

theorem ends_blank (rest : List Char) : Ends (' ' :: rest) := by
  intro pending
  cases hrest : scan .bare [] rest with
  | none => simp [scan, Text.isBlank, hrest]
  | some later => simp [scan, Text.isBlank, hrest, consWord]

theorem ends_closeParen (rest : List Char) : Ends (')' :: rest) := by
  intro pending
  cases hrest : scan .bare [] rest with
  | none => simp [scan, hrest]
  | some later => simp [scan, hrest, consWord]

/-- A word is scanned to itself where it ends. -/
theorem scan_word {word : String} {rest : List Char} {later : List Symbol} (hword : IsWord word)
    (hends : Ends rest) (hrest : scan .bare [] rest = some later) :
    scan .bare [] (word.toList ++ rest) = some (.word word :: later) := by
  have hpending : (word.toList.reverse ++ []).isEmpty = false := by
    rw [List.append_nil, List.isEmpty_reverse, List.isEmpty_eq_false_iff]
    exact hword.nonempty
  rw [hword.passes, hends, hrest, Option.map_some, consWord, hpending, List.append_nil,
    List.reverse_reverse, hword.spelled]
  rfl

theorem scan_operator (joint : Joint) {rest : List Char} {later : List Symbol}
    (hrest : scan .bare [] rest = some later) :
    scan .bare [] ((" " ++ joint.operator ++ " ").toList ++ rest) =
      some (joint.symbol :: later) := by
  cases joint with
  | _ => simp [scan, Joint.operator, Joint.symbol, Text.isBlank, hrest, consWord, spelled]

theorem scan_not {rest : List Char} {later : List Symbol}
    (hrest : scan .bare [] rest = some later) :
    scan .bare [] ("NOT ".toList ++ rest) = some (.notOperator :: later) := by
  simp [scan, Text.isBlank, hrest, consWord, spelled]

theorem ends_moreChars (joint : Joint) (operands : List (Clause String)) (rest : List Char) :
    Ends (Clause.moreChars joint operands ++ ')' :: rest) := by
  cases operands with
  | nil => exact ends_closeParen rest
  | cons operand operands =>
    rw [Clause.moreChars, String.toList_append, String.toList_append, String.toList_ofList]
    exact ends_blank _

/-- A grouped clause of words is scanned to its symbols, whatever comes after it. -/
theorem scan_clause {clause : Clause String} (hgrouped : clause.Grouped)
    (hwords : ∀ word ∈ clause.leaves, IsWord word) {rest : List Char} {later : List Symbol}
    (hends : Ends rest) (hrest : scan .bare [] rest = some later) :
    scan .bare [] ((clause.text id).toList ++ rest) = some (clause.symbols ++ later) := by
  induction hgrouped generalizing rest later with
  | leaf word =>
    exact scan_word (hwords word (List.mem_singleton_self word)) hends hrest
  | not _ ih =>
    rw [Clause.text, String.toList_append, List.append_assoc]
    exact scan_not (ih hwords hends hrest)
  | @group joint operands hlength _ ih =>
    cases operands with
    | nil => simp at hlength
    | cons first others =>
      rw [Clause.leaves_group] at hwords
      have hoperand : ∀ operand ∈ first :: others, ∀ {rest later}, Ends rest →
          scan .bare [] rest = some later →
          scan .bare [] ((operand.text id).toList ++ rest) = some (operand.symbols ++ later) := by
        intro operand hmem rest later hends hrest
        refine ih operand hmem ?_ hends hrest
        exact fun word hword => hwords word (List.mem_flatMap.mpr ⟨operand, hmem, hword⟩)
      have hclose : scan .bare [] (')' :: rest) = some (.closeParen :: later) := by
        simp [scan, hrest, consWord]
      have hmore : ∀ more, (∀ operand ∈ more, operand ∈ first :: others) →
          scan .bare [] (Clause.moreChars joint more ++ ')' :: rest) =
            some (Clause.moreSymbols joint more ++ .closeParen :: later) := by
        intro more hsubset
        induction more with
        | nil => exact hclose
        | cons operand more ihmore =>
          have hlater := ihmore fun other hother => hsubset other (List.mem_cons_of_mem _ hother)
          rw [Clause.moreChars, Clause.moreSymbols, List.append_assoc, List.append_assoc]
          have hscan := hoperand operand (hsubset operand List.mem_cons_self)
            (ends_moreChars joint more rest) hlater
          rw [scan_operator joint hscan, List.cons_append, List.append_assoc]
      have hfirst := hoperand first List.mem_cons_self (ends_moreChars joint others rest)
        (hmore others fun operand => List.mem_cons_of_mem first)
      rw [Clause.text_group_toList, Clause.symbols]
      simp only [List.cons_append, List.append_assoc, List.nil_append]
      simp [scan, hfirst, consWord]

end Symbol

/-! ## From symbols to clauses -/

namespace Reader

theorem moreOperands_symbols (joint : Joint) {operands : List (Clause String)}
    (hne : operands ≠ [])
    (hoperand : ∀ operand ∈ operands, ∀ (rest) {given}, given = operand.symbols ++ rest →
      ∃ h, Reader.operand given = some ⟨operand, rest, h⟩)
    (rest : List Symbol) {given : List Symbol}
    (hgiven : given = Clause.moreSymbols joint operands ++ .closeParen :: rest) :
    ∃ h, moreOperands joint given = some ⟨operands, .closeParen :: rest, h⟩ := by
  induction operands generalizing given with
  | nil => exact absurd rfl hne
  | cons next others ih =>
    rw [Clause.moreSymbols, List.cons_append, List.append_assoc] at hgiven
    subst hgiven
    obtain ⟨hshorter, hnext⟩ := hoperand next List.mem_cons_self _ rfl
    rw [moreOperands, if_pos rfl, hnext]
    cases others with
    | nil =>
      have hnone : moreOperands joint (.closeParen :: rest) = none := by
        rw [moreOperands, if_neg]
        cases joint with
        | _ => exact Symbol.noConfusion
      simp only [Clause.moreSymbols, List.nil_append, hnone]
      exact ⟨by simp only [List.length_cons, List.length_append]; omega, trivial⟩
    | cons second later =>
      obtain ⟨hothers, hmore⟩ := ih (List.cons_ne_nil second later)
        (fun operand h => hoperand operand (List.mem_cons_of_mem next h)) rfl
      simp only [hmore]
      exact ⟨by simp only [List.length_cons, List.length_append]; omega, trivial⟩

/-- The symbols of a grouped clause are read to the clause, whatever comes after them. -/
theorem operand_symbols {clause : Clause String} (hgrouped : clause.Grouped)
    (rest : List Symbol) {given : List Symbol} (hgiven : given = clause.symbols ++ rest) :
    ∃ h, operand given = some ⟨clause, rest, h⟩ := by
  induction hgrouped generalizing rest given with
  | leaf word =>
    subst hgiven
    simp [Clause.symbols, operand]
  | not _ ih =>
    subst hgiven
    obtain ⟨hshorter, hoperand⟩ := ih rest rfl
    rw [Clause.symbols, List.cons_append, operand, hoperand]
    exact ⟨Nat.lt_succ_of_lt hshorter, rfl⟩
  | @group joint operands hlength _ ih =>
    rcases operands with - | ⟨first, - | ⟨second, others⟩⟩
    · simp at hlength
    · simp at hlength
    · have hsymbols : given = .openParen :: (first.symbols ++
          (Clause.moreSymbols joint (second :: others) ++ .closeParen :: rest)) := by
        rw [hgiven, Clause.symbols]
        simp
      subst hsymbols
      obtain ⟨hshorter, hfirst⟩ := ih first List.mem_cons_self _ rfl
      obtain ⟨hlater, hmore⟩ := moreOperands_symbols joint (List.cons_ne_nil second others)
        (fun operand h => ih operand (List.mem_cons_of_mem first h)) rest rfl
      rw [operand, hfirst]
      cases joint with
      | _ =>
        simp only [Clause.moreSymbols, Joint.symbol, List.cons_append] at hmore ⊢
        simp only [joint?, hmore]
        exact ⟨by simp only [List.length_cons, List.length_append]; omega, trivial⟩

end Reader

/-- A grouped clause of words is what its text is read as. -/
theorem readClause?_text {clause : Clause String} (hgrouped : clause.Grouped)
    (hwords : ∀ word ∈ clause.leaves, Symbol.IsWord word) :
    readClause? (clause.text id) = some clause := by
  have hscan : Symbol.ofText? (clause.text id) = some clause.symbols := by
    have hend : Symbol.scan .bare [] [] = some [] := by simp [Symbol.scan, Symbol.consWord]
    have h := Symbol.scan_clause hgrouped hwords Symbol.ends_nil hend
    rwa [List.append_nil, List.append_nil] at h
  obtain ⟨hshorter, hoperand⟩ := Reader.operand_symbols hgrouped [] (List.append_nil _).symm
  rw [readClause?, hscan]
  simp [hoperand]

/-! ## Queries -/

theorem valueClause_leaves_plain (field : String) {item : DetectionItem}
    (h : item.has .regex = false) (value : DetectionValue) :
    ∀ leaf ∈ (valueClause field item value).leaves, leaf.IsPlain := by
  unfold valueClause
  split
  · split
    · simp [Clause.leaves, Leaf.IsPlain]
    · simp [Clause.leaves, Leaf.IsPlain]
  · cases value with
    | pattern pattern =>
      have hterm : (patternTerm item pattern).isRegex = false := by
        rw [patternTerm, h]
        split
        · contradiction
        · split
          · rfl
          · rfl
      simp [Clause.leaves, Leaf.IsPlain, hterm]
    | _ => simp [Clause.leaves, Leaf.IsPlain, Term.isRegex]

theorem itemsClause_leaves_plain (newName : String → String) {items : List DetectionItem}
    (h : ∀ item ∈ items, item.has .regex = false) :
    ∀ leaf ∈ (itemsClause newName items).leaves, leaf.IsPlain := by
  intro leaf hleaf
  rw [itemsClause, Clause.leaves_join, List.flatMap_map] at hleaf
  obtain ⟨item, hitem, hleaf⟩ := List.mem_flatMap.mp hleaf
  rw [itemClause, Clause.leaves_join, List.flatMap_map] at hleaf
  obtain ⟨value, -, hleaf⟩ := List.mem_flatMap.mp hleaf
  exact valueClause_leaves_plain _ (h item hitem) value leaf hleaf

theorem bodyClause_leaves_plain (newName : String → String) {body : SearchIdentifier}
    (h : ∀ item ∈ body.items, item.has .regex = false) :
    ∀ leaf ∈ (bodyClause newName body).leaves, leaf.IsPlain := by
  cases body with
  | allOf items => exact itemsClause_leaves_plain newName h
  | anyOf groups =>
    intro leaf hleaf
    rw [bodyClause, Clause.leaves_join, List.flatMap_map] at hleaf
    obtain ⟨group, hgroup, hleaf⟩ := List.mem_flatMap.mp hleaf
    refine itemsClause_leaves_plain newName (fun item hitem => ?_) leaf hleaf
    exact h item (List.mem_flatten.mpr ⟨group, hgroup, hitem⟩)
  | keywords values =>
    intro leaf hleaf
    rw [bodyClause, Clause.leaves_join, List.flatMap_map] at hleaf
    obtain ⟨value, -, hleaf⟩ := List.mem_flatMap.mp hleaf
    rw [Clause.leaves, List.mem_singleton] at hleaf
    rw [hleaf]
    cases value with
    | _ => rfl

mutual

/-- Writing the leaves first and the clause around them afterwards makes no difference. -/
theorem text_map (clause : Clause Leaf) :
    (clause.map Leaf.text).text id = clause.text Leaf.text := by
  match clause with
  | .leaf test => rfl
  | .not operand => rw [Clause.map, Clause.text, Clause.text, text_map operand]
  | .group joint operands => rw [Clause.map, Clause.text, Clause.text, texts_mapAll operands]

theorem texts_mapAll (clauses : List (Clause Leaf)) :
    Clause.texts id (Clause.mapAll Leaf.text clauses) = Clause.texts Leaf.text clauses := by
  match clauses with
  | [] => rfl
  | clause :: clauses =>
    rw [Clause.mapAll, Clause.texts, Clause.texts, text_map clause, texts_mapAll clauses]

end

/-- Reading a query string back gives one clause that is true exactly when the condition is,
whatever the values of the leaves: nothing in a rule's text changes what its condition says. -/
theorem queries_read_back {detection : Detection} {naming : Renaming} {conversion : Conversion}
    (hfull : detection.IsFull)
    (hplain : ∀ item ∈ detection.items, item.has .regex = false)
    (hparsed : ∀ condition ∈ detection.conditions, ∃ source,
      Condition.parse source = .ok condition)
    (hconversion : Conversion.ofDetection detection naming = .ok conversion) :
    List.Forall₂ (fun query condition => ∃ tree, readClause? query = some tree ∧
        ∀ truth : String → Bool, tree.holds truth =
          exprHolds naming.newName (fun leaf => truth leaf.text) detection condition.expr)
      conversion.queries detection.conditions := by
  rw [Conversion.queries, clauses_of_conversion hconversion, List.map_map,
    List.forall₂_map_left_iff, List.forall₂_same]
  intro condition hcondition
  have hgrouped := grouped_of_conversion hfull hconversion hcondition
    (hparsed condition hcondition)
  have hwords : ∀ leaf ∈ (exprClause naming.newName detection condition.expr).leaves,
      leaf.IsPlain := by
    refine exprClause_leaves (fun entry hentry => bodyClause_leaves_plain _ fun item hitem => ?_) _
    exact hplain item (List.mem_flatMap.mpr ⟨entry, hentry, hitem⟩)
  refine ⟨(exprClause naming.newName detection condition.expr).map Leaf.text, ?_, ?_⟩
  · rw [Function.comp_apply, ← text_map]
    refine readClause?_text (hgrouped.map Leaf.text) ?_
    rw [Clause.leaves_map]
    exact List.forall_mem_map.mpr fun leaf hleaf => (hwords leaf hleaf).isWord
  · intro truth
    rw [Clause.holds_map, exprClause_holds]

/-- A rule with a blank, a quote and a wildcard in its values, a null and a negated selection. -/
def mixedRule : String :=
  "title: t\ndetection:\n  sel:\n    a b: 'x \" y'\n    c: null\n  f_1:\n    d|contains:\n    - u\n" ++
    "    - 'v) OR'\n  f_2:\n  - w\n  condition: sel and not 1 of f_*\n"

theorem queries_read_back_mixedRule : ∃ rule conversion,
    Rule.parse mixedRule = .ok rule ∧
    Conversion.ofDetection rule.detection ⟨∅, false⟩ = .ok conversion ∧
    conversion.queries =
      ["((a\\ b:\"x \\\" y\" AND NOT _exists_:c) AND NOT ((d:*u* OR d:*v\\)\\ OR*) OR \"w\"))"] ∧
    List.Forall₂ (fun query condition => ∃ tree, readClause? query = some tree ∧
        ∀ truth : String → Bool, tree.holds truth =
          exprHolds (Renaming.newName ⟨∅, false⟩) (fun leaf => truth leaf.text) rule.detection
            condition.expr)
      conversion.queries rule.detection.conditions := by
  have hrule : Rule.passes mixedRule (fun rule =>
      decide rule.detection.IsFull &&
      decide (∀ item ∈ rule.detection.items, item.has .regex = false) &&
      decide ((Conversion.ofDetection rule.detection ⟨∅, false⟩).map Conversion.queries = .ok
        ["((a\\ b:\"x \\\" y\" AND NOT _exists_:c) AND NOT ((d:*u* OR d:*v\\)\\ OR*) OR \"w\"))"])) =
      true := by
    decide +kernel
  obtain ⟨rule, hparse, hcheck⟩ := Rule.exists_of_passes hrule
  simp only [Bool.and_eq_true, decide_eq_true_eq] at hcheck
  obtain ⟨⟨hfull, hplain⟩, hqueries⟩ := hcheck
  obtain ⟨conversion, hconversion, hqueries⟩ := ok_of_map hqueries
  exact ⟨rule, conversion, hparse, hconversion, hqueries,
    queries_read_back hfull hplain (Rule.conditions_parsed hparse) hconversion⟩

end SigmaCatalog.Query
