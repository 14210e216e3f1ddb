import SigmaCatalog.Proofs.Query.Outcome
import SigmaCatalog.Proofs.Query.ReadBack
import SigmaCatalog.Proofs.Rule.Bodies
import SigmaCatalog.Query.Grammar
import SigmaCatalog.Query.Selection

/-!
# Which queries are sentences

The grammar of query strings has at most one `NOT` in front of a clause and no empty group.  A
sentence is what a derivation tree of the grammar spells, and a list of symbols has at most one
derivation tree, so a query is a sentence exactly when its clause is a tree of the grammar.

A `NOT` is written in three places: for the `not` of a condition, for a null and for a field that
must not exist.  The last two stand alone when they are all that an identifier says.  Then a `not`
in front of the identifier makes a second `NOT`.  An empty group comes only from a list of mappings
that are all under tags.  The main statement says that a query is a sentence exactly when neither
happens in its condition.
-/

namespace SigmaCatalog

/-! ## Conditions that can be expressed -/

/-- Whether an item has one value and this value says that the field is missing. -/
def DetectionItem.deniesField (item : DetectionItem) : Bool :=
  match item.values with
  | [value] => if item.has .exists then value == .bool false else value == .null
  | _ => false

/-- Whether items are one alone, which says that its field is missing. -/
def DetectionItem.denyField : List DetectionItem → Bool
  | [item] => item.deniesField
  | _ => false

/-- Whether a body says that one field is missing and nothing else. -/
def SearchIdentifier.deniesField : SearchIdentifier → Bool
  | .allOf items => DetectionItem.denyField items
  | .anyOf [group] => DetectionItem.denyField group
  | _ => false

namespace Detection

/-- Whether a search identifier says that a field is missing and nothing else. -/
def deniesField (detection : Detection) (name : String) : Bool :=
  (detection.find? name).any SearchIdentifier.deniesField

/-- Whether a search identifier has no group of items to choose from. -/
def isGroupless (detection : Detection) (name : String) : Bool :=
  detection.find? name == some (.anyOf [])

/-- Whether the identifiers that a pattern selects are one, which says that a field is missing. -/
def selectionDenies (detection : Detection) (pattern : NamePattern) : Bool :=
  match pattern.expand detection.names with
  | [name] => detection.deniesField name
  | _ => false

end Detection

namespace Condition.Expr

/-- Whether an expression has a `NOT` in front of it in a query. -/
def isNegated (detection : Detection) : Expr → Bool
  | .identifier name => detection.deniesField name
  | .not _ => true
  | .and _ | .or _ => false
  | .oneOf pattern | .allOf pattern => detection.selectionDenies pattern

mutual

/-- Whether no `not` stands in front of an expression that is negated already, and every identifier
mentioned has something to say. -/
def isExpressible (detection : Detection) : Expr → Bool
  | .identifier name => !detection.isGroupless name
  | .not operand => !operand.isNegated detection && operand.isExpressible detection
  | .and operands | .or operands => areExpressible detection operands
  | .oneOf pattern | .allOf pattern =>
    (pattern.expand detection.names).all fun name => !detection.isGroupless name

def areExpressible (detection : Detection) : List Expr → Bool
  | [] => true
  | operand :: operands => operand.isExpressible detection && areExpressible detection operands

end

theorem areExpressible_iff {detection : Detection} {operands : List Expr} :
    areExpressible detection operands = true ↔
      ∀ operand ∈ operands, operand.isExpressible detection = true := by
  induction operands with
  | nil => simp [areExpressible]
  | cons operand operands ih =>
    rw [areExpressible, Bool.and_eq_true, ih, List.forall_mem_cons]

end Condition.Expr

namespace Query

namespace Clause

variable {α β : Type}

/-! ## Trees of the grammar -/

theorem areSentences_iff {clauses : List (Clause α)} :
    AreSentences clauses ↔ ∀ clause ∈ clauses, clause.IsSentence := by
  induction clauses with
  | nil => simp [AreSentences]
  | cons clause clauses ih => rw [AreSentences, ih, List.forall_mem_cons]

theorem isSentence_group {joint : Joint} {operands : List (Clause α)} :
    (group joint operands).IsSentence ↔
      2 ≤ operands.length ∧ ∀ operand ∈ operands, operand.IsSentence := by
  rw [IsSentence, areSentences_iff]

/-- A clause without `NOT` in front of it is a primary when it is a sentence. -/
theorem isPrimary_iff {clause : Clause α} :
    clause.IsPrimary ↔ clause.isProhibited = false ∧ clause.IsSentence := by
  cases clause <;> simp [IsPrimary, IsSentence, isProhibited]

theorem IsPrimary.isSentence {clause : Clause α} (h : clause.IsPrimary) : clause.IsSentence :=
  (isPrimary_iff.mp h).2

theorem isProhibited_join (joint : Joint) (clauses : List (Clause α)) :
    (join joint clauses).isProhibited =
      match clauses with
      | [clause] => clause.isProhibited
      | _ => false := by
  match clauses with
  | [] => rfl
  | [clause] => rfl
  | _ :: _ :: _ => rfl

theorem not_isSentence_join_nil (joint : Joint) :
    ¬ (join joint ([] : List (Clause α))).IsSentence := by
  intro h
  have hlength := (isSentence_group.mp h).1
  simp at hlength

theorem isSentence_join {joint : Joint} {clauses : List (Clause α)} (hne : clauses ≠ []) :
    (join joint clauses).IsSentence ↔ ∀ clause ∈ clauses, clause.IsSentence := by
  match clauses with
  | [] => exact absurd rfl hne
  | [clause] => simp [join]
  | first :: second :: others =>
    rw [join, isSentence_group, and_iff_right (by simp)]
    intro clause h
    cases h

mutual

theorem isSentence_map (f : α → β) (clause : Clause α) :
    (clause.map f).IsSentence ↔ clause.IsSentence := by
  match clause with
  | .leaf test => exact Iff.rfl
  | .not operand =>
    have hprohibited : (operand.map f).isProhibited = operand.isProhibited := by
      cases operand <;> rfl
    rw [Clause.map, IsSentence, IsSentence, isPrimary_iff, isPrimary_iff, hprohibited,
      isSentence_map f operand]
  | .group joint operands =>
    rw [Clause.map, IsSentence, IsSentence, areSentences_mapAll f operands, mapAll_eq_map,
      List.length_map]

theorem areSentences_mapAll (f : α → β) (clauses : List (Clause α)) :
    AreSentences (mapAll f clauses) ↔ AreSentences clauses := by
  match clauses with
  | [] => exact Iff.rfl
  | clause :: clauses =>
    rw [mapAll, AreSentences, AreSentences, isSentence_map f clause, areSentences_mapAll f clauses]

end

end Clause

/-- The characters of a symbol in a query string; a word is written as it stands. -/
def Symbol.chars : Symbol → List Char
  | openParen => ['(']
  | closeParen => [')']
  | andOperator => [' ', 'A', 'N', 'D', ' ']
  | orOperator => [' ', 'O', 'R', ' ']
  | notOperator => ['N', 'O', 'T', ' ']
  | word text => text.toList

namespace Clause

/-! ## A sentence has one tree -/

theorem symbols_ne_closeParen (clause : Clause String) (rest later : List Symbol) :
    clause.symbols ++ rest ≠ .closeParen :: later := by
  intro h
  match clause with
  | .leaf word => simp [symbols] at h
  | .not operand => simp [symbols] at h
  | .group _ [] => simp [symbols] at h
  | .group _ (first :: others) => simp [symbols] at h

theorem joint_symbol_injective {joint other : Joint} (h : joint.symbol = other.symbol) :
    joint = other := by
  cases joint <;> cases other <;> first | rfl | cases h

mutual

/-- No clause but the sentence itself spells the symbols of a sentence, whatever comes after. -/
theorem eq_of_symbols (clause sentence : Clause String) (hsentence : sentence.IsSentence)
    {rest later : List Symbol} (h : clause.symbols ++ rest = sentence.symbols ++ later) :
    clause = sentence ∧ rest = later := by
  match clause, sentence with
  | .leaf word, .leaf other =>
    simp only [symbols, List.cons_append, List.nil_append, List.cons.injEq,
      Symbol.word.injEq] at h
    exact ⟨congrArg Clause.leaf h.1, h.2⟩
  | .not operand, .not other =>
    rw [IsSentence] at hsentence
    rw [symbols, symbols, List.cons_append, List.cons_append, List.cons.injEq] at h
    obtain ⟨rfl, hrest⟩ := eq_of_symbols operand other hsentence.isSentence h.2
    exact ⟨rfl, hrest⟩
  | .group joint operands, .group other (first' :: second' :: others') =>
    obtain ⟨-, hoperands⟩ := isSentence_group.mp hsentence
    have hfirst' := hoperands first' List.mem_cons_self
    have hothers' : ∀ operand ∈ second' :: others', operand.IsSentence :=
      fun operand hmem => hoperands operand (List.mem_cons_of_mem first' hmem)
    match operands with
    | [] =>
      simp only [symbols, List.cons_append, List.nil_append, List.cons.injEq, true_and,
        List.append_assoc] at h
      exact absurd h.symm (symbols_ne_closeParen first' _ _)
    | first :: others =>
      simp only [symbols, List.cons_append, List.nil_append, List.cons.injEq, true_and,
        List.append_assoc] at h
      obtain ⟨rfl, hmore⟩ := eq_of_symbols first first' hfirst' h
      obtain ⟨rfl, rfl, hrest⟩ :=
        eq_of_moreSymbols joint other others second' others' hothers' hmore
      exact ⟨rfl, hrest⟩
  | .group _ _, .group _ [] => exact absurd (isSentence_group.mp hsentence).1 (by simp)
  | .group _ _, .group _ [_] => exact absurd (isSentence_group.mp hsentence).1 (by simp)
  | .leaf _, .not _ | .leaf _, .group _ (_ :: _) | .leaf _, .group _ []
  | .not _, .leaf _ | .not _, .group _ (_ :: _) | .not _, .group _ []
  | .group _ [], .leaf _ | .group _ [], .not _
  | .group _ (_ :: _), .leaf _ | .group _ (_ :: _), .not _ => simp [symbols] at h

theorem eq_of_moreSymbols (joint other : Joint) (operands : List (Clause String))
    (next : Clause String) (others : List (Clause String))
    (hsentences : ∀ operand ∈ next :: others, operand.IsSentence) {rest later : List Symbol}
    (h : moreSymbols joint operands ++ .closeParen :: rest =
      moreSymbols other (next :: others) ++ .closeParen :: later) :
    joint = other ∧ operands = next :: others ∧ rest = later := by
  match operands with
  | [] =>
    cases other <;> simp [moreSymbols, Joint.symbol] at h
  | operand :: operands =>
    obtain ⟨hnext, hothers⟩ := List.forall_mem_cons.mp hsentences
    simp only [moreSymbols, List.cons_append, List.cons.injEq, List.append_assoc] at h
    obtain ⟨hjoint, h⟩ := h
    obtain rfl := joint_symbol_injective hjoint
    obtain ⟨rfl, hmore⟩ := eq_of_symbols operand next hnext h
    match others with
    | [] =>
      match operands with
      | [] => exact ⟨rfl, rfl, (List.cons.inj hmore).2⟩
      | _ :: _ => cases joint <;> simp [moreSymbols, Joint.symbol] at hmore
    | second :: others =>
      obtain ⟨-, rfl, hrest⟩ := eq_of_moreSymbols joint joint operands second others hothers hmore
      exact ⟨rfl, rfl, hrest⟩

end

mutual

/-- The text of a clause is that of its symbols, one after another. -/
theorem text_eq_flatMap (clause : Clause String) :
    (clause.text id).toList = clause.symbols.flatMap Symbol.chars := by
  match clause with
  | .leaf word => simp [text, symbols, Symbol.chars]
  | .not operand =>
    rw [text, symbols, String.toList_append, List.flatMap_cons, text_eq_flatMap operand]
    rfl
  | .group joint [] => simp [text, texts, symbols, Symbol.chars, Text.joinWith]
  | .group joint (first :: others) =>
    rw [text_group_toList, symbols, List.flatMap_cons, List.flatMap_append, List.flatMap_append,
      text_eq_flatMap first, moreChars_eq_flatMap joint others]
    rfl

theorem moreChars_eq_flatMap (joint : Joint) (clauses : List (Clause String)) :
    moreChars joint clauses = (moreSymbols joint clauses).flatMap Symbol.chars := by
  match clauses with
  | [] => rfl
  | clause :: clauses =>
    have hoperator : (" " ++ joint.operator ++ " ").toList = joint.symbol.chars := by
      cases joint <;> rfl
    rw [moreChars, moreSymbols, List.flatMap_cons, List.flatMap_append, text_eq_flatMap clause,
      moreChars_eq_flatMap joint clauses, hoperator]

end

end Clause

/-- Symbols are a sentence when a tree of the grammar spells them. -/
def Symbol.AreSentence (symbols : List Symbol) : Prop :=
  ∃ clause : Clause String, clause.IsSentence ∧ clause.symbols = symbols

/-- The symbols of a clause are a sentence exactly when the clause is a tree of the grammar. -/
theorem areSentence_symbols_iff (clause : Clause Leaf) :
    Symbol.AreSentence (clause.map Leaf.text).symbols ↔ clause.IsSentence := by
  rw [← Clause.isSentence_map Leaf.text clause]
  constructor
  · rintro ⟨sentence, hsentence, hsymbols⟩
    have heq : (clause.map Leaf.text).symbols ++ [] = sentence.symbols ++ [] := by
      rw [hsymbols]
    rwa [(Clause.eq_of_symbols _ sentence hsentence heq).1]
  · intro hsentence
    exact ⟨_, hsentence, rfl⟩

/-! ## Where a `NOT` is written -/

section Negation

variable (newName : String → String)

theorem valueClause_isProhibited (field : String) (item : DetectionItem) (value : DetectionValue) :
    (valueClause field item value).isProhibited =
      if item.has .exists then value == .bool false else value == .null := by
  unfold valueClause
  split
  · split
    · next heq => simp [heq, Clause.isProhibited]
    · next hne => simp [hne, Clause.isProhibited]
  · cases value with
    | _ => rfl

theorem itemClause_isProhibited (field : String) (item : DetectionItem) :
    (itemClause field item).isProhibited = item.deniesField := by
  rw [itemClause, Clause.isProhibited_join, DetectionItem.deniesField]
  cases item.values with
  | nil => rfl
  | cons value values =>
    cases values with
    | nil => exact valueClause_isProhibited field item value
    | cons => rfl

theorem itemsClause_isProhibited (items : List DetectionItem) :
    (itemsClause newName items).isProhibited = DetectionItem.denyField items := by
  rw [itemsClause, Clause.isProhibited_join]
  cases items with
  | nil => rfl
  | cons item items =>
    cases items with
    | nil => exact itemClause_isProhibited (newName item.field) item
    | cons => rfl

theorem bodyClause_isProhibited (body : SearchIdentifier) :
    (bodyClause newName body).isProhibited = body.deniesField := by
  match body with
  | .allOf items => exact itemsClause_isProhibited newName items
  | .anyOf [] => rfl
  | .anyOf [group] => exact itemsClause_isProhibited newName group
  | .anyOf (_ :: _ :: _) => rfl
  | .keywords [] => rfl
  | .keywords [value] => rfl
  | .keywords (_ :: _ :: _) => rfl

variable (detection : Detection)

theorem nameClause_isProhibited (name : String) :
    (nameClause newName detection name).isProhibited = detection.deniesField name := by
  rw [nameClause, Detection.deniesField]
  cases detection.find? name with
  | some body => exact bodyClause_isProhibited newName body
  | none => rfl

theorem selectionClause_isProhibited (joint : Joint) (pattern : NamePattern) :
    (Clause.join joint
        ((pattern.expand detection.names).map (nameClause newName detection))).isProhibited =
      detection.selectionDenies pattern := by
  rw [Clause.isProhibited_join, Detection.selectionDenies]
  match pattern.expand detection.names with
  | [] => rfl
  | [name] => exact nameClause_isProhibited newName detection name
  | _ :: _ :: _ => rfl

/-- Operands of which there are several make a group, which has no `NOT` in front of it. -/
theorem exprClauses_isProhibited (joint : Joint) {operands : List Condition.Expr}
    (hlength : 2 ≤ operands.length) :
    (Clause.join joint (exprClauses newName detection operands)).isProhibited = false := by
  rw [exprClauses_eq_map, Clause.isProhibited_join]
  match operands with
  | [] => simp at hlength
  | [_] => simp at hlength
  | _ :: _ :: _ => rfl

/-- A `NOT` is in front of the clause of an expression exactly when the expression is negated. -/
theorem exprClause_isProhibited {expr : Condition.Expr} (hproper : expr.Proper) :
    (exprClause newName detection expr).isProhibited = expr.isNegated detection := by
  cases hproper with
  | identifier name => exact nameClause_isProhibited newName detection name
  | not _ => rfl
  | and hlength _ => exact exprClauses_isProhibited newName detection .all hlength
  | or hlength _ => exact exprClauses_isProhibited newName detection .any hlength
  | oneOf pattern => exact selectionClause_isProhibited newName detection .any pattern
  | allOf pattern => exact selectionClause_isProhibited newName detection .all pattern

end Negation

/-! ## Which clauses are sentences -/

section Sentences

variable (newName : String → String)

theorem valueClause_isSentence (field : String) (item : DetectionItem) (value : DetectionValue) :
    (valueClause field item value).IsSentence := by
  unfold valueClause
  split
  · split
    · exact trivial
    · exact trivial
  · cases value with
    | _ => exact trivial

theorem itemClause_isSentence (field : String) {item : DetectionItem} (h : item.IsRead) :
    (itemClause field item).IsSentence := by
  have hne : item.values.map (valueClause field item) ≠ [] := by
    simpa using h.values_ne
  refine (Clause.isSentence_join hne).mpr (List.forall_mem_map.mpr ?_)
  intro value _
  exact valueClause_isSentence field item value

theorem itemsClause_isSentence {items : List DetectionItem}
    (h : SearchIdentifier.IsReadGroup items) : (itemsClause newName items).IsSentence := by
  have hne : items.map (fun item => itemClause (newName item.field) item) ≠ [] := by
    simpa using h.1
  refine (Clause.isSentence_join hne).mpr (List.forall_mem_map.mpr ?_)
  intro item hitem
  exact itemClause_isSentence _ (h.2 item hitem)

/-- A body that was read is converted to a sentence, unless it has no group to choose from. -/
theorem bodyClause_isSentence_iff {body : SearchIdentifier} (h : body.IsRead) :
    (bodyClause newName body).IsSentence ↔ body ≠ .anyOf [] := by
  rcases h.shape with ⟨items, rfl, hitems⟩ | ⟨groups, rfl, hgroups⟩ | ⟨values, rfl, hvalues⟩
  · exact iff_of_true (itemsClause_isSentence newName hitems) SearchIdentifier.noConfusion
  · by_cases hnil : groups = []
    · subst hnil
      exact iff_of_false (Clause.not_isSentence_join_nil .any) (by simp)
    · have hne : groups.map (itemsClause newName) ≠ [] := by
        simpa using hnil
      refine iff_of_true ?_ (by simpa using hnil)
      refine (Clause.isSentence_join hne).mpr (List.forall_mem_map.mpr ?_)
      intro group hgroup
      exact itemsClause_isSentence newName (hgroups group hgroup)
  · have hne : values.map (fun value => Clause.leaf (Leaf.anywhere (keywordTerm value))) ≠ [] := by
      simpa using hvalues
    refine iff_of_true ?_ SearchIdentifier.noConfusion
    refine (Clause.isSentence_join hne).mpr (List.forall_mem_map.mpr ?_)
    intro value _
    exact trivial

variable {detection : Detection}

theorem nameClause_isSentence_iff
    (hread : ∀ identifier ∈ detection.identifiers, identifier.2.IsRead) {name : String}
    (h : (detection.find? name).isSome) :
    (nameClause newName detection name).IsSentence ↔ detection.isGroupless name = false := by
  obtain ⟨body, hbody⟩ := Option.isSome_iff_exists.mp h
  have hbodyRead : body.IsRead := hread _ (Detection.mem_of_find? hbody)
  rw [nameClause, Detection.isGroupless, hbody, beq_eq_false_iff_ne, Ne, Option.some_inj]
  exact bodyClause_isSentence_iff newName hbodyRead

theorem selectionClause_isSentence_iff
    (hread : ∀ identifier ∈ detection.identifiers, identifier.2.IsRead) (joint : Joint)
    {pattern : NamePattern} (h : pattern.expand detection.names ≠ []) :
    (Clause.join joint
        ((pattern.expand detection.names).map (nameClause newName detection))).IsSentence ↔
      ((pattern.expand detection.names).all fun name => !detection.isGroupless name) = true := by
  have hne : (pattern.expand detection.names).map (nameClause newName detection) ≠ [] := by
    simpa using h
  rw [Clause.isSentence_join hne, List.forall_mem_map, List.all_eq_true]
  refine forall₂_congr fun name hname => ?_
  have hfind := Detection.find?_isSome_of_mem (NamePattern.expand_subset hname)
  rw [nameClause_isSentence_iff newName hread hfind, Bool.not_eq_true']

/-- The clause of an expression is a sentence exactly when the expression can be expressed. -/
theorem exprClause_isSentence_iff
    (hread : ∀ identifier ∈ detection.identifiers, identifier.2.IsRead) {expr : Condition.Expr}
    (hproper : expr.Proper) (h : ∀ reference ∈ expr.references, detection.Resolves reference) :
    (exprClause newName detection expr).IsSentence ↔ expr.isExpressible detection = true := by
  induction hproper with
  | identifier name =>
    have hname := h (.identifier name) (List.mem_singleton_self _)
    rw [exprClause, Condition.Expr.isExpressible, Bool.not_eq_true']
    exact nameClause_isSentence_iff newName hread hname
  | not hoperand ih =>
    rw [exprClause, Clause.IsSentence, Clause.isPrimary_iff,
      exprClause_isProhibited newName detection hoperand, ih h, Condition.Expr.isExpressible,
      Bool.and_eq_true, Bool.not_eq_true']
  | @and operands hlength _ ih | @or operands hlength _ ih =>
    have hne : operands.map (exprClause newName detection) ≠ [] := by
      intro hnil
      rw [List.map_eq_nil_iff.mp hnil] at hlength
      simp at hlength
    rw [exprClause, exprClauses_eq_map, Clause.isSentence_join hne, List.forall_mem_map,
      Condition.Expr.isExpressible, Condition.Expr.areExpressible_iff]
    refine forall₂_congr fun operand hoperand => ih operand hoperand ?_
    intro reference hreference
    exact h reference (references_subset hoperand hreference)
  | oneOf pattern | allOf pattern =>
    exact selectionClause_isSentence_iff newName hread _
      (h (.selection pattern) (List.mem_singleton_self _))

end Sentences

end Query

/-! ## Queries of rules -/

namespace Rule

open Query

variable {text : String} {rule : Rule} {table : Table String} {strict : Bool}

theorem condition_sentence_iff {naming : Renaming} {conversion : Conversion}
    (h : parse text = .ok rule)
    (hconversion : Conversion.ofDetection rule.detection naming = .ok conversion)
    {condition : Condition} (hcondition : condition ∈ rule.detection.conditions) :
    Symbol.AreSentence
        ((exprClause naming.newName rule.detection condition.expr).map Leaf.text).symbols ↔
      condition.expr.isExpressible rule.detection = true := by
  obtain ⟨source, hsource⟩ := conditions_parsed h condition hcondition
  rw [areSentence_symbols_iff]
  exact exprClause_isSentence_iff naming.newName (identifiers_read h)
    (Condition.proper_of_parse hsource) (resolves_of_conversion hconversion hcondition)

/-- Every query of a rule is its symbols one after another, and they are a sentence of the grammar
exactly when the condition has no `not` in front of an expression that is negated already and
mentions no identifier without groups. -/
theorem queries_sentences_iff {conversion : Conversion} (h : parse text = .ok rule)
    (hconvert : rule.convert table strict = .ok conversion) :
    List.Forall₂ (fun clause condition =>
        (clause.text Leaf.text).toList =
          (clause.map Leaf.text).symbols.flatMap Symbol.chars ∧
        (Symbol.AreSentence (clause.map Leaf.text).symbols ↔
          condition.expr.isExpressible rule.detection = true))
      conversion.clauses rule.detection.conditions := by
  have hconversion := conversion_of_convert hconvert
  rw [clauses_of_conversion hconversion, List.forall₂_map_left_iff, List.forall₂_same]
  intro condition hcondition
  constructor
  · rw [← text_map, Clause.text_eq_flatMap]
  · exact condition_sentence_iff h hconversion hcondition

/-- A rule with a null, a field that must not exist and a negated quantifier. -/
def denyingRule : String :=
  "title: t\ndetection:\n  a:\n    x: null\n  b1:\n    y: [1, null]\n  b2:\n  - z: 2\n" ++
    "  - w|exists: false\n  condition: a and not 1 of b*\n"

theorem queries_sentences_denyingRule : ∃ rule conversion, parse denyingRule = .ok rule ∧
    rule.isValid = true ∧ rule.convert ∅ false = .ok conversion ∧
    conversion.queries =
      ["(NOT _exists_:x AND NOT ((y:1 OR NOT _exists_:y) OR (z:2 OR NOT _exists_:w)))"] ∧
    ∀ clause ∈ conversion.clauses, Symbol.AreSentence (clause.map Leaf.text).symbols := by
  have hrule : passes denyingRule (fun rule => rule.isValid &&
      decide ((rule.convert ∅ false).map Conversion.queries = .ok
        ["(NOT _exists_:x AND NOT ((y:1 OR NOT _exists_:y) OR (z:2 OR NOT _exists_:w)))"]) &&
      rule.detection.conditions.all fun condition =>
        condition.expr.isExpressible rule.detection) = true := by
    decide +kernel
  obtain ⟨rule, hparse, hcheck⟩ := exists_of_passes hrule
  simp only [Bool.and_eq_true, decide_eq_true_eq, List.all_eq_true] at hcheck
  obtain ⟨⟨hvalid, hqueries⟩, hexpressible⟩ := hcheck
  obtain ⟨conversion, hconvert, hqueries⟩ := ok_of_map hqueries
  refine ⟨rule, conversion, hparse, hvalid, hconvert, hqueries, ?_⟩
  have hsentences := queries_sentences_iff hparse hconvert
  intro clause hclause
  obtain ⟨index, hindex, rfl⟩ := List.mem_iff_getElem.mp hclause
  have hlength := hsentences.length_eq
  have hcondition := (List.forall₂_iff_get.mp hsentences).2 index hindex (hlength ▸ hindex)
  exact hcondition.2.mpr (hexpressible _ (List.getElem_mem _))

/-- A rule that negates an identifier whose only item is a null. -/
def deniedNullRule : String :=
  "title: t\ndetection:\n  sel:\n    f: null\n  condition: not sel\n"

/-- Its query has two `NOT`s in front of its leaf. -/
theorem negated_null_no_sentence :
    ¬ ∀ (text : String) (rule : Rule) (table : Table String) (strict : Bool)
        (conversion : Conversion), parse text = .ok rule → rule.isValid = true →
      rule.convert table strict = .ok conversion →
      ∀ clause ∈ conversion.clauses, Symbol.AreSentence (clause.map Leaf.text).symbols := by
  intro hall
  have hrule : passes deniedNullRule (fun rule => rule.isValid &&
      (rule.convert ∅ false).isOk &&
      rule.detection.conditions.any fun condition =>
        !condition.expr.isExpressible rule.detection) = true := by
    decide +kernel
  obtain ⟨rule, hparse, hcheck⟩ := exists_of_passes hrule
  simp only [Bool.and_eq_true, List.any_eq_true, Bool.not_eq_true'] at hcheck
  obtain ⟨⟨hvalid, hok⟩, condition, hcondition, hinexpressible⟩ := hcheck
  cases hconvert : rule.convert ∅ false with
  | error cause =>
    rw [hconvert] at hok
    cases hok
  | ok conversion =>
    have hconversion := conversion_of_convert hconvert
    have hsentence := hall _ rule ∅ false conversion hparse hvalid hconvert
      (exprClause (Renaming.newName ⟨∅, false⟩) rule.detection condition.expr) (by
        rw [clauses_of_conversion hconversion]
        exact List.mem_map_of_mem hcondition)
    rw [condition_sentence_iff hparse hconversion hcondition, hinexpressible] at hsentence
    cases hsentence

end Rule

end SigmaCatalog
