import SigmaCatalog.Proofs.Query.Course
import SigmaCatalog.Proofs.Query.Regex
import SigmaCatalog.Proofs.Query.Values
import SigmaCatalog.Proofs.Rule.Bodies
import SigmaCatalog.Proofs.Rule.Modifiers

/-!
# Modifiers in a query

The reader of items looks at modifiers one by one, and a conversion asks for them in an order of its
own and stops at the first that an item has.  Here a text shows a modifier of a value when it has
the form that the modifier asks for, whatever the order of questions.  An item that was read has at
most one modifier other than `all` and values of the kind it needs, so no question comes too early,
and each of its values shows the modifier.
-/

namespace SigmaCatalog.Query

/-! ## What it means to be shown -/

/-- Whether a bare term matches what a value matches as it is written. -/
def Spells (term written : String) : Prop :=
  ∃ read, barePieces? [] term.toList = some read ∧
    ∀ text, Piece.Matches read text ↔ Pattern.WrittenMatches written.toList text

def comparison? : Modifier → Option Comparison
  | .lt => some .less
  | .lte => some .lessOrEqual
  | .gt => some .greater
  | .gte => some .greaterOrEqual
  | _ => none

def numeral? : DetectionValue → Option String
  | .integer n => some (toString n)
  | .real x => some x.plainText
  | _ => none

/-- A text shows a modifier of a value of the field `name`. -/
inductive Shows (name : String) : Modifier → DetectionValue → String → Prop
  | contains {written term : String} (h : Spells term written) :
    Shows name .contains (.pattern (.ofText written)) (termText name ++ ":*" ++ term ++ "*")
  | startsWith {written term : String} (h : Spells term written) :
    Shows name .startsWith (.pattern (.ofText written)) (termText name ++ ":" ++ term ++ "*")
  | endsWith {written term : String} (h : Spells term written) :
    Shows name .endsWith (.pattern (.ofText written)) (termText name ++ ":*" ++ term)
  | regex {written body : String} (h : StandsFor body.toList written.toList) :
    Shows name .regex (.pattern (.ofText written)) (termText name ++ ":/" ++ body ++ "/")
  | block {written quoted : String} (hslash : '/' ∈ written.toList)
    (h : phraseEnd? quoted.toList = some written.toList) :
    Shows name .cidr (.pattern (.ofText written)) (termText name ++ ":\"" ++ quoted)
  | comparison {modifier : Modifier} {comparison : Comparison} {value : DetectionValue}
    {numeral digits : String} (hcomparison : comparison? modifier = some comparison)
    (hnumeral : numeral? value = some numeral)
    (h : unescaped? digits.toList = some numeral.toList) :
    Shows name modifier value (termText name ++ ":" ++ comparison.sign ++ digits)
  | present : Shows name .exists (.bool true) ("_exists_:" ++ termText name)
  | missing : Shows name .exists (.bool false) ("NOT _exists_:" ++ termText name)

/-- Texts as alternatives: one stands alone, and several are joined in parentheses. -/
def grouped (separator : String) : List String → String
  | [text] => text
  | texts => "(" ++ Text.joinWith separator texts ++ ")"

/-- A value of an item as it is written in a query. -/
def valueText (name : String) (item : DetectionItem) (value : DetectionValue) : String :=
  (valueClause name item value).text Leaf.text

/-! ## Texts of values -/

def bareText (written : String) : String :=
  String.join ((Pattern.ofText written).pieces.map pieceText)

theorem spells_bareText (written : String) : Spells (bareText written) written := by
  have hchars : (bareText written).toList = bareChars (Pattern.ofText written).pieces := by
    rw [bareText, String.toList_join, List.flatMap_map, bareChars]
  obtain ⟨read, hread, hmatches⟩ := exists_barePieces? (Pattern.ofText written).pieces []
  refine ⟨read, by rw [hchars, hread], fun text => ?_⟩
  have hvalue := Pattern.ofText_matches_iff written text
  rw [Pattern.Matches] at hvalue
  simp [hmatches, hvalue]

theorem grouped_texts (joint : Joint) (clauses : List (Clause Leaf)) :
    (Clause.join joint clauses).text Leaf.text =
      grouped (" " ++ joint.operator ++ " ") (clauses.map (Clause.text Leaf.text)) := by
  have htexts (clauses : List (Clause Leaf)) :
      Clause.texts Leaf.text clauses = clauses.map (Clause.text Leaf.text) := by
    induction clauses with
    | nil => rfl
    | cons clause clauses ih => rw [Clause.texts, ih, List.map_cons]
  cases clauses with
  | nil => rfl
  | cons first others =>
    cases others with
    | nil => rfl
    | cons second others =>
      rw [Clause.join, Clause.text, htexts]
      · rfl
      · simp

/-- An item is written as its values are, joined as it asks. -/
theorem itemClause_text (name : String) (item : DetectionItem) :
    (itemClause name item).text Leaf.text =
      grouped (if .all ∈ item.modifiers then " AND " else " OR ")
        (item.values.map (valueText name item)) := by
  have hjoint : " " ++ (valuesJoint item).operator ++ " " =
      if .all ∈ item.modifiers then " AND " else " OR " := by
    rw [valuesJoint, DetectionItem.has]
    by_cases hall : .all ∈ item.modifiers
    · simp [hall, Joint.operator]
    · simp [hall, Joint.operator]
  rw [itemClause, grouped_texts, hjoint, List.map_map]
  rfl

theorem exists_numeral {value : DetectionValue} (h : value.isNumber = true) :
    ∃ numeral, numeral? value = some numeral := by
  cases value with
  | integer n => exact ⟨_, rfl⟩
  | real x => exact ⟨_, rfl⟩
  | _ => cases h

/-! ## One modifier after another -/

section Rendering

variable {item : DetectionItem} {modifier : Modifier} {value : DetectionValue}

/-- With a placement that leaves an end open, a text value is a bare term with its open ends. -/
theorem valueText_of_placement (placement : Placement)
    (h : item.modifiers.filter (· ≠ .all) = placement.modifiers) (hopen : placement ≠ .whole)
    (name written : String) :
    valueText name item (.pattern (.ofText written)) = termText name ++ ":" ++
      String.join ((placement.opened (Pattern.ofText written).pieces).map pieceText) := by
  have hexists := has_of_placement h .exists (by decide)
  have hregex := has_of_placement h .regex (by decide)
  have hcidr := has_of_placement h .cidr (by decide)
  have hwild : (placement.opened (Pattern.ofText written).pieces).any Piece.isWild = true := by
    cases placement with
    | whole => exact absurd rfl hopen
    | _ => simp [Placement.opened, Piece.isWild]
  have hterm : (patternTerm item (.ofText written)).text =
      String.join ((placement.opened (Pattern.ofText written).pieces).map pieceText) := by
    cases placement <;>
      simp [patternTerm, hregex, hcidr, Placement.modifiers, openEnds_of_placement h, Term.text,
        piecesText, hwild]
  rw [valueText, valueClause, hexists, ← hterm]
  cases placement <;> rfl

theorem shows_contains (h : item.Sole .contains) (name written : String) :
    Shows name .contains (.pattern (.ofText written))
      (valueText name item (.pattern (.ofText written))) := by
  have htext : valueText name item (.pattern (.ofText written)) =
      termText name ++ ":*" ++ bareText written ++ "*" := by
    rw [valueText_of_placement .within h (by decide), ← String.toList_inj]
    simp [Placement.opened, pieceText, bareText]
  rw [htext]
  exact .contains (spells_bareText written)

theorem shows_startsWith (h : item.Sole .startsWith) (name written : String) :
    Shows name .startsWith (.pattern (.ofText written))
      (valueText name item (.pattern (.ofText written))) := by
  have htext : valueText name item (.pattern (.ofText written)) =
      termText name ++ ":" ++ bareText written ++ "*" := by
    rw [valueText_of_placement .atStart h (by decide), ← String.toList_inj]
    simp [Placement.opened, pieceText, bareText]
  rw [htext]
  exact .startsWith (spells_bareText written)

theorem shows_endsWith (h : item.Sole .endsWith) (name written : String) :
    Shows name .endsWith (.pattern (.ofText written))
      (valueText name item (.pattern (.ofText written))) := by
  have htext : valueText name item (.pattern (.ofText written)) =
      termText name ++ ":*" ++ bareText written := by
    rw [valueText_of_placement .atEnd h (by decide), ← String.toList_inj]
    simp [Placement.opened, pieceText, bareText]
  rw [htext]
  exact .endsWith (spells_bareText written)

theorem shows_regex (h : item.Sole .regex) (name written : String) :
    Shows name .regex (.pattern (.ofText written))
      (valueText name item (.pattern (.ofText written))) := by
  have htext : valueText name item (.pattern (.ofText written)) =
      termText name ++ ":/" ++ String.ofList (regexBody written.toList) ++ "/" := by
    rw [valueText, valueClause, DetectionItem.has_of_sole h (by decide), ← String.toList_inj]
    simp [Clause.text, Leaf.text, patternTerm, DetectionItem.has_of_sole h, Pattern.ofText,
      Term.text, toList_regexText]
  rw [htext]
  refine .regex ?_
  rw [String.toList_ofList]
  exact standsFor_regexBody written.toList

theorem shows_block (h : item.Sole .cidr) (name : String) {written : String}
    (hslash : '/' ∈ written.toList) :
    Shows name .cidr (.pattern (.ofText written))
      (valueText name item (.pattern (.ofText written))) := by
  have htext : valueText name item (.pattern (.ofText written)) =
      termText name ++ ":\"" ++ String.ofList (written.toList.flatMap phraseChar ++ ['"']) := by
    rw [valueText, valueClause, DetectionItem.has_of_sole h (by decide), ← String.toList_inj]
    simp [Clause.text, Leaf.text, patternTerm, DetectionItem.has_of_sole h, Pattern.ofText,
      Term.text, phraseText]
  rw [htext]
  refine .block hslash ?_
  rw [String.toList_ofList]
  exact phraseEnd?_phraseChars written.toList

theorem comparisonOf_sole (h : item.Sole modifier) {comparison : Comparison}
    (hcomparison : comparison? modifier = some comparison) : comparisonOf item = comparison := by
  cases modifier <;> cases hcomparison <;> simp [comparisonOf, DetectionItem.has_of_sole h]

/-- A number is written after the sign of its comparison. -/
theorem valueText_of_numeral (hexists : item.has .exists = false) (name : String)
    {numeral : String} (hnumeral : numeral? value = some numeral) :
    valueText name item value =
      termText name ++ ":" ++ (comparisonOf item).sign ++ termText numeral := by
  cases value <;> cases hnumeral <;>
    simp [valueText, valueClause, hexists, Clause.text, Leaf.text, Term.text, String.append_assoc]

/-- A number shows how it is compared. -/
theorem shows_comparison (h : item.Sole modifier) {comparison : Comparison}
    (hcomparison : comparison? modifier = some comparison) (name : String) {numeral : String}
    (hnumeral : numeral? value = some numeral) :
    Shows name modifier value (valueText name item value) := by
  have hexists : item.has .exists = false := by
    rw [DetectionItem.has_of_sole h (by decide)]
    cases modifier <;> cases hcomparison <;> rfl
  rw [valueText_of_numeral hexists name hnumeral, comparisonOf_sole h hcomparison]
  refine .comparison hcomparison hnumeral ?_
  rw [termText, String.toList_ofList]
  exact unescaped?_termText numeral.toList

theorem shows_exists (h : item.Sole .exists) (name : String) (present : Bool) :
    Shows name .exists (.bool present) (valueText name item (.bool present)) := by
  rw [valueText, valueClause, DetectionItem.has_of_sole h (by decide)]
  cases present with
  | true => exact .present
  | false => exact .missing

/-- Each value of an item that was read shows each modifier of the item, apart from `all`. -/
theorem shows_of_ofEntry {key : String} {document : Yaml.Value}
    (h : DetectionItem.ofEntry key document = .ok item) (hmodifier : modifier ∈ item.modifiers)
    (hall : modifier ≠ .all) (hvalue : value ∈ item.values) (name : String) :
    Shows name modifier value (valueText name item value) := by
  have hfit := DetectionItem.isFit_of_ofEntry h
  -- The sole modifier answers every question of the conversion, and the kind of the values is what
  -- the matching lemma asks for.
  have hsole := DetectionItem.sole_of_mem hfit.count hmodifier hall
  have hkind := hfit.kinds modifier hmodifier
  have hwritten (hpatterns : ∀ value ∈ item.values, value.isPattern = true) :
      ∃ written, value = .pattern (.ofText written) :=
    DetectionItem.exists_written h hvalue (hpatterns value hvalue)
  have hnumeral (hnumbers : ∀ value ∈ item.values, value.isNumber = true) :
      ∃ numeral, numeral? value = some numeral :=
    exists_numeral (hnumbers value hvalue)
  cases modifier with
  | all => exact absurd rfl hall
  | contains =>
    obtain ⟨written, rfl⟩ := hwritten (by simpa [DetectionItem.kindFault?] using hkind)
    exact shows_contains hsole name written
  | startsWith =>
    obtain ⟨written, rfl⟩ := hwritten (by simpa [DetectionItem.kindFault?] using hkind)
    exact shows_startsWith hsole name written
  | endsWith =>
    obtain ⟨written, rfl⟩ := hwritten (by simpa [DetectionItem.kindFault?] using hkind)
    exact shows_endsWith hsole name written
  | regex =>
    obtain ⟨written, rfl⟩ := hwritten (by simpa [DetectionItem.kindFault?] using hkind)
    exact shows_regex hsole name written
  | cidr =>
    obtain ⟨written, rfl⟩ := hwritten (by simpa [DetectionItem.kindFault?] using hkind)
    have hblock := hfit.blocks hmodifier _ hvalue
    exact shows_block hsole name (by simpa [DetectionItem.blockFault?, Pattern.ofText] using hblock)
  | «exists» =>
    obtain ⟨present, hvalues⟩ := DetectionItem.bool_of_exists hkind
    rw [hvalues, List.mem_singleton] at hvalue
    rw [hvalue]
    exact shows_exists hsole name present
  | lt | lte | gt | gte =>
    obtain ⟨numeral, hnumeral⟩ := hnumeral (by simpa [DetectionItem.kindFault?] using hkind)
    exact shows_comparison hsole rfl name hnumeral

end Rendering

/-! ## Items that were read -/

theorem clause_of_convertItem {naming : Renaming} {item : DetectionItem} {clause : Clause Leaf}
    {noted later : List String}
    (h : (convertItem naming item).run noted = .ok (clause, later)) :
    clause = itemClause (naming.newName item.field) item := by
  rw [(convertItem_meets naming item).run_eq] at h
  split at h
  · cases h
  · exact (congrArg Prod.fst (Except.ok.inj h)).symm

/-- An item that can be read keeps all that its entry says of it.  It has at most one modifier other
than `all`, each of its values shows this modifier when the item is converted, and the values are
joined as `all` asks. -/
theorem modifiers_shown {key : String} {document : Yaml.Value} {item : DetectionItem}
    {naming : Renaming} {clause : Clause Leaf} {noted later : List String}
    (h : DetectionItem.ofEntry key document = .ok item)
    (hconvert : (convertItem naming item).run noted = .ok (clause, later)) :
    DetectionItem.Keeps (.string key, document) item ∧
    item.modifiers.countP (· ≠ .all) ≤ 1 ∧
    (.exists ∈ item.modifiers → ∃ present, item.values = [.bool present]) ∧
    (∀ value ∈ item.values, ∀ modifier ∈ item.modifiers, modifier ≠ .all →
      Shows (naming.newName item.field) modifier value
        (valueText (naming.newName item.field) item value)) ∧
    item.values ≠ [] ∧
    clause.text Leaf.text =
      grouped (if .all ∈ item.modifiers then " AND " else " OR ")
        (item.values.map (valueText (naming.newName item.field) item)) := by
  have hfit := DetectionItem.isFit_of_ofEntry h
  have hread : item.IsRead := ⟨key, document, h⟩
  refine ⟨DetectionItem.keeps_of_ofEntry rfl h, hfit.count, ?_, ?_, hread.values_ne, ?_⟩
  · intro hexists
    exact DetectionItem.bool_of_exists (hfit.kinds .exists hexists)
  · intro value hvalue modifier hmodifier hall
    exact shows_of_ofEntry h hmodifier hall hvalue _
  · rw [clause_of_convertItem hconvert]
    exact itemClause_text _ _

/-- An item that asks for both of two texts within its field. -/
def withinItem : DetectionItem :=
  { field := "f"
    modifiers := [.contains, .all]
    values := [.pattern (.ofText "a b"), .pattern (.ofText "c*")] }

theorem modifiers_shown_withinItem :
    DetectionItem.ofEntry "f|contains|all" (.sequence [.string "a b", .string "c*"]) =
        .ok withinItem ∧
      ∃ clause, (convertItem ⟨∅, true⟩ withinItem).run [] = .error (.unmappedField "f") ∧
        (convertItem ⟨∅, false⟩ withinItem).run [] = .ok (clause, ["f"]) ∧
        clause.text Leaf.text = "(f:*a\\ b* AND f:*c**)" ∧
        withinItem.modifiers.countP (· ≠ .all) ≤ 1 := by
  have hitem : DetectionItem.ofEntry "f|contains|all" (.sequence [.string "a b", .string "c*"]) =
      .ok withinItem := by
    rfl
  have hconvert : (convertItem ⟨∅, false⟩ withinItem).run [] =
      .ok (itemClause "f" withinItem, ["f"]) := by
    rfl
  obtain ⟨-, hcount, -, -, -, htext⟩ := modifiers_shown hitem hconvert
  refine ⟨hitem, _, rfl, hconvert, htext.trans ?_, hcount⟩
  decide +kernel

end SigmaCatalog.Query
