import Mathlib.Data.List.Induction
import SigmaCatalog.Proofs.Query.Outcome
import SigmaCatalog.Proofs.Query.Shape
import SigmaCatalog.Proofs.Rule.Bodies

/-!
# The inventory of fields

A conversion notes fields while it builds clauses.  Here its inventory is compared with two lists
that know nothing of the course of a conversion: the fields that the conditions consult, which are
read off the references and the search identifiers alone, and the fields that the clauses name,
which are read off the leaves of the finished query.

The inventory has the consulted fields, each once and in the order in which they first occur, and
the clauses name the new names of just these fields.
-/

namespace SigmaCatalog

/-! ## First occurrences -/

section FirstOccurrences

open Query

variable {texts : List String} {text : String}

theorem firstOccurrences_concat (texts : List String) (text : String) :
    firstOccurrences (texts ++ [text]) = noteField text (firstOccurrences texts) := by
  rw [firstOccurrences, List.foldl_append]
  rfl

theorem mem_firstOccurrences : text ∈ firstOccurrences texts ↔ text ∈ texts := by
  induction texts using List.reverseRecOn with
  | nil => exact Iff.rfl
  | append_singleton texts last ih =>
    rw [firstOccurrences_concat, mem_noteField, ih, List.mem_append, List.mem_singleton, or_comm]

/-- The texts stand in the order of the places at which they first occur. -/
theorem firstOccurrences_pairwise (texts : List String) :
    (firstOccurrences texts).Pairwise fun earlier later =>
      texts.idxOf earlier < texts.idxOf later := by
  -- A text is noted at the end, so the last text is taken off.
  induction texts using List.reverseRecOn with
  | nil => exact .nil
  | append_singleton texts last ih =>
    have hplace : ∀ text ∈ firstOccurrences texts,
        (texts ++ [last]).idxOf text = texts.idxOf text := fun text htext =>
      List.idxOf_append_of_mem (mem_firstOccurrences.mp htext)
    have hkept : (firstOccurrences texts).Pairwise fun earlier later =>
        (texts ++ [last]).idxOf earlier < (texts ++ [last]).idxOf later := by
      refine ih.imp_of_mem fun {earlier later} hearlier hlater hlt => ?_
      rwa [hplace earlier hearlier, hplace later hlater]
    rw [firstOccurrences_concat, noteField]
    split
    · exact hkept
    · next hnew =>
      rw [List.contains_iff_mem, mem_firstOccurrences] at hnew
      refine List.pairwise_append.mpr ⟨hkept, List.pairwise_singleton _ _, ?_⟩
      intro earlier hearlier later hlater
      obtain rfl := List.mem_singleton.mp hlater
      rw [hplace earlier hearlier, List.idxOf_append_of_notMem hnew, List.idxOf_cons_self,
        Nat.add_zero]
      exact List.idxOf_lt_length_of_mem (mem_firstOccurrences.mp hearlier)

theorem nodup_firstOccurrences (texts : List String) : (firstOccurrences texts).Nodup := by
  refine (firstOccurrences_pairwise texts).imp fun {earlier later} hlt heq => ?_
  rw [heq] at hlt
  exact Nat.lt_irrefl _ hlt

end FirstOccurrences

/-! ## The items that conditions consult -/

namespace Detection

def itemsOf (detection : Detection) (name : String) : List DetectionItem :=
  match detection.find? name with
  | some body => body.items
  | none => []

/-- The items that an expression consults, as often as they are met. -/
def exprItems (detection : Detection) (expr : Condition.Expr) : List DetectionItem :=
  expr.references.flatMap fun reference =>
    (detection.referredNames reference).flatMap detection.itemsOf

/-- The items that the conditions consult, as often as they are met. -/
def consultedItems (detection : Detection) : List DetectionItem :=
  detection.conditions.flatMap fun condition => detection.exprItems condition.expr

variable {detection : Detection}

theorem fieldsOf_eq_map (detection : Detection) (name : String) :
    detection.fieldsOf name = (detection.itemsOf name).map DetectionItem.field := by
  unfold fieldsOf itemsOf
  cases detection.find? name with
  | none => rfl
  | some body => exact body.fields_eq_map

theorem consultedFields_eq_map (detection : Detection) :
    detection.consultedFields = detection.consultedItems.map DetectionItem.field := by
  have hfields : detection.fieldsOf =
      fun name => (detection.itemsOf name).map DetectionItem.field :=
    funext detection.fieldsOf_eq_map
  simp only [consultedFields, consultedItems, exprItems, hfields, List.map_flatMap]

theorem mem_itemsOf {name : String} {item : DetectionItem} :
    item ∈ detection.itemsOf name ↔
      ∃ body, detection.find? name = some body ∧ item ∈ body.items := by
  unfold itemsOf
  cases detection.find? name with
  | none => simp
  | some body => simp

theorem mem_consultedItems {item : DetectionItem} :
    item ∈ detection.consultedItems ↔
      ∃ condition ∈ detection.conditions, ∃ reference ∈ condition.expr.references,
        ∃ name ∈ detection.referredNames reference, ∃ body,
          detection.find? name = some body ∧ item ∈ body.items := by
  simp only [consultedItems, exprItems, List.mem_flatMap, mem_itemsOf]

end Detection

namespace Query

/-! ## The fields that a clause names -/

def Leaf.field? : Leaf → Option String
  | .exists name => some name
  | .field name _ => some name
  | .anywhere _ => none

def Clause.fields (clause : Clause Leaf) : List String :=
  clause.leaves.filterMap Leaf.field?

theorem Clause.fields_join (joint : Joint) (clauses : List (Clause Leaf)) :
    (Clause.join joint clauses).fields = clauses.flatMap Clause.fields := by
  rw [Clause.fields, Clause.leaves_join, List.filterMap_flatMap]
  rfl

variable (newName : String → String)

/-- What an item names: the new name of its field, once for each of its values. -/
def namedBy (item : DetectionItem) : List String :=
  List.replicate item.values.length (newName item.field)

theorem valueClause_fields (field : String) (item : DetectionItem) (value : DetectionValue) :
    (valueClause field item value).fields = [field] := by
  unfold valueClause
  split
  · split
    · rfl
    · rfl
  · cases value with
    | _ => rfl

theorem itemClause_fields (item : DetectionItem) :
    (itemClause (newName item.field) item).fields = namedBy newName item := by
  rw [itemClause, Clause.fields_join, List.flatMap_map, namedBy]
  simp only [valueClause_fields]
  rw [← List.map_eq_flatMap, List.map_const']

theorem itemsClause_fields (items : List DetectionItem) :
    (itemsClause newName items).fields = items.flatMap (namedBy newName) := by
  rw [itemsClause, Clause.fields_join, List.flatMap_map]
  exact List.flatMap_congr fun item _ => itemClause_fields newName item

theorem bodyClause_fields (body : SearchIdentifier) :
    (bodyClause newName body).fields = body.items.flatMap (namedBy newName) := by
  cases body with
  | allOf items => exact itemsClause_fields newName items
  | anyOf groups =>
    have hgroups : groups.flatMap (fun items => (itemsClause newName items).fields) =
        groups.flatMap fun items => items.flatMap (namedBy newName) :=
      List.flatMap_congr fun items _ => itemsClause_fields newName items
    rw [bodyClause, Clause.fields_join, List.flatMap_map, hgroups, SearchIdentifier.items,
      ← List.flatMap_id, List.flatMap_assoc]
    rfl
  | keywords values =>
    rw [bodyClause, Clause.fields_join, List.flatMap_map]
    exact List.flatMap_eq_nil_iff.mpr fun value _ => rfl

variable (detection : Detection)

theorem nameClause_fields (name : String) :
    (nameClause newName detection name).fields =
      (detection.itemsOf name).flatMap (namedBy newName) := by
  rw [nameClause, Detection.itemsOf]
  cases detection.find? name with
  | some body => exact bodyClause_fields newName body
  | none => rfl

theorem selectionClause_fields (joint : Joint) (pattern : NamePattern) :
    (Clause.join joint
        ((pattern.expand detection.names).map (nameClause newName detection))).fields =
      ((pattern.expand detection.names).flatMap detection.itemsOf).flatMap (namedBy newName) := by
  rw [Clause.fields_join, List.flatMap_map, List.flatMap_assoc]
  exact List.flatMap_congr fun name _ => nameClause_fields newName detection name

mutual

/-- The clause of an expression names what the items that the expression consults name. -/
theorem exprClause_fields (expr : Condition.Expr) :
    (exprClause newName detection expr).fields =
      (detection.exprItems expr).flatMap (namedBy newName) := by
  match expr with
  | .identifier name =>
    simpa [exprClause, Detection.exprItems, Condition.Expr.references, Detection.referredNames]
      using nameClause_fields newName detection name
  | .not operand => exact exprClause_fields operand
  | .and operands | .or operands =>
    rw [exprClause, Clause.fields_join]
    exact exprClauses_fields operands
  | .oneOf pattern | .allOf pattern =>
    simpa [exprClause, Detection.exprItems, Condition.Expr.references, Detection.referredNames]
      using selectionClause_fields newName detection _ pattern

theorem exprClauses_fields (operands : List Condition.Expr) :
    (exprClauses newName detection operands).flatMap Clause.fields =
      ((Condition.Expr.listReferences operands).flatMap fun reference =>
        (detection.referredNames reference).flatMap detection.itemsOf).flatMap
          (namedBy newName) := by
  match operands with
  | [] => rfl
  | operand :: operands =>
    rw [exprClauses, Condition.Expr.listReferences, List.flatMap_cons, List.flatMap_append,
      List.flatMap_append, exprClause_fields operand, exprClauses_fields operands]
    rfl

end

variable {newName detection} {naming : Renaming} {conversion : Conversion}

/-! ## The inventory of a conversion -/

/-- The clauses of a conversion name what the consulted items name, in the same order. -/
theorem fields_of_clauses (h : Conversion.ofDetection detection naming = .ok conversion) :
    conversion.clauses.flatMap Clause.fields =
      detection.consultedItems.flatMap (namedBy naming.newName) := by
  rw [clauses_of_conversion h, List.flatMap_map, Detection.consultedItems, List.flatMap_assoc]
  exact List.flatMap_congr fun condition _ =>
    exprClause_fields naming.newName detection condition.expr

/-- A conversion that succeeds notes the consulted fields where they first occur. -/
theorem fields_of_conversion (h : Conversion.ofDetection detection naming = .ok conversion) :
    conversion.fields = firstOccurrences detection.consultedFields := by
  have hplain : ∀ condition ∈ detection.conditions, condition.aggregation = none := by
    intro condition hcondition
    cases haggregation : condition.aggregation with
    | none => rfl
    | some clause =>
      refine absurd ?_ (no_obstacle_of_conversion h (.aggregation condition.source))
      refine mem_encountersIn.mpr ⟨condition, hcondition, ?_⟩
      rw [conditionEncounters, haggregation]
      exact List.mem_singleton_self _
  have hmet : encountersIn detection detection.conditions =
      detection.consultedFields.map .field :=
    encountersIn_of_plain hplain fun condition hcondition => resolves_of_conversion h hcondition
  rw [ofDetection_eq] at h
  split at h
  · cases h
  · obtain rfl := Except.ok.inj h
    dsimp only
    rw [hmet, noteAll, List.filterMap_map]
    exact congrArg firstOccurrences List.filterMap_some

end Query

/-! ## Inventories of rules -/

namespace Rule

open Query

variable {text : String} {rule : Rule} {table : Table String} {strict : Bool}

/-- A consulted item of a rule has values. -/
theorem values_ne_of_consulted (h : parse text = .ok rule) {item : DetectionItem}
    (hitem : item ∈ rule.detection.consultedItems) : item.values ≠ [] := by
  obtain ⟨_, _, _, _, _, _, body, hbody, hitem⟩ := Detection.mem_consultedItems.mp hitem
  have hread : body.IsRead := identifiers_read h _ (Detection.mem_of_find? hbody)
  exact (hread.items item hitem).values_ne

/-- The inventory of a conversion has the fields that the conditions consult, each once and in the
order of their first occurrences; these are the fields of the search identifiers that the conditions
refer to, and the queries name the new names of just these fields. -/
theorem convert_inventory {conversion : Conversion} (hparse : parse text = .ok rule)
    (h : rule.convert table strict = .ok conversion) :
    conversion.fields.Nodup ∧
    conversion.fields = firstOccurrences rule.detection.consultedFields ∧
    (conversion.fields.Pairwise fun earlier later =>
      rule.detection.consultedFields.idxOf earlier <
        rule.detection.consultedFields.idxOf later) ∧
    (∀ field, field ∈ conversion.fields ↔
      ∃ condition ∈ rule.detection.conditions, ∃ reference ∈ condition.expr.references,
        ∃ name ∈ rule.detection.referredNames reference, ∃ body,
          rule.detection.find? name = some body ∧ ∃ item ∈ body.items, item.field = field) ∧
    ∀ name, name ∈ conversion.clauses.flatMap Clause.fields ↔
      ∃ field ∈ conversion.fields, Renaming.newName ⟨table, strict⟩ field = name := by
  have hconversion := conversion_of_convert h
  have hfields := fields_of_conversion hconversion
  have hmem : ∀ field, field ∈ conversion.fields ↔
      ∃ item ∈ rule.detection.consultedItems, item.field = field := by
    intro field
    rw [hfields, mem_firstOccurrences, Detection.consultedFields_eq_map, List.mem_map]
  refine ⟨?_, hfields, ?_, ?_, ?_⟩
  · rw [hfields]
    exact nodup_firstOccurrences _
  · rw [hfields]
    exact firstOccurrences_pairwise _
  · intro field
    rw [hmem]
    constructor
    · rintro ⟨item, hitem, hfield⟩
      obtain ⟨condition, hcondition, reference, hreference, name, hname, body, hbody, hitem⟩ :=
        Detection.mem_consultedItems.mp hitem
      exact ⟨condition, hcondition, reference, hreference, name, hname, body, hbody, item, hitem,
        hfield⟩
    · rintro ⟨condition, hcondition, reference, hreference, name, hname, body, hbody, item, hitem,
        hfield⟩
      exact ⟨item, Detection.mem_consultedItems.mpr
        ⟨condition, hcondition, reference, hreference, name, hname, body, hbody, hitem⟩, hfield⟩
  · intro name
    rw [fields_of_clauses hconversion, List.mem_flatMap]
    constructor
    · rintro ⟨item, hitem, hname⟩
      exact ⟨item.field, (hmem _).mpr ⟨item, hitem, rfl⟩, (List.eq_of_mem_replicate hname).symm⟩
    · rintro ⟨field, hfield, rfl⟩
      obtain ⟨item, hitem, rfl⟩ := (hmem _).mp hfield
      have hlength : item.values.length ≠ 0 := by
        simpa using values_ne_of_consulted hparse hitem
      exact ⟨item, hitem, List.mem_replicate.mpr ⟨hlength, rfl⟩⟩

/-- A rule with two conditions, a field in two identifiers, a keyword and an identifier to which no
condition refers. -/
def repeatingRule : String :=
  "title: t\ndetection:\n  a: {x: 1, y: 2}\n  b: {y: 3}\n  k: w\n  u: {z: 4}\n" ++
    "  condition: [b or not k, 1 of a*]\n"

theorem convert_inventory_repeatingRule : ∃ rule conversion,
    parse repeatingRule = .ok rule ∧ rule.isValid = true ∧
    rule.convert ∅ false = .ok conversion ∧
    rule.detection.consultedFields = ["y", "x", "y"] ∧
    conversion.fields = ["y", "x"] ∧ conversion.fields.Nodup := by
  have hrule : passes repeatingRule (fun rule => rule.isValid &&
      decide (rule.detection.consultedFields = ["y", "x", "y"]) &&
      (rule.convert ∅ false).isOk) = true := by
    decide +kernel
  obtain ⟨rule, hparse, hcheck⟩ := exists_of_passes hrule
  simp only [Bool.and_eq_true, decide_eq_true_eq] at hcheck
  obtain ⟨⟨hvalid, hconsulted⟩, hok⟩ := hcheck
  cases hconvert : rule.convert ∅ false with
  | error cause =>
    rw [hconvert] at hok
    cases hok
  | ok conversion =>
    obtain ⟨hnodup, hfields, -⟩ := convert_inventory hparse hconvert
    have heq : conversion.fields = ["y", "x"] := by
      rw [hfields, hconsulted]
      decide
    exact ⟨rule, conversion, hparse, hvalid, hconvert, hconsulted, heq, hnodup⟩

end Rule

end SigmaCatalog
