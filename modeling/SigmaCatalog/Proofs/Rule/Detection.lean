import SigmaCatalog.Proofs.Rule.ConditionParser
import SigmaCatalog.Rule.Reader

/-!
# Detection blocks of valid rules

What the compiler may rely on in a rule without problems: its conditions were read by the reader of
conditions, and every reference in them stands for search identifiers that the block declares.  A
rule may still have an empty list of keywords or groups; a *full* block has no empty list.
-/

namespace SigmaCatalog

/-! ## Blocks without empty lists -/

namespace SearchIdentifier

/-- Whether no list of the body is empty. -/
def IsFull : SearchIdentifier → Prop
  | allOf items => items ≠ [] ∧ ∀ item ∈ items, item.values ≠ []
  | anyOf groups => groups ≠ [] ∧ ∀ group ∈ groups, group ≠ [] ∧ ∀ item ∈ group, item.values ≠ []
  | keywords values => values ≠ []

instance decidableIsFull : (body : SearchIdentifier) → Decidable body.IsFull
  | allOf items => inferInstanceAs (Decidable (items ≠ [] ∧ ∀ item ∈ items, item.values ≠ []))
  | anyOf groups => inferInstanceAs
    (Decidable (groups ≠ [] ∧ ∀ group ∈ groups, group ≠ [] ∧ ∀ item ∈ group, item.values ≠ []))
  | keywords values => inferInstanceAs (Decidable (values ≠ []))

def items : SearchIdentifier → List DetectionItem
  | allOf items => items
  | anyOf groups => groups.flatten
  | keywords _ => []

end SearchIdentifier

namespace Detection

/-- Whether no list of items, groups, values or keywords is empty. -/
def IsFull (detection : Detection) : Prop :=
  ∀ entry ∈ detection.identifiers, entry.2.IsFull

instance decidableIsFull (detection : Detection) : Decidable detection.IsFull :=
  inferInstanceAs (Decidable (∀ entry ∈ detection.identifiers, entry.2.IsFull))

def items (detection : Detection) : List DetectionItem :=
  detection.identifiers.flatMap fun entry => entry.2.items

/-- A search identifier that is found is among those declared. -/
theorem mem_of_find? {detection : Detection} {name : String} {body : SearchIdentifier}
    (h : detection.find? name = some body) : (name, body) ∈ detection.identifiers := by
  unfold find? at h
  obtain ⟨entry, hentry, rfl⟩ := Option.map_eq_some_iff.mp h
  have hname : entry.1 = name := by simpa using List.find?_some hentry
  exact hname ▸ List.mem_of_find?_eq_some hentry

theorem find?_isSome_of_mem {detection : Detection} {name : String}
    (h : name ∈ detection.names) : (detection.find? name).isSome := by
  obtain ⟨entry, hentry, rfl⟩ := List.mem_map.mp h
  rw [find?, Option.isSome_map, List.find?_isSome]
  exact ⟨entry, hentry, beq_self_eq_true _⟩

/-- Whether a reference stands for search identifiers that are declared. -/
def Resolves (detection : Detection) : Condition.Reference → Prop
  | .identifier name => (detection.find? name).isSome
  | .selection pattern => pattern.expand detection.names ≠ []

end Detection

theorem NamePattern.expand_subset {pattern : NamePattern} {names : List String} {name : String}
    (h : name ∈ pattern.expand names) : name ∈ names :=
  (List.mem_filter.mp h).1

/-! ## Failures name their problems -/

namespace SearchIdentifier

variable {name : String} {problems : List Rule.Problem}

theorem itemsOf_error {entries : List (Yaml.Value × Yaml.Value)}
    (h : itemsOf name entries = .error problems) : problems ≠ [] := by
  induction entries generalizing problems with
  | nil => cases h
  | cons entry entries ih =>
    rw [itemsOf, List.foldr_cons, ← itemsOf] at h
    split at h
    · cases h
    · next hlater =>
      obtain rfl := Except.error.inj h
      exact ih hlater
    · obtain rfl := Except.error.inj h
      exact List.cons_ne_nil _ _
    · obtain rfl := Except.error.inj h
      exact List.cons_ne_nil _ _

theorem groupOf_error {entries : List (Yaml.Value × Yaml.Value)}
    (h : groupOf name entries = .error problems) : problems ≠ [] := by
  unfold groupOf at h
  split at h
  · obtain rfl := Except.error.inj h
    exact List.cons_ne_nil _ _
  · exact itemsOf_error h

theorem groupsOf_error {values : List Yaml.Value}
    (h : groupsOf name values = .error problems) : problems ≠ [] := by
  induction values with
  | nil => cases h
  | cons value values ih =>
    cases value with
    | mapping entries =>
      rw [groupsOf] at h
      split at h
      · next hgroup =>
        obtain rfl := Except.error.inj h
        exact groupOf_error hgroup
      · cases hothers : groupsOf name values with
        | error others =>
          rw [hothers] at h
          obtain rfl := Except.error.inj h
          exact ih hothers
        | ok groups =>
          rw [hothers] at h
          cases h
    | _ => exact ih h

/-- A body that cannot be read has a problem. -/
theorem ofYaml_error {value : Yaml.Value} (h : ofYaml name value = .error problems) :
    problems ≠ [] := by
  unfold ofYaml at h
  split at h
  · next entries =>
    cases hgroup : groupOf name entries with
    | error others =>
      rw [hgroup] at h
      obtain rfl := Except.error.inj h
      exact groupOf_error hgroup
    | ok group =>
      rw [hgroup] at h
      cases h
  · obtain rfl := Except.error.inj h
    exact List.cons_ne_nil _ _
  · next items _ =>
    split at h
    · cases hgroups : groupsOf name items with
      | error others =>
        rw [hgroups] at h
        obtain rfl := Except.error.inj h
        exact groupsOf_error hgroups
      | ok groups =>
        rw [hgroups] at h
        cases h
    · split at h
      · cases h
      · obtain rfl := Except.error.inj h
        exact List.cons_ne_nil _ _
  · obtain rfl := Except.error.inj h
    exact List.cons_ne_nil _ _
  · split at h
    · cases h
    · obtain rfl := Except.error.inj h
      exact List.cons_ne_nil _ _

end SearchIdentifier

/-! ## What reading a rule guarantees -/

namespace Detection

open Rule (Problem Entries)

theorem mem_names_declare {name other : String} {body : SearchIdentifier}
    {identifiers : List (String × SearchIdentifier)} :
    other ∈ (declare name body identifiers).map Prod.fst ↔
      other = name ∨ other ∈ identifiers.map Prod.fst := by
  induction identifiers with
  | nil => simp [declare]
  | cons entry identifiers ih =>
    rw [declare]
    split
    · next h => simp [h]
    · rw [List.map_cons, List.mem_cons, ih, List.map_cons, List.mem_cons]
      exact or_left_comm

/-- An entry without problems declares its name, unless it holds the conditions. -/
theorem identifierOf_cases {entry : Yaml.Value × Yaml.Value} (h : entryProblems entry = []) :
    ∃ name, entry.1.text? = some name ∧
      (name = conditionKey ∧ identifierOf entry = .ok none ∨
        name ≠ conditionKey ∧ ∃ body, identifierOf entry = .ok (some (name, body))) := by
  unfold entryProblems identifierOf at h
  unfold identifierOf
  cases hname : entry.1.text? with
  | none => simp [hname] at h
  | some name =>
    refine ⟨name, rfl, ?_⟩
    by_cases hkey : name = conditionKey
    · exact .inl ⟨hkey, if_pos hkey⟩
    · refine .inr ⟨hkey, ?_⟩
      simp only [hname, if_neg hkey] at h ⊢
      cases hbody : SearchIdentifier.ofYaml name entry.2 with
      | ok body => exact ⟨body, rfl⟩
      | error problems =>
        rw [hbody] at h
        exact absurd h (SearchIdentifier.ofYaml_error hbody)

theorem mem_names_foldl {entries : Entries} (h : entries.flatMap entryProblems = [])
    (name : String) (identifiers : List (String × SearchIdentifier)) :
    name ∈ (entries.foldl (fun identifiers entry =>
        match identifierOf entry with
        | .ok (some (name, body)) => declare name body identifiers
        | _ => identifiers) identifiers).map Prod.fst ↔
      name ∈ identifiers.map Prod.fst ∨ name ∈ declaredNames entries := by
  induction entries generalizing identifiers with
  | nil => simp [declaredNames]
  | cons entry entries ih =>
    rw [List.flatMap_cons, List.append_eq_nil_iff] at h
    rw [List.foldl_cons, ih h.2]
    obtain ⟨other, htext, ⟨hkey, hread⟩ | ⟨hkey, body, hread⟩⟩ := identifierOf_cases h.1
    · simp [hread, declaredNames, htext, hkey]
    · simp [hread, declaredNames, htext, hkey, mem_names_declare, or_assoc, or_left_comm]

/-- Without problems, the names of the search identifiers are the declared ones. -/
theorem mem_names_identifiersOf {entries : Entries} (h : entries.flatMap entryProblems = [])
    (name : String) :
    name ∈ (identifiersOf entries).map Prod.fst ↔ name ∈ declaredNames entries :=
  (mem_names_foldl h name []).trans (by simp)

/-- A reference without a problem resolves in a block that declares the same names. -/
theorem resolves_of_no_problem {detection : Detection} {declared : List String}
    (hnames : ∀ name, name ∈ detection.names ↔ name ∈ declared) {reference : Condition.Reference}
    (h : referenceProblem? declared reference = none) : detection.Resolves reference := by
  cases reference with
  | identifier name =>
    simp only [referenceProblem?, List.contains_iff_mem] at h
    split at h
    · next hmem => exact find?_isSome_of_mem ((hnames name).mpr hmem)
    · cases h
  | selection pattern =>
    simp only [referenceProblem?] at h
    split at h
    · cases h
    · next hne =>
      rw [List.isEmpty_iff] at hne
      obtain ⟨name, hname⟩ := List.exists_mem_of_ne_nil _ hne
      obtain ⟨hdeclared, hselects⟩ := List.mem_filter.mp hname
      exact List.ne_nil_of_mem (List.mem_filter.mpr ⟨(hnames name).mpr hdeclared, hselects⟩)

theorem conditionsOf_parsed {declared : List String} {value : Option Yaml.Value} :
    ∀ condition ∈ (conditionsOf declared value).1, ∃ source,
      Condition.parse source = .ok condition ∧
        ((conditionsOf declared value).2 = [] →
          condition.expr.references.filterMap (referenceProblem? declared) = []) := by
  unfold conditionsOf
  split
  · exact List.forall_mem_nil _
  · next sources _ =>
    intro condition hcondition
    obtain ⟨read, hread, hfst⟩ := List.mem_filterMap.mp hcondition
    obtain ⟨source, hsource, rfl⟩ := List.mem_map.mp hread
    have hparse : Condition.parse source = .ok condition := by
      unfold conditionOf at hfst
      split at hfst
      · next hparse => rw [hparse, Option.some.inj hfst]
      · cases hfst
    refine ⟨source, hparse, fun hproblems => ?_⟩
    have hempty := List.flatMap_eq_nil_iff.mp hproblems _ hread
    rwa [conditionOf, hparse] at hempty

end Detection

namespace Rule

variable {text : String} {rule : Rule}

/-- The detection block of a rule is empty or was read from entries, whose problems are among those
of the rule. -/
theorem detection_of_parse (h : parse text = .ok rule) :
    rule.detection = {} ∨ ∃ entries, rule.detection = (Detection.ofEntries entries).1 ∧
      (Detection.ofEntries entries).2 ⊆ rule.problems := by
  unfold parse at h
  split at h
  · cases h
  · split at h
    · cases h
    · cases h
    · next entries _ =>
      cases hheader : Header.ofEntries entries with
      | error cause =>
        rw [hheader] at h
        cases h
      | ok header =>
        rw [hheader] at h
        obtain rfl := Except.ok.inj h
        cases hblock : header.detection with
        | none => exact .inl (by simp [ofHeader, hblock])
        | some block =>
          refine .inr ⟨block, by simp [ofHeader, hblock], ?_⟩
          simp only [ofHeader, hblock]
          exact List.subset_append_right _ _
    · cases h

/-- The conditions of a rule were read by the reader of conditions. -/
theorem conditions_parsed (h : parse text = .ok rule) :
    ∀ condition ∈ rule.detection.conditions, ∃ source,
      Condition.parse source = .ok condition := by
  obtain hempty | ⟨entries, hdetection, -⟩ := detection_of_parse h
  · rw [hempty]
    exact List.forall_mem_nil _
  · rw [hdetection]
    intro condition hcondition
    obtain ⟨source, hsource, -⟩ := Detection.conditionsOf_parsed condition hcondition
    exact ⟨source, hsource⟩

/-- In a valid rule every reference of a condition resolves. -/
theorem references_resolve (h : parse text = .ok rule) (hvalid : rule.isValid = true) :
    ∀ condition ∈ rule.detection.conditions, ∀ reference ∈ condition.expr.references,
      rule.detection.Resolves reference := by
  obtain hempty | ⟨entries, hdetection, hproblems⟩ := detection_of_parse h
  · rw [hempty]
    exact List.forall_mem_nil _
  · rw [isValid, List.isEmpty_iff] at hvalid
    rw [hvalid, List.subset_nil] at hproblems
    obtain ⟨hentries, hconditions⟩ := List.append_eq_nil_iff.mp hproblems
    rw [hdetection]
    intro condition hcondition reference hreference
    obtain ⟨source, -, hreferences⟩ := Detection.conditionsOf_parsed condition hcondition
    have hnames : ∀ name, name ∈ (Detection.ofEntries entries).1.names ↔
        name ∈ Detection.declaredNames entries :=
      Detection.mem_names_identifiersOf hentries
    refine Detection.resolves_of_no_problem hnames ?_
    exact List.filterMap_eq_nil_iff.mp (hreferences hconditions) reference hreference

/-! ## Rules given by their text -/

/-- Whether a text is a rule that passes a check. -/
def passes (text : String) (check : Rule → Bool) : Bool :=
  match parse text with
  | .ok rule => check rule
  | .error _ => false

theorem exists_of_passes {check : Rule → Bool} (h : passes text check = true) :
    ∃ rule, parse text = .ok rule ∧ check rule = true := by
  unfold passes at h
  split at h
  · next rule hparse => exact ⟨rule, hparse, h⟩
  · cases h

end Rule

section Results

variable {ε α β : Type} {f : α → β} {result : Except ε α}

theorem ok_of_map {value : β} (h : result.map f = .ok value) :
    ∃ made, result = .ok made ∧ f made = value := by
  cases result with
  | error cause => cases h
  | ok made => exact ⟨made, rfl, Except.ok.inj h⟩

theorem error_of_map {cause : ε} (h : result.map f = .error cause) : result = .error cause := by
  cases result with
  | error other => exact congrArg Except.error (Except.error.inj h)
  | ok made => cases h

end Results

end SigmaCatalog
