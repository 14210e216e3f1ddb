import SigmaCatalog.Proofs.Rule.Retention

/-!
# Which problems a rule reports

The problems of a detection block are those of its entries, each taken alone and in order, and then
those of its conditions.  The problems of a mapping are in the same way those of its keys.

A list of mappings is different.  It is read up to the first mapping with problems, and mappings
under a tag are not read at all, so problems of one mapping can hide behind those of another.  The
main statement says so exactly: what a list of mappings reports is the problems of all its mappings
if and only if no mapping with problems is under a tag and at most one mapping has problems.
-/

namespace SigmaCatalog

open Rule (Problem Entries)

/-! ## Parts of a body -/

/-- The problems that a reading names. -/
def Rule.problemsIn {α : Type} : Except (List Problem) α → List Problem
  | .ok _ => []
  | .error problems => problems

@[simp] theorem Rule.problemsIn_ok {α : Type} (value : α) :
    problemsIn (.ok value : Except (List Problem) α) = [] :=
  rfl

@[simp] theorem Rule.problemsIn_error {α : Type} (problems : List Problem) :
    problemsIn (.error problems : Except (List Problem) α) = problems :=
  rfl

@[simp] theorem Rule.problemsIn_map {α β : Type} (f : α → β) (result : Except (List Problem) α) :
    problemsIn (result.map f) = problemsIn result := by
  cases result <;> rfl

namespace SearchIdentifier

open Rule (problemsIn)

/-- The problems in the body of the identifier `name`. -/
def problemsOf (name : String) (body : Yaml.Value) : List Problem :=
  problemsIn (ofYaml name body)

/-- The parts of a body that can have problems of their own: each key of a mapping with its value,
and each mapping of a list, tags aside. -/
def parts : Yaml.Value → List Yaml.Value
  | .mapping entries => entries.map fun entry => .mapping [entry]
  | .sequence items => if items.all Yaml.Value.isMapping then items.map Yaml.Value.untagged else []
  | _ => []

def faulty (name : String) (items : List Yaml.Value) : List Yaml.Value :=
  items.filter fun item => problemsOf name item.untagged ≠ []

/-- No mapping with problems is under a tag, and at most one mapping has problems. -/
def Discloses (name : String) : Yaml.Value → Prop
  | .sequence items => items.all Yaml.Value.isMapping = true →
      (∀ item ∈ faulty name items, item.isBareMapping = true) ∧ (faulty name items).length ≤ 1
  | _ => True

instance decidableDiscloses (name : String) : (body : Yaml.Value) → Decidable (Discloses name body)
  | .sequence items => inferInstanceAs (Decidable (items.all Yaml.Value.isMapping = true →
      (∀ item ∈ faulty name items, item.isBareMapping = true) ∧ (faulty name items).length ≤ 1))
  | .null | .bool _ | .integer _ | .real _ | .string _ | .mapping _ | .tagged _ _ =>
    inferInstanceAs (Decidable True)

end SearchIdentifier

/-! ## Mappings -/

namespace SearchIdentifier

open Rule (problemsIn)

variable {name : String}

def itemProblems (name : String) (entry : Yaml.Value × Yaml.Value) : List Problem :=
  match itemOf name entry with
  | .ok _ => []
  | .error problem => [problem]

theorem problemsIn_itemsOf (name : String) (entries : Entries) :
    problemsIn (itemsOf name entries) = entries.flatMap (itemProblems name) := by
  induction entries with
  | nil => rfl
  | cons entry entries ih =>
    rw [itemsOf, List.foldr_cons, ← itemsOf, List.flatMap_cons, ← ih, itemProblems]
    cases itemOf name entry <;> cases itemsOf name entries <;> rfl

theorem problemsOf_mapping_eq {entries : Entries} (hne : entries ≠ []) :
    problemsOf name (.mapping entries) = entries.flatMap (itemProblems name) := by
  rw [← problemsIn_itemsOf, problemsOf, ofYaml, Rule.problemsIn_map, groupOf]
  split
  · next hitems =>
    -- No entries are the only ones that are read to no items.
    have hkeeps := keeps_of_itemsOf hitems
    exact absurd (List.forall₂_nil_right_iff.mp hkeeps) hne
  · rfl

/-- The problems of a mapping are those of its keys. -/
theorem problemsOf_mapping {entries : Entries} (hne : entries ≠ []) :
    problemsOf name (.mapping entries) =
      (parts (.mapping entries)).flatMap (problemsOf name) := by
  have halone (entry : Yaml.Value × Yaml.Value) :
      problemsOf name (.mapping [entry]) = itemProblems name entry := by
    rw [problemsOf_mapping_eq (List.cons_ne_nil _ _)]
    exact List.flatMap_singleton _ _
  rw [problemsOf_mapping_eq hne, parts, List.flatMap_map]
  simp only [halone]

/-! ## Lists of mappings -/

theorem problemsOf_sequence {items : List Yaml.Value} (hne : items ≠ [])
    (hall : items.all Yaml.Value.isMapping = true) :
    problemsOf name (.sequence items) = problemsIn (groupsOf name items) := by
  rw [problemsOf]
  unfold ofYaml
  split
  · next heq => cases heq
  · next heq => exact absurd (Yaml.Value.sequence.inj heq) hne
  · next heq =>
    obtain rfl := Yaml.Value.sequence.inj heq
    rw [if_pos hall, Rule.problemsIn_map]
  · next heq => cases heq
  · next hsequence _ => exact absurd rfl (hsequence items)

theorem groupsOf_cons_bare (name : String) {item : Yaml.Value} (items : List Yaml.Value)
    (hbare : item.isBareMapping = true) :
    problemsIn (groupsOf name (item :: items)) =
      if problemsOf name item.untagged = [] then problemsIn (groupsOf name items)
      else problemsOf name item.untagged := by
  cases item with
  | mapping entries =>
    have hbody : problemsOf name (Yaml.Value.untagged (.mapping entries)) =
        problemsIn (groupOf name entries) :=
      Rule.problemsIn_map allOf (groupOf name entries)
    rw [hbody, groupsOf]
    cases hgroup : groupOf name entries with
    | ok group => simp
    | error problems => simp [groupOf_error hgroup]
  | _ => cases hbare

theorem groupsOf_cons_tagged (name : String) {item : Yaml.Value} (items : List Yaml.Value)
    (hbare : item.isBareMapping = false) : groupsOf name (item :: items) = groupsOf name items := by
  cases item with
  | mapping entries => cases hbare
  | _ => rfl

/-- A list reports no problem that its mappings do not have. -/
theorem problemsIn_groupsOf_sublist (name : String) (items : List Yaml.Value) :
    (problemsIn (groupsOf name items)).Sublist
      (items.flatMap fun item => problemsOf name item.untagged) := by
  induction items with
  | nil => exact List.nil_sublist _
  | cons item items ih =>
    rw [List.flatMap_cons]
    cases hbare : item.isBareMapping with
    | true =>
      rw [groupsOf_cons_bare name items hbare]
      split
      · exact ih.trans (List.sublist_append_right _ _)
      · exact List.sublist_append_left _ _
    | false =>
      rw [groupsOf_cons_tagged name items hbare]
      exact ih.trans (List.sublist_append_right _ _)

theorem faulty_eq_nil_iff {items : List Yaml.Value} :
    faulty name items = [] ↔ (items.flatMap fun item => problemsOf name item.untagged) = [] := by
  rw [faulty, List.filter_eq_nil_iff, List.flatMap_eq_nil_iff]
  simp

theorem problemsIn_groupsOf_iff (name : String) (items : List Yaml.Value) :
    problemsIn (groupsOf name items) = items.flatMap (fun item => problemsOf name item.untagged) ↔
      (∀ item ∈ faulty name items, item.isBareMapping = true) ∧
        (faulty name items).length ≤ 1 := by
  induction items with
  | nil => simp [groupsOf, faulty]
  | cons item items ih =>
    rw [List.flatMap_cons]
    by_cases hfault : problemsOf name item.untagged = []
    · have hfaulty : faulty name (item :: items) = faulty name items := by
        simp [faulty, hfault]
      have hread : problemsIn (groupsOf name (item :: items)) =
          problemsIn (groupsOf name items) := by
        cases hbare : item.isBareMapping with
        | true => rw [groupsOf_cons_bare name items hbare, if_pos hfault]
        | false => rw [groupsOf_cons_tagged name items hbare]
      rw [hfaulty, hread, hfault, List.nil_append, ih]
    · have hfaulty : faulty name (item :: items) = item :: faulty name items := by
        simp [faulty, hfault]
      rw [hfaulty, List.forall_mem_cons, List.length_cons]
      cases hbare : item.isBareMapping with
      | true =>
        rw [groupsOf_cons_bare name items hbare, if_neg hfault, List.self_eq_append_right,
          ← faulty_eq_nil_iff]
        constructor
        · intro hnone
          simp [hnone]
        · rintro ⟨-, hlength⟩
          exact List.eq_nil_of_length_eq_zero (by omega)
      | false =>
        -- The problems of a mapping under a tag are missing, so too few are reported.
        rw [groupsOf_cons_tagged name items hbare]
        refine iff_of_false ?_ (by simp)
        intro heq
        have hle := (problemsIn_groupsOf_sublist name items).length_le
        have hpos := List.length_pos_iff.mpr hfault
        rw [heq, List.length_append] at hle
        omega

/-- The problems of a body are those of its parts exactly when the body discloses them. -/
theorem problemsOf_eq_parts_iff {body : Yaml.Value} (hparts : parts body ≠ []) :
    problemsOf name body = (parts body).flatMap (problemsOf name) ↔ Discloses name body := by
  cases body with
  | mapping entries =>
    have hne : entries ≠ [] := by
      rintro rfl
      exact hparts rfl
    exact iff_of_true (problemsOf_mapping hne) trivial
  | sequence items =>
    rw [parts] at hparts ⊢
    split at hparts
    · next hall =>
      have hne : items ≠ [] := by
        rintro rfl
        exact hparts rfl
      rw [if_pos hall, problemsOf_sequence hne hall, List.flatMap_map,
        problemsIn_groupsOf_iff, Discloses, forall_prop_of_true hall]
    · exact absurd rfl hparts
  | _ => exact absurd rfl hparts

end SearchIdentifier

/-! ## Blocks -/

namespace Detection

open Rule (problemsIn)
open SearchIdentifier (parts problemsOf)

def conditionProblems (entries : Entries) : List Problem :=
  (conditionsOf (declaredNames entries) (conditionValue? entries)).2

/-- A detection block reports the problems of its entries in order and then those of its conditions.
An entry by itself, and a condition by itself, is reported on in the same way. -/
structure ReportsEntries (entries : Entries) (problems : List Problem) : Prop where
  inOrder : problems =
    (identifierEntries entries).flatMap entryProblems ++ conditionProblems entries
  entryAlone : ∀ entry ∈ identifierEntries entries,
    (ofEntries [entry]).2 = entryProblems entry ++ [.missingField "detection.condition"]
  conditionAlone : ∀ sources, conditionSources (conditionValue? entries) = .ok sources →
    conditionProblems entries = sources.flatMap fun source =>
      (conditionsOf (declaredNames entries) (some (.string source))).2

/-- The problems of an entry are those of the parts of its body. -/
def ReportsParts (entry : Yaml.Value × Yaml.Value) : Prop :=
  ∀ name, entry.1.text? = some name → parts entry.2 ≠ [] →
    entryProblems entry = (parts entry.2).flatMap (problemsOf name)

/-- The body of an entry discloses the problems of its parts. -/
def Discloses (entry : Yaml.Value × Yaml.Value) : Prop :=
  ∀ name, entry.1.text? = some name → parts entry.2 ≠ [] →
    SearchIdentifier.Discloses name entry.2

instance decidableDiscloses (entry : Yaml.Value × Yaml.Value) : Decidable (Discloses entry) :=
  decidable_of_iff (∀ name ∈ entry.1.text?, parts entry.2 ≠ [] →
    SearchIdentifier.Discloses name entry.2) Iff.rfl

theorem entryProblems_eq (entry : Yaml.Value × Yaml.Value) :
    entryProblems entry = problemsIn (identifierOf entry) := by
  unfold entryProblems
  split
  · next heq => rw [heq, Rule.problemsIn_ok]
  · next heq => rw [heq, Rule.problemsIn_error]

theorem entryProblems_of_text {entry : Yaml.Value × Yaml.Value} {name : String}
    (htext : entry.1.text? = some name) (hname : name ≠ conditionKey) :
    entryProblems entry = problemsOf name entry.2 := by
  rw [entryProblems_eq, identifierOf, htext]
  simp only [if_neg hname, Rule.problemsIn_map, problemsOf]

theorem entryProblems_of_condition {entry : Yaml.Value × Yaml.Value}
    (htext : entry.1.text? = some conditionKey) : entryProblems entry = [] := by
  rw [entryProblems_eq, identifierOf, htext]
  rfl

theorem mem_identifierEntries {entries : Entries} {entry : Yaml.Value × Yaml.Value} :
    entry ∈ identifierEntries entries ↔
      entry ∈ entries ∧ entry.1.text? ≠ some conditionKey := by
  rw [identifierEntries, List.mem_filter, bne_iff_ne]

/-- The entries of the conditions have no problems as identifiers. -/
theorem flatMap_identifierEntries (entries : Entries) :
    (identifierEntries entries).flatMap entryProblems = entries.flatMap entryProblems := by
  induction entries with
  | nil => rfl
  | cons entry entries ih =>
    rw [List.flatMap_cons, ← ih, identifierEntries, List.filter_cons]
    split
    · exact List.flatMap_cons
    · next htext =>
      rw [Bool.not_eq_true, bne_eq_false_iff_eq] at htext
      rw [entryProblems_of_condition htext, List.nil_append, identifierEntries]

theorem reportsEntries_ofEntries (entries : Entries) :
    ReportsEntries entries (ofEntries entries).2 where
  inOrder := by
    rw [flatMap_identifierEntries]
    rfl
  entryAlone entry hentry := by
    have htext : entry.1.text? ≠ some conditionKey := (mem_identifierEntries.mp hentry).2
    have hcondition : conditionValue? [entry] = none := by
      simp [conditionValue?, htext]
    change [entry].flatMap entryProblems ++ (conditionsOf _ (conditionValue? [entry])).2 = _
    rw [hcondition, List.flatMap_singleton]
    rfl
  conditionAlone sources hsources := by
    have halone (source : String) :
        (conditionsOf (declaredNames entries) (some (.string source))).2 =
          (conditionOf (declaredNames entries) source).2 := by
      simp [conditionsOf, conditionSources]
    simp only [halone]
    rw [conditionProblems, conditionsOf, hsources]
    exact List.flatMap_map ..

/-- An entry reports the problems of its parts exactly when its body discloses them. -/
theorem reportsParts_iff {entry : Yaml.Value × Yaml.Value}
    (hentry : entry.1.text? ≠ some conditionKey) : ReportsParts entry ↔ Discloses entry := by
  have hbody (name : String) (htext : entry.1.text? = some name) (hparts : parts entry.2 ≠ []) :
      entryProblems entry = (parts entry.2).flatMap (problemsOf name) ↔
        SearchIdentifier.Discloses name entry.2 := by
    have hname : name ≠ conditionKey := by
      rintro rfl
      exact hentry htext
    rw [entryProblems_of_text htext hname]
    exact SearchIdentifier.problemsOf_eq_parts_iff hparts
  constructor
  · intro hreports name htext hparts
    exact (hbody name htext hparts).mp (hreports name htext hparts)
  · intro hdiscloses name htext hparts
    exact (hbody name htext hparts).mpr (hdiscloses name htext hparts)

end Detection

/-! ## Rules -/

namespace Rule

variable {text : String} {rule : Rule} {entries : Entries}

/-- Whether a problem is one of the title, the identifier or the level of a rule. -/
def Problem.IsOfHeader : Problem → Prop
  | .missingField name => name = "title"
  | .invalidId _ | .invalidLevel _ => True
  | _ => False

theorem titleOf_problems (title : Option String) :
    ∀ problem ∈ (titleOf title).2, problem.IsOfHeader := by
  unfold titleOf
  split <;> simp [Problem.IsOfHeader]

theorem idOf_problems (text : String) (id : Option String) :
    ∀ problem ∈ (idOf text id).2, problem.IsOfHeader := by
  unfold idOf
  split
  · simp
  · simp
  · split <;> simp [Problem.IsOfHeader]

theorem levelOf_problems (level : Option String) :
    ∀ problem ∈ (levelOf level).2, problem.IsOfHeader := by
  unfold levelOf
  split
  · simp
  · split <;> simp [Problem.IsOfHeader]

/-- A detection block that is a mapping is read as it stands. -/
theorem Header.detectionOf_of_find? {fields : Entries} {field : Yaml.Value × Yaml.Value}
    {block : Option Entries}
    (hfind : fields.find? (fun field => field.1.text? == some "detection") = some field)
    (hmapping : field.2.untagged = .mapping entries) (h : detectionOf fields = .ok block) :
    block = some entries := by
  unfold detectionOf at h
  obtain ⟨value, hvalue, h⟩ := ok_of_bind h
  cases value with
  | none =>
    unfold Header.field? at hvalue
    split at hvalue
    · next hnone =>
      have hmem := List.mem_filter.mpr ⟨List.mem_of_find?_eq_some hfind, List.find?_some hfind⟩
      rw [hnone] at hmem
      cases hmem
    · cases hvalue
    · cases hvalue
  | some value =>
    obtain ⟨key, hkey⟩ := Header.find?_of_field? hvalue
    obtain rfl := Option.some.inj (hfind.symm.trans hkey)
    split at h
    · next heq => cases heq
    · next heq =>
      obtain rfl := Option.some.inj heq
      cases hmapping
    · next heq =>
      obtain rfl := Option.some.inj heq
      rw [hmapping] at h
      exact (Except.ok.inj h).symm

/-- The problems of a rule are those of its header and then those of its detection block. -/
theorem problems_of_block (h : parse text = .ok rule)
    (hblock : detectionBlock? text = some entries) :
    ∃ before, (∀ problem ∈ before, problem.IsOfHeader) ∧
      rule.problems = before ++ (Detection.ofEntries entries).2 := by
  unfold parse at h
  unfold detectionBlock? at hblock
  split at h
  · cases h
  · split at h
    · cases h
    · cases h
    · next fields hfields =>
      obtain ⟨header, hheader, rfl⟩ := ok_of_map h
      have hread := Header.detection_of_ofEntries hheader
      simp only [hfields] at hblock
      split at hblock
      · next field hfind =>
        split at hblock
        · next hmapping =>
          obtain rfl := Option.some.inj hblock
          have hdetection := Header.detectionOf_of_find? hfind hmapping hread
          refine ⟨(titleOf header.title).2 ++ (idOf text header.id).2 ++
            (levelOf header.level).2, ?_, by simp only [ofHeader, hdetection]⟩
          intro problem hproblem
          rcases List.mem_append.mp hproblem with hproblem | hlevel
          · rcases List.mem_append.mp hproblem with htitle | hid
            · exact titleOf_problems header.title problem htitle
            · exact idOf_problems text header.id problem hid
          · exact levelOf_problems header.level problem hlevel
        · cases hblock
      · cases hblock
    · cases h

/-- After the problems of its header, a rule reports those of the entries of its detection block and
of its conditions, in order; and the problems of an identifier are those of its parts exactly when
no list of mappings hides one. -/
theorem block_reported (h : parse text = .ok rule) (hblock : detectionBlock? text = some entries) :
    ∃ before reported, rule.problems = before ++ reported ∧
      (∀ problem ∈ before, problem.IsOfHeader) ∧ Detection.ReportsEntries entries reported ∧
      ∀ entry ∈ Detection.identifierEntries entries,
        Detection.ReportsParts entry ↔ Detection.Discloses entry := by
  obtain ⟨before, hheader, hproblems⟩ := problems_of_block h hblock
  refine ⟨before, _, hproblems, hheader, Detection.reportsEntries_ofEntries entries, ?_⟩
  intro entry hentry
  exact Detection.reportsParts_iff (Detection.mem_identifierEntries.mp hentry).2

/-- When every entry discloses its problems, no part of an identifier has a problem that the rule
does not report. -/
theorem part_problems_subset (h : parse text = .ok rule)
    (hblock : detectionBlock? text = some entries)
    (hdiscloses : ∀ entry ∈ Detection.identifierEntries entries, Detection.Discloses entry)
    {entry : Yaml.Value × Yaml.Value} (hentry : entry ∈ Detection.identifierEntries entries)
    {name : String} (hname : entry.1.text? = some name) {part : Yaml.Value}
    (hpart : part ∈ SearchIdentifier.parts entry.2) :
    SearchIdentifier.problemsOf name part ⊆ rule.problems := by
  obtain ⟨before, -, hproblems⟩ := problems_of_block h hblock
  have hkey := (Detection.mem_identifierEntries.mp hentry).2
  have hreports := (Detection.reportsParts_iff hkey).mpr (hdiscloses entry hentry)
  have horder := (Detection.reportsEntries_ofEntries entries).inOrder
  intro problem hproblem
  have hown : problem ∈ Detection.entryProblems entry := by
    rw [hreports name hname (List.ne_nil_of_mem hpart)]
    exact List.mem_flatMap.mpr ⟨part, hpart, hproblem⟩
  rw [hproblems, horder]
  apply List.mem_append_right
  apply List.mem_append_left
  exact List.mem_flatMap.mpr ⟨entry, hentry, hown⟩

/-- A rule with problems in its level, in two identifiers, in the name of a third and in its
condition. -/
def manyFaultsRule : String :=
  "title: t\nlevel: x\ndetection:\n  items: {a|x: 1, 7: 2, b|re: 3}\n" ++
    "  groups: [{c: 1}, {d|x: 2, e: []}]\n  8: {f: 1}\n  condition: items and others\n"

theorem block_reported_manyFaultsRule : ∃ rule entries, parse manyFaultsRule = .ok rule ∧
    detectionBlock? manyFaultsRule = some entries ∧
    rule.problems = [.invalidLevel "x", .unknownModifier "a" "x",
      .invalidValue "items" (.fieldName "Number(7)"),
      .invalidModifiers "b" (.needsTexts .regex), .unknownModifier "d" "x",
      .invalidValue "e" .emptyValueList,
      .invalidValue "detection" (.identifierName "Number(8)"), .undefinedIdentifier "others"] ∧
    ∀ entry ∈ Detection.identifierEntries entries, Detection.ReportsParts entry := by
  have hrule : (passes manyFaultsRule (fun rule => rule.problems ==
      [.invalidLevel "x", .unknownModifier "a" "x", .invalidValue "items" (.fieldName "Number(7)"),
        .invalidModifiers "b" (.needsTexts .regex), .unknownModifier "d" "x",
        .invalidValue "e" .emptyValueList,
        .invalidValue "detection" (.identifierName "Number(8)"), .undefinedIdentifier "others"]) &&
      (detectionBlock? manyFaultsRule).any fun entries =>
        decide (∀ entry ∈ Detection.identifierEntries entries,
          Detection.Discloses entry)) = true := by
    decide +kernel
  obtain ⟨hpasses, hcheck⟩ := Bool.and_eq_true_iff.mp hrule
  obtain ⟨rule, hparse, hproblems⟩ := exists_of_passes hpasses
  obtain ⟨entries, hblock, hdiscloses⟩ := (Option.any_eq_true _ _).mp hcheck
  obtain ⟨-, -, -, -, -, hiff⟩ := block_reported hparse hblock
  refine ⟨rule, entries, hparse, hblock, eq_of_beq hproblems, ?_⟩
  intro entry hentry
  exact (hiff entry hentry).mpr (of_decide_eq_true hdiscloses entry hentry)

/-- A rule with an unknown modifier in each of two alternatives. -/
def faultyAlternativesRule : String :=
  "title: t\ndetection:\n  sel:\n  - a|x: 1\n  - b|y: 2\n  condition: sel\n"

/-- The problem of its second alternative is not reported. -/
theorem second_alternative_unreported :
    ¬ ∀ (text : String) (rule : Rule) (entries : Entries), parse text = .ok rule →
      detectionBlock? text = some entries →
      ∀ entry ∈ Detection.identifierEntries entries, Detection.ReportsParts entry := by
  intro hall
  have hrule : (passes faultyAlternativesRule (fun _ => true) &&
      (detectionBlock? faultyAlternativesRule).any fun entries =>
        decide (∃ entry ∈ Detection.identifierEntries entries,
          ¬ Detection.Discloses entry)) = true := by
    decide +kernel
  obtain ⟨hpasses, hcheck⟩ := Bool.and_eq_true_iff.mp hrule
  obtain ⟨rule, hparse, -⟩ := exists_of_passes hpasses
  obtain ⟨entries, hblock, hhides⟩ := (Option.any_eq_true _ _).mp hcheck
  obtain ⟨entry, hentry, hdiscloses⟩ := of_decide_eq_true hhides
  have hreports := hall _ rule entries hparse hblock entry hentry
  have hname := (Detection.mem_identifierEntries.mp hentry).2
  exact hdiscloses ((Detection.reportsParts_iff hname).mp hreports)

end Rule

end SigmaCatalog
