import Mathlib.Data.List.Forall2
import SigmaCatalog.Proofs.Rule.Detection

/-!
# What reading a detection block keeps

A detection block is kept whole when each of its keys other than that of the conditions has a
search identifier, each key of a mapping an item, each mapping of a list a group, and each entry of
a plain list a keyword or a value.

Parts are lost in two ways, and in both a tag is looked through by one step of the reader and not by
another.  Two keys that differ in their tags only have the same text, and the later body replaces
the earlier one.  A mapping under a tag counts as a mapping when the shape of a list is decided, but
no group is read from it.  The main statement is that the block of a valid rule is kept whole
exactly when neither happens.
-/

namespace SigmaCatalog

namespace Yaml.Value

/-- The values that a value lists: the items of a sequence, and otherwise the value alone. -/
def listed : Value → List Value
  | sequence items => items
  | value => [value]

/-- Whether a value is a mapping that is not under a tag. -/
def isBareMapping : Value → Bool
  | mapping _ => true
  | _ => false

/-- Whether a value is a list of mappings and one of them is under a tag. -/
def hidesAlternative : Value → Bool
  | sequence items => items.all isMapping && items.any fun item => !item.isBareMapping
  | _ => false

end Yaml.Value

/-! ## What it means to be kept -/

/-- An item keeps an entry of a mapping: the field and the modifiers as the key has them, and a
value for each value listed. -/
structure DetectionItem.Keeps (entry : Yaml.Value × Yaml.Value) (item : DetectionItem) : Prop where
  key : ∃ text field, entry.1.text? = some text ∧ '|' ∉ field ∧
    text.toList = field ++ item.modifiers.flatMap (fun modifier => '|' :: modifier.name.toList) ∧
    item.field = String.ofList (Text.trimChars field)
  values : List.Forall₂ (fun value kept => DetectionValue.ofYaml? value = some kept)
    entry.2.listed item.values

namespace SearchIdentifier

/-- A group keeps a mapping: it has an item, and one for each key. -/
def KeepsGroup (value : Yaml.Value) (group : List DetectionItem) : Prop :=
  group ≠ [] ∧ ∃ entries, value.untagged = .mapping entries ∧
    List.Forall₂ DetectionItem.Keeps entries group

/-- A search identifier keeps its body. -/
inductive Keeps : Yaml.Value → SearchIdentifier → Prop
  | items {entries : Rule.Entries} {items : List DetectionItem} (hne : items ≠ [])
    (h : List.Forall₂ DetectionItem.Keeps entries items) : Keeps (.mapping entries) (.allOf items)
  | groups {values : List Yaml.Value} {groups : List (List DetectionItem)} (hne : groups ≠ [])
    (h : List.Forall₂ KeepsGroup values groups) : Keeps (.sequence values) (.anyOf groups)
  | keywords {value : Yaml.Value} {keywords : List DetectionValue} (hne : keywords ≠ [])
    (h : List.Forall₂ (fun value kept => DetectionValue.ofYaml? value = some kept)
      value.listed keywords) : Keeps value (.keywords keywords)

end SearchIdentifier

namespace Detection

open Rule (Entries)

/-- The entries of a detection block other than the conditions. -/
def identifierEntries (entries : Entries) : Entries :=
  entries.filter fun entry => entry.1.text? != some conditionKey

/-- A detection block keeps its entries: in order, a search identifier for each. -/
def Keeps (entries : Entries) (detection : Detection) : Prop :=
  List.Forall₂ (fun entry identifier =>
      entry.1.text? = some identifier.1 ∧ SearchIdentifier.Keeps entry.2 identifier.2)
    (identifierEntries entries) detection.identifiers

end Detection

/-- The entries of the detection block of a rule text. -/
def Rule.detectionBlock? (text : String) : Option Rule.Entries :=
  match Yaml.Value.ofText text with
  | .ok (.mapping fields) =>
    match fields.find? fun field => field.1.text? == some "detection" with
    | some field =>
      match field.2.untagged with
      | .mapping entries => some entries
      | _ => none
    | none => none
  | _ => none

/-! ## Items -/

section Lists

variable {α β : Type}

theorem mapM_eq_some_iff {f : α → Option β} {xs : List α} {ys : List β} :
    xs.mapM f = some ys ↔ List.Forall₂ (fun x y => f x = some y) xs ys := by
  induction xs generalizing ys with
  | nil => cases ys <;> simp
  | cons x xs ih =>
    rw [List.mapM_cons]
    cases hx : f x with
    | none => cases ys <;> simp [hx]
    | some y =>
      cases hxs : xs.mapM f with
      | none => cases ys <;> simp [hx, ← ih, hxs]
      | some others => cases ys <;> simp [hx, ← ih, hxs]

/-- Where each pair of two lists decides a second relation by its first member, so do the lists. -/
theorem forall₂_iff_forall_mem {R S : α → β → Prop} {P : α → Prop} {xs : List α} {ys : List β}
    (h : List.Forall₂ R xs ys) (hiff : ∀ x y, R x y → (S x y ↔ P x)) :
    List.Forall₂ S xs ys ↔ ∀ x ∈ xs, P x := by
  induction h with
  | nil => simp
  | cons hxy _ ih => rw [List.forall₂_cons, ih, List.forall_mem_cons, hiff _ _ hxy]

end Lists

theorem Text.not_mem_splitAll_fst (sep : Char) (text : List Char) :
    sep ∉ (splitAll sep text).1 := by
  induction text with
  | nil => simp [splitAll]
  | cons c rest ih =>
    by_cases h : c = sep
    · simp [splitAll, h]
    · simp [splitAll, h, ih, Ne.symm h]

namespace DetectionItem

theorem names_of_modifiersOf {names : List String} {modifiers : List Modifier}
    (h : modifiersOf names = .ok modifiers) : modifiers.map Modifier.name = names := by
  induction names generalizing modifiers with
  | nil =>
    obtain rfl := Except.ok.inj h
    rfl
  | cons name names ih =>
    rw [modifiersOf] at h
    split at h
    · cases h
    · next modifier hmodifier =>
      obtain ⟨others, hothers, rfl⟩ := ok_of_map h
      have hname : modifier.name = name := by simpa using List.find?_some hmodifier
      rw [List.map_cons, hname, ih hothers]

theorem valuesOf?_eq_some_iff {value : Yaml.Value} {values : List DetectionValue} :
    valuesOf? value = some values ↔
      List.Forall₂ (fun value kept => DetectionValue.ofYaml? value = some kept)
        value.listed values := by
  cases value with
  | sequence items => exact mapM_eq_some_iff
  | _ =>
    rw [← mapM_eq_some_iff]
    simp only [valuesOf?, Yaml.Value.listed, List.mapM_cons, List.mapM_nil]
    cases DetectionValue.ofYaml? _ <;> rfl

/-- Everything that reading an item from an entry says of the item. -/
structure ReadFrom (key : String) (value : Yaml.Value) (item : DetectionItem) : Prop where
  field : item.field = String.ofList (Text.trimChars (Text.splitAll '|' key.toList).1)
  field_ne : item.field ≠ ""
  modifiers : modifiersOf ((Text.splitAll '|' key.toList).2.map String.ofList) = .ok item.modifiers
  value_ne : value ≠ .sequence []
  values : valuesOf? value = some item.values
  fit : item.modifierFault? = none

theorem readFrom_of_ofEntry {key : String} {value : Yaml.Value} {item : DetectionItem}
    (h : ofEntry key value = .ok item) : ReadFrom key value item := by
  unfold ofEntry at h
  dsimp only at h
  split at h
  · cases h
  · next hfield =>
    split at h
    · cases h
    · next modifiers hmodifiers =>
      split at h
      · cases h
      · cases h
      · next values hempty hvalues =>
        split at h
        · cases h
        · next hfault =>
          obtain rfl := Except.ok.inj h
          exact ⟨rfl, by simpa using hfield, hmodifiers, hempty, hvalues, hfault⟩

/-- An item that can be read keeps its entry. -/
theorem keeps_of_ofEntry {key : Yaml.Value} {text : String} {value : Yaml.Value}
    {item : DetectionItem} (hkey : key.text? = some text) (h : ofEntry text value = .ok item) :
    Keeps (key, value) item := by
  have hread := readFrom_of_ofEntry h
  have hothers : (Text.splitAll '|' text.toList).2 =
      item.modifiers.map fun modifier => modifier.name.toList := by
    have hnames := congrArg (List.map String.toList) (names_of_modifiersOf hread.modifiers)
    simpa [Function.comp_def] using hnames.symm
  refine ⟨⟨text, (Text.splitAll '|' text.toList).1, hkey, Text.not_mem_splitAll_fst '|' text.toList,
    ?_, hread.field⟩, valuesOf?_eq_some_iff.mp hread.values⟩
  have hflatten := Text.splitAll_flatten '|' text.toList
  rw [hothers, List.flatMap_map] at hflatten
  exact hflatten.symm

end DetectionItem

/-! ## Bodies -/

namespace SearchIdentifier

open Yaml.Value (isBareMapping hidesAlternative)

variable {name : String}

theorem keeps_of_itemsOf {entries : Rule.Entries} {items : List DetectionItem}
    (h : itemsOf name entries = .ok items) : List.Forall₂ DetectionItem.Keeps entries items := by
  induction entries generalizing items with
  | nil =>
    obtain rfl := Except.ok.inj h
    exact .nil
  | cons entry entries ih =>
    rw [itemsOf, List.foldr_cons, ← itemsOf] at h
    split at h
    · next item others hitem hothers =>
      obtain rfl := Except.ok.inj h
      refine .cons ?_ (ih hothers)
      unfold itemOf at hitem
      split at hitem
      · cases hitem
      · next hkey => exact DetectionItem.keeps_of_ofEntry hkey hitem
    all_goals cases h

theorem keeps_of_groupOf {entries : Rule.Entries} {items : List DetectionItem}
    (h : groupOf name entries = .ok items) :
    items ≠ [] ∧ List.Forall₂ DetectionItem.Keeps entries items := by
  unfold groupOf at h
  split at h
  · cases h
  · next hne =>
    refine ⟨?_, keeps_of_itemsOf h⟩
    rintro rfl
    exact hne h

/-- The groups of a list keep its mappings, apart from those under a tag. -/
theorem keeps_of_groupsOf {values : List Yaml.Value} {groups : List (List DetectionItem)}
    (h : groupsOf name values = .ok groups) :
    List.Forall₂ KeepsGroup (values.filter isBareMapping) groups := by
  induction values generalizing groups with
  | nil =>
    obtain rfl := Except.ok.inj h
    exact .nil
  | cons value values ih =>
    cases value with
    | mapping entries =>
      rw [groupsOf] at h
      split at h
      · cases h
      · next group hgroup =>
        obtain ⟨others, hothers, rfl⟩ := ok_of_map h
        obtain ⟨hne, hkeeps⟩ := keeps_of_groupOf hgroup
        exact .cons ⟨hne, entries, rfl, hkeeps⟩ (ih hothers)
    | _ => exact ih h

/-- The groups of a list keep all its mappings when none is under a tag, and only then. -/
theorem keeps_groups_iff {values : List Yaml.Value} {groups : List (List DetectionItem)}
    (h : groupsOf name values = .ok groups) :
    List.Forall₂ KeepsGroup values groups ↔ ∀ value ∈ values, value.isBareMapping = true := by
  have hkeeps := keeps_of_groupsOf h
  constructor
  · intro hall
    apply List.length_filter_eq_length_iff.mp
    rw [hkeeps.length_eq, hall.length_eq]
  · intro hbare
    rwa [List.filter_eq_self.mpr hbare] at hkeeps

theorem keeps_scalar {value : Yaml.Value} {keyword : DetectionValue}
    (h : DetectionValue.ofYaml? value = some keyword) :
    Keeps value (.keywords [keyword]) ∧ value.hidesAlternative = false := by
  cases value with
  | sequence items => cases h
  | _ => exact ⟨.keywords (List.cons_ne_nil _ _) (.cons h .nil), rfl⟩

/-- A body that can be read is kept unless it hides an alternative. -/
theorem keeps_ofYaml_iff {value : Yaml.Value} {body : SearchIdentifier}
    (h : ofYaml name value = .ok body) : Keeps value body ↔ value.hidesAlternative = false := by
  unfold ofYaml at h
  split at h
  · next entries =>
    obtain ⟨items, hitems, rfl⟩ := ok_of_map h
    obtain ⟨hne, hkeeps⟩ := keeps_of_groupOf hitems
    exact iff_of_true (.items hne hkeeps) rfl
  · cases h
  · next items hne =>
    split at h
    · next hmappings =>
      obtain ⟨groups, hgroups, rfl⟩ := ok_of_map h
      have hbare : (Yaml.Value.sequence items).hidesAlternative = false ↔
          ∀ item ∈ items, item.isBareMapping = true := by
        simp [hidesAlternative, hmappings]
      rw [hbare, ← keeps_groups_iff hgroups]
      constructor
      · intro hkeeps
        cases hkeeps with
        | groups _ hkeeps => exact hkeeps
      · intro hkeeps
        refine .groups ?_ hkeeps
        rintro rfl
        exact hne (List.forall₂_nil_right_iff.mp hkeeps)
    · next hmappings =>
      split at h
      · next values hvalues =>
        obtain rfl := Except.ok.inj h
        have hkeeps := mapM_eq_some_iff.mp hvalues
        refine iff_of_true (.keywords ?_ hkeeps) (by simp [hidesAlternative, hmappings])
        rintro rfl
        exact hne (List.forall₂_nil_right_iff.mp hkeeps)
      · cases h
  · cases h
  · split at h
    · next keyword hkeyword =>
      obtain rfl := Except.ok.inj h
      obtain ⟨hkeeps, hplain⟩ := keeps_scalar hkeyword
      exact iff_of_true hkeeps hplain
    · cases h

end SearchIdentifier

/-! ## Blocks -/

namespace Detection

open Rule (Entries)

theorem declare_of_not_mem {name : String} {body : SearchIdentifier}
    {identifiers : List (String × SearchIdentifier)} (h : name ∉ identifiers.map Prod.fst) :
    declare name body identifiers = identifiers ++ [(name, body)] := by
  induction identifiers with
  | nil => rfl
  | cons entry identifiers ih =>
    rw [List.map_cons, List.mem_cons, not_or] at h
    rw [declare, if_neg (Ne.symm h.1), ih h.2, List.cons_append]

theorem nodup_declare {name : String} {body : SearchIdentifier}
    {identifiers : List (String × SearchIdentifier)} (h : (identifiers.map Prod.fst).Nodup) :
    ((declare name body identifiers).map Prod.fst).Nodup := by
  induction identifiers with
  | nil => simp [declare]
  | cons entry identifiers ih =>
    obtain ⟨hfresh, hnodup⟩ := List.nodup_cons.mp h
    rw [declare]
    split
    · next heq => exact List.nodup_cons.mpr ⟨heq ▸ hfresh, hnodup⟩
    · next hne =>
      refine List.nodup_cons.mpr ⟨fun hmem => ?_, ih hnodup⟩
      rcases mem_names_declare.mp hmem with heq | hmem
      · exact hne heq
      · exact hfresh hmem

/-- The search identifiers after one more entry. -/
def declareEntry (identifiers : List (String × SearchIdentifier))
    (entry : Yaml.Value × Yaml.Value) : List (String × SearchIdentifier) :=
  match identifierOf entry with
  | .ok (some (name, body)) => declare name body identifiers
  | _ => identifiers

theorem identifiersOf_eq_foldl (entries : Entries) :
    identifiersOf entries = entries.foldl declareEntry [] :=
  rfl

/-- No two search identifiers have one name. -/
theorem nodup_names_identifiersOf (entries : Entries) :
    ((identifiersOf entries).map Prod.fst).Nodup := by
  rw [identifiersOf_eq_foldl]
  apply List.foldlRecOn entries declareEntry
    (motive := fun identifiers => (identifiers.map Prod.fst).Nodup)
  · exact List.nodup_nil
  intro identifiers hnodup entry _
  unfold declareEntry
  split
  · exact nodup_declare hnodup
  · exact hnodup

theorem declaredNames_eq_filterMap (entries : Entries) :
    declaredNames entries = (identifierEntries entries).filterMap fun entry => entry.1.text? := by
  induction entries with
  | nil => rfl
  | cons entry entries ih =>
    unfold declaredNames identifierEntries at *
    cases htext : entry.1.text? with
    | none => simp [htext, ih]
    | some name =>
      by_cases hkey : name = conditionKey
      · simp [htext, hkey, ih]
      · simp [htext, hkey, ih]

/-- An entry is read to a search identifier under its name. -/
def Reads (entry : Yaml.Value × Yaml.Value) (identifier : String × SearchIdentifier) : Prop :=
  entry.1.text? = some identifier.1 ∧
    SearchIdentifier.ofYaml identifier.1 entry.2 = .ok identifier.2

theorem reads_of_identifierOf {entry : Yaml.Value × Yaml.Value}
    {identifier : String × SearchIdentifier} (h : identifierOf entry = .ok (some identifier)) :
    Reads entry identifier := by
  unfold identifierOf at h
  split at h
  · cases h
  · next name hname =>
    split at h
    · cases h
    · obtain ⟨body, hbody, hsome⟩ := ok_of_map h
      obtain rfl := Option.some.inj hsome
      exact ⟨hname, hbody⟩

/-- Entries with names of their own are read one by one, in order. -/
theorem foldl_reads {entries : Entries} (h : entries.flatMap entryProblems = [])
    (identifiers : List (String × SearchIdentifier))
    (hnodup : (identifiers.map Prod.fst ++ declaredNames entries).Nodup) :
    ∃ added, entries.foldl declareEntry identifiers = identifiers ++ added ∧
      List.Forall₂ Reads (identifierEntries entries) added := by
  induction entries generalizing identifiers with
  | nil => exact ⟨[], (List.append_nil _).symm, .nil⟩
  | cons entry entries ih =>
    rw [List.flatMap_cons, List.append_eq_nil_iff] at h
    obtain ⟨name, htext, ⟨hkey, hread⟩ | ⟨hkey, body, hread⟩⟩ := identifierOf_cases h.1
    · have hnames : declaredNames (entry :: entries) = declaredNames entries := by
        simp [declaredNames, htext, hkey]
      have hentries : identifierEntries (entry :: entries) = identifierEntries entries := by
        simp [identifierEntries, htext, hkey]
      rw [hnames] at hnodup
      rw [List.foldl_cons, declareEntry, hread, hentries]
      exact ih h.2 identifiers hnodup
    · have hnames : declaredNames (entry :: entries) = name :: declaredNames entries := by
        simp [declaredNames, htext, hkey]
      have hentries : identifierEntries (entry :: entries) =
          entry :: identifierEntries entries := by
        simp [identifierEntries, htext, hkey]
      rw [hnames, List.append_cons] at hnodup
      have hfresh : name ∉ identifiers.map Prod.fst := by
        have hbefore := (List.nodup_append.mp hnodup).1
        intro hmem
        exact (List.nodup_append.mp hbefore).2.2 name hmem name List.mem_cons_self rfl
      obtain ⟨added, hfold, hreads⟩ :=
        ih h.2 (identifiers ++ [(name, body)]) (by simpa using hnodup)
      refine ⟨(name, body) :: added, ?_, ?_⟩
      · rw [List.foldl_cons, declareEntry, hread]
        dsimp only
        rw [declare_of_not_mem hfresh, hfold, List.append_assoc, List.singleton_append]
      · rw [hentries]
        exact .cons (reads_of_identifierOf hread) hreads

theorem reads_identifiersOf {entries : Entries} (h : entries.flatMap entryProblems = [])
    (hnodup : (declaredNames entries).Nodup) :
    List.Forall₂ Reads (identifierEntries entries) (identifiersOf entries) := by
  obtain ⟨added, hfold, hreads⟩ := foldl_reads h [] hnodup
  rwa [identifiersOf_eq_foldl, hfold]

/-- A block that keeps its entries has the declared names, so they are all different. -/
theorem nodup_of_keeps {entries : Entries} (h : Keeps entries (ofEntries entries).1) :
    (declaredNames entries).Nodup := by
  have hnames : declaredNames entries = (identifiersOf entries).map Prod.fst := by
    rw [declaredNames_eq_filterMap]
    unfold Keeps at h
    generalize identifierEntries entries = kept at h
    change List.Forall₂ _ kept (identifiersOf entries) at h
    generalize identifiersOf entries = identifiers at h
    induction h with
    | nil => rfl
    | cons hentry _ ih => simp [hentry.1, ih]
  rw [hnames]
  exact nodup_names_identifiersOf entries

/-- A block without problems keeps its entries exactly when their names differ and none hides an
alternative. -/
theorem keeps_ofEntries_iff {entries : Entries} (h : entries.flatMap entryProblems = []) :
    Keeps entries (ofEntries entries).1 ↔ (declaredNames entries).Nodup ∧
      ∀ entry ∈ identifierEntries entries, entry.2.hidesAlternative = false := by
  have hbodies (hnodup : (declaredNames entries).Nodup) :
      Keeps entries (ofEntries entries).1 ↔
        ∀ entry ∈ identifierEntries entries, entry.2.hidesAlternative = false := by
    refine forall₂_iff_forall_mem (reads_identifiersOf h hnodup) ?_
    rintro entry identifier ⟨hname, hbody⟩
    rw [← SearchIdentifier.keeps_ofYaml_iff hbody, and_iff_right hname]
  constructor
  · intro hkeeps
    have hnodup := nodup_of_keeps hkeeps
    exact ⟨hnodup, (hbodies hnodup).mp hkeeps⟩
  · rintro ⟨hnodup, hplain⟩
    exact (hbodies hnodup).mpr hplain

end Detection

/-! ## Rules -/

theorem ok_of_bind {ε α β : Type} {result : Except ε α} {next : α → Except ε β} {value : β}
    (h : (result >>= next) = .ok value) : ∃ made, result = .ok made ∧ next made = .ok value := by
  cases result with
  | error cause => cases h
  | ok made => exact ⟨made, rfl, h⟩

namespace Rule

variable {text : String} {rule : Rule}

theorem Header.detection_of_ofEntries {fields : Entries} {header : Header}
    (h : Header.ofEntries fields = .ok header) :
    Header.detectionOf fields = .ok header.detection := by
  unfold Header.ofEntries at h
  split at h
  · cases h
  · -- The detection block is the last of the thirteen fields that are read.
    iterate 13 obtain ⟨_, _, h⟩ := ok_of_bind h
    obtain rfl := Except.ok.inj h
    assumption

/-- What is read as the value of a field is the first entry under its name. -/
theorem Header.find?_of_field? {fields : Entries} {name : String} {value : Yaml.Value}
    (h : Header.field? fields name = .ok (some value)) :
    ∃ key, fields.find? (fun field => field.1.text? == some name) = some (key, value) := by
  unfold Header.field? at h
  split at h
  · cases h
  · next entry hentry =>
    obtain rfl := Option.some.inj (Except.ok.inj h)
    refine ⟨entry.1, ?_⟩
    rw [← List.head?_filter, hentry]
    rfl
  · cases h

/-- A detection block that is read and not empty is that of the document. -/
theorem Header.block_of_detectionOf {fields entries : Entries}
    (h : Header.detectionOf fields = .ok (some entries)) (hne : entries ≠ []) :
    ∃ field, fields.find? (fun field => field.1.text? == some "detection") = some field ∧
      field.2.untagged = .mapping entries := by
  unfold Header.detectionOf at h
  obtain ⟨value, hvalue, h⟩ := ok_of_bind h
  split at h
  · cases h
  · cases h
  · next value _ =>
    obtain ⟨key, hfind⟩ := Header.find?_of_field? hvalue
    refine ⟨(key, value), hfind, ?_⟩
    split at h
    · next hmapping =>
      obtain rfl := Option.some.inj (Except.ok.inj h)
      exact hmapping
    · exact absurd (Option.some.inj (Except.ok.inj h)).symm hne
    · cases h

/-- An empty detection block has no conditions, which is a problem. -/
theorem ofEntries_nil_problems : (Detection.ofEntries []).2 ≠ [] := by
  decide

/-- The detection block of a valid rule is read from its entries, in which there is no problem. -/
theorem block_of_parse (h : parse text = .ok rule) (hvalid : rule.isValid = true) :
    ∃ entries, detectionBlock? text = some entries ∧
      rule.detection = (Detection.ofEntries entries).1 ∧
      entries.flatMap Detection.entryProblems = [] := by
  rw [isValid, List.isEmpty_iff] at hvalid
  unfold parse at h
  unfold detectionBlock?
  split at h
  · cases h
  · split at h
    · cases h
    · cases h
    · next fields hfields =>
      obtain ⟨header, hheader, rfl⟩ := ok_of_map h
      have hread := Header.detection_of_ofEntries hheader
      cases hblock : header.detection with
      | none => simp [ofHeader, hblock] at hvalid
      | some entries =>
        rw [hblock] at hread
        have hproblems : (Detection.ofEntries entries).2 = [] := by
          simp only [ofHeader, hblock, List.append_eq_nil_iff] at hvalid
          exact hvalid.2
        have hne : entries ≠ [] := by
          rintro rfl
          exact ofEntries_nil_problems hproblems
        obtain ⟨field, hfind, hmapping⟩ := Header.block_of_detectionOf hread hne
        refine ⟨entries, ?_, ?_, ?_⟩
        · simp only [hfields, hfind, hmapping]
        · simp [ofHeader, hblock]
        · exact (List.append_eq_nil_iff.mp hproblems).1
    · cases h

/-- The block of a valid rule is kept whole exactly when no two of its identifiers have one name and
none of its lists of mappings has a mapping under a tag. -/
theorem block_kept_iff (h : parse text = .ok rule) (hvalid : rule.isValid = true) :
    ∃ entries, detectionBlock? text = some entries ∧
      (rule.detection.Keeps entries ↔ (Detection.declaredNames entries).Nodup ∧
        ∀ entry ∈ Detection.identifierEntries entries, entry.2.hidesAlternative = false) := by
  obtain ⟨entries, hblock, hdetection, hproblems⟩ := block_of_parse h hvalid
  refine ⟨entries, hblock, ?_⟩
  rw [hdetection]
  exact Detection.keeps_ofEntries_iff hproblems

/-- A rule with a mapping, a list of mappings and a list of keywords. -/
def everyShapeRule : String :=
  "title: t\ndetection:\n  items: {a|all: [x, 2], !x b: 3}\n  groups: [{a: 1}, {b: ~}]\n" ++
    "  words: [w, 7]\n  condition: 1 of them\n"

theorem block_kept_everyShapeRule : ∃ rule entries, parse everyShapeRule = .ok rule ∧
    rule.isValid = true ∧ detectionBlock? everyShapeRule = some entries ∧
    Detection.declaredNames entries = ["items", "groups", "words"] ∧
    rule.detection.Keeps entries := by
  have hrule : (passes everyShapeRule isValid && (detectionBlock? everyShapeRule).any fun entries =>
      decide (Detection.declaredNames entries = ["items", "groups", "words"]) &&
        (Detection.identifierEntries entries).all fun entry =>
          !entry.2.hidesAlternative) = true := by
    decide +kernel
  obtain ⟨hpasses, hcheck⟩ := Bool.and_eq_true_iff.mp hrule
  obtain ⟨rule, hparse, hvalid⟩ := exists_of_passes hpasses
  obtain ⟨entries, hblock, hiff⟩ := block_kept_iff hparse hvalid
  rw [hblock, Option.any_some, Bool.and_eq_true, decide_eq_true_eq] at hcheck
  obtain ⟨hnames, hplain⟩ := hcheck
  refine ⟨rule, entries, hparse, hvalid, hblock, hnames, hiff.mpr ⟨?_, ?_⟩⟩
  · rw [hnames]
    decide
  · simpa using hplain

/-- A rule in which the first of two alternatives is under a tag. -/
def taggedAlternativeRule : String :=
  "title: t\ndetection:\n  sel:\n  - !x\n    a: 1\n  - b: 2\n  condition: sel\n"

/-- Its first alternative is lost, although the rule is valid. -/
theorem tagged_alternative_lost :
    ¬ ∀ (text : String) (rule : Rule) (entries : Entries), parse text = .ok rule →
      rule.isValid = true → detectionBlock? text = some entries →
      rule.detection.Keeps entries := by
  intro hall
  have hrule : (passes taggedAlternativeRule isValid &&
      (detectionBlock? taggedAlternativeRule).any fun entries =>
        (Detection.identifierEntries entries).any fun entry =>
          entry.2.hidesAlternative) = true := by
    decide +kernel
  obtain ⟨hpasses, hhides⟩ := Bool.and_eq_true_iff.mp hrule
  obtain ⟨rule, hparse, hvalid⟩ := exists_of_passes hpasses
  obtain ⟨entries, hblock, hdetection, hproblems⟩ := block_of_parse hparse hvalid
  have hkeeps := hall _ rule entries hparse hvalid hblock
  rw [hdetection, Detection.keeps_ofEntries_iff hproblems] at hkeeps
  rw [hblock, Option.any_some] at hhides
  obtain ⟨entry, hentry, htagged⟩ := List.any_eq_true.mp hhides
  rw [hkeeps.2 entry hentry] at htagged
  cases htagged

end Rule

end SigmaCatalog
