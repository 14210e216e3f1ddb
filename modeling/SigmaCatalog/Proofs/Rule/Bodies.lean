import SigmaCatalog.Proofs.Rule.Retention
import SigmaCatalog.Rule.Detection.Fields

/-!
# Bodies of rules that were read

Every search identifier of a rule was read from a value of the document, and every item in it from
an entry of a mapping.  So an item has a field with a name and at least one value, and a body is
full, with one exception: a list of mappings that are all under tags is read to no group at all.
-/

namespace SigmaCatalog

/-! ## Items -/

namespace DetectionItem

/-- An item was read from an entry of a mapping. -/
def IsRead (item : DetectionItem) : Prop :=
  ∃ key value, ofEntry key value = .ok item

theorem values_ne_nil {value : Yaml.Value} {values : List DetectionValue}
    (hne : value ≠ .sequence []) (h : valuesOf? value = some values) : values ≠ [] := by
  rintro rfl
  have hlisted := List.forall₂_nil_right_iff.mp (valuesOf?_eq_some_iff.mp h)
  cases value with
  | sequence items => exact hne (congrArg Yaml.Value.sequence hlisted)
  | _ => cases hlisted

variable {item : DetectionItem}

theorem IsRead.field_ne (h : item.IsRead) : item.field ≠ "" := by
  obtain ⟨key, value, h⟩ := h
  exact (readFrom_of_ofEntry h).field_ne

theorem IsRead.values_ne (h : item.IsRead) : item.values ≠ [] := by
  obtain ⟨key, value, h⟩ := h
  have hread := readFrom_of_ofEntry h
  exact values_ne_nil hread.value_ne hread.values

end DetectionItem

/-! ## Groups and bodies -/

namespace SearchIdentifier

variable {name : String}

theorem isRead_of_itemsOf {entries : Rule.Entries} {items : List DetectionItem}
    (h : itemsOf name entries = .ok items) : ∀ item ∈ items, item.IsRead := by
  induction entries generalizing items with
  | nil =>
    obtain rfl := Except.ok.inj h
    exact List.forall_mem_nil _
  | cons entry entries ih =>
    rw [itemsOf, List.foldr_cons, ← itemsOf] at h
    split at h
    · next item others hitem hothers =>
      obtain rfl := Except.ok.inj h
      refine List.forall_mem_cons.mpr ⟨?_, ih hothers⟩
      unfold itemOf at hitem
      split at hitem
      · cases hitem
      · exact ⟨_, _, hitem⟩
    all_goals cases h

/-- A group was read from a mapping: it has items, which were all read. -/
def IsReadGroup (group : List DetectionItem) : Prop :=
  group ≠ [] ∧ ∀ item ∈ group, item.IsRead

theorem isReadGroup_of_groupOf {entries : Rule.Entries} {group : List DetectionItem}
    (h : groupOf name entries = .ok group) : IsReadGroup group := by
  have hne := (keeps_of_groupOf h).1
  unfold groupOf at h
  split at h
  · cases h
  · exact ⟨hne, isRead_of_itemsOf h⟩

theorem isReadGroup_of_groupsOf {values : List Yaml.Value} {groups : List (List DetectionItem)}
    (h : groupsOf name values = .ok groups) : ∀ group ∈ groups, IsReadGroup group := by
  induction values generalizing groups with
  | nil =>
    obtain rfl := Except.ok.inj h
    exact List.forall_mem_nil _
  | cons value values ih =>
    cases value with
    | mapping entries =>
      rw [groupsOf] at h
      split at h
      · cases h
      · next group hgroup =>
        obtain ⟨others, hothers, rfl⟩ := ok_of_map h
        exact List.forall_mem_cons.mpr ⟨isReadGroup_of_groupOf hgroup, ih hothers⟩
    | _ => exact ih h

/-- A body was read from a value of a document. -/
def IsRead (body : SearchIdentifier) : Prop :=
  ∃ name value, ofYaml name value = .ok body

variable {body : SearchIdentifier}

/-- The shape of a body that was read. -/
theorem IsRead.shape (h : body.IsRead) :
    (∃ items, body = .allOf items ∧ IsReadGroup items) ∨
    (∃ groups, body = .anyOf groups ∧ ∀ group ∈ groups, IsReadGroup group) ∨
    ∃ values, body = .keywords values ∧ values ≠ [] := by
  obtain ⟨name, value, h⟩ := h
  unfold ofYaml at h
  split at h
  · next entries =>
    obtain ⟨items, hitems, rfl⟩ := ok_of_map h
    exact .inl ⟨items, rfl, isReadGroup_of_groupOf hitems⟩
  · cases h
  · next values hne =>
    split at h
    · obtain ⟨groups, hgroups, rfl⟩ := ok_of_map h
      exact .inr (.inl ⟨groups, rfl, isReadGroup_of_groupsOf hgroups⟩)
    · split at h
      · next keywords hkeywords =>
        obtain rfl := Except.ok.inj h
        refine .inr (.inr ⟨keywords, rfl, ?_⟩)
        rintro rfl
        exact hne (List.forall₂_nil_right_iff.mp (mapM_eq_some_iff.mp hkeywords))
      · cases h
  · cases h
  · split at h
    · obtain rfl := Except.ok.inj h
      exact .inr (.inr ⟨_, rfl, List.cons_ne_nil _ _⟩)
    · cases h

theorem IsRead.items (h : body.IsRead) : ∀ item ∈ body.items, item.IsRead := by
  rcases h.shape with ⟨items, rfl, hitems⟩ | ⟨groups, rfl, hgroups⟩ | ⟨values, rfl, -⟩
  · exact hitems.2
  · intro item hitem
    obtain ⟨group, hgroup, hitem⟩ := List.mem_flatten.mp hitem
    exact (hgroups group hgroup).2 item hitem
  · exact List.forall_mem_nil _

theorem fields_eq_map (body : SearchIdentifier) :
    body.fields = body.items.map DetectionItem.field := by
  cases body with
  | allOf items => rfl
  | anyOf groups => exact List.map_flatten.symm
  | keywords values => rfl

theorem IsRead.fields_ne (h : body.IsRead) : ∀ field ∈ body.fields, field ≠ "" := by
  rw [fields_eq_map]
  exact List.forall_mem_map.mpr fun item hitem => (h.items item hitem).field_ne

end SearchIdentifier

/-! ## Detection blocks -/

namespace Detection

theorem mem_declare {name : String} {body : SearchIdentifier}
    {identifiers : List (String × SearchIdentifier)} {identifier : String × SearchIdentifier}
    (h : identifier ∈ declare name body identifiers) :
    identifier = (name, body) ∨ identifier ∈ identifiers := by
  induction identifiers with
  | nil => exact .inl (List.mem_singleton.mp h)
  | cons first identifiers ih =>
    rw [declare] at h
    split at h
    · exact (List.mem_cons.mp h).imp_right (List.mem_cons_of_mem _)
    · rcases List.mem_cons.mp h with rfl | h
      · exact .inr List.mem_cons_self
      · exact (ih h).imp_right (List.mem_cons_of_mem _)

/-- Every search identifier of a block was read from an entry of it. -/
theorem isRead_of_mem_identifiersOf (entries : Rule.Entries) :
    ∀ identifier ∈ identifiersOf entries, identifier.2.IsRead := by
  rw [identifiersOf_eq_foldl]
  apply List.foldlRecOn entries declareEntry
    (motive := fun identifiers => ∀ identifier ∈ identifiers, identifier.2.IsRead)
  · exact List.forall_mem_nil _
  intro identifiers hread entry _ identifier hidentifier
  unfold declareEntry at hidentifier
  split at hidentifier
  · next hentry =>
    rcases mem_declare hidentifier with rfl | hbefore
    · exact ⟨_, _, (reads_of_identifierOf hentry).2⟩
    · exact hread identifier hbefore
  · exact hread identifier hidentifier

end Detection

namespace Rule

variable {text : String} {rule : Rule}

/-- Every search identifier of a rule was read from its text. -/
theorem identifiers_read (h : parse text = .ok rule) :
    ∀ identifier ∈ rule.detection.identifiers, identifier.2.IsRead := by
  obtain hempty | ⟨entries, hdetection, -⟩ := detection_of_parse h
  · rw [hempty]
    exact List.forall_mem_nil _
  · rw [hdetection]
    exact Detection.isRead_of_mem_identifiersOf entries

/-- Every field that the conditions of a rule consult has a name. -/
theorem consultedFields_ne (h : parse text = .ok rule) :
    ∀ field ∈ rule.detection.consultedFields, field ≠ "" := by
  intro field hfield
  obtain ⟨condition, -, hcondition⟩ := List.mem_flatMap.mp hfield
  obtain ⟨reference, -, hreference⟩ := List.mem_flatMap.mp hcondition
  obtain ⟨name, -, hname⟩ := List.mem_flatMap.mp hreference
  unfold Detection.fieldsOf at hname
  split at hname
  · next body hbody =>
    have hread := identifiers_read h (name, body) (Detection.mem_of_find? hbody)
    exact hread.fields_ne field hname
  · cases hname

end Rule

end SigmaCatalog
