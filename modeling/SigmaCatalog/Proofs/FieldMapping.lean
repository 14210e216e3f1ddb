import SigmaCatalog.Proofs.Table

/-!
# Merged field mappings and their documents

A mapping that is read back from its document is the mapping itself.  When mappings are merged one
after another, every name in a schema is that of the last mapping that has one, and the log types
are those of all of them.
-/

namespace SigmaCatalog

/-! ## Documents -/

namespace Table

variable {β : Type}

theorem entries_insertAll (table : Table β) (newer : List (String × β)) :
    (table.insertAll newer).entries =
      newer.foldl (fun sorted entry => Entries.insert entry.1 entry.2 sorted) table.entries := by
  induction newer generalizing table with
  | nil => rfl
  | cons entry newer ih =>
    rw [insertAll, List.foldl_cons, ← insertAll, ih, List.foldl_cons]
    rfl

end Table

namespace Json

/-- An object whose members are given in the order of their names has them in that order. -/
theorem object_of_increasing {entries : List (String × Json)} (h : Increasing entries) :
    object entries = members entries := by
  have htable := congrArg Table.entries (Table.ofList_toList ⟨entries, h⟩)
  rw [Table.ofList, Table.entries_insertAll] at htable
  exact congrArg members htable

end Json

namespace FieldMapping

theorem schemaFieldsOf?_object (table : Table String) :
    schemaFieldsOf? (.object (table.toList.map fun (schema, name) => (schema, .string name))) =
      some table := by
  have hincreasing : Increasing
      (table.toList.map fun (schema, name) => (schema, Json.string name)) :=
    List.pairwise_map.mpr table.increasing
  have hentries : (table.toList.map fun (schema, name) => (schema, Json.string name)).mapM
      textEntry? = some table.toList := by
    rw [List.mapM_map]
    exact (List.mapM_pure (m := Option) (f := id)).trans (congrArg some (List.map_id _))
  rw [Json.object_of_increasing hincreasing, schemaFieldsOf?, hentries, Option.map_some,
    Table.ofList_toList]

theorem logTypesOf?_ofTexts (set : TextSet) :
    logTypesOf? (.ofTexts (TextSet.members set)) = some set := by
  have helements : ((TextSet.members set).map Json.string).mapM Json.text? =
      some (TextSet.members set) := by
    rw [List.mapM_map]
    exact (List.mapM_pure (m := Option) (f := id)).trans (congrArg some (List.map_id _))
  rw [Json.ofTexts, logTypesOf?, helements, Option.map_some, TextSet.ofList_members]

/-- A mapping is read back from its document. -/
theorem ofJson?_toJson (mapping : FieldMapping) : ofJson? mapping.toJson = some mapping := by
  have hraw : ∀ raw schemas types : Json, ofJson? (.object
      [("raw_field", raw), ("schema_fields", schemas), ("log_types", types)]) =
        ofParts? raw schemas types := by
    intro raw schemas types
    simp [Json.object, ofJson?, Entries.get?_insert]
  rw [toJson, hraw, ofParts?, schemaFieldsOf?_object, logTypesOf?_ofTexts]
  rfl

/-! ## Mappings merged one after another -/

/-- A mapping merged into the one that is there, if any. -/
def mergeOnto (mapping : FieldMapping) (current : Option FieldMapping) : FieldMapping :=
  match current with
  | some previous => previous.merge mapping
  | none => mapping

theorem rawField_mergeOnto {mapping : FieldMapping} {current : Option FieldMapping}
    (h : ∀ previous ∈ current, previous.rawField = mapping.rawField) :
    (mapping.mergeOnto current).rawField = mapping.rawField := by
  cases current with
  | none => rfl
  | some previous => exact h previous rfl

/-- What becomes of a mapping, if there is one, when others are merged into it in order. -/
def mergeOver (initial : Option FieldMapping) (newer : List FieldMapping) : Option FieldMapping :=
  newer.foldl (fun current mapping => some (mapping.mergeOnto current)) initial

theorem mergeOver_append (initial : Option FieldMapping) (newer : List FieldMapping)
    (mapping : FieldMapping) :
    mergeOver initial (newer ++ [mapping]) =
      some (mapping.mergeOnto (mergeOver initial newer)) := by
  rw [mergeOver, List.foldl_append, ← mergeOver]
  rfl

/-- Merging keeps the raw field, where all mappings are of that field. -/
theorem rawField_mergeOver {initial : Option FieldMapping} {newer : List FieldMapping}
    {rawField : String} (hinitial : ∀ mapping ∈ initial, mapping.rawField = rawField)
    (hnewer : ∀ mapping ∈ newer, mapping.rawField = rawField) :
    ∀ merged ∈ mergeOver initial newer, merged.rawField = rawField := by
  induction newer generalizing initial with
  | nil => exact hinitial
  | cons mapping newer ih =>
    obtain ⟨hmapping, hlater⟩ := List.forall_mem_cons.mp hnewer
    refine ih (fun merged hmerged => ?_) hlater
    obtain rfl := Option.mem_some_iff.mp hmerged
    rw [← hmapping] at hinitial ⊢
    exact rawField_mergeOnto hinitial

/-- A name in a schema is that of the last mapping that has one. -/
theorem schemaFields_mergeOver {initial : Option FieldMapping} {newer : List FieldMapping}
    {merged : FieldMapping} (h : mergeOver initial newer = some merged) (schema : String) :
    merged.schemaFields.get? schema =
      (newer.reverse.findSome? fun mapping => mapping.schemaFields.get? schema).or
        (initial.bind fun mapping => mapping.schemaFields.get? schema) := by
  induction newer generalizing initial with
  | nil =>
    obtain rfl : initial = some merged := h
    rfl
  | cons mapping newer ih =>
    rw [ih h, List.reverse_cons, List.findSome?_append, Option.or_assoc]
    cases initial with
    | none => simp [mergeOnto]
    | some previous => simp [mergeOnto, merge, Table.get?_insertAll_toList]

/-- Where only one value can be found, it does not matter which element is asked first. -/
theorem findSome?_eq_some_iff_of_agree {α β : Type} {elements : List α} {f : α → Option β}
    {common : β} (hagree : ∀ element ∈ elements, ∀ value ∈ f element, value = common)
    (value : β) :
    elements.findSome? f = some value ↔ ∃ element ∈ elements, f element = some value := by
  constructor
  · exact List.exists_of_findSome?_eq_some
  · rintro ⟨element, helement, hvalue⟩
    cases hfound : elements.findSome? f with
    | none =>
      rw [List.findSome?_eq_none_iff.mp hfound element helement] at hvalue
      cases hvalue
    | some other =>
      obtain ⟨first, hfirst, hother⟩ := List.exists_of_findSome?_eq_some hfound
      rw [hagree first hfirst other hother, hagree element helement value hvalue]

/-- Where the newer mappings agree on the name in a schema, it is the name that any of them has, and
the earlier name if none has one. -/
theorem schemaFields_mergeOver_of_agree {initial : Option FieldMapping} {newer : List FieldMapping}
    {merged : FieldMapping} (h : mergeOver initial newer = some merged) {schema common : String}
    (hagree : ∀ mapping ∈ newer, ∀ name ∈ mapping.schemaFields.get? schema, name = common)
    (name : String) :
    merged.schemaFields.get? schema = some name ↔
      (∃ mapping ∈ newer, mapping.schemaFields.get? schema = some name) ∨
        (∀ mapping ∈ newer, mapping.schemaFields.get? schema = none) ∧
          ∃ previous ∈ initial, previous.schemaFields.get? schema = some name := by
  have hagree' : ∀ mapping ∈ newer.reverse, ∀ name ∈ mapping.schemaFields.get? schema,
      name = common := fun mapping hmapping => hagree mapping (List.mem_reverse.mp hmapping)
  rw [schemaFields_mergeOver h schema, Option.or_eq_some_iff,
    findSome?_eq_some_iff_of_agree hagree', List.findSome?_eq_none_iff, Option.bind_eq_some_iff]
  simp only [List.mem_reverse, Option.mem_def]

theorem mergeOver_eq_none_iff {initial : Option FieldMapping} {newer : List FieldMapping} :
    mergeOver initial newer = none ↔ initial = none ∧ newer = [] := by
  induction newer generalizing initial with
  | nil => simp [mergeOver]
  | cons mapping newer ih =>
    rw [mergeOver, List.foldl_cons, ← mergeOver, ih]
    simp

/-- The log types are those of all mappings. -/
theorem logTypes_mergeOver {initial : Option FieldMapping} {newer : List FieldMapping}
    {merged : FieldMapping} (h : mergeOver initial newer = some merged) (logType : String) :
    logType ∈ TextSet.members merged.logTypes ↔
      (∃ mapping ∈ initial, logType ∈ TextSet.members mapping.logTypes) ∨
        ∃ mapping ∈ newer, logType ∈ TextSet.members mapping.logTypes := by
  induction newer generalizing initial with
  | nil =>
    obtain rfl : initial = some merged := h
    simp
  | cons mapping newer ih =>
    rw [ih h]
    cases initial with
    | none => simp [mergeOnto]
    | some previous => simp [mergeOnto, merge, TextSet.mem_addAll, or_assoc, or_left_comm]

/-- Mappings that all have one name in a schema leave it there, and their log types with it. -/
theorem exists_mergeOver_of_agree {initial : Option FieldMapping} {newer : List FieldMapping}
    {schema name logType : String}
    (hname : ∀ mapping ∈ newer, mapping.schemaFields.get? schema = some name)
    (hlogType : (∃ previous ∈ initial, previous.schemaFields.get? schema = some name ∧
        logType ∈ TextSet.members previous.logTypes) ∨
      ∃ mapping ∈ newer, logType ∈ TextSet.members mapping.logTypes) :
    ∃ merged, mergeOver initial newer = some merged ∧
      merged.schemaFields.get? schema = some name ∧
        logType ∈ TextSet.members merged.logTypes := by
  have hagree : ∀ mapping ∈ newer, ∀ other ∈ mapping.schemaFields.get? schema, other = name :=
    fun mapping hmapping other hother =>
      Option.some.inj (hother.symm.trans (hname mapping hmapping))
  cases hmerged : mergeOver initial newer with
  | none =>
    obtain ⟨rfl, rfl⟩ := mergeOver_eq_none_iff.mp hmerged
    simp at hlogType
  | some merged =>
    refine ⟨merged, rfl, ?_, ?_⟩
    · rw [schemaFields_mergeOver_of_agree hmerged hagree]
      cases newer with
      | nil =>
        obtain ⟨previous, hprevious, hkept, -⟩ | ⟨mapping, hmapping, -⟩ := hlogType
        · exact .inr ⟨List.forall_mem_nil _, previous, hprevious, hkept⟩
        · cases hmapping
      | cons mapping newer =>
        exact .inl ⟨mapping, List.mem_cons_self, hname mapping List.mem_cons_self⟩
    · rw [logTypes_mergeOver hmerged]
      exact hlogType.imp_left fun ⟨previous, hprevious, _, hold⟩ => ⟨previous, hprevious, hold⟩

/-- Mappings of one field that all have the same names can be merged in any order, and more than
once. -/
theorem mergeOver_congr_of_agree {initial : Option FieldMapping} {first second : List FieldMapping}
    {field : String} {names : Table String}
    (hinitial : ∀ mapping ∈ initial, mapping.rawField = field)
    (hagree : ∀ mapping ∈ first, mapping.rawField = field ∧ mapping.schemaFields = names)
    (hsame : ∀ mapping, mapping ∈ first ↔ mapping ∈ second) :
    mergeOver initial first = mergeOver initial second := by
  have hagree' : ∀ mapping ∈ second, mapping.rawField = field ∧ mapping.schemaFields = names :=
    fun mapping hmapping => hagree mapping ((hsame mapping).mpr hmapping)
  have hnone : mergeOver initial first = none ↔ mergeOver initial second = none := by
    simp only [mergeOver_eq_none_iff, List.eq_nil_iff_forall_not_mem, hsame]
  have hname {newer : List FieldMapping}
      (hnewer : ∀ mapping ∈ newer, mapping.rawField = field ∧ mapping.schemaFields = names)
      (schema : String) : ∀ mapping ∈ newer, ∀ name ∈ mapping.schemaFields.get? schema,
        name = (names.get? schema).getD "" := by
    intro mapping hmapping name hget
    rw [← (hnewer mapping hmapping).2, hget, Option.getD_some]
  cases hmerged : mergeOver initial first with
  | none => exact (hnone.mp hmerged).symm
  | some merged =>
    obtain ⟨other, hother⟩ := Option.ne_none_iff_exists'.mp
      (mt hnone.mpr (hmerged ▸ Option.some_ne_none merged))
    have hrawField : merged.rawField = other.rawField :=
      (rawField_mergeOver hinitial (fun mapping hmapping => (hagree mapping hmapping).1) merged
        hmerged).trans
      (rawField_mergeOver hinitial (fun mapping hmapping => (hagree' mapping hmapping).1) other
        hother).symm
    have hschemaFields : merged.schemaFields = other.schemaFields := by
      refine Table.ext_get? fun schema => Option.ext fun name => ?_
      rw [schemaFields_mergeOver_of_agree hmerged (hname hagree schema),
        schemaFields_mergeOver_of_agree hother (hname hagree' schema)]
      simp only [hsame]
    have hlogTypes : merged.logTypes = other.logTypes := by
      refine TextSet.ext_members fun logType => ?_
      rw [logTypes_mergeOver hmerged, logTypes_mergeOver hother]
      simp only [hsame]
    cases merged
    cases other
    rw [hother, Option.some.injEq, FieldMapping.mk.injEq]
    exact ⟨hrawField, hschemaFields, hlogTypes⟩

end FieldMapping

end SigmaCatalog
