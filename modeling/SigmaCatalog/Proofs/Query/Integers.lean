import SigmaCatalog.Compilation
import SigmaCatalog.Proofs.Decimal.Whole
import SigmaCatalog.Proofs.Query.Modifiers

/-!
# Integers in a query

An integer of a rule is written in a query by its digits as long as it is below `2 ^ 63`.  From
there on it counts as a floating point number and is written as the shortest whole number that is
rounded to the same one; so it keeps its digits exactly if it is that number itself, and integers
with one floating point number between them have one text.
-/

namespace SigmaCatalog

/-! ## Digits need no escapes -/

namespace Query

theorem termChar_of_isDigit {c : Char} (h : c.isDigit = true) : termChar c = [c] := by
  have hreserved : reservedChars.all (fun c => !c.isDigit) = true := by decide
  have hbounds : 48 ≤ c.toNat ∧ c.toNat ≤ 57 := by
    simpa [Char.isDigit, UInt32.le_iff_toNat_le] using h
  unfold termChar isReserved
  refine if_neg fun hor => ?_
  rw [Bool.or_eq_true, List.contains_iff_mem] at hor
  obtain hmem | hblank := hor
  · have hother := List.all_eq_true.mp hreserved c hmem
    rw [h] at hother
    cases hother
  · simp only [Text.isBlank, Bool.or_eq_true, Bool.and_eq_true, decide_eq_true_eq, beq_iff_eq]
      at hblank
    omega

/-- An integer in a bare term has nothing escaped but its minus sign. -/
theorem termText_toString (n : Int) :
    termText (toString n) = (if n < 0 then "\\" else "") ++ toString n := by
  have hdigits (n : Nat) : (Nat.toDigits 10 n).flatMap termChar = Nat.toDigits 10 n := by
    rw [List.flatMap_congr fun c hc => termChar_of_isDigit (Text.isDigit_of_mem hc)]
    exact List.flatMap_singleton' _
  have hminus : termChar '-' = ['\\', '-'] := by decide
  rw [termText, ← String.toList_inj, String.toList_ofList, String.toList_append,
    Text.toList_toString]
  by_cases hn : 0 ≤ n
  · rw [if_pos hn, if_neg (by omega), hdigits]
    rfl
  · rw [if_neg hn, if_pos (by omega), List.flatMap_cons, hminus, hdigits]
    rfl

/-- An integer in a phrase has nothing escaped. -/
theorem phraseText_toString (n : Int) : phraseText (toString n) = "\"" ++ toString n ++ "\"" := by
  have hplain : ∀ c ∈ (toString n).toList, phraseChar c = [c] := by
    intro c hc
    unfold phraseChar
    refine if_neg fun hor => ?_
    rw [Bool.or_eq_true, decide_eq_true_eq, decide_eq_true_eq] at hor
    obtain rfl | rfl := hor
    · exact Text.notMem_toString (by decide) (by decide) n hc
    · exact Text.notMem_toString (by decide) (by decide) n hc
  rw [phraseText, List.flatMap_congr hplain, List.flatMap_singleton', String.ofList_toList]

/-! ## The text of an integer -/

/-- The text of an integer of a rule, before anything in it is escaped. -/
def integerText (n : Int) : String :=
  if n < 0x8000000000000000 then toString n else (Binary64.ofNat n.toNat).plainText

theorem numeral?_of_integer {n : Int} {value : DetectionValue}
    (h : DetectionValue.ofYaml? (.integer n) = some value) :
    numeral? value = some (integerText n) := by
  obtain rfl := Option.some.inj h
  unfold integerText
  split
  · rfl
  · rfl

/-- The text of an integer is that of an integer: below `2 ^ 63` the same one, and from there on
the shortest one with its floating point number. -/
theorem integerText_cases {n : Int} (hhigh : n < 0x10000000000000000) :
    ∃ shown : Int, integerText n = toString shown ∧
      (n < 0x8000000000000000 ∧ shown = n ∨
        0x8000000000000000 ≤ n ∧ 0x8000000000000000 ≤ shown ∧
          Binary64.ofNat shown.toNat = Binary64.ofNat n.toNat ∧
          (shown = n ↔ Binary64.IsShortestWhole n.toNat)) := by
  by_cases hn : n < 0x8000000000000000
  · exact ⟨n, if_pos hn, .inl ⟨hn, rfl⟩⟩
  · obtain ⟨shown, htext, hreads, hlow, hshown⟩ :=
      Binary64.plainText_ofNat (n := n.toNat) (by omega) (by omega)
    refine ⟨shown, (if_neg hn).trans htext, .inr ⟨by omega, by omega, hreads, ?_⟩⟩
    rw [← hshown]
    omega

/-- An integer keeps its digits below `2 ^ 63`, and where it is the shortest whole number with its
floating point number. -/
theorem integerText_eq_iff {n : Int} (hhigh : n < 0x10000000000000000) :
    integerText n = toString n ↔
      n < 0x8000000000000000 ∨ Binary64.IsShortestWhole n.toNat := by
  obtain ⟨shown, htext, ⟨hn, rfl⟩ | ⟨hn, -, -, hshown⟩⟩ := integerText_cases hhigh
  · exact iff_of_true htext (.inl hn)
  · rw [htext, Text.toString_inj, hshown]
    exact ⟨.inr, fun h => h.resolve_left (by omega)⟩

/-- Integers have one text only if they are equal or have one floating point number. -/
theorem integerText_inj {n m : Int} (hn : n < 0x10000000000000000)
    (hm : m < 0x10000000000000000) :
    integerText n = integerText m ↔ n = m ∨ 0x8000000000000000 ≤ n ∧ 0x8000000000000000 ≤ m ∧
      Binary64.ofNat n.toNat = Binary64.ofNat m.toNat := by
  constructor
  · intro h
    obtain ⟨shown, htext, hshown⟩ := integerText_cases hn
    obtain ⟨shown', htext', hshown'⟩ := integerText_cases hm
    obtain rfl := Text.toString_inj.mp (htext.symm.trans (h.trans htext'))
    obtain ⟨hsmall, rfl⟩ | ⟨hlarge, hleast, hreads, -⟩ := hshown
    · obtain ⟨-, rfl⟩ | ⟨-, hleast, -⟩ := hshown'
      · exact .inl rfl
      · omega
    · obtain ⟨hsmall, rfl⟩ | ⟨hlarge', -, hreads', -⟩ := hshown'
      · omega
      · exact .inr ⟨hlarge, hlarge', hreads.symm.trans hreads'⟩
  · rintro (rfl | ⟨hlarge, hlarge', hreads⟩)
    · rfl
    · rw [integerText, integerText, if_neg (by omega), if_neg (by omega), hreads]

/-! ## Integers can be read -/

/-- The key of an item: its field, and each modifier after a bar. -/
def keyText (field : String) (modifiers : List Modifier) : String :=
  String.ofList (field.toList ++ modifiers.flatMap fun modifier => '|' :: modifier.name.toList)

/-- Whether a key has a field and modifiers that compare it with numbers, in one way at most. -/
structure Compares (field : String) (modifiers : List Modifier) : Prop where
  unbarred : '|' ∉ field.toList
  named : Text.trimChars field.toList ≠ []
  comparisons : ∀ modifier ∈ modifiers, modifier.isComparison = true ∨ modifier = .all
  count : modifiers.countP (· ≠ .all) ≤ 1

/-- A document that is an integer, or a list of integers that is not empty. -/
inductive ListsIntegers : Yaml.Value → Prop
  | one (n : Int) : ListsIntegers (.integer n)
  | several (first : Int) (others : List Int) :
      ListsIntegers (.sequence (.integer first :: others.map .integer))

namespace ListsIntegers

variable {document : Yaml.Value}

/-- Integers are read as numbers. -/
theorem exists_values (h : ListsIntegers document) :
    ∃ values, List.Forall₂ (fun value kept => DetectionValue.ofYaml? value = some kept)
        document.listed values ∧ ∀ value ∈ values, value.isNumber = true := by
  have hread (n : Int) : ∃ value, DetectionValue.ofYaml? (.integer n) = some value ∧
      value.isNumber = true := by
    refine ⟨_, rfl, ?_⟩
    split
    · rfl
    · rfl
  choose valueOf hvalueOf hnumber using hread
  have hlist (numbers : List Int) :
      List.Forall₂ (fun value kept => DetectionValue.ofYaml? value = some kept)
        (numbers.map .integer) (numbers.map valueOf) := by
    rw [List.forall₂_map_left_iff, List.forall₂_map_right_iff, List.forall₂_same]
    exact fun n _ => hvalueOf n
  cases h with
  | one n => exact ⟨_, hlist [n], by simp [hnumber]⟩
  | several first others => exact ⟨_, hlist (first :: others), by simp [hnumber]⟩

/-- Integers can be read as keywords. -/
theorem exists_keywords (h : ListsIntegers document) (name : String) :
    ∃ keywords, SearchIdentifier.ofYaml name document = .ok (.keywords keywords) := by
  obtain ⟨values, hvalues, -⟩ := h.exists_values
  cases h with
  | one n => exact ⟨_, rfl⟩
  | several first others =>
    have hread : (.integer first :: others.map .integer : List Yaml.Value).mapM
        DetectionValue.ofYaml? = some values := mapM_eq_some_iff.mpr hvalues
    have hplain : (Yaml.Value.integer first).isMapping = false := rfl
    refine ⟨values, ?_⟩
    rw [SearchIdentifier.ofYaml, List.all_cons, hplain, Bool.false_and, hread]
    · rfl
    · exact List.cons_ne_nil _ _

end ListsIntegers

theorem modifiersOf_names (modifiers : List Modifier) :
    DetectionItem.modifiersOf (modifiers.map Modifier.name) = .ok modifiers := by
  induction modifiers with
  | nil => rfl
  | cons modifier modifiers ih =>
    have hname : Modifier.ofName? modifier.name = some modifier := by
      cases modifier <;> decide
    rw [List.map_cons, DetectionItem.modifiersOf, hname, ih]
    rfl

theorem splitAll_keyText {field : String} (h : '|' ∉ field.toList) (modifiers : List Modifier) :
    Text.splitAll '|' (keyText field modifiers).toList =
      (field.toList, modifiers.map fun modifier => modifier.name.toList) := by
  have hbare : ∀ name ∈ modifiers.map (fun modifier => modifier.name.toList), '|' ∉ name := by
    intro name hname
    obtain ⟨modifier, -, rfl⟩ := List.mem_map.mp hname
    cases modifier <;> decide
  have hnames := Text.splitAll_flatMap hbare
  rw [List.flatMap_map] at hnames
  rw [keyText, String.toList_ofList, Text.splitAll_append h, hnames, List.append_nil]

namespace Compares

variable {field : String} {modifiers : List Modifier}

/-- Modifiers that compare a field with numbers fit any numbers. -/
theorem modifierFault?_eq_none (h : Compares field modifiers) (name : String)
    {values : List DetectionValue} (hvalues : ∀ value ∈ values, value.isNumber = true) :
    DetectionItem.modifierFault? ⟨name, modifiers, values⟩ = none := by
  have hcombination : DetectionItem.combinationFault? ⟨name, modifiers, values⟩ = none :=
    DetectionItem.combinationFault?_eq_none_iff.mpr h.count
  have hkinds : modifiers.findSome? (DetectionItem.kindFault? values) = none := by
    refine List.findSome?_eq_none_iff.mpr fun modifier hmem => ?_
    have hnumbers : values.all DetectionValue.isNumber = true := List.all_eq_true.mpr hvalues
    obtain hcomparison | rfl := h.comparisons modifier hmem
    · cases modifier with
      | lt | lte | gt | gte => exact if_pos hnumbers
      | _ => cases hcomparison
    · rfl
  have hcidr : modifiers.contains .cidr = false := by
    refine Bool.eq_false_iff.mpr fun hmem => ?_
    obtain habsurd | habsurd := h.comparisons .cidr (List.contains_iff_mem.mp hmem)
    · cases habsurd
    · cases habsurd
  simp only [DetectionItem.modifierFault?, DetectionItem.has, hcombination, hkinds, hcidr]
  rfl

/-- An item that compares a field with integers can be read. -/
theorem exists_item {document : Yaml.Value} (h : Compares field modifiers)
    (hdocument : ListsIntegers document) :
    ∃ item, DetectionItem.ofEntry (keyText field modifiers) document = .ok item ∧
      item.modifiers = modifiers := by
  obtain ⟨values, hvalues, hnumbers⟩ := hdocument.exists_values
  refine ⟨⟨String.ofList (Text.trimChars field.toList), modifiers, values⟩, ?_, rfl⟩
  have hname : (String.ofList (Text.trimChars field.toList)).isEmpty = false := by
    simpa using h.named
  have hmodifiers : DetectionItem.modifiersOf
      ((modifiers.map fun modifier => modifier.name.toList).map String.ofList) = .ok modifiers := by
    simpa [Function.comp_def] using modifiersOf_names modifiers
  have hlisted : DetectionItem.valuesOf? document = some values :=
    DetectionItem.valuesOf?_eq_some_iff.mpr hvalues
  have hempty : document ≠ .sequence [] := by
    rintro rfl
    cases hdocument
  unfold DetectionItem.ofEntry
  simp only [splitAll_keyText h.unbarred, hname, hmodifiers, hlisted,
    h.modifierFault?_eq_none _ hnumbers, Bool.false_eq_true, if_false]

end Compares

/-! ## Values and keywords -/

theorem exists_getElem?_of_forall₂ {α β : Type} {R : α → β → Prop} {xs : List α} {ys : List β}
    (h : List.Forall₂ R xs ys) {position : Nat} {x : α} (hx : xs[position]? = some x) :
    ∃ y, ys[position]? = some y ∧ R x y := by
  induction h generalizing position with
  | nil => cases hx
  | cons hxy _ ih =>
    cases position with
    | zero => exact ⟨_, rfl, Option.some.inj hx ▸ hxy⟩
    | succ position => exact ih hx

/-- The sign of the comparison that the modifiers of an item ask for, if they do. -/
def signOf (modifiers : List Modifier) : String :=
  ((modifiers.findSome? comparison?).map Comparison.sign).getD ""

theorem sign_comparisonOf {item : DetectionItem}
    (hcount : item.modifiers.countP (· ≠ .all) ≤ 1) :
    (comparisonOf item).sign = signOf item.modifiers := by
  rw [signOf]
  cases hfind : item.modifiers.findSome? comparison? with
  | none =>
    have habsent (modifier : Modifier) (hsome : comparison? modifier ≠ none) :
        item.has modifier = false := by
      rw [DetectionItem.has, Bool.eq_false_iff, Ne, List.contains_iff_mem]
      exact fun hmem => hsome (List.findSome?_eq_none_iff.mp hfind modifier hmem)
    rw [comparisonOf, habsent .lt (Option.some_ne_none _), habsent .lte (Option.some_ne_none _),
      habsent .gt (Option.some_ne_none _), habsent .gte (Option.some_ne_none _)]
    rfl
  | some comparison =>
    obtain ⟨modifier, hmem, hcomparison⟩ := List.exists_of_findSome?_eq_some hfind
    have hall : modifier ≠ .all := by
      rintro rfl
      cases hcomparison
    rw [comparisonOf_sole (DetectionItem.sole_of_mem hcount hmem hall) hcomparison]
    rfl

section Texts

variable {n : Int} {position : Nat}

theorem termText_integerText (hhigh : n < 0x10000000000000000) :
    termText (integerText n) = (if n < 0 then "\\" else "") ++ integerText n := by
  obtain ⟨shown, htext, hshown⟩ := integerText_cases hhigh
  have hsign : shown < 0 ↔ n < 0 := by
    obtain ⟨-, rfl⟩ | ⟨hlarge, hleast, -⟩ := hshown
    · rfl
    · omega
  rw [htext, termText_toString]
  simp only [hsign]

/-- An integer among the values of an item is written after the field and the comparison. -/
theorem valueText_of_integer {key : String} {document : Yaml.Value} {item : DetectionItem}
    (h : DetectionItem.ofEntry key document = .ok item)
    (hplace : document.listed[position]? = some (.integer n)) (name : String) :
    (item.values.map (valueText name item))[position]? =
      some (termText name ++ ":" ++ signOf item.modifiers ++ termText (integerText n)) := by
  have hfit := DetectionItem.isFit_of_ofEntry h
  have hkeeps : DetectionItem.Keeps (.string key, document) item :=
    DetectionItem.keeps_of_ofEntry rfl h
  obtain ⟨value, hvalue, hread⟩ := exists_getElem?_of_forall₂ hkeeps.values hplace
  have hnumeral := numeral?_of_integer hread
  have hexists : item.has .exists = false := by
    rw [DetectionItem.has, Bool.eq_false_iff, Ne, List.contains_iff_mem]
    intro hmem
    obtain ⟨present, hvalues⟩ := DetectionItem.bool_of_exists (hfit.kinds .exists hmem)
    have hbool := List.mem_of_getElem? hvalue
    rw [hvalues, List.mem_singleton] at hbool
    rw [hbool] at hnumeral
    cases hnumeral
  rw [List.getElem?_map, hvalue, Option.map_some, valueText_of_numeral hexists name hnumeral,
    sign_comparisonOf hfit.count]

theorem keywords_read {name : String} {body : Yaml.Value} {keywords : List DetectionValue}
    (h : SearchIdentifier.ofYaml name body = .ok (.keywords keywords)) :
    List.Forall₂ (fun value kept => DetectionValue.ofYaml? value = some kept) body.listed
      keywords := by
  unfold SearchIdentifier.ofYaml at h
  split at h
  · obtain ⟨_, -, habsurd⟩ := ok_of_map h
    cases habsurd
  · cases h
  · split at h
    · obtain ⟨_, -, habsurd⟩ := ok_of_map h
      cases habsurd
    · split at h
      · next values hvalues =>
        obtain rfl := SearchIdentifier.keywords.inj (Except.ok.inj h)
        exact mapM_eq_some_iff.mp hvalues
      · cases h
  · cases h
  · split at h
    · next keyword hkeyword =>
      obtain rfl := SearchIdentifier.keywords.inj (Except.ok.inj h)
      cases (SearchIdentifier.keeps_scalar hkeyword).1 with
      | keywords _ hkeywords => exact hkeywords
    · cases h

/-- An integer among keywords is written as a phrase. -/
theorem keywordText_of_integer {name : String} {body : Yaml.Value}
    {keywords : List DetectionValue}
    (h : SearchIdentifier.ofYaml name body = .ok (.keywords keywords))
    (hplace : body.listed[position]? = some (.integer n)) :
    (keywords.map fun value => (keywordTerm value).text)[position]? =
      some (phraseText (integerText n)) := by
  obtain ⟨value, hvalue, hread⟩ := exists_getElem?_of_forall₂ (keywords_read h) hplace
  have hterm {numeral : String} (hnumeral : numeral? value = some numeral) :
      keywordTerm value = .phrase numeral := by
    cases value <;> cases hnumeral <;> rfl
  rw [List.getElem?_map, hvalue, Option.map_some, hterm (numeral?_of_integer hread)]
  rfl

end Texts

/-- Integers can stand alone or in a list, under a comparison or without one, and among keywords.
Each integer up to `2 ^ 64`, among whatever values, has one text wherever it stands.  This text is
that of the integer itself exactly if the integer is below `2 ^ 63` or the shortest whole number
with its floating point number; and two integers have the same text exactly if they are equal or
have, from `2 ^ 63` on, one floating point number. -/
theorem integers_shown {n : Int} (hhigh : n < 0x10000000000000000) :
    (∀ {field : String} {modifiers : List Modifier} {document : Yaml.Value},
      Compares field modifiers → ListsIntegers document →
      ∃ item, DetectionItem.ofEntry (keyText field modifiers) document = .ok item ∧
        item.modifiers = modifiers) ∧
    (∀ {name : String} {body : Yaml.Value}, ListsIntegers body →
      ∃ keywords, SearchIdentifier.ofYaml name body = .ok (.keywords keywords)) ∧
    (∀ {key : String} {document : Yaml.Value} {item : DetectionItem} {position : Nat}
      {naming : Renaming} (noted : List String),
      DetectionItem.ofEntry key document = .ok item →
      document.listed[position]? = some (.integer n) →
      naming.refusal? (.field item.field) = none →
      ∃ clause later texts, (convertItem naming item).run noted = .ok (clause, later) ∧
        clause.text Leaf.text =
          grouped (if .all ∈ item.modifiers then " AND " else " OR ") texts ∧
        texts[position]? = some (termText (naming.newName item.field) ++ ":" ++
          signOf item.modifiers ++ (if n < 0 then "\\" else "") ++ integerText n)) ∧
    (∀ {name : String} {body : Yaml.Value} {keywords : List DetectionValue} {position : Nat}
      (naming : Renaming) (noted : List String),
      SearchIdentifier.ofYaml name body = .ok (.keywords keywords) →
      body.listed[position]? = some (.integer n) →
      ∃ clause texts, (convertBody naming (.keywords keywords)).run noted = .ok (clause, noted) ∧
        clause.text Leaf.text = grouped " OR " texts ∧
        texts[position]? = some ("\"" ++ integerText n ++ "\"")) ∧
    (integerText n = toString n ↔
      n < 0x8000000000000000 ∨ Binary64.IsShortestWhole n.toNat) ∧
    ∀ m < 0x10000000000000000, integerText n = integerText m ↔
      n = m ∨ 0x8000000000000000 ≤ n ∧ 0x8000000000000000 ≤ m ∧
        Binary64.ofNat n.toNat = Binary64.ofNat m.toNat := by
  refine ⟨Compares.exists_item, fun h => h.exists_keywords _, ?_, ?_, integerText_eq_iff hhigh,
    fun m hm => integerText_inj hhigh hm⟩
  · intro key document item position naming noted hread hplace hrefusal
    have hrun := (convertItem_meets naming item).run_eq noted
    rw [List.findSome?_cons, hrefusal, List.findSome?_nil] at hrun
    have htext := valueText_of_integer hread hplace (naming.newName item.field)
    rw [termText_integerText hhigh, ← String.append_assoc] at htext
    exact ⟨_, _, _, hrun, itemClause_text _ _, htext⟩
  · intro name body keywords position naming noted hread hplace
    have htext := keywordText_of_integer hread hplace
    obtain ⟨shown, hshown, -⟩ := integerText_cases hhigh
    rw [hshown, phraseText_toString, ← hshown] at htext
    refine ⟨_, _, rfl, ?_, htext⟩
    rw [grouped_texts, List.map_map]
    rfl

/-- The least integer of 64 bits, one from `2 ^ 63` on that keeps its digits, and the greatest. -/
def boundaryValues : Yaml.Value :=
  .sequence [.integer (-9223372036854775808), .integer 9223372036854776000,
    .integer 18446744073709551615]

/-- An item that compares its field with the values at the boundaries. -/
def boundaryItem : DetectionItem :=
  { field := "f"
    modifiers := [.gte]
    values := [.integer (-9223372036854775808), .real (.ofNat 9223372036854776000),
      .real (.ofNat 18446744073709551615)] }

theorem integers_shown_boundaryItem :
    (18446744073709551615 : Int) < 0x10000000000000000 ∧
    DetectionItem.ofEntry "f|gte" boundaryValues = .ok boundaryItem ∧
    ∃ clause texts, (convertItem ⟨∅, false⟩ boundaryItem).run [] = .ok (clause, ["f"]) ∧
      clause.text Leaf.text = grouped " OR " texts ∧
      texts[2]? = some "f:>=18446744073709552000" := by
  have hhigh : (18446744073709551615 : Int) < 0x10000000000000000 := by
    decide
  have hread : DetectionItem.ofEntry "f|gte" boundaryValues = .ok boundaryItem := by
    rfl
  have hlisted : boundaryValues.listed[2]? = some (.integer 18446744073709551615) := by
    rfl
  have hrefusal : Renaming.refusal? ⟨∅, false⟩ (.field boundaryItem.field) = none := by
    rfl
  obtain ⟨-, -, hitems, -⟩ := integers_shown hhigh
  obtain ⟨clause, later, texts, hrun, htext, hplace⟩ := hitems [] hread hlisted hrefusal
  have hshown : termText (Renaming.newName ⟨∅, false⟩ boundaryItem.field) ++ ":" ++
      signOf boundaryItem.modifiers ++ (if (18446744073709551615 : Int) < 0 then "\\" else "") ++
        integerText 18446744073709551615 = "f:>=18446744073709552000" := by
    decide +kernel
  obtain rfl : later = ["f"] := (congrArg Prod.snd (Except.ok.inj hrun)).symm
  exact ⟨hhigh, hread, clause, texts, hrun, htext, hplace.trans (congrArg some hshown)⟩

/-- A rule with two integers from `2 ^ 63` on, of which the second keeps its digits. -/
def largeIntegersRule : String :=
  "title: t\ndetection:\n  s:\n    f: [9223372036854775808, 9223372036854776000]\n  condition: s\n"

/-- From `2 ^ 63` on an integer may be written with other digits, and two integers with the same
ones. -/
theorem large_integers_altered :
    ((Rule.parse largeIntegersRule).toOption.bind fun rule =>
        (rule.convert ∅ false).toOption.map Conversion.queries) =
      some ["(f:9223372036854776000 OR f:9223372036854776000)"] ∧
    integerText 18446744073709551615 ≠ toString (18446744073709551615 : Int) ∧
    integerText 9223372036854775808 = integerText 9223372036854776000 := by
  decide +kernel

end Query

end SigmaCatalog
