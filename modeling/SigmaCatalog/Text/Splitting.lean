/-!
# Splitting and joining

A text is cut at the occurrences of one character.  The parts with that character between
neighbours are the text again.
-/

namespace SigmaCatalog.Text

/-- The part of a text before the first `sep` and the part after it, if there is one. -/
def splitFirst (sep : Char) : List Char → Option (List Char × List Char)
  | [] => none
  | c :: rest =>
    if c = sep then some ([], rest)
    else (splitFirst sep rest).map fun (before, after) => (c :: before, after)

/-- The parts of a text between the occurrences of `sep`; there is always at least one. -/
def splitAll (sep : Char) : List Char → List Char × List (List Char)
  | [] => ([], [])
  | c :: rest =>
    let (first, others) := splitAll sep rest
    if c = sep then ([], first :: others) else (c :: first, others)

/-- The texts joined with `sep` between neighbours. -/
def joinWith (sep : String) : List String → String
  | [] => ""
  | [text] => text
  | text :: others => text ++ sep ++ joinWith sep others

theorem splitFirst_eq_none_iff (sep : Char) (text : List Char) :
    splitFirst sep text = none ↔ sep ∉ text := by
  induction text with
  | nil => simp [splitFirst]
  | cons c rest ih =>
    by_cases h : c = sep
    · simp [splitFirst, h]
    · simp [splitFirst, h, ih, Ne.symm h]

theorem append_of_splitFirst_eq_some
    {sep : Char} {text before after : List Char}
    (h : splitFirst sep text = some (before, after)) :
    text = before ++ sep :: after ∧ sep ∉ before := by
  induction text generalizing before with
  | nil => simp [splitFirst] at h
  | cons c rest ih =>
    by_cases hc : c = sep
    · simp only [splitFirst, hc, if_true, Option.some.injEq, Prod.mk.injEq] at h
      obtain ⟨rfl, rfl⟩ := h
      simp [hc]
    · simp only [splitFirst, hc, if_false, Option.map_eq_some_iff, Prod.mk.injEq] at h
      obtain ⟨⟨front, back⟩, hsplit, rfl, rfl⟩ := h
      obtain ⟨hrest, hfront⟩ := ih hsplit
      exact ⟨by simp [hrest], by simp [hfront, Ne.symm hc]⟩

/-- No part is lost: each further part follows an occurrence of `sep`. -/
theorem splitAll_flatten (sep : Char) (text : List Char) :
    (splitAll sep text).1 ++ (splitAll sep text).2.flatMap (sep :: ·) = text := by
  induction text with
  | nil => rfl
  | cons c rest ih =>
    by_cases h : c = sep
    · simpa [splitAll, h] using ih
    · simpa [splitAll, h] using ih

theorem splitFirst_append {sep : Char} {before : List Char} (h : sep ∉ before)
    (after : List Char) : splitFirst sep (before ++ sep :: after) = some (before, after) := by
  induction before with
  | nil => simp [splitFirst]
  | cons c before ih =>
    have hc : c ≠ sep := fun heq => h (heq ▸ List.mem_cons_self)
    have hbefore : sep ∉ before := fun hmem => h (List.mem_cons_of_mem c hmem)
    simp [splitFirst, hc, ih hbefore]

theorem splitAll_append {sep : Char} {first : List Char} (h : sep ∉ first) (rest : List Char) :
    splitAll sep (first ++ rest) = (first ++ (splitAll sep rest).1, (splitAll sep rest).2) := by
  induction first with
  | nil => rfl
  | cons c first ih =>
    have hc : c ≠ sep := fun heq => h (heq ▸ List.mem_cons_self)
    have hfirst : sep ∉ first := fun hmem => h (List.mem_cons_of_mem c hmem)
    rw [List.cons_append, splitAll, ih hfirst]
    exact if_neg hc

/-- Parts without `sep` are found again between its occurrences. -/
theorem splitAll_flatMap {sep : Char} {parts : List (List Char)} (h : ∀ part ∈ parts, sep ∉ part) :
    splitAll sep (parts.flatMap (sep :: ·)) = ([], parts) := by
  induction parts with
  | nil => rfl
  | cons part parts ih =>
    obtain ⟨hpart, hparts⟩ := List.forall_mem_cons.mp h
    rw [List.flatMap_cons, List.cons_append, splitAll, splitAll_append hpart, ih hparts,
      List.append_nil]
    exact if_pos rfl

theorem toList_joinWith (sep first : String) (others : List String) :
    (joinWith sep (first :: others)).toList =
      first.toList ++ others.flatMap fun text => sep.toList ++ text.toList := by
  induction others generalizing first with
  | nil => simp [joinWith]
  | cons second others ih => simp [joinWith, ih]

end SigmaCatalog.Text
