import SigmaCatalog.Rule.Pattern.Matching

/-!
# Matching piece by piece

What a list of pieces matches is read off its first piece, and pieces after others match what comes
after.  From this it follows that the pieces of a value match what the value matches as it is
written: reading a value as pieces keeps its meaning.
-/

namespace SigmaCatalog

namespace Piece

variable {pieces later : List Piece} {text : List Char}

@[simp]
theorem matches_nil_iff : Matches [] text ↔ text = [] := by
  constructor
  · rintro ⟨⟩
    rfl
  · rintro rfl
    exact .nil

theorem matches_literal_iff {literal : String} :
    Matches (.literal literal :: pieces) text ↔
      ∃ rest, text = literal.toList ++ rest ∧ Matches pieces rest := by
  constructor
  · rintro (_ | h)
    exact ⟨_, rfl, h⟩
  · rintro ⟨rest, rfl, h⟩
    exact .literal h

theorem matches_anyText_iff :
    Matches (.anyText :: pieces) text ↔ ∃ part rest, text = part ++ rest ∧ Matches pieces rest := by
  constructor
  · rintro (_ | _ | ⟨part, h⟩)
    exact ⟨part, _, rfl, h⟩
  · rintro ⟨part, rest, rfl, h⟩
    exact .anyText part h

theorem matches_anyChar_iff :
    Matches (.anyChar :: pieces) text ↔ ∃ c rest, text = c :: rest ∧ Matches pieces rest := by
  constructor
  · rintro (_ | _ | _ | ⟨c, h⟩)
    exact ⟨c, _, rfl, h⟩
  · rintro ⟨c, rest, rfl, h⟩
    exact .anyChar c h

/-- Pieces after others match what comes after. -/
theorem matches_append_iff :
    Matches (pieces ++ later) text ↔
      ∃ front back, text = front ++ back ∧ Matches pieces front ∧ Matches later back := by
  constructor
  · intro h
    induction pieces generalizing text with
    | nil => exact ⟨[], text, rfl, .nil, h⟩
    | cons piece pieces ih =>
      cases h with
      | literal h =>
        obtain ⟨front, back, rfl, hfront, hback⟩ := ih h
        exact ⟨_, back, (List.append_assoc _ _ _).symm, .literal hfront, hback⟩
      | anyText part h =>
        obtain ⟨front, back, rfl, hfront, hback⟩ := ih h
        exact ⟨_, back, (List.append_assoc _ _ _).symm, .anyText part hfront, hback⟩
      | anyChar c h =>
        obtain ⟨front, back, rfl, hfront, hback⟩ := ih h
        exact ⟨_, back, rfl, .anyChar c hfront, hback⟩
  · rintro ⟨front, back, rfl, hfront, hback⟩
    induction hfront with
    | nil => exact hback
    | literal _ ih => exact List.append_assoc _ _ _ ▸ .literal ih
    | anyText part _ ih => exact List.append_assoc _ _ _ ▸ .anyText part ih
    | anyChar c _ ih => exact .anyChar c ih

/-- It makes no difference to what pieces match that an empty literal is left out. -/
theorem matches_consLiteral_iff {literal : List Char} :
    Matches (consLiteral literal pieces) text ↔
      ∃ rest, text = literal ++ rest ∧ Matches pieces rest := by
  unfold consLiteral
  split
  · next hempty =>
    obtain rfl := List.isEmpty_iff.mp hempty
    simp
  · rw [matches_literal_iff, String.toList_ofList]

end Piece

namespace Pattern

variable {written text : List Char}

theorem isSpecial_iff {c : Char} : Piece.isSpecial c = true ↔ c ∈ ['*', '?', '\\'] := by
  simp [Piece.isSpecial, or_assoc]

theorem writtenMatches_nil_iff : WrittenMatches [] text ↔ text = [] := by
  constructor
  · rintro ⟨⟩
    rfl
  · rintro rfl
    exact .nil

theorem writtenMatches_star_iff :
    WrittenMatches ('*' :: written) text ↔
      ∃ part rest, text = part ++ rest ∧ WrittenMatches written rest := by
  constructor
  · intro h
    cases h with
    | anyText part h => exact ⟨part, _, rfl, h⟩
    | plain hplain h => exact absurd hplain (by decide)
  · rintro ⟨part, rest, rfl, h⟩
    exact .anyText part h

theorem writtenMatches_question_iff :
    WrittenMatches ('?' :: written) text ↔
      ∃ c rest, text = c :: rest ∧ WrittenMatches written rest := by
  constructor
  · intro h
    cases h with
    | anyChar c h => exact ⟨c, _, rfl, h⟩
    | plain hplain h => exact absurd hplain (by decide)
  · rintro ⟨c, rest, rfl, h⟩
    exact .anyChar c h

theorem writtenMatches_escaped_iff {c : Char} (hspecial : c ∈ ['*', '?', '\\']) :
    WrittenMatches ('\\' :: c :: written) text ↔
      ∃ rest, text = c :: rest ∧ WrittenMatches written rest := by
  constructor
  · intro h
    cases h with
    | escaped _ h => exact ⟨_, rfl, h⟩
    | backslash hplain h => exact absurd hspecial (hplain c rfl)
    | plain hplain h => exact absurd hplain (by decide)
  · rintro ⟨rest, rfl, h⟩
    exact .escaped hspecial h

/-- A backslash that takes no meaning away and any character without a meaning stand for
themselves. -/
theorem writtenMatches_itself_iff {c : Char} (hstar : c ≠ '*') (hquestion : c ≠ '?')
    (hbackslash : c = '\\' → ∀ next ∈ written.head?, next ∉ ['*', '?', '\\']) :
    WrittenMatches (c :: written) text ↔
      ∃ rest, text = c :: rest ∧ WrittenMatches written rest := by
  constructor
  · intro h
    cases h with
    | anyText => exact absurd rfl hstar
    | anyChar => exact absurd rfl hquestion
    | escaped hspecial => exact absurd hspecial (hbackslash rfl _ rfl)
    | backslash _ h => exact ⟨_, rfl, h⟩
    | plain _ h => exact ⟨_, rfl, h⟩
  · rintro ⟨rest, rfl, h⟩
    by_cases hc : c = '\\'
    · subst hc
      exact .backslash (hbackslash rfl) h
    · exact .plain (by simp [hstar, hquestion, hc]) h

/-- Characters that are pending stand between those pending before them and what comes after. -/
theorem exists_pending_append_iff {matched : List Char → Prop} (literal pending : List Char) :
    (∃ rest, text = (literal.reverse ++ pending).reverse ++ rest ∧ matched rest) ↔
      ∃ rest, text = pending.reverse ++ rest ∧
        ∃ later, rest = literal ++ later ∧ matched later := by
  constructor
  · rintro ⟨rest, rfl, h⟩
    exact ⟨literal ++ rest, by simp, rest, rfl, h⟩
  · rintro ⟨-, rfl, later, rfl, h⟩
    exact ⟨later, by simp, h⟩

theorem exists_pending_cons_iff {matched : List Char → Prop} (c : Char) (pending : List Char) :
    (∃ rest, text = (c :: pending).reverse ++ rest ∧ matched rest) ↔
      ∃ rest, text = pending.reverse ++ rest ∧ ∃ later, rest = c :: later ∧ matched later :=
  exists_pending_append_iff [c] pending

/-- The pieces read from a value, after some literal characters, match these characters and then
what the value matches as it is written. -/
theorem matches_scan_iff (pending written text : List Char) :
    Piece.Matches (Piece.scan pending written) text ↔
      ∃ rest, text = pending.reverse ++ rest ∧ WrittenMatches written rest := by
  fun_induction Piece.scan pending written generalizing text with
  | case1 pending => simp [Piece.matches_consLiteral_iff, writtenMatches_nil_iff]
  | case2 pending c written hspecial ih =>
    rw [ih, exists_pending_cons_iff]
    simp only [writtenMatches_escaped_iff (isSpecial_iff.mp hspecial)]
  | case3 pending c written hplain ih =>
    rw [ih, exists_pending_cons_iff]
    have hnext : ∀ next ∈ (c :: written).head?, next ∉ ['*', '?', '\\'] := by
      simpa [isSpecial_iff] using hplain
    simp only [writtenMatches_itself_iff (c := '\\') (by decide) (by decide) fun _ => hnext]
  | case4 pending written ih =>
    rw [Piece.matches_consLiteral_iff]
    simp only [Piece.matches_anyText_iff, ih, writtenMatches_star_iff, List.reverse_nil,
      List.nil_append, exists_eq_left']
  | case5 pending written ih =>
    rw [Piece.matches_consLiteral_iff]
    simp only [Piece.matches_anyChar_iff, ih, writtenMatches_question_iff, List.reverse_nil,
      List.nil_append, exists_eq_left']
  | case6 pending c written hescape hstar hquestion ih =>
    rw [ih, exists_pending_cons_iff]
    have hnext : c = '\\' → ∀ next ∈ written.head?, next ∉ ['*', '?', '\\'] := by
      intro hc next hhead
      obtain ⟨later, rfl⟩ := List.head?_eq_some_iff.mp hhead
      exact (hescape next later hc rfl).elim
    simp only [writtenMatches_itself_iff hstar hquestion hnext]

/-- The pieces of a value match what the value matches as it is written. -/
theorem ofText_matches_iff (value : String) (text : List Char) :
    (ofText value).Matches text ↔ WrittenMatches value.toList text := by
  rw [Matches, ofText, matches_scan_iff]
  simp

end Pattern

end SigmaCatalog
