import SigmaCatalog.Proofs.Rule.Matching

/-!
# Pieces as they are written

Pieces are in normal form when no literal is empty and no literal stands next to another.  A value
is always read as pieces in normal form, since a literal ends only at a wildcard or at the end of
the value.  Conversely, pieces in normal form are read back from the text that spells them, so that
the normal forms are exactly what values can say.
-/

namespace SigmaCatalog

namespace Piece

variable {pieces : List Piece} {text : String}

/-! ## Normal forms -/

/-- Whether a literal may stand before the pieces: there is none, or the first is a wildcard. -/
def OpensWild (pieces : List Piece) : Prop :=
  ∀ first ∈ pieces.head?, first.isWild = true

theorem isNormal_literal_iff :
    IsNormal (.literal text :: pieces) ↔ text ≠ "" ∧ OpensWild pieces ∧ IsNormal pieces := by
  cases pieces with
  | nil => simp [IsNormal, OpensWild]
  | cons next pieces => cases next <;> simp [IsNormal, OpensWild, isWild]

theorem isNormal_wild_iff (piece : Piece) (hwild : piece.isWild = true) :
    IsNormal (piece :: pieces) ↔ IsNormal pieces := by
  cases piece with
  | literal => cases hwild
  | anyText => rfl
  | anyChar => rfl

theorem opensWild_iff : OpensWild pieces ↔ ∀ first, ¬[.literal first] <+: pieces := by
  cases pieces with
  | nil => simp [OpensWild]
  | cons piece pieces => cases piece <;> simp [OpensWild, isWild]

/-- The normal form said of the list as a whole: it has no empty literal and no two literals side by
side. -/
theorem isNormal_iff :
    IsNormal pieces ↔
      .literal "" ∉ pieces ∧ ∀ first second, ¬[.literal first, .literal second] <:+: pieces := by
  induction pieces with
  | nil => simp [IsNormal]
  | cons piece pieces ih =>
    cases piece with
    | literal text =>
      rw [isNormal_literal_iff, opensWild_iff, ih]
      simp only [List.mem_cons, literal.injEq, List.infix_cons_iff, List.cons_prefix_cons, not_or,
        not_and, forall_and]
      constructor
      · rintro ⟨htext, hopens, hnonempty, hapart⟩
        exact ⟨⟨Ne.symm htext, hnonempty⟩, fun first second _ => hopens second, hapart⟩
      · rintro ⟨⟨htext, hnonempty⟩, hopens, hapart⟩
        exact ⟨Ne.symm htext, fun first => hopens text first rfl, hnonempty, hapart⟩
    | anyText => simp [isNormal_wild_iff anyText rfl, ih, List.infix_cons_iff]
    | anyChar => simp [isNormal_wild_iff anyChar rfl, ih, List.infix_cons_iff]

theorem isNormal_consLiteral {chars : List Char} (hopens : OpensWild pieces)
    (hnormal : IsNormal pieces) : IsNormal (consLiteral chars pieces) := by
  unfold consLiteral
  split
  · exact hnormal
  · next hchars =>
    refine isNormal_literal_iff.mpr ⟨?_, hopens, hnormal⟩
    simpa [String.ofList_eq_empty_iff] using hchars

/-- A literal is put in front of other pieces only where these start with a wildcard or there are
none, so that scanning keeps the normal form. -/
theorem isNormal_scan (pending written : List Char) : IsNormal (scan pending written) := by
  fun_induction scan pending written with
  | case1 pending => exact isNormal_consLiteral (by simp [OpensWild]) trivial
  | case2 pending c written hspecial ih => exact ih
  | case3 pending c written hplain ih => exact ih
  | case4 pending written ih =>
    exact isNormal_consLiteral (by simp [OpensWild, isWild]) ((isNormal_wild_iff _ rfl).mpr ih)
  | case5 pending written ih =>
    exact isNormal_consLiteral (by simp [OpensWild, isWild]) ((isNormal_wild_iff _ rfl).mpr ih)
  | case6 pending c written hescape hstar hquestion ih => exact ih

/-! ## Reading what was spelled -/

/-- An escaped character is read as itself, whatever comes after it. -/
theorem scan_escapeChar (pending : List Char) (c : Char) (rest : List Char) :
    scan pending (escapeChar c ++ rest) = scan (c :: pending) rest := by
  unfold escapeChar
  split
  · next hspecial => simp [scan, hspecial]
  · next hplain =>
    obtain ⟨⟨hstar, hquestion⟩, hbackslash⟩ : (c ≠ '*' ∧ c ≠ '?') ∧ c ≠ '\\' := by
      simpa [isSpecial] using hplain
    -- The last equation of the scanner asks that none of the earlier ones applies.
    rw [List.singleton_append, scan]
    · exact fun _ _ hc _ => hbackslash hc
    · exact hstar
    · exact hquestion

theorem scan_flatMap_escapeChar (pending chars rest : List Char) :
    scan pending (chars.flatMap escapeChar ++ rest) = scan (chars.reverse ++ pending) rest := by
  induction chars generalizing pending with
  | nil => rfl
  | cons c chars ih =>
    rw [List.flatMap_cons, List.append_assoc, scan_escapeChar, ih, List.reverse_cons,
      List.append_assoc, List.singleton_append]

/-- Pending characters end where the spelling of a wildcard begins. -/
theorem scan_spelling_of_opensWild (pending : List Char) (hopens : OpensWild pieces) :
    scan pending (pieces.flatMap spelling) =
      consLiteral pending.reverse (scan [] (pieces.flatMap spelling)) := by
  cases pieces with
  | nil => rfl
  | cons piece pieces =>
    cases piece with
    | literal text => cases hopens _ rfl
    | anyText => rfl
    | anyChar => rfl

/-- Pieces in normal form are read back from their spelling. -/
theorem scan_spelling (hnormal : IsNormal pieces) : scan [] (pieces.flatMap spelling) = pieces := by
  induction pieces with
  | nil => rfl
  | cons piece pieces ih =>
    cases piece with
    | literal text =>
      obtain ⟨hnonempty, hopens, hrest⟩ := isNormal_literal_iff.mp hnormal
      calc
        scan [] ((literal text :: pieces).flatMap spelling) =
            scan text.toList.reverse (pieces.flatMap spelling) := by
          rw [List.flatMap_cons, spelling, scan_flatMap_escapeChar, List.append_nil]
        _ = consLiteral text.toList pieces := by
          rw [scan_spelling_of_opensWild _ hopens, List.reverse_reverse, ih hrest]
        _ = literal text :: pieces := by
          simp [consLiteral, hnonempty]
    | anyText => exact congrArg (anyText :: ·) (ih hnormal)
    | anyChar => exact congrArg (anyChar :: ·) (ih hnormal)

end Piece

namespace Pattern

variable {pieces : List Piece} {written text : List Char}

/-! ## The meaning of what was spelled -/

theorem writtenMatches_escapeChar_iff (c : Char) :
    WrittenMatches (Piece.escapeChar c ++ written) text ↔
      ∃ rest, text = c :: rest ∧ WrittenMatches written rest := by
  unfold Piece.escapeChar
  split
  · next hspecial => exact writtenMatches_escaped_iff (isSpecial_iff.mp hspecial)
  · next hplain =>
    have hmeaning : c ∉ ['*', '?', '\\'] := mt isSpecial_iff.mpr hplain
    refine writtenMatches_itself_iff ?_ ?_ ?_ <;> rintro rfl <;> simp at hmeaning

theorem writtenMatches_flatMap_escapeChar_iff (chars : List Char) :
    WrittenMatches (chars.flatMap Piece.escapeChar ++ written) text ↔
      ∃ rest, text = chars ++ rest ∧ WrittenMatches written rest := by
  induction chars generalizing text with
  | nil => simp
  | cons c chars ih =>
    rw [List.flatMap_cons, List.append_assoc, writtenMatches_escapeChar_iff]
    constructor
    · rintro ⟨later, rfl, hlater⟩
      obtain ⟨rest, rfl, hrest⟩ := ih.mp hlater
      exact ⟨rest, rfl, hrest⟩
    · rintro ⟨rest, rfl, hrest⟩
      exact ⟨chars ++ rest, rfl, ih.mpr ⟨rest, rfl, hrest⟩⟩

/-- The text that spells some pieces, in normal form or not, matches by its characters what the
pieces match. -/
theorem writtenMatches_spelling_iff :
    WrittenMatches (pieces.flatMap Piece.spelling) text ↔ Piece.Matches pieces text := by
  induction pieces generalizing text with
  | nil => rw [List.flatMap_nil, writtenMatches_nil_iff, Piece.matches_nil_iff]
  | cons piece pieces ih =>
    rw [List.flatMap_cons]
    cases piece with
    | literal run =>
      rw [Piece.spelling, writtenMatches_flatMap_escapeChar_iff, Piece.matches_literal_iff]
      simp only [ih]
    | anyText =>
      rw [Piece.spelling, List.singleton_append, writtenMatches_star_iff,
        Piece.matches_anyText_iff]
      simp only [ih]
    | anyChar =>
      rw [Piece.spelling, List.singleton_append, writtenMatches_question_iff,
        Piece.matches_anyChar_iff]
      simp only [ih]

/-! ## What values can say -/

theorem isNormal_ofText (value : String) : Piece.IsNormal (ofText value).pieces :=
  Piece.isNormal_scan [] value.toList

theorem ofText_spell (hnormal : Piece.IsNormal pieces) :
    (ofText (spell pieces)).pieces = pieces := by
  rw [ofText, spell, String.toList_ofList, Piece.scan_spelling hnormal]

/-- A value is read as pieces in normal form.  Pieces are read back from the text that spells them
if and only if they are in normal form, so these are the pieces that values can say, and a value
that is spelled anew is read as before.  The text that spells pieces also matches what they match
when it is read character by character. -/
theorem pieces_read_back (value : String) (pieces : List Piece) :
    (.literal "" ∉ (ofText value).pieces ∧
        ∀ first second, ¬[.literal first, .literal second] <:+: (ofText value).pieces) ∧
      ((ofText (spell pieces)).pieces = pieces ↔ Piece.IsNormal pieces) ∧
      ((∃ written, (ofText written).pieces = pieces) ↔ Piece.IsNormal pieces) ∧
      (ofText (spell (ofText value).pieces)).pieces = (ofText value).pieces ∧
      ∀ text, WrittenMatches (spell pieces).toList text ↔ Piece.Matches pieces text := by
  have hsaid : (∃ written, (ofText written).pieces = pieces) → Piece.IsNormal pieces := by
    rintro ⟨written, rfl⟩
    exact isNormal_ofText written
  refine ⟨Piece.isNormal_iff.mp (isNormal_ofText value), ⟨fun h => hsaid ⟨_, h⟩, ofText_spell⟩,
    ⟨hsaid, fun h => ⟨_, ofText_spell h⟩⟩, ofText_spell (isNormal_ofText value), fun text => ?_⟩
  rw [spell, String.toList_ofList, writtenMatches_spelling_iff]

/-- A backslash before a backslash or a wildcard is an escape, and before anything else itself. -/
example : (ofText "C:\\Windows\\\\*\\cmd\\?.exe\\").pieces =
    [.literal "C:\\Windows\\", .anyText, .literal "\\cmd?.exe\\"] := by
  decide

end Pattern

end SigmaCatalog
