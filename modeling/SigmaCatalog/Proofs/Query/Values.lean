import SigmaCatalog.Proofs.Rule.Matching
import SigmaCatalog.Query.Conversion
import SigmaCatalog.Query.TermReader

/-!
# String values in a query

The text of a leaf is cut again at its first colon without a backslash, and the parts lose the
backslashes that they were written with.  So the field is the one that was meant, and a value with
or without an open end matches in the query what it matches in the rule.
-/

namespace SigmaCatalog.Query

/-! ## Bare texts -/

theorem termChar_cases (c : Char) :
    termChar c = ['\\', c] ∨
      termChar c = [c] ∧ c ≠ '\\' ∧ c ≠ ':' ∧ c ≠ '"' ∧ c ≠ '*' ∧ c ≠ '?' := by
  unfold termChar
  split
  · exact .inl rfl
  · next h =>
    refine .inr ⟨rfl, ?_, ?_, ?_, ?_, ?_⟩ <;>
    · rintro rfl
      exact h (by decide)

/-- A field name is found again before the colon. -/
theorem splitField?_termText (name term : List Char) :
    splitField? (name.flatMap termChar ++ ':' :: term) = some (name.flatMap termChar, term) := by
  induction name with
  | nil => simp [splitField?]
  | cons c name ih =>
    obtain hescaped | ⟨hplain, hbackslash, hcolon, -⟩ := termChar_cases c
    · simp [hescaped, splitField?, ih]
    · simp [hplain, splitField?, hbackslash, ih]

theorem unescaped?_termText (text : List Char) :
    unescaped? (text.flatMap termChar) = some text := by
  induction text with
  | nil => rfl
  | cons c text ih =>
    obtain hescaped | ⟨hplain, hbackslash, -⟩ := termChar_cases c
    · simp [hescaped, unescaped?, ih]
    · simp [hplain, unescaped?, hbackslash, ih]

theorem barePieces?_termText (text pending rest : List Char) :
    barePieces? pending (text.flatMap termChar ++ rest) =
      barePieces? (text.reverse ++ pending) rest := by
  induction text generalizing pending with
  | nil => rfl
  | cons c text ih =>
    obtain hescaped | ⟨hplain, hbackslash, -, -, hstar, hquestion⟩ := termChar_cases c
    · simp [hescaped, barePieces?, ih]
    · simp [hplain, barePieces?, hbackslash, ih]

def bareChars (pieces : List Piece) : List Char :=
  pieces.flatMap fun piece => (pieceText piece).toList

theorem bareChars_literal (text : String) (pieces : List Piece) :
    bareChars (.literal text :: pieces) = text.toList.flatMap termChar ++ bareChars pieces := by
  simp [bareChars, pieceText, termText]

/-- A bare term is read as pieces that match the same texts. -/
theorem exists_barePieces? (pieces : List Piece) (pending : List Char) :
    ∃ read, barePieces? pending (bareChars pieces) = some read ∧
      ∀ text, Piece.Matches read text ↔
        ∃ rest, text = pending.reverse ++ rest ∧ Piece.Matches pieces rest := by
  induction pieces generalizing pending with
  | nil =>
    refine ⟨Piece.consLiteral pending.reverse [], rfl, fun text => ?_⟩
    rw [Piece.matches_consLiteral_iff]
  | cons piece pieces ih =>
    cases piece with
    | literal literal =>
      rw [bareChars_literal, barePieces?_termText]
      obtain ⟨read, hread, hmatches⟩ := ih (literal.toList.reverse ++ pending)
      refine ⟨read, hread, fun text => ?_⟩
      rw [hmatches, Pattern.exists_pending_append_iff]
      simp only [Piece.matches_literal_iff]
    | anyText =>
      obtain ⟨read, hread, hmatches⟩ := ih []
      refine ⟨Piece.consLiteral pending.reverse (.anyText :: read), ?_, fun text => ?_⟩
      · change (barePieces? [] (bareChars pieces)).map _ = _
        rw [hread, Option.map_some]
      · simp [Piece.matches_consLiteral_iff, Piece.matches_anyText_iff, hmatches]
    | anyChar =>
      obtain ⟨read, hread, hmatches⟩ := ih []
      refine ⟨Piece.consLiteral pending.reverse (.anyChar :: read), ?_, fun text => ?_⟩
      · change (barePieces? [] (bareChars pieces)).map _ = _
        rw [hread, Option.map_some]
      · simp [Piece.matches_consLiteral_iff, Piece.matches_anyChar_iff, hmatches]

theorem head?_pieceText_ne_quote (piece : Piece) {rest : List Char}
    (hrest : rest.head? ≠ some '"') : ((pieceText piece).toList ++ rest).head? ≠ some '"' := by
  cases piece with
  | anyText => simp [pieceText]
  | anyChar => simp [pieceText]
  | literal text =>
    rw [pieceText, termText, String.toList_ofList]
    cases text.toList with
    | nil => simpa using hrest
    | cons c text =>
      obtain hescaped | ⟨hplain, -, -, hquote, -⟩ := termChar_cases c
      · simp [hescaped]
      · simp [hplain, hquote]

/-- A bare term never looks like a phrase. -/
theorem head?_bareChars_ne_quote (pieces : List Piece) : (bareChars pieces).head? ≠ some '"' := by
  induction pieces with
  | nil => simp [bareChars]
  | cons piece pieces ih => exact head?_pieceText_ne_quote piece ih

theorem termPieces?_of_head? {term : List Char} (h : term.head? ≠ some '"') :
    termPieces? term = barePieces? [] term := by
  unfold termPieces?
  split
  · exact absurd rfl h
  · rfl

/-! ## Phrases -/

theorem phraseChar_cases (c : Char) :
    phraseChar c = ['\\', c] ∨ phraseChar c = [c] ∧ c ≠ '\\' ∧ c ≠ '"' := by
  unfold phraseChar
  split
  · exact .inl rfl
  · next h =>
    refine .inr ⟨rfl, ?_, ?_⟩ <;>
    · rintro rfl
      exact h (by decide)

theorem phraseEnd?_phraseChars (text : List Char) :
    phraseEnd? (text.flatMap phraseChar ++ ['"']) = some text := by
  induction text with
  | nil => simp [phraseEnd?]
  | cons c text ih =>
    obtain hescaped | ⟨hplain, hbackslash, hquote⟩ := phraseChar_cases c
    · simp [hescaped, phraseEnd?, ih]
    · simp [hplain, phraseEnd?, hbackslash, ih]

theorem termPieces?_phraseText (text : String) :
    termPieces? (phraseText text).toList = some (Piece.consLiteral text.toList []) := by
  have htext : (phraseText text).toList = '"' :: (text.toList.flatMap phraseChar ++ ['"']) := by
    simp [phraseText]
  rw [htext, termPieces?, phraseEnd?_phraseChars, Option.map_some]

/-- Pieces without a wildcard match their joined text alone. -/
theorem matches_iff_of_literals {pieces : List Piece} (h : pieces.any Piece.isWild = false)
    (text : List Char) :
    Piece.Matches pieces text ↔ text = (String.join (pieces.map literalText)).toList := by
  induction pieces generalizing text with
  | nil => simp
  | cons piece pieces ih =>
    rw [List.any_cons, Bool.or_eq_false_iff] at h
    cases piece with
    | literal literal => simp [Piece.matches_literal_iff, ih h.2, literalText]
    | anyText => cases h.1
    | anyChar => cases h.1

/-! ## Terms and leaves -/

/-- A term with wildcards or without is read as pieces that match the same texts. -/
theorem exists_termPieces? (pieces : List Piece) :
    ∃ read, termPieces? (piecesText pieces).toList = some read ∧
      ∀ text, Piece.Matches read text ↔ Piece.Matches pieces text := by
  unfold piecesText
  split
  · have hchars : (String.join (pieces.map pieceText)).toList = bareChars pieces := by
      rw [String.toList_join, List.flatMap_map, bareChars]
    rw [hchars, termPieces?_of_head? (head?_bareChars_ne_quote pieces)]
    obtain ⟨read, hread, hmatches⟩ := exists_barePieces? pieces []
    refine ⟨read, hread, fun text => ?_⟩
    simp [hmatches]
  · next hliterals =>
    refine ⟨_, termPieces?_phraseText _, fun text => ?_⟩
    rw [Piece.matches_consLiteral_iff, matches_iff_of_literals (by simpa using hliterals)]
    simp

theorem readLeaf?_field (name : String) (term : Term) {read : List Piece}
    (h : termPieces? term.text.toList = some read) :
    readLeaf? (Leaf.field name term).text = some (name, read) := by
  have htext : (Leaf.field name term).text.toList =
      name.toList.flatMap termChar ++ ':' :: term.text.toList := by
    simp [Leaf.text, termText]
  simp [readLeaf?, htext, splitField?_termText, unescaped?_termText, h]

/-! ## Values -/

/-- Where in a text a value must stand. -/
inductive Placement where
  | whole
  | within
  | atStart
  | atEnd
  deriving DecidableEq, Repr

namespace Placement

/-- The modifiers that ask for a placement. -/
def modifiers : Placement → List Modifier
  | whole => []
  | within => [.contains]
  | atStart => [.startsWith]
  | atEnd => [.endsWith]

/-- Whether a value, as it is written, matches a text in a placement. -/
def Fits (written text : List Char) : Placement → Prop
  | whole => Pattern.WrittenMatches written text
  | within => ∃ before part after, text = before ++ part ++ after ∧
    Pattern.WrittenMatches written part
  | atStart => ∃ part after, text = part ++ after ∧ Pattern.WrittenMatches written part
  | atEnd => ∃ before part, text = before ++ part ∧ Pattern.WrittenMatches written part

/-- The pieces of a value with any text before it or after it, as a placement allows. -/
def opened (pieces : List Piece) : Placement → List Piece
  | whole => pieces
  | within => .anyText :: (pieces ++ [.anyText])
  | atStart => pieces ++ [.anyText]
  | atEnd => .anyText :: pieces

end Placement

section Values

variable {placement : Placement} {item : DetectionItem}

theorem has_of_placement (h : item.modifiers.filter (· ≠ .all) = placement.modifiers)
    (modifier : Modifier) (hall : modifier ≠ .all) :
    item.has modifier = decide (modifier ∈ placement.modifiers) := by
  rw [← h, Bool.eq_iff_iff]
  simp [DetectionItem.has, hall]

theorem openEnds_of_placement
    (h : item.modifiers.filter (· ≠ .all) = placement.modifiers) (pieces : List Piece) :
    openEnds item pieces = placement.opened pieces := by
  have hcontains := has_of_placement h .contains (by decide)
  have hstarts := has_of_placement h .startsWith (by decide)
  have hends := has_of_placement h .endsWith (by decide)
  rw [openEnds, hcontains, hstarts, hends]
  cases placement <;> simp [Placement.modifiers, Placement.opened]

/-- The pieces of a value with its open ends match what the value matches in its placement. -/
theorem matches_opened_iff (placement : Placement) (value : String) (text : List Char) :
    Piece.Matches (placement.opened (Pattern.ofText value).pieces) text ↔
      placement.Fits value.toList text := by
  have hvalue (part : List Char) : Piece.Matches (Pattern.ofText value).pieces part ↔
      Pattern.WrittenMatches value.toList part := Pattern.ofText_matches_iff value part
  have hback (part : List Char) :
      Piece.Matches ((Pattern.ofText value).pieces ++ [.anyText]) part ↔
        ∃ front after, part = front ++ after ∧ Pattern.WrittenMatches value.toList front := by
    simp [Piece.matches_append_iff, Piece.matches_anyText_iff, hvalue]
  cases placement with
  | whole => exact hvalue text
  | within =>
    rw [Placement.opened, Placement.Fits, Piece.matches_anyText_iff]
    simp only [hback]
    constructor
    · rintro ⟨before, -, rfl, part, after, rfl, h⟩
      exact ⟨before, part, after, (List.append_assoc _ _ _).symm, h⟩
    · rintro ⟨before, part, after, rfl, h⟩
      exact ⟨before, part ++ after, List.append_assoc _ _ _, part, after, rfl, h⟩
  | atStart => exact hback text
  | atEnd =>
    rw [Placement.opened, Placement.Fits, Piece.matches_anyText_iff]
    simp only [hvalue]

/-- What a query says of a string value is read back as the field that was meant and as pieces that
match just what the value matches as it is written: the whole text, or a part of it, its start or
its end, as the modifiers of the item ask. -/
theorem value_read_back (placement : Placement) (name value : String) (item : DetectionItem)
    (hmodifiers : item.modifiers.filter (· ≠ .all) = placement.modifiers) :
    ∃ read,
      readLeaf? ((valueClause name item (.pattern (.ofText value))).text Leaf.text) =
        some (name, read) ∧
      ∀ text, Piece.Matches read text ↔ placement.Fits value.toList text := by
  have hhas (modifier : Modifier) (hall : modifier ≠ .all)
      (hnot : modifier ∉ placement.modifiers) : item.has modifier = false := by
    rw [has_of_placement hmodifiers modifier hall, decide_eq_false hnot]
  have hexists := hhas .exists (by decide) (by cases placement <;> decide)
  have hregex := hhas .regex (by decide) (by cases placement <;> decide)
  have hcidr := hhas .cidr (by decide) (by cases placement <;> decide)
  have hclause : valueClause name item (.pattern (.ofText value)) =
      .leaf (.field name (.pieces (placement.opened (Pattern.ofText value).pieces))) := by
    simp [valueClause, patternTerm, hexists, hregex, hcidr, openEnds_of_placement hmodifiers]
  obtain ⟨read, hread, hmatches⟩ :=
    exists_termPieces? (placement.opened (Pattern.ofText value).pieces)
  refine ⟨read, ?_, fun text => (hmatches text).trans (matches_opened_iff placement value text)⟩
  rw [hclause]
  exact readLeaf?_field name (.pieces _) hread

/-- An item that asks for the start of the field `a:b` in all of its values. -/
def openingItem : DetectionItem :=
  { field := "a:b", modifiers := [.startsWith, .all], values := [.pattern (.ofText "c:\\* \"?")] }

theorem value_read_back_openingItem :
    (valueClause "a:b" openingItem (.pattern (.ofText "c:\\* \"?"))).text Leaf.text =
        "a\\:b:c\\:\\*\\ \\\"?*" ∧
      openingItem.modifiers.filter (· ≠ .all) = Placement.atStart.modifiers ∧
      ∃ read, readLeaf? "a\\:b:c\\:\\*\\ \\\"?*" = some ("a:b", read) ∧
        ∀ text, Piece.Matches read text ↔ Placement.atStart.Fits "c:\\* \"?".toList text := by
  have htext : (valueClause "a:b" openingItem (.pattern (.ofText "c:\\* \"?"))).text Leaf.text =
      "a\\:b:c\\:\\*\\ \\\"?*" := by decide +kernel
  have hmodifiers :
      openingItem.modifiers.filter (· ≠ .all) = Placement.atStart.modifiers := by decide
  refine ⟨htext, hmodifiers, ?_⟩
  rw [← htext]
  exact value_read_back .atStart "a:b" "c:\\* \"?" openingItem hmodifiers

end Values

end SigmaCatalog.Query
