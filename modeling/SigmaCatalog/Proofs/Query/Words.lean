import SigmaCatalog.Proofs.Query.Shape
import SigmaCatalog.Query.Reader

/-!
# Leaves are words

However a leaf came about, the reader of query strings takes its text for one word: no blank, quote
or parenthesis of a field name or a value reaches the reader with a meaning of its own, and a leaf
is never one of the operators, since it has a colon, a quote or a wildcard in it.

Regular expressions are left out, because nothing between their slashes is escaped but slashes.
-/

namespace SigmaCatalog.Query

namespace Symbol

/-- Whether the reader goes through some characters from one mode to another and takes all of them
for characters of the word it is in. -/
def Passes (before : Mode) (chars : List Char) (after : Mode) : Prop :=
  ∀ pending rest, scan before pending (chars ++ rest) = scan after (chars.reverse ++ pending) rest

namespace Passes

variable {before between after mode : Mode} {chars later : List Char}

theorem nil : Passes mode [] mode := by
  intro pending rest
  rfl

theorem append (hfirst : Passes before chars between) (hlast : Passes between later after) :
    Passes before (chars ++ later) after := by
  intro pending rest
  rw [List.append_assoc, hfirst, hlast, List.reverse_append, List.append_assoc]

theorem flatMap {f : Char → List Char} (h : ∀ c, Passes mode (f c) mode) (chars : List Char) :
    Passes mode (chars.flatMap f) mode := by
  induction chars with
  | nil => exact nil
  | cons c chars ih => exact (h c).append ih

/-- A character after a backslash loses its meaning. -/
theorem escaped (c : Char) : Passes .bare ['\\', c] .bare := by
  intro pending rest
  simp [scan]

theorem escaped_in_quotes (c : Char) : Passes .quoted ['\\', c] .quoted := by
  intro pending rest
  simp [scan]

/-- A character that is not reserved has no meaning outside quotes. -/
theorem plain {c : Char} (h : isReserved c = false) : Passes .bare [c] .bare := by
  intro pending rest
  simp only [isReserved, reservedChars, Bool.or_eq_false_iff] at h
  have hbackslash : c ≠ '\\' := by rintro rfl; simp at h
  have hquote : c ≠ '"' := by rintro rfl; simp at h
  have hopen : c ≠ '(' := by rintro rfl; simp at h
  have hclose : c ≠ ')' := by rintro rfl; simp at h
  simp [scan, hbackslash, hquote, hopen, hclose, h.2]

theorem termChar (c : Char) : Passes .bare (termChar c) .bare := by
  unfold Query.termChar
  split
  · exact escaped c
  · next h => exact plain (by simpa using h)

theorem phraseChar (c : Char) : Passes .quoted (phraseChar c) .quoted := by
  unfold Query.phraseChar
  split
  · exact escaped_in_quotes c
  · next h =>
    have hquote : c ≠ '"' := by rintro rfl; simp at h
    have hbackslash : c ≠ '\\' := by rintro rfl; simp at h
    exact fun pending rest => by simp [scan, hquote, hbackslash]

theorem termText (text : String) : Passes .bare (termText text).toList .bare := by
  rw [Query.termText, String.toList_ofList]
  exact flatMap termChar text.toList

theorem phraseText (text : String) : Passes .bare (phraseText text).toList .bare := by
  have htext : (Query.phraseText text).toList =
      ['"'] ++ text.toList.flatMap Query.phraseChar ++ ['"'] := by
    simp [Query.phraseText]
  have hopen : Passes .bare ['"'] .quoted := fun pending rest => by simp [scan]
  have hclose : Passes .quoted ['"'] .bare := fun pending rest => by simp [scan]
  rw [htext]
  exact (hopen.append (flatMap phraseChar text.toList)).append hclose

end Passes

/-- A text that the reader takes for one word. -/
structure IsWord (text : String) : Prop where
  passes : Passes .bare text.toList .bare
  spelled : spelled text.toList = .word text
  nonempty : text.toList ≠ []

/-- The characters that keep a word from being an operator. -/
def marks : List Char :=
  [':', '"', '*', '?']

theorem isWord_of_mark {text : String} {c : Char} (hpasses : Passes .bare text.toList .bare)
    (hc : c ∈ text.toList) (hmark : c ∈ marks) : IsWord text := by
  have hne : ∀ word : List Char, c ∉ word → text.toList ≠ word := by
    rintro word hword rfl
    exact hword hc
  have hmarks : ∀ mark ∈ marks,
      mark ∉ ['A', 'N', 'D'] ∧ mark ∉ ['O', 'R'] ∧ mark ∉ ['N', 'O', 'T'] := by
    simp [marks]
  obtain ⟨hand, hor, hnot⟩ := hmarks c hmark
  refine ⟨hpasses, ?_, hne [] List.not_mem_nil⟩
  rw [Symbol.spelled, if_neg (hne _ hand), if_neg (hne _ hor), if_neg (hne _ hnot),
    String.ofList_toList]

end Symbol

open SigmaCatalog.Query.Symbol

/-! ## The texts of terms -/

namespace Term

/-- Whether a term is written as text: with wildcards or between quotes. -/
def isText : Term → Bool
  | pieces _ => true
  | phrase _ => true
  | _ => false

def isRegex : Term → Bool
  | regex _ => true
  | _ => false

end Term

theorem passes_pieceText (piece : Piece) : Passes .bare (pieceText piece).toList .bare := by
  cases piece with
  | literal text => exact Passes.termText text
  | anyText => exact fun pending rest => by simp [pieceText, scan, Text.isBlank]
  | anyChar => exact fun pending rest => by simp [pieceText, scan, Text.isBlank]

theorem passes_join (texts : List String) (h : ∀ text ∈ texts, Passes .bare text.toList .bare) :
    Passes .bare (String.join texts).toList .bare := by
  induction texts with
  | nil => exact Passes.nil
  | cons text texts ih =>
    rw [String.join_cons, String.toList_append]
    exact (h text List.mem_cons_self).append
      (ih fun other hother => h other (List.mem_cons_of_mem _ hother))

theorem passes_piecesText (pieces : List Piece) :
    Passes .bare (piecesText pieces).toList .bare := by
  unfold piecesText
  split
  · exact passes_join _ (List.forall_mem_map.mpr fun piece _ => passes_pieceText piece)
  · exact Passes.phraseText _

theorem passes_sign (comparison : Comparison) :
    Passes .bare comparison.sign.toList .bare := by
  cases comparison with
  | _ => exact fun pending rest => by simp [Comparison.sign, scan, Text.isBlank]

theorem passes_truthText (value : Bool) : Passes .bare (truthText value).toList .bare := by
  cases value with
  | _ => exact fun pending rest => by simp [truthText, scan, Text.isBlank]

theorem passes_term {term : Term} (h : term.isRegex = false) :
    Passes .bare term.text.toList .bare := by
  cases term with
  | pieces parts => exact passes_piecesText parts
  | phrase text => exact Passes.phraseText text
  | regex text => cases h
  | number comparison text =>
    rw [Term.text, String.toList_append]
    exact (passes_sign comparison).append (Passes.termText text)
  | truth value => exact passes_truthText value

theorem quote_mem_phraseText (text : String) : '"' ∈ (phraseText text).toList := by
  simp [phraseText]

theorem mark_mem_piecesText (pieces : List Piece) :
    ∃ c ∈ (piecesText pieces).toList, c ∈ marks := by
  unfold piecesText
  split
  · next hwild =>
    obtain ⟨piece, hpiece, hpiecewild⟩ := List.any_eq_true.mp hwild
    have hjoin : ∀ c ∈ (pieceText piece).toList,
        c ∈ (String.join (pieces.map pieceText)).toList := by
      intro c hc
      rw [String.toList_join]
      exact List.mem_flatMap.mpr ⟨_, List.mem_map_of_mem hpiece, hc⟩
    cases piece with
    | literal text => cases hpiecewild
    | anyText => exact ⟨'*', hjoin '*' (by decide), by decide⟩
    | anyChar => exact ⟨'?', hjoin '?' (by decide), by decide⟩
  · exact ⟨'"', quote_mem_phraseText _, by decide⟩

/-! ## The texts of leaves -/

/-- Whether a leaf has no regular expression, and a text to find anywhere. -/
def Leaf.IsPlain : Leaf → Prop
  | .exists _ => True
  | .field _ term => term.isRegex = false
  | .anywhere term => term.isText = true

/-- A plain leaf is one word. -/
theorem Leaf.IsPlain.isWord {leaf : Leaf} (h : leaf.IsPlain) : IsWord leaf.text := by
  cases leaf with
  | «exists» name =>
    have hexists : Passes .bare "_exists_:".toList .bare :=
      fun pending rest => by simp [scan, Text.isBlank]
    refine isWord_of_mark (c := ':') ?_ (by simp [Leaf.text]) (by decide)
    rw [Leaf.text, String.toList_append]
    exact hexists.append (Passes.termText name)
  | field name term =>
    have hcolon : Passes .bare ":".toList .bare :=
      fun pending rest => by simp [scan, Text.isBlank]
    refine isWord_of_mark (c := ':') ?_ (by simp [Leaf.text]) (by decide)
    rw [Leaf.text, String.toList_append, String.toList_append]
    exact ((Passes.termText name).append hcolon).append (passes_term h)
  | anywhere term =>
    cases term with
    | pieces parts =>
      obtain ⟨c, hc, hmark⟩ := mark_mem_piecesText parts
      exact isWord_of_mark (passes_piecesText parts) hc hmark
    | phrase text =>
      exact isWord_of_mark (c := '"') (Passes.phraseText text) (quote_mem_phraseText text)
        (by decide)
    | regex text | number comparison text | truth value => cases h

end SigmaCatalog.Query
