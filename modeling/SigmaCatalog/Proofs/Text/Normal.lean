import Mathlib.Data.List.DropRight
import SigmaCatalog.Text.Blank
import SigmaCatalog.Text.Case

/-!
# Trimmed texts in lower case

The lower case of a character is blank exactly when the character is, so a text that was trimmed and
taken in lower case stays as it is when both are done again.
-/

namespace SigmaCatalog.Text

/-! ## Characters -/

/-- A character has the code point of its lower case, or is one of the letters `A` to `Z`. -/
theorem toLower_cases (c : Char) :
    c.toLower = c ∨ (65 ≤ c.toNat ∧ c.toNat ≤ 90 ∧ c.toLower.toNat = c.toNat + 32) := by
  unfold Char.toLower
  split
  · next h =>
    obtain ⟨hfirst, hlast⟩ := h
    have hfirst : 65 ≤ c.toNat := hfirst
    have hlast : c.toNat ≤ 90 := hlast
    refine .inr ⟨hfirst, hlast, ?_⟩
    change (c.val + 32).toNat = c.val.toNat + 32
    rw [UInt32.toNat_add]
    exact Nat.mod_eq_of_lt (by change c.toNat + 32 < _; omega)
  · exact .inl rfl

theorem isBlank_toLower (c : Char) : isBlank c.toLower = isBlank c := by
  rcases toLower_cases c with h | ⟨hfirst, hlast, h⟩
  · rw [h]
  · have hnot : ∀ other : Char, 65 ≤ other.toNat → other.toNat ≤ 122 → isBlank other = false := by
      intro other hge hle
      simp only [isBlank, Bool.or_eq_false_iff, Bool.and_eq_false_iff, decide_eq_false_iff_not,
        beq_eq_false_iff_ne]
      omega
    rw [hnot c hfirst (by omega), hnot c.toLower (by omega) (by omega)]

theorem toLower_toLower (c : Char) : c.toLower.toLower = c.toLower := by
  rcases toLower_cases c.toLower with h | ⟨hfirst, hlast, -⟩
  · exact h
  · rcases toLower_cases c with h | ⟨hletter, -, h⟩
    · rw [h, h]
    · omega

/-! ## Texts -/

/-- What is left of a text after trimming needs no more trimming. -/
theorem trimChars_trimChars (text : List Char) : trimChars (trimChars text) = trimChars text := by
  have htrim (chars : List Char) :
      trimChars chars = (chars.dropWhile isBlank).rdropWhile isBlank := rfl
  have hstart : (trimChars text).dropWhile isBlank = trimChars text := by
    rw [List.dropWhile_eq_self_iff]
    intro hpos
    have hinitial : trimChars text <+: text.dropWhile isBlank := List.rdropWhile_prefix _ _
    rw [hinitial.getElem hpos]
    exact List.dropWhile_get_zero_not isBlank text _
  rw [htrim (trimChars text), hstart, htrim text, List.rdropWhile_idempotent]

/-- Trimming goes well with what leaves blank characters blank and no others. -/
theorem trimChars_map {f : Char → Char} (h : ∀ c, isBlank (f c) = isBlank c) (text : List Char) :
    trimChars (text.map f) = (trimChars text).map f := by
  have hblank : isBlank ∘ f = isBlank := funext h
  simp only [trimChars, trimStart, List.dropWhile_map, hblank, ← List.map_reverse]

/-- Trimming and taking the lower case, done twice, are done once. -/
theorem lowerAscii_trim_twice (text : String) :
    lowerAscii (trim (lowerAscii (trim text))) = lowerAscii (trim text) := by
  simp only [lowerAscii, trim, String.toList_ofList, trimChars_map isBlank_toLower,
    trimChars_trimChars, List.map_map]
  congr 1
  exact List.map_congr_left fun c _ => toLower_toLower c

end SigmaCatalog.Text
