import SigmaCatalog.Rule.Condition.Derivation

/-!
# The words of a condition

Every text is cut into tokens in one way, which is the way `Token.ofText` cuts it.
-/

namespace SigmaCatalog.Condition.Token

/-! ## Keywords -/

theorem spelled_of_keyword {word : List Char} {keyword : String} {token : Token}
    (hkeyword : (keyword, token) ∈ keywords) (h : word.map Char.toLower = keyword.toList) :
    spelled word = token := by
  rw [spelled, h, String.ofList_toList]
  simp only [keywords, List.mem_cons, Prod.mk.injEq, List.not_mem_nil, or_false] at hkeyword
  rcases hkeyword with h | h | h | h | h | h | h | h <;> obtain ⟨rfl, rfl⟩ := h <;> rfl

theorem spelled_of_not_keyword {word : List Char}
    (h : ∀ entry ∈ keywords, word.map Char.toLower ≠ entry.1.toList) :
    spelled word = .word (String.ofList word) := by
  have hne : ∀ entry ∈ keywords, String.ofList (word.map Char.toLower) ≠ entry.1 :=
    fun entry hentry heq => h entry hentry (heq ▸ String.toList_ofList.symm)
  simp only [keywords, List.forall_mem_cons] at hne
  obtain ⟨hand, hor, hnot, hof, hone, hany, hall, hthem, -⟩ := hne
  unfold spelled
  split <;> first | contradiction | rfl

theorem Spells.spelled_eq {word : List Char} {token : Token} (h : Spells word token) :
    spelled word = token := by
  cases h with
  | keyword hkeyword h => exact spelled_of_keyword hkeyword h
  | plain h => exact spelled_of_not_keyword h

theorem spells_spelled (word : List Char) : Spells word (spelled word) := by
  by_cases h : ∃ entry ∈ keywords, word.map Char.toLower = entry.1.toList
  · obtain ⟨⟨keyword, token⟩, hkeyword, h⟩ := h
    exact spelled_of_keyword hkeyword h ▸ .keyword hkeyword h
  · have hplain : ∀ entry ∈ keywords, word.map Char.toLower ≠ entry.1.toList :=
      fun entry hentry heq => h ⟨entry, hentry, heq⟩
    exact spelled_of_not_keyword hplain ▸ .plain hplain

/-! ## Words -/

theorem blank_or_paren {c : Char} (h : ¬ IsWordChar c) :
    Text.isBlank c = true ∨ c = '(' ∨ c = ')' := by
  cases hblank : Text.isBlank c with
  | true => exact .inl rfl
  | false =>
    refine .inr (Classical.or_iff_not_imp_left.mpr fun hopen => ?_)
    exact Classical.not_not.mp fun hclose => h ⟨hblank, hopen, hclose⟩

theorem ne_paren_of_blank {c : Char} (h : Text.isBlank c = true) : c ≠ '(' ∧ c ≠ ')' := by
  constructor <;> rintro rfl <;> exact absurd h (by decide)

theorem scan_word {word : List Char} (hword : ∀ c ∈ word, IsWordChar c)
    (pending rest : List Char) :
    scan pending (word ++ rest) = scan (word.reverse ++ pending) rest := by
  induction word generalizing pending with
  | nil => rfl
  | cons c word ih =>
    obtain ⟨⟨hblank, hopen, hclose⟩, hword⟩ := List.forall_mem_cons.mp hword
    rw [List.cons_append, scan, if_neg hopen, if_neg hclose, hblank, if_neg Bool.false_ne_true,
      ih hword, List.reverse_cons, List.append_assoc]
    rfl

/-- The pending word ends where no character of a word follows. -/
theorem scan_of_end {rest : List Char} (hend : ∀ c ∈ rest.head?, ¬ IsWordChar c)
    (pending : List Char) : scan pending rest = consWord pending (scan [] rest) := by
  cases rest with
  | nil => rfl
  | cons c rest =>
    rcases blank_or_paren (hend c rfl) with hblank | rfl | rfl
    · obtain ⟨hopen, hclose⟩ := ne_paren_of_blank hblank
      rw [scan, scan, if_neg hopen, if_neg hclose, if_pos hblank, if_neg hopen, if_neg hclose,
        if_pos hblank]
      rfl
    · rfl
    · rfl

theorem ofText_word {word rest : List Char} (hne : word ≠ [])
    (hword : ∀ c ∈ word, IsWordChar c) (hend : ∀ c ∈ rest.head?, ¬ IsWordChar c) :
    ofText (word ++ rest) = spelled word :: ofText rest := by
  have hpending : (word.reverse ++ []).isEmpty = false := by simp [hne]
  rw [ofText, scan_word hword, scan_of_end hend, consWord, hpending, if_neg Bool.false_ne_true,
    List.append_nil, List.reverse_reverse]
  rfl

theorem ofText_blank {c : Char} (h : Text.isBlank c = true) (rest : List Char) :
    ofText (c :: rest) = ofText rest := by
  obtain ⟨hopen, hclose⟩ := ne_paren_of_blank h
  rw [ofText, scan, if_neg hopen, if_neg hclose, if_pos h]
  rfl

/-! ## The cut of a text -/

theorem Lexed.ofText_eq {text : List Char} {tokens : List Token} (h : Lexed text tokens) :
    ofText text = tokens := by
  induction h with
  | nil => rfl
  | blank hblank _ ih => rw [ofText_blank hblank, ih]
  | openParen _ ih => exact congrArg (List.cons Token.openParen) ih
  | closeParen _ ih => exact congrArg (List.cons Token.closeParen) ih
  | word hne hword hend htoken _ ih => rw [ofText_word hne hword hend, htoken.spelled_eq, ih]

/-- A text begins with the longest word it can. -/
theorem exists_word (text : List Char) :
    ∃ word rest, text = word ++ rest ∧ (∀ c ∈ word, IsWordChar c) ∧
      ∀ c ∈ rest.head?, ¬ IsWordChar c := by
  induction text with
  | nil => exact ⟨[], [], rfl, nofun, nofun⟩
  | cons c text ih =>
    by_cases hc : IsWordChar c
    · obtain ⟨word, rest, htext, hword, hend⟩ := ih
      exact ⟨c :: word, rest, congrArg (List.cons c) htext, List.forall_mem_cons.mpr ⟨hc, hword⟩,
        hend⟩
    · exact ⟨[], c :: text, rfl, nofun, fun first hfirst => Option.some.inj hfirst ▸ hc⟩

theorem lexed_ofText (text : List Char) : Lexed text (ofText text) := by
  obtain ⟨word, rest, htext, hword, hend⟩ := exists_word text
  by_cases hne : word = []
  · cases text with
    | nil => exact .nil
    | cons c text =>
      obtain rfl : c :: text = rest := by rw [htext, hne, List.nil_append]
      have ih := lexed_ofText text
      rcases blank_or_paren (hend c rfl) with hblank | rfl | rfl
      · exact ofText_blank hblank text ▸ .blank hblank ih
      · exact .openParen ih
      · exact .closeParen ih
  · subst htext
    have hshorter : rest.length < (word ++ rest).length := by
      rw [List.length_append]
      exact Nat.lt_add_of_pos_left (List.length_pos_iff.mpr hne)
    exact ofText_word hne hword hend ▸
      .word hne hword hend (spells_spelled word) (lexed_ofText rest)
  termination_by text.length

theorem lexed_iff {text : List Char} {tokens : List Token} :
    Lexed text tokens ↔ tokens = ofText text := by
  constructor
  · intro h
    exact h.ofText_eq.symm
  · rintro rfl
    exact lexed_ofText text

end SigmaCatalog.Condition.Token
