import SigmaCatalog.Json.Parser
import SigmaCatalog.Json.Printer

/-!
# Scanning compact text

The compact text of a value is scanned as its tokens, one after another, whatever comes after it.
Strings are read back character by character.  A number is read back where its text is read as the
number itself; what comes after it must not look like more of it.
-/

namespace SigmaCatalog.Reading.Step

/-- What a step read and what it left. -/
def outcome {σ α : Type} {input : List σ} (step : Step input α) : α × List σ :=
  (step.value, step.rest)

end SigmaCatalog.Reading.Step

namespace SigmaCatalog.Json

open Reading (Step)

namespace Token

/-- Whether what comes after a number cannot be taken for more of it. -/
def Stops (rest : List Char) : Prop :=
  ∀ c ∈ rest.head?, isDigit c = false ∧ c ≠ '.' ∧ c ≠ 'e' ∧ c ≠ 'E'

/-- Whether a text is scanned as some tokens, whatever is left of the steps after it. -/
structure Scans (text : List Char) (tokens : List Token) (rest : List Char) : Prop where
  scanned : ∀ steps,
    scan (steps + tokens.length) (text ++ rest) = (tokens ++ ·) <$> scan steps rest
  size : tokens.length ≤ text.length

section Scanning

variable {text later rest : List Char} {tokens others : List Token}

theorem Scans.append (h : Scans text tokens (later ++ rest)) (hlater : Scans later others rest) :
    Scans (text ++ later) (tokens ++ others) rest where
  scanned steps := by
    rw [List.length_append, ← Nat.add_assoc, Nat.add_right_comm, List.append_assoc, h.scanned,
      hlater.scanned]
    cases scan steps rest with
    | none => rfl
    | some left => simp
  size := by
    rw [List.length_append, List.length_append]
    exact Nat.add_le_add h.size hlater.size

theorem Scans.cons {c : Char} {token : Token} (h : Scans text tokens rest)
    (hmark : Scans [c] [token] (text ++ rest)) : Scans (c :: text) (token :: tokens) rest :=
  hmark.append h

theorem scans_one {token : Token} (hsize : text ≠ [])
    (h : ∀ steps, scan (steps + 1) (text ++ rest) = (token :: ·) <$> scan steps rest) :
    Scans text [token] rest where
  scanned := h
  size := List.length_pos_iff.mpr hsize

/-- All tokens of a scanned text are found in as many steps as it has characters. -/
theorem Scans.ofText {text : String} (h : Scans text.toList tokens []) :
    ofText text = some tokens := by
  have hsteps : text.toList.length + 1 = text.toList.length + 1 - tokens.length + tokens.length :=
    (Nat.sub_add_cancel (Nat.le_succ_of_le h.size)).symm
  have hscanned := h.scanned (text.toList.length + 1 - tokens.length)
  rw [← hsteps, List.append_nil] at hscanned
  rw [Token.ofText, hscanned, scan]
  simp

end Scanning

/-! ## Strings -/

section Strings

variable {c : Char} (done rest : List Char)

theorem map_widen {input later : List Char} (step : Option (Step later String))
    (h : later.length ≤ input.length) :
    (step.map fun found => (found.widen h).outcome) = step.map Step.outcome := by
  cases step <;> rfl

theorem stringBody_plain (hquote : c ≠ '"') (hslash : c ≠ '\\') (h : 0x20 ≤ c.toNat) :
    (stringBody done (c :: rest)).map Step.outcome =
      (stringBody (c :: done) rest).map Step.outcome := by
  rw [stringBody]
  · rw [if_neg (Nat.not_lt.mpr h)]
    exact (Option.map_map _ _ _).trans (map_widen _ _)
  all_goals simp_all

theorem stringBody_short {letter : Char} (h : shortEscape? letter = some c) (hletter : letter ≠ 'u') :
    (stringBody done ('\\' :: letter :: rest)).map Step.outcome =
      (stringBody (c :: done) rest).map Step.outcome := by
  rw [stringBody]
  · rw [h]
    exact (Option.map_map _ _ _).trans (map_widen _ _)
  · exact fun _ _ _ _ _ heq => absurd heq hletter

theorem stringBody_unit {n : Nat} (h : n < 0x20) :
    (stringBody done
        ('\\' :: 'u' :: '0' :: '0' :: hexDigit (n / 16) :: hexDigit (n % 16) :: rest)).map
      Step.outcome = (stringBody (Char.ofNat n :: done) rest).map Step.outcome := by
  have hall : ∀ n < 0x20, hex4? '0' '0' (hexDigit (n / 16)) (hexDigit (n % 16)) = some n ∧
      isLowSurrogate n = false ∧ isHighSurrogate n = false := by decide
  obtain ⟨hhex, hlow, hhigh⟩ := hall n h
  rw [stringBody, hhex]
  simp only [hlow, hhigh, Bool.false_eq_true, if_false]
  exact (Option.map_map _ _ _).trans (map_widen _ _)

/-- A character is read back from its escaped form. -/
theorem stringBody_escapeChar (c : Char) :
    (stringBody done (escapeChar c ++ rest)).map Step.outcome =
      (stringBody (c :: done) rest).map Step.outcome := by
  have hchar : c = Char.ofNat c.toNat := (Char.ofNat_toNat c).symm
  generalize hescaped : escapeChar c = escaped
  rw [escapeChar] at hescaped
  split at hescaped
  case isTrue hquote =>
    subst hquote hescaped
    exact stringBody_short done rest rfl (by decide)
  case isFalse hquote =>
    split at hescaped
    case isTrue hslash =>
      subst hslash hescaped
      exact stringBody_short done rest rfl (by decide)
    case isFalse hslash =>
      split at hescaped
      case isTrue hplain =>
        subst hescaped
        exact stringBody_plain done rest hquote hslash hplain
      case isFalse hcontrol =>
        split at hescaped
        all_goals subst hescaped
        case h_6 =>
          have hunit := stringBody_unit done rest (Nat.lt_of_not_le hcontrol)
          rw [← hchar] at hunit
          exact hunit
        -- The other five are the escapes of one letter.
        all_goals
          next hn => exact stringBody_short done rest (by rw [hchar, hn]; rfl) (by decide)

theorem stringBody_escaped (chars : List Char) :
    (stringBody done (chars.flatMap escapeChar ++ '"' :: rest)).map Step.outcome =
      some (String.ofList (done.reverse ++ chars), rest) := by
  induction chars generalizing done with
  | nil =>
    rw [List.flatMap_nil, List.nil_append, stringBody, List.append_nil]
    rfl
  | cons c chars ih =>
    rw [List.flatMap_cons, List.append_assoc, stringBody_escapeChar, ih, List.reverse_cons,
      List.append_assoc, List.singleton_append]

end Strings

theorem toList_quoted (text : String) :
    (quoted text).toList = '"' :: (text.toList.flatMap escapeChar ++ ['"']) := by
  simp [quoted]

theorem scans_quoted (text : String) (rest : List Char) :
    Scans (quoted text).toList [scalar (.string text)] rest := by
  refine scans_one (by simp [toList_quoted]) fun steps => ?_
  have hbody := stringBody_escaped [] rest text.toList
  rw [List.reverse_nil, List.nil_append, String.ofList_toList] at hbody
  obtain ⟨step, hstep, houtcome⟩ := Option.map_eq_some_iff.mp hbody
  obtain ⟨hvalue, hrest⟩ := Prod.mk.inj houtcome
  have htext : (quoted text).toList ++ rest =
      '"' :: (text.toList.flatMap escapeChar ++ '"' :: rest) := by simp [toList_quoted]
  rw [htext, scan, if_neg (by decide)]
  simp only [hstep, hvalue, hrest]

/-! ## Words and punctuation -/

/-- The token of a punctuation mark. -/
def markToken? : Char → Option Token
  | '\x7b' => some openBrace
  | '\x7d' => some closeBrace
  | '[' => some openBracket
  | ']' => some closeBracket
  | ':' => some colon
  | ',' => some comma
  | _ => none

section Words

variable (rest : List Char)

theorem scans_null : Scans "null".toList [scalar .null] rest :=
  scans_one (by decide) fun _ => rfl

theorem scans_true : Scans "true".toList [scalar (.bool true)] rest :=
  scans_one (by decide) fun _ => rfl

theorem scans_false : Scans "false".toList [scalar (.bool false)] rest :=
  scans_one (by decide) fun _ => rfl

theorem scans_mark {mark : Char} {token : Token} (h : markToken? mark = some token) :
    Scans [mark] [token] rest := by
  unfold markToken? at h
  split at h <;> cases h <;> exact scans_one (List.cons_ne_nil _ _) fun _ => rfl

end Words

/-! ## Numbers -/

section Numbers

variable {text left rest : List Char}

theorem spanDigits_append (h : Stops rest) :
    spanDigits (text ++ rest) = ((spanDigits text).1, (spanDigits text).2 ++ rest) := by
  induction text with
  | nil =>
    cases rest with
    | nil => rfl
    | cons c rest =>
      have hc : isDigit c = false := (h c rfl).1
      simp [spanDigits, hc]
  | cons c text ih =>
    rw [spanDigits, Prod.mk.injEq] at ih
    by_cases hc : isDigit c
    · simp [spanDigits, hc, ih]
    · simp [spanDigits, hc]

theorem exponentPart_append {down : Bool} {digits : List Char}
    (h : exponentPart text = some (down, digits, left)) (hrest : Stops rest) :
    exponentPart (text ++ rest) = some (down, digits, left ++ rest) := by
  have hspan (negative : Bool) (signless : List Char)
      (hdigits : (if (spanDigits signless).1.isEmpty then none
        else some (negative, (spanDigits signless).1, (spanDigits signless).2)) =
          some (down, digits, left)) :
      (if (spanDigits (signless ++ rest)).1.isEmpty then none
        else some (negative, (spanDigits (signless ++ rest)).1,
          (spanDigits (signless ++ rest)).2)) = some (down, digits, left ++ rest) := by
    rw [spanDigits_append hrest]
    split at hdigits
    · cases hdigits
    · next hsome =>
      rw [if_neg hsome]
      simp_all
  cases text with
  | nil => cases h
  | cons c text =>
    by_cases hplus : c = '+'
    · subst hplus
      exact hspan false text h
    · by_cases hminus : c = '-'
      · subst hminus
        exact hspan true text h
      · have hunsigned (text : List Char) : exponentPart (c :: text) =
            if (spanDigits (c :: text)).1.isEmpty then none
            else some (false, (spanDigits (c :: text)).1, (spanDigits (c :: text)).2) := by
          simp [exponentPart, hplus, hminus]
        rw [hunsigned] at h
        rw [List.cons_append, hunsigned]
        exact hspan false (c :: text) h

/-- Reads the end of a number that is no integer: its exponent, if it has one. -/
def realEnd (negative : Bool) (whole fraction rest : List Char) : Option (Json × List Char) :=
  match rest with
  | 'e' :: rest | 'E' :: rest =>
    match exponentPart rest with
    | none => none
    | some (down, digits, rest) =>
      (realFrom? negative whole fraction (some (down, digits))).map (·, rest)
  | rest => (realFrom? negative whole fraction none).map (·, rest)

/-- Reads the end of a number after its first digits. -/
def numberEnd (negative : Bool) (whole rest : List Char) : Option (Json × List Char) :=
  match rest with
  | '.' :: rest =>
    if (spanDigits rest).1.isEmpty then none
    else realEnd negative whole (spanDigits rest).1 (spanDigits rest).2
  | 'e' :: _ | 'E' :: _ => realEnd negative whole [] rest
  | rest =>
    if negative then
      if digitsValue whole = 0 || 0x8000000000000000 < digitsValue whole then
        realEnd negative whole [] rest
      else some (ofInt (-digitsValue whole), rest)
    else if digitsValue whole < 0x10000000000000000 then some (ofInt (digitsValue whole), rest)
    else realEnd negative whole [] rest

theorem numberFrom_eq (negative : Bool) (text : List Char) :
    numberFrom negative text =
      match (spanDigits text).1 with
      | [] => none
      | '0' :: _ :: _ => none
      | _ => numberEnd negative (spanDigits text).1 (spanDigits text).2 := by
  rfl

/-- A number without an exponent ends where its digits do. -/
theorem realEnd_of_head (negative : Bool) (whole fraction : List Char)
    (h : ∀ c ∈ rest.head?, c ≠ 'e' ∧ c ≠ 'E') :
    realEnd negative whole fraction rest =
      (realFrom? negative whole fraction none).map (·, rest) := by
  cases rest with
  | nil => rfl
  | cons c rest =>
    obtain ⟨hlower, hupper⟩ := h c rfl
    simp [realEnd, hlower, hupper]

theorem realEnd_append {negative : Bool} {whole fraction : List Char} {value : Json}
    (h : realEnd negative whole fraction text = some (value, left)) (hrest : Stops rest) :
    realEnd negative whole fraction (text ++ rest) = some (value, left ++ rest) := by
  have hexponent (c : Char) (text : List Char) (hc : c = 'e' ∨ c = 'E')
      (h : realEnd negative whole fraction (c :: text) = some (value, left)) :
      realEnd negative whole fraction (c :: (text ++ rest)) = some (value, left ++ rest) := by
    have heq (text : List Char) : realEnd negative whole fraction (c :: text) =
        (exponentPart text).bind fun part =>
          (realFrom? negative whole fraction (some (part.1, part.2.1))).map (·, part.2.2) := by
      rcases hc with rfl | rfl
      all_goals
        rw [realEnd]
        cases exponentPart text <;> rfl
    rw [heq] at h ⊢
    obtain ⟨⟨down, digits, after⟩, hpart, hvalue⟩ := Option.bind_eq_some_iff.mp h
    obtain ⟨read, hread, hpair⟩ := Option.map_eq_some_iff.mp hvalue
    obtain ⟨rfl, rfl⟩ := Prod.mk.inj hpair
    rw [exponentPart_append hpart hrest, Option.bind_some, hread, Option.map_some]
  have hplain (text : List Char) (hhead : ∀ c ∈ text.head?, c ≠ 'e' ∧ c ≠ 'E')
      (hafter : ∀ c ∈ (text ++ rest).head?, c ≠ 'e' ∧ c ≠ 'E')
      (h : realEnd negative whole fraction text = some (value, left)) :
      realEnd negative whole fraction (text ++ rest) = some (value, left ++ rest) := by
    rw [realEnd_of_head _ _ _ hhead] at h
    obtain ⟨read, hread, hpair⟩ := Option.map_eq_some_iff.mp h
    obtain ⟨rfl, rfl⟩ := Prod.mk.inj hpair
    rw [realEnd_of_head _ _ _ hafter, hread, Option.map_some]
  cases text with
  | nil => exact hplain [] (by simp) (fun c hc => (hrest c hc).2.2) h
  | cons c text =>
    by_cases hc : c = 'e' ∨ c = 'E'
    · exact hexponent c text hc h
    · rw [not_or] at hc
      exact hplain (c :: text) (by simpa using hc) (by simpa using hc) h

theorem numberEnd_append {negative : Bool} {whole : List Char} {value : Json}
    (h : numberEnd negative whole text = some (value, left)) (hrest : Stops rest) :
    numberEnd negative whole (text ++ rest) = some (value, left ++ rest) := by
  have hplain (text : List Char) (hhead : ∀ c ∈ text.head?, c ≠ '.' ∧ c ≠ 'e' ∧ c ≠ 'E') :
      numberEnd negative whole text = if negative then
        if digitsValue whole = 0 || 0x8000000000000000 < digitsValue whole then
          realEnd negative whole [] text
        else some (ofInt (-digitsValue whole), text)
      else if digitsValue whole < 0x10000000000000000 then some (ofInt (digitsValue whole), text)
      else realEnd negative whole [] text := by
    cases text with
    | nil => rfl
    | cons c text =>
      obtain ⟨hpoint, hlower, hupper⟩ := hhead c rfl
      simp [numberEnd, hpoint, hlower, hupper]
  have happend (text : List Char) (hhead : ∀ c ∈ text.head?, c ≠ '.' ∧ c ≠ 'e' ∧ c ≠ 'E')
      (hafter : ∀ c ∈ (text ++ rest).head?, c ≠ '.' ∧ c ≠ 'e' ∧ c ≠ 'E')
      (h : numberEnd negative whole text = some (value, left)) :
      numberEnd negative whole (text ++ rest) = some (value, left ++ rest) := by
    rw [hplain _ hhead] at h
    rw [hplain _ hafter]
    split at h
    · next hnegative =>
      rw [if_pos hnegative]
      split at h
      · next hreal =>
        rw [if_pos hreal]
        exact realEnd_append h hrest
      · next hinteger =>
        obtain ⟨rfl, rfl⟩ := Prod.mk.inj (Option.some.inj h)
        rw [if_neg hinteger]
    · next hpositive =>
      rw [if_neg hpositive]
      split at h
      · next hinteger =>
        obtain ⟨rfl, rfl⟩ := Prod.mk.inj (Option.some.inj h)
        rw [if_pos hinteger]
      · next hreal =>
        rw [if_neg hreal]
        exact realEnd_append h hrest
  cases text with
  | nil => exact happend [] (by simp) (fun c hc => (hrest c hc).2) h
  | cons c text =>
    by_cases hpoint : c = '.'
    · subst hpoint
      rw [numberEnd] at h
      rw [List.cons_append, numberEnd, spanDigits_append hrest]
      split at h
      · cases h
      · next hsome =>
        rw [if_neg hsome]
        exact realEnd_append h hrest
    · by_cases hc : c = 'e' ∨ c = 'E'
      · rcases hc with rfl | rfl
        all_goals
          rw [numberEnd] at h
          rw [List.cons_append, numberEnd]
          exact realEnd_append h hrest
      · rw [not_or] at hc
        have hhead : c ≠ '.' ∧ c ≠ 'e' ∧ c ≠ 'E' := ⟨hpoint, hc⟩
        exact happend (c :: text) (by simpa using hhead) (by simpa using hhead) h

/-- What is read at the start of a number does not depend on what comes after it. -/
theorem numberFrom_append {negative : Bool} {value : Json}
    (h : numberFrom negative text = some (value, left)) (hrest : Stops rest) :
    numberFrom negative (text ++ rest) = some (value, left ++ rest) := by
  rw [numberFrom_eq] at h ⊢
  rw [spanDigits_append hrest]
  split at h
  · cases h
  · cases h
  · exact numberEnd_append h hrest

theorem numberAt_append {value : Json} (h : numberAt text = some (value, left))
    (hrest : Stops rest) : numberAt (text ++ rest) = some (value, left ++ rest) := by
  cases text with
  | nil => cases h
  | cons c text =>
    by_cases hminus : c = '-'
    · subst hminus
      exact numberFrom_append h hrest
    · have hunsigned (text : List Char) : numberAt (c :: text) = numberFrom false (c :: text) := by
        simp [numberAt, hminus]
      rw [hunsigned] at h
      rw [List.cons_append, hunsigned]
      exact numberFrom_append h hrest

/-- A number begins with a minus sign or a digit. -/
theorem head_of_numberAt {c : Char} {value : Json} (h : numberAt (c :: text) = some (value, left)) :
    c = '-' ∨ isDigit c := by
  by_cases hminus : c = '-'
  · exact .inl hminus
  · refine .inr (Decidable.byContradiction fun hdigit => ?_)
    have hunsigned : numberAt (c :: text) = numberFrom false (c :: text) := by
      simp [numberAt, hminus]
    rw [hunsigned, numberFrom_eq] at h
    simp [spanDigits, hdigit] at h

theorem scan_number {c : Char} {value : Json} (steps : Nat)
    (h : numberAt (c :: text) = some (value, left)) :
    scan (steps + 1) (c :: text) = (scalar value :: ·) <$> scan steps left := by
  have hhead : c = '-' ∨ isDigit c := head_of_numberAt h
  have hne (other : Char) (hother : other ≠ '-' ∧ isDigit other = false) : c ≠ other := by
    rintro rfl
    rcases hhead with rfl | hdigit
    · exact hother.1 rfl
    · rw [hother.2] at hdigit
      cases hdigit
  have hspace : isSpace c ≠ true := by
    simp [isSpace, hne ' ' (by decide), hne '\t' (by decide), hne '\n' (by decide),
      hne '\r' (by decide)]
  rw [scan, if_neg hspace, h]
  -- No other kind of token begins so.
  all_goals first
    | exact hne _ (by decide)
    | exact fun _ heq _ => hne _ (by decide) heq

/-- A text that is read as a number is scanned as one, whatever stops it. -/
theorem scans_number {value : Json} (h : numberAt text = some (value, [])) (hrest : Stops rest) :
    Scans text [scalar value] rest := by
  cases text with
  | nil => cases h
  | cons c text =>
    exact scans_one (List.cons_ne_nil c text) fun steps =>
      scan_number steps (numberAt_append h hrest)

end Numbers

end Token

end SigmaCatalog.Json
