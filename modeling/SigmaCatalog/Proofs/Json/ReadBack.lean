import Mathlib.Data.List.Basic
import Mathlib.Data.List.TakeWhile
import SigmaCatalog.Proofs.FieldMapping
import SigmaCatalog.Proofs.Json.Scanning

/-!
# Reading compact text back

A value is read back from its compact text when it is nested no deeper than a reader goes and each
of its numbers is read back from its own.  Integers of 64 bits always are.  A floating point number
need not be: its text is the shortest that stands for it, and a reader rounds more than once.
-/

namespace SigmaCatalog.Json

open Reading (Step)

/-- Whether a number is read back from its text. -/
def Number.readsBack (n : Number) : Bool :=
  match Token.numberAt n.text.toList with
  | some (.number read, []) => read = n
  | _ => false

/-- Whether a value is read back from its text where it may hold `depth` more levels. -/
def readsBack : (depth : Nat) → Json → Bool
  | _, null => true
  | _, bool _ => true
  | _, number n => n.readsBack
  | _, string _ => true
  | 0, array _ => false
  | depth + 1, array elements => elements.all fun element => readsBack depth element
  | 0, members _ => false
  | depth + 1, members entries =>
    decide (Increasing entries) && entries.all fun entry => readsBack depth entry.2

/-! ## Numbers -/

namespace Token

theorem isDigit_of_mem_toDigits {n : Nat} {c : Char} (h : c ∈ Nat.toDigits 10 n) : isDigit c := by
  have hdigit : c.isDigit = true := Nat.isDigit_of_mem_toDigits (by decide) (by decide) h
  simpa [isDigit, Char.isDigit, Char.le_def] using hdigit

theorem digitsValue_toDigits (n : Nat) : digitsValue (Nat.toDigits 10 n) = n := by
  have hstep : (fun n c => n * 10 + (Char.toNat c - 48)) =
      fun n c => 10 * n + (c.toNat - '0'.toNat) := by
    funext n c
    rw [Nat.mul_comm]
    rfl
  rw [digitsValue, hstep]
  exact Nat.ofDigitChars_toDigits (by decide) (by decide)

/-- Only zero is written with a zero in front. -/
theorem eq_zero_of_head_toDigits {n : Nat} (h : (Nat.toDigits 10 n).head? = some '0') : n = 0 := by
  induction n using Nat.strongRecOn with
  | ind n ih =>
    rw [Nat.toDigits_eq_if (by decide)] at h
    split at h
    · next hlt =>
      have hall : ∀ n < 10, [Nat.digitChar n].head? = some '0' → n = 0 := by decide
      exact hall n hlt h
    · next hge =>
      rw [List.head?_append_of_ne_nil _ Nat.toDigits_ne_nil] at h
      have hzero := ih (n / 10) (by omega) h
      omega

theorem spanDigits_toDigits (n : Nat) :
    spanDigits (Nat.toDigits 10 n) = (Nat.toDigits 10 n, []) := by
  rw [spanDigits, List.takeWhile_eq_self_iff.mpr fun _ => isDigit_of_mem_toDigits,
    List.dropWhile_eq_nil_iff.mpr fun _ => isDigit_of_mem_toDigits]

theorem numberFrom_toDigits (negative : Bool) (n : Nat) :
    numberFrom negative (Nat.toDigits 10 n) = numberEnd negative (Nat.toDigits 10 n) [] := by
  rw [numberFrom_eq, spanDigits_toDigits]
  split
  · next heq => exact absurd heq Nat.toDigits_ne_nil
  · next second rest heq =>
    have hdigits : Nat.toDigits 10 n = '0' :: second :: rest := heq
    have hzero : n = 0 := eq_zero_of_head_toDigits (hdigits ▸ rfl)
    subst hzero
    cases hdigits
  · rfl

theorem numberAt_toDigits (n : Nat) :
    numberAt (Nat.toDigits 10 n) = numberFrom false (Nat.toDigits 10 n) := by
  rw [numberAt]
  intro rest heq
  have hdigit : isDigit '-' := isDigit_of_mem_toDigits (heq ▸ List.mem_cons_self)
  cases hdigit

end Token

theorem numberAt_of_readsBack {n : Number} (h : n.readsBack) :
    Token.numberAt n.text.toList = some (number n, []) := by
  rw [Number.readsBack] at h
  split at h
  · next hread => rw [hread, of_decide_eq_true h]
  · cases h

/-- An integer of 64 bits, with sign or without, is read back. -/
theorem integer_readsBack {n : Int} (hlow : -0x8000000000000000 ≤ n)
    (hhigh : n < 0x10000000000000000) : (Number.integer n).readsBack := by
  have hread : Token.numberAt (Number.integer n).text.toList = some (number (.integer n), []) := by
    rw [Number.text, Int.toString_eq_repr, Int.repr_eq_if]
    split
    · next hpos =>
      rw [Nat.repr_eq_ofList_toDigits, String.toList_ofList, Token.numberAt_toDigits,
        Token.numberFrom_toDigits]
      simp only [Token.numberEnd, Token.digitsValue_toDigits]
      rw [if_neg (by decide), if_pos (by omega), Int.toNat_of_nonneg hpos]
      rfl
    · next hneg =>
      have htext : ("-" ++ (-n).toNat.repr).toList = '-' :: Nat.toDigits 10 (-n).toNat := by
        simp [Nat.repr_eq_ofList_toDigits]
      have habs : ((-n).toNat : Int) = -n := Int.toNat_of_nonneg (by omega)
      rw [htext, Token.numberAt, Token.numberFrom_toDigits]
      simp only [Token.numberEnd, Token.digitsValue_toDigits, if_true]
      rw [if_neg (by simp; omega), habs, Int.neg_neg]
      rfl
  rw [Number.readsBack, hread]
  exact decide_eq_true rfl

theorem readsBack_string (depth : Nat) (text : String) : (string text).readsBack depth := by
  rw [readsBack]

theorem readsBack_bool (depth : Nat) (value : Bool) : (bool value).readsBack depth := by
  rw [readsBack]

theorem readsBack_ofInt {n : Int} (h : isInt64 n) (depth : Nat) : (ofInt n).readsBack depth := by
  obtain ⟨hlow, hhigh⟩ := (Bool.and_eq_true _ _).mp h
  rw [ofInt, readsBack]
  exact integer_readsBack (of_decide_eq_true hlow)
    (Int.lt_trans (of_decide_eq_true hhigh) (by decide))

/-! ## Tokens of a value -/

mutual

def tokens : Json → List Token
  | array [] => [.openBracket, .closeBracket]
  | array (element :: elements) => .openBracket :: (element.tokens ++ laterElements elements)
  | members [] => [.openBrace, .closeBrace]
  | members ((name, value) :: entries) =>
    .openBrace :: .scalar (.string name) :: .colon :: (value.tokens ++ laterEntries entries)
  | value => [.scalar value]

/-- The tokens of further elements and of the closing bracket. -/
def laterElements : List Json → List Token
  | [] => [.closeBracket]
  | element :: elements => .comma :: (element.tokens ++ laterElements elements)

/-- The tokens of further members and of the closing brace. -/
def laterEntries : List (String × Json) → List Token
  | [] => [.closeBrace]
  | (name, value) :: entries =>
    .comma :: .scalar (.string name) :: .colon :: (value.tokens ++ laterEntries entries)

end

def entryText (entry : String × Json) : List Char :=
  (quoted entry.1).toList ++ ':' :: entry.2.text.toList

def entryTokens (entry : String × Json) : List Token :=
  .scalar (.string entry.1) :: .colon :: entry.2.tokens

theorem laterElements_eq (elements : List Json) :
    laterElements elements =
      (elements.flatMap fun element => .comma :: element.tokens) ++ [.closeBracket] := by
  induction elements with
  | nil => rfl
  | cons element elements ih =>
    rw [laterElements, ih, List.flatMap_cons, List.append_assoc, List.cons_append]

theorem laterEntries_eq (entries : List (String × Json)) :
    laterEntries entries =
      (entries.flatMap fun entry => .comma :: entryTokens entry) ++ [.closeBrace] := by
  induction entries with
  | nil => rfl
  | cons entry entries ih =>
    rw [laterEntries, ih, List.flatMap_cons, List.append_assoc]
    rfl

theorem elementTexts_eq (elements : List Json) : elementTexts elements = elements.map text := by
  induction elements with
  | nil => rfl
  | cons element elements ih => rw [elementTexts, ih, List.map_cons]

theorem entryTexts_eq (entries : List (String × Json)) :
    entryTexts entries = entries.map fun entry => String.ofList (entryText entry) := by
  induction entries with
  | nil => rfl
  | cons entry entries ih =>
    have hentry : quoted entry.1 ++ ":" ++ entry.2.text = String.ofList (entryText entry) := by
      apply String.toList_injective
      simp [entryText]
    rw [entryTexts, ih, List.map_cons, hentry]

theorem toList_text_array (element : Json) (elements : List Json) :
    (array (element :: elements)).text.toList =
      '[' :: (element.text.toList ++
        ((elements.flatMap fun element => ',' :: element.text.toList) ++ [']'])) := by
  rw [text, elementTexts_eq, List.map_cons, String.toList_append, String.toList_append,
    Text.toList_joinWith, List.flatMap_map]
  simp

theorem toList_text_members (entry : String × Json) (entries : List (String × Json)) :
    (members (entry :: entries)).text.toList =
      '\x7b' :: (entryText entry ++
        ((entries.flatMap fun entry => ',' :: entryText entry) ++ ['\x7d'])) := by
  rw [text, entryTexts_eq, List.map_cons, String.toList_append, String.toList_append,
    Text.toList_joinWith, List.flatMap_map]
  simp

section Scanning

open Token

/-- Further items and what closes them are scanned one after another. -/
theorem scans_later {α : Type} {text : α → List Char} {tokens : α → List Token} {items : List α}
    (mark : Char) (closing : Token)
    (hmark : isDigit mark = false ∧ mark ≠ '.' ∧ mark ≠ 'e' ∧ mark ≠ 'E')
    (hclosing : markToken? mark = some closing)
    (hitems : ∀ item ∈ items, ∀ rest, Stops rest → Scans (text item) (tokens item) rest)
    (rest : List Char) :
    Scans ((items.flatMap fun item => ',' :: text item) ++ [mark])
      ((items.flatMap fun item => .comma :: tokens item) ++ [closing]) rest ∧
    Stops (((items.flatMap fun item => ',' :: text item) ++ [mark]) ++ rest) := by
  induction items with
  | nil =>
    refine ⟨scans_mark rest hclosing, ?_⟩
    intro c hc
    obtain rfl := Option.some.inj hc
    exact hmark
  | cons item items ih =>
    obtain ⟨hlater, hstops⟩ := ih fun item hitem => hitems item (List.mem_cons_of_mem _ hitem)
    have hitem := hitems item List.mem_cons_self _ hstops
    have hcomma : markToken? ',' = some comma := rfl
    have hboth := (scans_mark _ hcomma).append (hitem.append hlater)
    constructor
    · simpa using hboth
    · intro c hc
      obtain rfl := Option.some.inj hc
      decide

theorem scans_entry {entry : String × Json} {rest : List Char}
    (h : Scans entry.2.text.toList entry.2.tokens rest) :
    Scans (entryText entry) (entryTokens entry) rest :=
  (scans_quoted _ _).append ((scans_mark _ rfl).append h)

/-- The text of a value that is read back is scanned as its tokens. -/
theorem scans_of_readsBack {depth : Nat} {value : Json} (h : value.readsBack depth)
    (rest : List Char) (hrest : Stops rest) : Scans value.text.toList value.tokens rest := by
  induction depth, value using readsBack.induct generalizing rest with
  | case1 => exact scans_null rest
  | case2 _ value =>
    cases value with
    | true => exact scans_true rest
    | false => exact scans_false rest
  | case3 _ n =>
    rw [readsBack] at h
    exact scans_number (numberAt_of_readsBack h) hrest
  | case4 _ text => exact scans_quoted text rest
  | case5 => cases h
  | case6 depth elements ih =>
    rw [readsBack, List.all_eq_true] at h
    cases elements with
    | nil => exact (scans_mark _ rfl).append (scans_mark rest rfl)
    | cons element elements =>
      obtain ⟨hlater, hstops⟩ := scans_later ']' closeBracket (by decide) rfl
        (fun later hlater rest hrest => ih later (h later (List.mem_cons_of_mem _ hlater)) rest hrest)
        rest
      have hfirst := ih element (h element List.mem_cons_self) _ hstops
      rw [toList_text_array, tokens, laterElements_eq]
      exact (hfirst.append hlater).cons (scans_mark _ rfl)
  | case7 => cases h
  | case8 depth entries ih =>
    rw [readsBack, Bool.and_eq_true, List.all_eq_true] at h
    cases entries with
    | nil => exact (scans_mark _ rfl).append (scans_mark rest rfl)
    | cons entry entries =>
      obtain ⟨hlater, hstops⟩ := scans_later '\x7d' closeBrace (by decide) rfl
        (fun later hlater rest hrest =>
          scans_entry (ih later (h.2 later (List.mem_cons_of_mem _ hlater)) rest hrest))
        rest
      have hfirst := scans_entry (ih entry (h.2 entry List.mem_cons_self) _ hstops)
      rw [toList_text_members, tokens, laterEntries_eq]
      exact (hfirst.append hlater).cons (scans_mark _ rfl)

end Scanning

/-! ## Parsing -/

section Parsing

theorem eq_some_of_outcome {α : Type} {input rest : List Token} {value : α}
    {step : Option (Step input α)} (h : step.map Step.outcome = some (value, rest)) :
    ∃ hshorter, step = some ⟨value, rest, hshorter⟩ := by
  obtain ⟨found, hfound, houtcome⟩ := Option.map_eq_some_iff.mp h
  obtain ⟨rfl, rfl⟩ := Prod.mk.inj houtcome
  exact ⟨found.shorter, hfound⟩

/-- A value does not begin with what closes an array. -/
theorem tokens_ne_closeBracket (value : Json) (rest later : List Token) :
    value.tokens ++ rest ≠ .closeBracket :: later := by
  intro heq
  cases value with
  | array elements => cases elements <;> cases heq
  | members entries => cases entries <;> cases heq
  | null | bool | number | string => cases heq

/-- Whether a reader of values that may hold `depth` more levels reads a value from its tokens,
whatever comes after them. -/
def IsReadFrom (depth : Nat) (value : Json) : Prop :=
  ∀ rest, (Parser.value depth (value.tokens ++ rest)).map Step.outcome = some (value, rest)

theorem elements_tokens {depth : Nat} {element : Json} {elements : List Json}
    (h : ∀ later ∈ element :: elements, later.IsReadFrom depth) (rest : List Token) :
    (Parser.elements depth (element.tokens ++ (laterElements elements ++ rest))).map
      Step.outcome = some (element :: elements, rest) := by
  induction elements generalizing element with
  | nil =>
    obtain ⟨_, hvalue⟩ := eq_some_of_outcome (h element List.mem_cons_self (.closeBracket :: rest))
    have htokens : laterElements [] ++ rest = .closeBracket :: rest := rfl
    rw [htokens, Parser.elements, hvalue]
    rfl
  | cons second elements ih =>
    obtain ⟨_, hvalue⟩ := eq_some_of_outcome (h element List.mem_cons_self
      (.comma :: (second.tokens ++ (laterElements elements ++ rest))))
    obtain ⟨_, helements⟩ := eq_some_of_outcome
      (ih fun later hmem => h later (List.mem_cons_of_mem _ hmem))
    have htokens : laterElements (second :: elements) ++ rest =
        .comma :: (second.tokens ++ (laterElements elements ++ rest)) := by
      rw [laterElements, List.cons_append, List.append_assoc]
    rw [htokens, Parser.elements, hvalue]
    simp only [helements]
    rfl

theorem entries_tokens {depth : Nat} {entry : String × Json} {entries : List (String × Json)}
    (h : ∀ later ∈ entry :: entries, later.2.IsReadFrom depth) (rest : List Token) :
    (Parser.entries depth (entryTokens entry ++ (laterEntries entries ++ rest))).map
      Step.outcome = some (entry :: entries, rest) := by
  induction entries generalizing entry with
  | nil =>
    obtain ⟨_, hvalue⟩ := eq_some_of_outcome (h entry List.mem_cons_self (.closeBrace :: rest))
    have htokens : laterEntries [] ++ rest = .closeBrace :: rest := rfl
    rw [htokens, entryTokens, List.cons_append, List.cons_append, Parser.entries, hvalue]
    rfl
  | cons second entries ih =>
    obtain ⟨_, hvalue⟩ := eq_some_of_outcome (h entry List.mem_cons_self
      (.comma :: (entryTokens second ++ (laterEntries entries ++ rest))))
    obtain ⟨_, hentries⟩ := eq_some_of_outcome
      (ih fun later hmem => h later (List.mem_cons_of_mem _ hmem))
    have htokens : laterEntries (second :: entries) ++ rest =
        .comma :: (entryTokens second ++ (laterEntries entries ++ rest)) := by
      simp [laterEntries, entryTokens]
    rw [htokens, entryTokens, List.cons_append, List.cons_append, Parser.entries, hvalue]
    simp only [hentries]
    rfl

theorem isReadFrom_of_readsBack {depth : Nat} {value : Json} (h : value.readsBack depth) :
    value.IsReadFrom depth := by
  intro rest
  induction depth, value using readsBack.induct generalizing rest with
  | case1 | case2 | case3 | case4 => simp [tokens, Parser.value, Step.outcome]
  | case5 => cases h
  | case6 depth elements ih =>
    rw [readsBack, List.all_eq_true] at h
    cases elements with
    | nil =>
      rw [tokens, List.cons_append, List.singleton_append, Parser.value]
      rfl
    | cons element elements =>
      obtain ⟨_, helements⟩ := eq_some_of_outcome
        (elements_tokens (fun later hmem => ih later (h later hmem)) rest)
      rw [tokens, List.cons_append, List.append_assoc, Parser.value, helements]
      · rfl
      · exact tokens_ne_closeBracket element _
  | case7 => cases h
  | case8 depth entries ih =>
    rw [readsBack, Bool.and_eq_true, List.all_eq_true] at h
    cases entries with
    | nil =>
      rw [tokens, List.cons_append, List.singleton_append, Parser.value]
      rfl
    | cons entry entries =>
      obtain ⟨_, hentries⟩ := eq_some_of_outcome
        (entries_tokens (fun later hmem => ih later (h.2 later hmem)) rest)
      have htokens : (members (entry :: entries)).tokens ++ rest =
          .openBrace :: (entryTokens entry ++ (laterEntries entries ++ rest)) := by
        simp [tokens, entryTokens]
      have hobject : object (entry :: entries) = members (entry :: entries) :=
        object_of_increasing (of_decide_eq_true h.1)
      rw [htokens, Parser.value, hentries, ← hobject]
      · rfl
      · intro later heq
        cases heq

/-- Whether a reader of values that may hold `depth` more levels reads nothing from the tokens of a
value, whatever comes after them. -/
def IsRefusedAt (depth : Nat) (value : Json) : Prop :=
  ∀ rest, Parser.value depth (value.tokens ++ rest) = none

theorem not_isRefusedAt {depth : Nat} {value : Json} (h : value.IsReadFrom depth) :
    ¬value.IsRefusedAt depth := by
  intro hrefused
  have hread := h []
  rw [hrefused []] at hread
  cases hread

theorem elements_refused {depth : Nat} {element : Json} {elements : List Json}
    (h : ∀ later ∈ element :: elements, later.IsReadFrom depth ∨ later.IsRefusedAt depth)
    (hrefused : ∃ later ∈ element :: elements, later.IsRefusedAt depth) (rest : List Token) :
    Parser.elements depth (element.tokens ++ (laterElements elements ++ rest)) = none := by
  induction elements generalizing element with
  | nil =>
    obtain ⟨later, hmem, hlater⟩ := hrefused
    obtain rfl := List.mem_singleton.mp hmem
    rw [Parser.elements, hlater]
  | cons second elements ih =>
    obtain ⟨hfirst, hothers⟩ := List.forall_mem_cons.mp h
    have htokens : laterElements (second :: elements) ++ rest =
        .comma :: (second.tokens ++ (laterElements elements ++ rest)) := by
      rw [laterElements, List.cons_append, List.append_assoc]
    rw [htokens, Parser.elements]
    rcases hfirst with hread | hnone
    · obtain ⟨_, hvalue⟩ := eq_some_of_outcome
        (hread (.comma :: (second.tokens ++ (laterElements elements ++ rest))))
      have hlater : ∃ later ∈ second :: elements, later.IsRefusedAt depth := by
        obtain ⟨later, hmem, hlater⟩ := hrefused
        rcases List.mem_cons.mp hmem with rfl | hmem
        · exact absurd hlater (not_isRefusedAt hread)
        · exact ⟨later, hmem, hlater⟩
      rw [hvalue]
      simp only [ih hothers hlater]
    · rw [hnone]

theorem entries_refused {depth : Nat} {entry : String × Json} {entries : List (String × Json)}
    (h : ∀ later ∈ entry :: entries, later.2.IsReadFrom depth ∨ later.2.IsRefusedAt depth)
    (hrefused : ∃ later ∈ entry :: entries, later.2.IsRefusedAt depth) (rest : List Token) :
    Parser.entries depth (entryTokens entry ++ (laterEntries entries ++ rest)) = none := by
  induction entries generalizing entry with
  | nil =>
    obtain ⟨later, hmem, hlater⟩ := hrefused
    obtain rfl := List.mem_singleton.mp hmem
    rw [entryTokens, List.cons_append, List.cons_append, Parser.entries, hlater]
  | cons second entries ih =>
    obtain ⟨hfirst, hothers⟩ := List.forall_mem_cons.mp h
    have htokens : laterEntries (second :: entries) ++ rest =
        .comma :: (entryTokens second ++ (laterEntries entries ++ rest)) := by
      simp [laterEntries, entryTokens]
    rw [htokens, entryTokens, List.cons_append, List.cons_append, Parser.entries]
    rcases hfirst with hread | hnone
    · obtain ⟨_, hvalue⟩ := eq_some_of_outcome
        (hread (.comma :: (entryTokens second ++ (laterEntries entries ++ rest))))
      have hlater : ∃ later ∈ second :: entries, later.2.IsRefusedAt depth := by
        obtain ⟨later, hmem, hlater⟩ := hrefused
        rcases List.mem_cons.mp hmem with rfl | hmem
        · exact absurd hlater (not_isRefusedAt hread)
        · exact ⟨later, hmem, hlater⟩
      rw [hvalue]
      simp only [ih hothers hlater]
    · rw [hnone]

/-- A value that is read back, but holds more levels than a reader goes down, is refused. -/
theorem isRefusedAt_of_deep {depth more : Nat} {value : Json} (h : value.readsBack depth = false)
    (hmore : value.readsBack (depth + more)) : value.IsRefusedAt depth := by
  intro rest
  induction depth, value using readsBack.induct generalizing rest with
  | case1 | case2 | case4 =>
    rw [readsBack] at h
    cases h
  | case3 depth n =>
    rw [readsBack] at h hmore
    rw [h] at hmore
    cases hmore
  | case5 elements =>
    cases elements <;> simp [tokens, Parser.value]
  | case6 depth elements ih =>
    rw [Nat.succ_add, readsBack, List.all_eq_true] at hmore
    rw [readsBack, List.all_eq_false] at h
    obtain ⟨deep, hdeep, hfalse⟩ := h
    have hrefused (later : Json) (hmem : later ∈ elements) (hlater : ¬later.readsBack depth) :
        later.IsRefusedAt depth :=
      ih later (eq_false_of_ne_true hlater) (hmore later hmem)
    cases elements with
    | nil => cases hdeep
    | cons element elements =>
      have hnone := elements_refused (fun later hmem =>
        (Decidable.em (later.readsBack depth = true)).imp isReadFrom_of_readsBack
          (hrefused later hmem)) ⟨deep, hdeep, hrefused deep hdeep hfalse⟩ rest
      rw [tokens, List.cons_append, List.append_assoc, Parser.value, hnone]
      exact tokens_ne_closeBracket element _
  | case7 entries =>
    cases entries <;> simp [tokens, Parser.value]
  | case8 depth entries ih =>
    rw [Nat.succ_add, readsBack, Bool.and_eq_true, List.all_eq_true] at hmore
    rw [readsBack, hmore.1, Bool.true_and, List.all_eq_false] at h
    obtain ⟨deep, hdeep, hfalse⟩ := h
    have hrefused (later : String × Json) (hmem : later ∈ entries)
        (hlater : ¬later.2.readsBack depth) : later.2.IsRefusedAt depth :=
      ih later (eq_false_of_ne_true hlater) (hmore.2 later hmem)
    cases entries with
    | nil => cases hdeep
    | cons entry entries =>
      have hnone := entries_refused (fun later hmem =>
        (Decidable.em (later.2.readsBack depth = true)).imp isReadFrom_of_readsBack
          (hrefused later hmem)) ⟨deep, hdeep, hrefused deep hdeep hfalse⟩ rest
      have htokens : (members (entry :: entries)).tokens ++ rest =
          .openBrace :: (entryTokens entry ++ (laterEntries entries ++ rest)) := by
        simp [tokens, entryTokens]
      rw [htokens, Parser.value, hnone]
      intro later heq
      cases heq

end Parsing

/-- A value that is nested no deeper than a reader goes, and whose numbers are read back, is read
back from its text. -/
theorem parse?_text {value : Json} (h : value.readsBack Parser.maxDepth) :
    parse? value.text = some value := by
  have hstops : Token.Stops [] := fun c hc => nomatch hc
  have htokens : Token.ofText value.text = some value.tokens :=
    (scans_of_readsBack h [] hstops).ofText
  have hread := isReadFrom_of_readsBack h []
  rw [List.append_nil] at hread
  obtain ⟨_, hvalue⟩ := eq_some_of_outcome hread
  rw [parse?, htokens]
  simp only [hvalue]

/-- A value that is read back, but holds more levels than the reader goes down, is not read. -/
theorem parse?_text_of_deep {depth : Nat} {value : Json} (hdepth : Parser.maxDepth ≤ depth)
    (h : value.readsBack Parser.maxDepth = false) (hmore : value.readsBack depth) :
    parse? value.text = none := by
  obtain ⟨more, rfl⟩ := Nat.exists_eq_add_of_le hdepth
  have hstops : Token.Stops [] := fun c hc => nomatch hc
  have htokens : Token.ofText value.text = some value.tokens :=
    (scans_of_readsBack hmore [] hstops).ofText
  have hrefused := isRefusedAt_of_deep h hmore []
  rw [List.append_nil] at hrefused
  rw [parse?, htokens]
  simp only [hrefused]

theorem mem_insert {key : String} {value : Json} {entries : List (String × Json)}
    {entry : String × Json} (h : entry ∈ Entries.insert key value entries) :
    entry = (key, value) ∨ entry ∈ entries := by
  induction entries with
  | nil => exact .inl (List.mem_singleton.mp h)
  | cons head tail ih =>
    rw [Entries.insert] at h
    split at h
    · exact List.mem_cons.mp h
    · split at h
      · exact (List.mem_cons.mp h).imp id (List.mem_cons_of_mem head)
      · rcases List.mem_cons.mp h with rfl | h
        · exact .inr List.mem_cons_self
        · exact (ih h).imp id (List.mem_cons_of_mem head)

/-- An object of members that are read back is read back one level up. -/
theorem readsBack_object {depth : Nat} {entries : List (String × Json)}
    (h : ∀ entry ∈ entries, entry.2.readsBack depth) : (object entries).readsBack (depth + 1) := by
  have hsorted (sorted : List (String × Json)) (hincreasing : Increasing sorted)
      (hread : ∀ entry ∈ sorted, entry.2.readsBack depth) :
      (members (entries.foldl (fun sorted entry => Entries.insert entry.1 entry.2 sorted)
        sorted)).readsBack (depth + 1) := by
    induction entries generalizing sorted with
    | nil =>
      rw [List.foldl_nil, readsBack, Bool.and_eq_true, List.all_eq_true]
      exact ⟨decide_eq_true hincreasing, hread⟩
    | cons entry entries ih =>
      obtain ⟨hentry, hentries⟩ := List.forall_mem_cons.mp h
      refine ih hentries _ (Entries.increasing_insert hincreasing) fun other hother => ?_
      rcases mem_insert hother with rfl | hold
      · exact hentry
      · exact hread other hold
  exact hsorted [] List.Pairwise.nil fun entry hentry => nomatch hentry

/-- A member of a value that is read back is read back one level down. -/
theorem readsBack_of_get? {depth : Nat} {value member : Json} {name : String}
    (h : value.readsBack (depth + 1)) (hmember : value.get? name = some member) :
    member.readsBack depth := by
  cases value with
  | members entries =>
    rw [readsBack, Bool.and_eq_true, List.all_eq_true] at h
    exact h.2 (name, member) (Entries.mem_of_get?_eq_some hmember)
  | null | bool | number | string | array => cases hmember

end SigmaCatalog.Json
