import SigmaCatalog.Query.TermReader

/-!
# Regular expressions between slashes

A slash of a regular expression gets a backslash, whatever stands before it.  So a slash that had a
backslash already loses it to that backslash and closes the expression early, and a backslash at the
end of the expression takes the meaning of the closing slash.  Nothing else goes wrong: an
expression without these two is closed by the slash at its end and has the units it was written
with.
-/

namespace SigmaCatalog.Query

/-- The text of a regular expression between its slashes. -/
def regexBody (text : List Char) : List Char :=
  text.flatMap regexChar

theorem toList_regexText (text : String) :
    (regexText text).toList = '/' :: (regexBody text.toList ++ ['/']) := by
  simp [regexText, regexBody]

theorem regexBody_cons_of_ne {c : Char} (h : c ≠ '/') (rest : List Char) :
    regexBody (c :: rest) = c :: regexBody rest := by
  simp [regexBody, regexChar, h]

theorem regexBody_slash (rest : List Char) :
    regexBody ('/' :: rest) = '\\' :: '/' :: regexBody rest :=
  rfl

/-- Drops the backslash that stands before a slash. -/
def bareSlashes : List Char → List Char
  | '\\' :: '/' :: rest => '/' :: bareSlashes rest
  | c :: rest => c :: bareSlashes rest
  | [] => []

/-- Whether a text stands for another between slashes: each slash in it has a backslash before it,
and without these backslashes it is the other text. -/
structure StandsFor (body text : List Char) : Prop where
  guarded : ∀ front rest, body = front ++ '/' :: rest → front.getLast? = some '\\'
  bare : bareSlashes body = text

theorem getLast?_of_regexBody {text front rest : List Char}
    (h : regexBody text = front ++ '/' :: rest) : front.getLast? = some '\\' := by
  induction text generalizing front with
  | nil => simp [regexBody] at h
  | cons c text ih =>
    by_cases hslash : c = '/'
    · subst hslash
      rw [regexBody_slash] at h
      obtain ⟨-, hfirst⟩ | ⟨front, rfl, hsecond⟩ := List.cons_eq_append_iff.mp h
      · cases hfirst
      · obtain ⟨rfl, -⟩ | ⟨front, rfl, hlater⟩ := List.cons_eq_append_iff.mp hsecond
        · rfl
        · simp [List.getLast?_cons, ih hlater]
    · rw [regexBody_cons_of_ne hslash] at h
      obtain ⟨-, hfirst⟩ | ⟨front, rfl, hlater⟩ := List.cons_eq_append_iff.mp h
      · exact absurd (List.cons.inj hfirst).1.symm hslash
      · simp [List.getLast?_cons, ih hlater]

theorem bareSlashes_cons_of_ne {rest : List Char} (h : rest.head? ≠ some '/') (c : Char) :
    bareSlashes (c :: rest) = c :: bareSlashes rest := by
  rw [bareSlashes]
  rintro other - rfl
  exact h rfl

/-- Whatever a regular expression is, it can be told from what stands between the slashes. -/
theorem standsFor_regexBody (text : List Char) : StandsFor (regexBody text) text := by
  refine ⟨fun _ _ h => getLast?_of_regexBody h, ?_⟩
  induction text with
  | nil => rfl
  | cons c text ih =>
    by_cases hslash : c = '/'
    · subst hslash
      rw [regexBody_slash, bareSlashes, ih]
    · have hhead : (regexBody text).head? ≠ some '/' := by
        intro hfirst
        obtain ⟨rest, hrest⟩ := List.head?_eq_some_iff.mp hfirst
        cases getLast?_of_regexBody (hrest.trans (List.nil_append _).symm)
      rw [regexBody_cons_of_ne hslash, bareSlashes_cons_of_ne hhead, ih]

namespace RegexUnit

/-- Whether a text has no slash with a backslash before it and does not end in a backslash that
takes the meaning of what comes after it. -/
def ClosesAtEnd (text : List Char) : Prop :=
  escaped '/' ∉ ofText text ∧ openEscape ∉ ofText text

/-- A unit with a backslash before a plain slash. -/
def guarded : RegexUnit → RegexUnit
  | plain '/' => escaped '/'
  | unit => unit

theorem bareSlash_guarded (unit : RegexUnit) : unit.guarded.bareSlash = unit.bareSlash := by
  unfold guarded
  split
  · rfl
  · rfl

theorem ofText_escaped (c : Char) (rest : List Char) :
    ofText ('\\' :: c :: rest) = escaped c :: ofText rest := by
  rw [ofText]

theorem ofText_plain {c : Char} (h : c ≠ '\\') (rest : List Char) :
    ofText (c :: rest) = plain c :: ofText rest := by
  simp [ofText, h]

theorem closesAtEnd_escaped (c : Char) (rest : List Char) :
    ClosesAtEnd ('\\' :: c :: rest) ↔ c ≠ '/' ∧ ClosesAtEnd rest := by
  rw [ClosesAtEnd, ofText_escaped, ClosesAtEnd]
  simp [eq_comm, and_assoc]

theorem closesAtEnd_plain {c : Char} (h : c ≠ '\\') (rest : List Char) :
    ClosesAtEnd (c :: rest) ↔ ClosesAtEnd rest := by
  rw [ClosesAtEnd, ofText_plain h, ClosesAtEnd]
  simp

/-- A text is empty, a single backslash, or begins with one unit. -/
theorem text_cases {motive : List Char → Prop} (text : List Char) (nil : motive [])
    (openEscape : motive ['\\'])
    (escaped : ∀ c rest, motive rest → motive ('\\' :: c :: rest))
    (plain : ∀ c rest, c ≠ '\\' → motive rest → motive (c :: rest)) : motive text := by
  fun_induction ofText text with
  | case1 => exact nil
  | case2 => exact openEscape
  | case3 c rest ih => exact escaped c rest ih
  | case4 c rest hend hescape ih =>
    have hc : c ≠ '\\' := by
      rintro rfl
      cases rest with
      | nil => exact hend rfl rfl
      | cons d rest => exact hescape d rest rfl rfl
    exact plain c rest hc ih

end RegexUnit

open RegexUnit

theorem splitSlash?_escaped (c : Char) (rest : List Char) :
    splitSlash? ('\\' :: c :: rest) =
      (splitSlash? rest).map fun (body, after) => ('\\' :: c :: body, after) := by
  rw [splitSlash?]

theorem splitSlash?_plain {c : Char} (hbackslash : c ≠ '\\') (hslash : c ≠ '/')
    (rest : List Char) :
    splitSlash? (c :: rest) = (splitSlash? rest).map fun (body, after) => (c :: body, after) := by
  rw [splitSlash?]
  · rintro rfl
    exact absurd rfl hbackslash
  · rintro d later rfl
    exact absurd rfl hbackslash
  · exact hslash

/-- A unit goes in front of the body that is split off what comes after it. -/
theorem map_unit_iff {closed : Prop} {split : Option (List Char × List Char)}
    {expected : List Char} (h : ∀ later, split = some (later, []) ↔ closed ∧ later = expected)
    (unit body : List Char) :
    (split.map fun (later, after) => (unit ++ later, after)) = some (body, []) ↔
      closed ∧ body = unit ++ expected := by
  rw [Option.map_eq_some_iff]
  constructor
  · rintro ⟨⟨later, after⟩, hsplit, heq⟩
    obtain ⟨rfl, rfl⟩ := Prod.mk.inj heq
    obtain ⟨hclosed, rfl⟩ := (h later).mp hsplit
    exact ⟨hclosed, rfl⟩
  · rintro ⟨hclosed, rfl⟩
    exact ⟨(expected, []), (h expected).mpr ⟨hclosed, rfl⟩, rfl⟩

/-- The first slash that no backslash stands before is the last character exactly when no slash had
a backslash and no backslash stands at the end. -/
theorem splitSlash?_regexBody_iff (text body : List Char) :
    splitSlash? (regexBody text ++ ['/']) = some (body, []) ↔
      ClosesAtEnd text ∧ body = regexBody text := by
  induction text using text_cases generalizing body with
  | nil => simp [regexBody, splitSlash?, ClosesAtEnd, ofText, eq_comm]
  | openEscape => simp [regexBody, regexChar, splitSlash?, ClosesAtEnd, ofText]
  | escaped c rest ih =>
    rw [closesAtEnd_escaped]
    by_cases hslash : c = '/'
    · -- The backslash that was there escapes the one that is added.
      subst hslash
      rw [regexBody_cons_of_ne (by decide), regexBody_slash]
      simp [splitSlash?]
    · rw [regexBody_cons_of_ne (by decide), regexBody_cons_of_ne hslash, List.cons_append,
        List.cons_append, splitSlash?_escaped, and_iff_right hslash]
      exact map_unit_iff ih ['\\', c] body
  | plain c rest hc ih =>
    rw [closesAtEnd_plain hc]
    by_cases hslash : c = '/'
    · subst hslash
      rw [regexBody_slash, List.cons_append, List.cons_append, splitSlash?_escaped]
      exact map_unit_iff ih ['\\', '/'] body
    · rw [regexBody_cons_of_ne hslash, List.cons_append, splitSlash?_plain hc hslash]
      exact map_unit_iff ih [c] body

/-- A closed expression keeps its units, but for a backslash before each plain slash. -/
theorem ofText_regexBody {text : List Char} (h : ClosesAtEnd text) :
    ofText (regexBody text) = (ofText text).map guarded := by
  induction text using text_cases with
  | nil => rfl
  | openEscape => simp [ClosesAtEnd, ofText] at h
  | escaped c rest ih =>
    obtain ⟨hslash, hrest⟩ := (closesAtEnd_escaped c rest).mp h
    rw [regexBody_cons_of_ne (by decide), regexBody_cons_of_ne hslash, ofText_escaped,
      ofText_escaped, ih hrest, List.map_cons]
    rfl
  | plain c rest hc ih =>
    have hrest := (closesAtEnd_plain hc rest).mp h
    by_cases hslash : c = '/'
    · subst hslash
      rw [regexBody_slash, ofText_escaped, ofText_plain hc, ih hrest, List.map_cons]
      rfl
    · rw [regexBody_cons_of_ne hslash, ofText_plain hc, ofText_plain hc, ih hrest, List.map_cons]
      simp [guarded, hslash]

theorem regexBody?_regexText_iff (text : String) (body : List Char) :
    regexBody? (regexText text) = some body ↔
      ClosesAtEnd text.toList ∧ body = regexBody text.toList := by
  rw [← splitSlash?_regexBody_iff, regexBody?, toList_regexText]
  simp only
  split
  · next found hfound => rw [hfound]; simp
  · next hfound =>
    constructor
    · rintro ⟨⟩
    · intro hsplit
      exact absurd hsplit (hfound body)

/-- Whether a literal is a regular expression between slashes, closed by the slash at its end, that
has the units of a text, a slash counting the same with a backslash and without. -/
def IsRegexLiteral (literal text : String) : Prop :=
  ∃ body, regexBody? literal = some body ∧
    (ofText body).map bareSlash = (ofText text.toList).map bareSlash

/-- A regular expression becomes one closed literal of the same meaning exactly when no slash in it
has a backslash of its own and it does not end in an open escape; and a literal that is closed
always has the same meaning. -/
theorem regexText_isRegexLiteral_iff (text : String) :
    (IsRegexLiteral (regexText text) text ↔
      escaped '/' ∉ ofText text.toList ∧ openEscape ∉ ofText text.toList) ∧
    ((regexBody? (regexText text)).isSome = true → IsRegexLiteral (regexText text) text) := by
  have hsame (hclosed : ClosesAtEnd text.toList) : IsRegexLiteral (regexText text) text := by
    refine ⟨_, (regexBody?_regexText_iff text _).mpr ⟨hclosed, rfl⟩, ?_⟩
    rw [ofText_regexBody hclosed, List.map_map]
    exact List.map_congr_left fun unit _ => bareSlash_guarded unit
  refine ⟨⟨?_, hsame⟩, ?_⟩
  · rintro ⟨body, hbody, -⟩
    exact ((regexBody?_regexText_iff text body).mp hbody).1
  · intro hsome
    obtain ⟨body, hbody⟩ := Option.isSome_iff_exists.mp hsome
    exact hsame ((regexBody?_regexText_iff text body).mp hbody).1

/-- A slash that has a backslash already ends the literal too early, and a backslash at the end
leaves it open. -/
theorem escaped_slash_unclosed :
    regexText "a\\/b" = "/a\\\\/b/" ∧ ¬IsRegexLiteral (regexText "a\\/b") "a\\/b" ∧
      ¬IsRegexLiteral (regexText "a\\") "a\\" := by
  refine ⟨rfl, ?_, ?_⟩
  · rintro ⟨body, hbody, -⟩
    cases hbody
  · rintro ⟨body, hbody, -⟩
    cases hbody

end SigmaCatalog.Query
