/-!
# Name patterns

A quantifier of a condition ranges over the search identifiers that a name pattern selects: either
every identifier that does not begin with `_`, or those whose names match a glob, in which `*`
stands for any text and every other character for itself.

A glob is matched character by character, and a star takes as little as possible at first.  When the
match cannot go on, the last star takes one more character of the name, and what follows it in the
glob is tried again from there; the stars before it are not tried again.  What a glob means is
`Glob.Fits`.
-/

namespace SigmaCatalog

namespace Glob

/-- A match of a glob that has come some of the way. -/
structure Attempt where
  /-- What is left of the glob. -/
  glob : List Char
  /-- What is left of the name. -/
  name : List Char
  /-- What follows the last star in the glob, and what is left of the name after the part that the
  star takes. -/
  star : Option (List Char × List Char) := none
  deriving DecidableEq, Repr

namespace Attempt

/-- The attempt in which the last star takes one more character; without a star there is none. -/
def retry (attempt : Attempt) : Attempt ⊕ Bool :=
  match attempt.star with
  | none => .inr false
  | some (glob, name) => .inl { glob, name := name.tail, star := some (glob, name.tail) }

/-- One turn of a match: the attempt to go on with, or the answer. -/
def turn : Attempt → Attempt ⊕ Bool
  | { glob, name := [], .. } => .inr (glob.all (· == '*'))
  | { glob := '*' :: glob, name, .. } => .inl { glob, name, star := some (glob, name) }
  | attempt@{ glob := g :: glob, name := c :: name, star } =>
    if g = c then .inl { glob, name, star } else attempt.retry
  | attempt@{ glob := [], .. } => attempt.retry

/-- A bound on the characters of the name that are left in any attempt to come. -/
def nameBound (attempt : Attempt) : Nat :=
  max attempt.name.length (attempt.star.elim 0 fun star => star.2.length)

/-- A bound on the characters of the glob that are left in any attempt to come. -/
def globBound (attempt : Attempt) : Nat :=
  max attempt.glob.length (attempt.star.elim 0 fun star => star.1.length)

/-- A bound on the turns to come. -/
def effort (attempt : Attempt) : Nat :=
  attempt.nameBound * (attempt.globBound + attempt.nameBound + 1) +
    (attempt.glob.length + attempt.name.length)

/-- The effort falls when less of the glob and the name is left and no more may come. -/
theorem effort_lt_of_advance {attempt next : Attempt} (hname : next.nameBound ≤ attempt.nameBound)
    (hglob : next.globBound ≤ attempt.globBound)
    (hleft : next.glob.length + next.name.length < attempt.glob.length + attempt.name.length) :
    next.effort < attempt.effort := by
  have hturns : next.nameBound * (next.globBound + next.nameBound + 1) ≤
      attempt.nameBound * (attempt.globBound + attempt.nameBound + 1) :=
    Nat.mul_le_mul hname (by omega)
  exact Nat.add_lt_add_of_le_of_lt hturns hleft

/-- The effort falls when less of the name may come, however much of the glob does again. -/
theorem effort_lt_of_restart {attempt next : Attempt} (hname : next.nameBound < attempt.nameBound)
    (hglob : next.globBound ≤ attempt.globBound) : next.effort < attempt.effort := by
  have hleft : next.glob.length + next.name.length ≤ next.globBound + next.nameBound :=
    Nat.add_le_add (Nat.le_max_left ..) (Nat.le_max_left ..)
  have hturns : (next.nameBound + 1) * (next.globBound + next.nameBound + 1) ≤
      attempt.nameBound * (attempt.globBound + attempt.nameBound + 1) :=
    Nat.mul_le_mul hname (by omega)
  rw [Nat.succ_mul] at hturns
  simp only [effort]
  omega

theorem effort_lt_of_retry {attempt next : Attempt} (hname : attempt.name ≠ [])
    (h : attempt.retry = .inl next) : next.effort < attempt.effort := by
  have hpositive := List.length_pos_iff.mpr hname
  obtain ⟨glob, name, star⟩ := attempt
  cases star with
  | none => cases h
  | some star =>
    cases h
    apply effort_lt_of_restart
    · simp only [nameBound, Option.elim, List.length_tail] at hpositive ⊢
      omega
    · simp only [globBound, Option.elim]
      omega

/-- Every turn that does not answer makes the match simpler. -/
theorem effort_lt_of_turn {attempt next : Attempt} (h : attempt.turn = .inl next) :
    next.effort < attempt.effort := by
  unfold turn at h
  split at h
  · cases h
  · cases h
    apply effort_lt_of_advance
    · simp only [nameBound, Option.elim]
      omega
    · simp only [globBound, Option.elim, List.length_cons]
      omega
    · simp only [List.length_cons]
      omega
  · split at h
    · cases h
      apply effort_lt_of_advance
      · simp only [nameBound, List.length_cons]
        omega
      · simp only [globBound, List.length_cons]
        omega
      · simp only [List.length_cons]
        omega
    · exact effort_lt_of_retry (List.cons_ne_nil _ _) h
  · next hname => exact effort_lt_of_retry (fun hnil => hname hnil) h

/-- What a match comes to. -/
def answer (attempt : Attempt) : Bool :=
  match _ : attempt.turn with
  | .inl next => next.answer
  | .inr answer => answer
  termination_by attempt.effort
  decreasing_by exact effort_lt_of_turn ‹_›

end Attempt

def matchesName (glob name : List Char) : Bool :=
  Attempt.answer { glob, name }

/-- A name that can be cut so that each `*` of a glob takes a part and every other character takes
itself. -/
inductive Fits : (glob name : List Char) → Prop
  | nil : Fits [] []
  | star {glob rest : List Char} (part : List Char) :
    Fits glob rest → Fits ('*' :: glob) (part ++ rest)
  | char {c : Char} {glob rest : List Char} (h : c ≠ '*') :
    Fits glob rest → Fits (c :: glob) (c :: rest)

end Glob

/-- Which search identifiers a quantifier ranges over. -/
inductive NamePattern where
  /-- Every identifier whose name does not begin with `_`. -/
  | them
  /-- The identifiers whose names match a glob. -/
  | glob (text : String)
  deriving DecidableEq, Repr

namespace NamePattern

/-- The pattern as it is written in a condition. -/
def text : NamePattern → String
  | them => "them"
  | glob text => text

def selects : NamePattern → String → Bool
  | them, name => name.toList.head? != some '_'
  | glob text, name => Glob.matchesName text.toList name.toList

/-- The declared names a pattern selects, in the order of declaration. -/
def expand (pattern : NamePattern) (declared : List String) : List String :=
  declared.filter pattern.selects

end NamePattern

end SigmaCatalog
