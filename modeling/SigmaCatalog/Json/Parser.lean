import SigmaCatalog.Json.Token

/-!
# Reading JSON text

A text is a JSON value when its tokens form one value and nothing follows it.  Arrays and objects
may be nested 127 deep.
-/

namespace SigmaCatalog.Json

namespace Parser

open Reading (Step)

def maxDepth : Nat := 127

mutual

/-- Reads a value that may hold `depth` more levels. -/
def value (depth : Nat) (tokens : List Token) : Option (Step tokens Json) :=
  match depth, tokens with
  | _, .scalar v :: rest => some ⟨v, rest, by simp⟩
  | _ + 1, .openBracket :: .closeBracket :: rest =>
    some ⟨.array [], rest, by simp only [List.length_cons]; omega⟩
  | depth + 1, .openBracket :: rest =>
    match elements depth rest with
    | none => none
    | some step => some ((step.map Json.array).widen (by simp))
  | _ + 1, .openBrace :: .closeBrace :: rest =>
    some ⟨.members [], rest, by simp only [List.length_cons]; omega⟩
  | depth + 1, .openBrace :: rest =>
    match entries depth rest with
    | none => none
    | some step => some ((step.map Json.object).widen (by simp))
  | _, _ => none
  termination_by tokens.length * 2

/-- Reads the elements of an array and its closing bracket. -/
def elements (depth : Nat) (tokens : List Token) : Option (Step tokens (List Json)) :=
  match value depth tokens with
  | none => none
  | some ⟨first, .comma :: rest, h⟩ =>
    match elements depth rest with
    | none => none
    | some step =>
      some ((step.map (first :: ·)).widen (by simp only [List.length_cons] at h; omega))
  | some ⟨first, .closeBracket :: rest, h⟩ =>
    some ⟨[first], rest, by simp only [List.length_cons] at h; omega⟩
  | some _ => none
  termination_by tokens.length * 2 + 1
  decreasing_by
    · omega
    · simp only [List.length_cons] at h
      omega

/-- Reads the members of an object and its closing brace. -/
def entries (depth : Nat) (tokens : List Token) : Option (Step tokens (List (String × Json))) :=
  match tokens with
  | .scalar (.string name) :: .colon :: rest =>
    match value depth rest with
    | none => none
    | some ⟨first, .comma :: later, h⟩ =>
      match entries depth later with
      | none => none
      | some step =>
        some ((step.map ((name, first) :: ·)).widen
          (by simp only [List.length_cons] at h ⊢; omega))
    | some ⟨first, .closeBrace :: later, h⟩ =>
      some ⟨[(name, first)], later, by simp only [List.length_cons] at h ⊢; omega⟩
    | some _ => none
  | _ => none
  termination_by tokens.length * 2 + 1
  decreasing_by
    · simp only [List.length_cons]; omega
    · simp only [List.length_cons] at h ⊢
      omega

end

end Parser

def parse? (text : String) : Option Json :=
  match Token.ofText text with
  | none => none
  | some tokens =>
    match Parser.value Parser.maxDepth tokens with
    | some ⟨value, [], _⟩ => some value
    | _ => none

end SigmaCatalog.Json
