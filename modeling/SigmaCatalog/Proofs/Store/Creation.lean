import SigmaCatalog.Proofs.Store.Readiness

/-!
# One creation for all

Callers make indices ready over one store in which no call fails, while other clients work on the
documents of indices that exist.  A caller needs three turns at most and then has its index.  Of the
callers that want an index created one creates it, and the schema of that caller stays.  An index
that exists is left alone by all callers: it becomes what the calls of other clients make of it.
-/

namespace SigmaCatalog

open Program

/-! ## One index of a store -/

namespace Memory

/-- What a call makes of the index that it is about, if there is one. -/
def Index.later (current : Option Index) : Call → Option Index
  | .createIndex _ schema => some (current.getD (.empty schema))
  | .write _ id body condition _ _ => current.map fun index =>
      if permits condition (index.documents.get? id) then index.put id body else index
  | .delete _ id _ => current.map fun index =>
      if (index.documents.get? id).isSome then
        { index with documents := index.documents.erase id }
      else index
  | _ => current

theorem Effect.index?_eq {memory after : Memory} {call : Call} {reply : call.Reply} {name : String}
    (h : memory.Effect call reply after) (hname : name ≠ call.index) :
    after.index? name = memory.index? name := by
  cases h with
  | none => rfl
  | created | written | removed => rw [index?_setIndex]; exact if_neg hname

theorem index?_perform_self (memory : Memory) (call : Call) :
    (memory.perform call).2.index? call.index =
      Index.later (memory.index? call.index) call := by
  cases call with
  | indexExists name => rfl
  | get name id => rw [perform_get]; rfl
  | createIndex name schema =>
    cases hfound : memory.index? name with
    | none => simp [perform, Call.index, Index.later, hfound, index?_setIndex]
    | some found => simp [perform, Call.index, Index.later, hfound]
  | write name id body condition timeout refresh =>
    cases hfound : memory.index? name with
    | none => simp [perform, withIndex, Call.index, Index.later, hfound]
    | some found =>
      simp only [perform, withIndex, Call.index, Index.later, hfound, Option.map_some]
      split
      · rw [index?_setIndex, if_pos rfl]
      · exact hfound
  | delete name id refresh =>
    cases hfound : memory.index? name with
    | none => simp [perform, withIndex, Call.index, Index.later, hfound]
    | some found =>
      cases hdocument : found.documents.get? id with
      | none => simp [perform, withIndex, Call.index, Index.later, hfound, hdocument]
      | some document =>
        simp [perform, withIndex, Call.index, Index.later, hfound, hdocument, index?_setIndex]

/-- A call acts on the index that it is about, by what it is, and on no other. -/
theorem index?_perform (memory : Memory) (call : Call) (name : String) :
    (memory.perform call).2.index? name =
      if name = call.index then Index.later (memory.index? name) call else memory.index? name := by
  split
  · next hname => rw [hname, index?_perform_self]
  · next hname => exact (memory.effect call).index?_eq hname

theorem index?_perform_congr {memory other : Memory} {name : String}
    (h : memory.index? name = other.index? name) (call : Call) :
    (memory.perform call).2.index? name = (other.perform call).2.index? name := by
  rw [index?_perform, index?_perform, h]

def schema? (memory : Memory) (name : String) : Option Json :=
  (memory.index? name).map Index.schema

/-- No call takes an index away or changes its schema. -/
theorem schema?_perform {memory : Memory} {name : String} {schema : Json}
    (h : memory.schema? name = some schema) (call : Call) :
    (memory.perform call).2.schema? name = some schema := by
  obtain ⟨found, hfound, rfl⟩ := Option.map_eq_some_iff.mp h
  rw [schema?, index?_perform, hfound]
  split
  · cases call with
    | indexExists | createIndex | get => rfl
    | write | delete =>
      refine congrArg some ?_
      dsimp only
      split <;> rfl
  · rfl

theorem schema?_performAll {memory : Memory} {name : String} {schema : Json}
    (h : memory.schema? name = some schema) (calls : List Call) :
    (memory.performAll calls).schema? name = some schema := by
  induction calls generalizing memory with
  | nil => exact h
  | cons call calls ih => exact ih (schema?_perform h call)

end Memory

def Call.isCreation : Call → Bool
  | .createIndex _ _ => true
  | _ => false

/-- Calls that are no creations leave every index missing that is missing, and every schema as it
is. -/
theorem Memory.schema?_perform_eq (memory : Memory) {call : Call}
    (hcall : call.isCreation = false) (name : String) :
    (memory.perform call).2.schema? name = memory.schema? name := by
  cases hschema : memory.schema? name with
  | some schema => exact schema?_perform hschema call
  | none =>
    rw [schema?, index?_perform, Option.map_eq_none_iff.mp hschema]
    cases call with
    | createIndex => cases hcall
    | indexExists | get | write | delete => split <;> rfl

namespace Fleet

section Founding

variable {α : Type}

/-- Whether a turn has no failure in it and is no creation by another client. -/
def Turn.isOrderly : Turn → Bool
  | advance _ => true
  | fail _ _ => false
  | foreign call => !call.isCreation

def foreignCalls (turns : List Turn) : List Call :=
  turns.filterMap fun
    | .foreign call => some call
    | _ => none

/-- Whether a call, as it was answered, has created an index. -/
def Record.creates (index : String) : Record → Bool
  | ⟨_, .createIndex name _, .ok _⟩ => name = index
  | _ => false

def creations (fleet : Fleet α) (index : String) : List Record :=
  fleet.history.filter (·.creates index)

/-- How an index has come about since a race began: it was there before and has the schema that it
had, or it is still missing, or one caller has created it, once and with its own schema. -/
inductive IsFounded (memory : Memory) (demands : List (String × Json)) (index : String)
    (fleet : Fleet α) : Prop
  | kept {schema : Json} (hbefore : memory.schema? index = some schema)
    (hnow : fleet.memory.schema? index = some schema) (hcreations : fleet.creations index = [])
  | missing (hbefore : memory.schema? index = none) (hnow : fleet.memory.schema? index = none)
    (hcreations : fleet.creations index = [])
  | created {number : Nat} {schema : Json} (hbefore : memory.schema? index = none)
    (hdemand : demands[number]? = some (index, schema))
    (hnow : fleet.memory.schema? index = some schema)
    (hcreations : fleet.creations index = [⟨some number, .createIndex index schema, .ok true⟩])

theorem creations_append {fleet after : Fleet α} {record : Record}
    (h : after.history = fleet.history ++ [record]) (index : String) :
    after.creations index =
      fleet.creations index ++ if record.creates index then [record] else [] := by
  rw [creations, h, List.filter_append, List.filter_singleton, creations]
  cases record.creates index <;> rfl

theorem creations_append_of_not {fleet after : Fleet α} {record : Record}
    (h : after.history = fleet.history ++ [record]) {index : String}
    (hrecord : record.creates index = false) : after.creations index = fleet.creations index := by
  rw [creations_append h, hrecord]
  exact List.append_nil _

theorem creates_of_not_isCreation {maker : Option Nat} {call : Call} (reply : call.Reply)
    (h : call.isCreation = false) (index : String) :
    Record.creates index ⟨maker, call, reply⟩ = false := by
  cases call with
  | createIndex => cases h
  | indexExists | get | write | delete => rfl

end Founding

end Fleet

/-! ## One caller -/

/-- What is left of a caller that needs no more than a number of turns. -/
inductive Approaching (index : String) (schema : Json) (memory : Memory) :
    Nat → Program (Except ReadinessError Unit) → Prop
  | checking : Approaching index schema memory 3 (makeReady index schema)
  | creating : Approaching index schema memory 2 (createReady index schema)
  | rechecking (hindexed : (memory.index? index).isSome = true) :
    Approaching index schema memory 1 (recheckReady index (.create index (.indexExists index)))
  | ready {count : Nat} (hindexed : (memory.index? index).isSome = true) :
    Approaching index schema memory count (.done (.ok ()))

namespace Approaching

variable {index : String} {schema : Json} {memory after : Memory} {count : Nat}
  {program : Program (Except ReadinessError Unit)}

theorem mono (h : Approaching index schema memory count program)
    (hindexed : (memory.index? index).isSome = true → (after.index? index).isSome = true) :
    Approaching index schema after count program := by
  cases h with
  | checking => exact .checking
  | creating => exact .creating
  | rechecking hfound => exact .rechecking (hindexed hfound)
  | ready hfound => exact .ready (hindexed hfound)

theorem of_check :
    Approaching index schema memory 2
      (afterCheck index schema (memory.perform (.indexExists index)).1) := by
  rw [Memory.perform_indexExists]
  cases hfound : (memory.index? index).isSome with
  | false => exact .creating
  | true => exact .ready hfound

theorem of_creation :
    Approaching index schema (memory.perform (.createIndex index schema)).2 1
      (afterCreation index (memory.perform (.createIndex index schema)).1) := by
  cases hfound : memory.index? index with
  | none =>
    rw [Memory.perform_createIndex_of_none hfound]
    exact .ready (memory.isSome_index?_setIndex index (.empty schema))
  | some found =>
    rw [Memory.perform_createIndex_of_some hfound]
    exact .rechecking (by rw [hfound, Option.isSome_some])

theorem of_recheck (hindexed : (memory.index? index).isSome = true) :
    Approaching index schema memory 0
      (afterRecheck (.create index (.indexExists index))
        (memory.perform (.indexExists index)).1) := by
  rw [Memory.perform_indexExists, hindexed]
  exact .ready hindexed

end Approaching

namespace Fleet

/-- What the turn of a caller does to the store and to the history: nothing that matters, or it
creates the missing index of this caller. -/
inductive Moves (number : Nat) (index : String) (schema : Json)
    (fleet after : Fleet (Except ReadinessError Unit)) : Prop
  | quiet (hmemory : after.memory = fleet.memory)
    (hcreations : ∀ name, after.creations name = fleet.creations name)
  | creates (hmissing : fleet.memory.index? index = none)
    (hmemory : after.memory = fleet.memory.setIndex index (.empty schema))
    (hhistory : after.history =
      fleet.history ++ [⟨some number, .createIndex index schema, .ok true⟩])

/-- Whether a caller needs no more than a number of turns. -/
def Nears (number : Nat) (index : String) (schema : Json) (count : Nat)
    (fleet : Fleet (Except ReadinessError Unit)) : Prop :=
  ∃ program, fleet.programs[number]? = some program ∧
    Approaching index schema fleet.memory count program

section Callers

variable {number count : Nat} {index : String} {schema : Json} {turn : Turn}
  {fleet : Fleet (Except ReadinessError Unit)}

theorem take_look {next : Except StoreError Bool → Program (Except ReadinessError Unit)}
    (h : fleet.programs[number]? = some (.act (.store (.indexExists index)) next)) (time : String) :
    Moves number index schema fleet (fleet.take time (.advance number)) := by
  rw [take_store h]
  exact .quiet rfl fun name => creations_append_of_not rfl rfl

theorem take_creation {next : Except StoreError Bool → Program (Except ReadinessError Unit)}
    (h : fleet.programs[number]? = some (.act (.store (.createIndex index schema)) next))
    (time : String) : Moves number index schema fleet (fleet.take time (.advance number)) := by
  rw [take_store h]
  cases hfound : fleet.memory.index? index with
  | none =>
    rw [Memory.perform_createIndex_of_none hfound]
    exact .creates hfound rfl rfl
  | some found =>
    rw [Memory.perform_createIndex_of_some hfound]
    exact .quiet rfl fun name => creations_append_of_not rfl rfl

/-- A turn of a caller brings it nearer to its end, and changes the store only where it creates the
index. -/
theorem Nears.advance (h : fleet.Nears number index schema count) (time : String) :
    (fleet.take time (.advance number)).Nears number index schema (count - 1) ∧
      Moves number index schema fleet (fleet.take time (.advance number)) := by
  obtain ⟨program, hprogram, happroaching⟩ := h
  cases happroaching with
  | checking =>
    rw [makeReady_eq] at hprogram
    refine ⟨?_, take_look hprogram time⟩
    rw [take_store hprogram]
    exact ⟨_, getElem?_set_of_eq_some hprogram, .of_check⟩
  | creating =>
    rw [createReady_eq] at hprogram
    refine ⟨?_, take_creation hprogram time⟩
    rw [take_store hprogram]
    exact ⟨_, getElem?_set_of_eq_some hprogram, .of_creation⟩
  | rechecking hindexed =>
    rw [recheckReady_eq] at hprogram
    refine ⟨?_, take_look hprogram time⟩
    rw [take_store hprogram]
    exact ⟨_, getElem?_set_of_eq_some hprogram, .of_recheck hindexed⟩
  | ready hindexed =>
    rw [take_done hprogram]
    exact ⟨⟨_, hprogram, .ready hindexed⟩, .quiet rfl fun name => rfl⟩

theorem Nears.aside (h : fleet.Nears number index schema count) (hmover : turn.mover ≠ some number)
    (time : String) : (fleet.take time turn).Nears number index schema count := by
  obtain ⟨program, hprogram, happroaching⟩ := h
  refine ⟨program, ?_, happroaching.mono (fleet.adds_take time turn).indexed⟩
  rw [take_programs_other hmover, hprogram]

theorem Nears.takeAll (h : fleet.Nears number index schema count) (time : String)
    {turns : List Turn} (horderly : ∀ turn ∈ turns, turn.isOrderly = true) :
    (fleet.takeAll time turns).Nears number index schema
      (count - turns.countP (·.mover = some number)) := by
  induction turns generalizing fleet count with
  | nil => exact h
  | cons turn turns ih =>
    obtain ⟨hturn, hturns⟩ := List.forall_mem_cons.mp horderly
    rw [List.countP_cons]
    by_cases hmover : turn.mover = some number
    · have hnext : (fleet.take time turn).Nears number index schema (count - 1) := by
        cases turn with
        | advance mover =>
          obtain rfl := Option.some.inj hmover
          exact (h.advance time).1
        | fail mover cause => cases hturn
        | foreign call => cases hmover
      rw [if_pos (decide_eq_true hmover), Nat.add_comm, ← Nat.sub_sub]
      exact ih hnext hturns
    · rw [if_neg (by simpa using hmover), Nat.add_zero]
      exact ih (h.aside hmover time) hturns

theorem Nears.begin {memory : Memory} {demands : List (String × Json)}
    (h : demands[number]? = some (index, schema)) :
    (readiers memory demands).Nears number index schema 3 := by
  refine ⟨makeReady index schema, ?_, .checking⟩
  rw [readiers, List.getElem?_map, h, Option.map_some]

theorem Nears.result?_eq (h : fleet.Nears number index schema 0) :
    fleet.result? number = some (.ok ()) := by
  obtain ⟨program, hprogram, happroaching⟩ := h
  cases happroaching
  exact result?_eq_some_iff.mpr hprogram

/-- A caller that has ended has its index. -/
theorem Nears.ended (h : fleet.Nears number index schema count)
    {result : Except ReadinessError Unit} (hresult : fleet.result? number = some result) :
    result = .ok () ∧ (fleet.memory.index? index).isSome = true := by
  obtain ⟨program, hprogram, happroaching⟩ := h
  obtain rfl := Option.some.inj (hprogram.symm.trans (result?_eq_some_iff.mp hresult))
  cases happroaching with
  | ready hindexed => exact ⟨rfl, hindexed⟩

end Callers

/-! ## The race as a whole -/

/-- Whether every demand has its caller, and there are no others. -/
structure Attended (demands : List (String × Json)) (fleet : Fleet (Except ReadinessError Unit)) :
    Prop where
  callers : ∀ (number : Nat) index schema, demands[number]? = some (index, schema) →
    ∃ count, fleet.Nears number index schema count
  nobody : ∀ number : Nat, demands[number]? = none → fleet.programs[number]? = none

section Races

variable {memory : Memory} {demands : List (String × Json)} {index : String} {turn : Turn}
  {fleet : Fleet (Except ReadinessError Unit)}

theorem attended_readiers (memory : Memory) (demands : List (String × Json)) :
    (readiers memory demands).Attended demands where
  callers number index schema h := ⟨3, .begin h⟩
  nobody number h := by rw [readiers, List.getElem?_map, h, Option.map_none]

theorem Attended.advance (h : fleet.Attended demands) (time : String) (number : Nat) :
    fleet.take time (.advance number) = fleet ∨
      ∃ index schema, demands[number]? = some (index, schema) ∧
        Moves number index schema fleet (fleet.take time (.advance number)) := by
  cases hdemand : demands[number]? with
  | none => exact .inl (take_none (h.nobody number hdemand) time)
  | some demand =>
    obtain ⟨count, hnears⟩ := h.callers number demand.1 demand.2 hdemand
    exact .inr ⟨demand.1, demand.2, rfl, (hnears.advance time).2⟩

theorem Attended.take (h : fleet.Attended demands) (horderly : turn.isOrderly = true)
    (time : String) : (fleet.take time turn).Attended demands where
  callers number index schema hdemand := by
    obtain ⟨count, hnears⟩ := h.callers number index schema hdemand
    have hturns : ∀ later ∈ [turn], later.isOrderly = true := List.forall_mem_singleton.mpr horderly
    exact ⟨_, hnears.takeAll time hturns⟩
  nobody number hdemand := by
    have hnone := h.nobody number hdemand
    by_cases hmover : turn.mover = some number
    · cases turn with
      | advance mover =>
        obtain rfl := Option.some.inj hmover
        rw [take_none hnone, hnone]
      | fail mover cause => cases horderly
      | foreign call => cases hmover
    · rw [take_programs_other hmover, hnone]

theorem isFounded_readiers (memory : Memory) (demands : List (String × Json)) (index : String) :
    (readiers memory demands).IsFounded memory demands index := by
  cases hbefore : memory.schema? index with
  | none => exact .missing hbefore hbefore rfl
  | some schema => exact .kept hbefore hbefore rfl

theorem IsFounded.congr {after : Fleet (Except ReadinessError Unit)}
    (h : fleet.IsFounded memory demands index)
    (hschema : after.memory.schema? index = fleet.memory.schema? index)
    (hcreations : after.creations index = fleet.creations index) :
    after.IsFounded memory demands index := by
  cases h with
  | kept hbefore hnow hnone => exact .kept hbefore (hschema.trans hnow) (hcreations.trans hnone)
  | missing hbefore hnow hnone =>
    exact .missing hbefore (hschema.trans hnow) (hcreations.trans hnone)
  | created hbefore hdemand hnow hone =>
    exact .created hbefore hdemand (hschema.trans hnow) (hcreations.trans hone)

/-- A caller creates its index only where nobody has, and leaves all others as they are. -/
theorem IsFounded.moves {after : Fleet (Except ReadinessError Unit)} {number : Nat} {name : String}
    {schema : Json} (h : fleet.IsFounded memory demands index)
    (hdemand : demands[number]? = some (name, schema))
    (hmoves : Moves number name schema fleet after) : after.IsFounded memory demands index := by
  cases hmoves with
  | quiet hmemory hcreations => exact h.congr (by rw [hmemory]) (hcreations index)
  | creates hmissing hmemory hhistory =>
    have hcreates : Record.creates index ⟨some number, .createIndex name schema, .ok true⟩ =
        decide (name = index) := rfl
    by_cases hname : name = index
    · subst hname
      have hnow : after.memory.schema? name = some schema := by
        rw [hmemory, Memory.schema?, Memory.index?_setIndex, if_pos rfl]
        rfl
      have hmissing : fleet.memory.schema? name = none := by
        rw [Memory.schema?, hmissing, Option.map_none]
      have hone := creations_append hhistory name
      rw [hcreates, if_pos (decide_eq_true rfl)] at hone
      cases h with
      | kept _ hpresent => cases hmissing.symm.trans hpresent
      | created _ _ hpresent => cases hmissing.symm.trans hpresent
      | missing hbefore _ hnone =>
        rw [hnone] at hone
        exact .created hbefore hdemand hnow hone
    · refine h.congr ?_ (creations_append_of_not hhistory (hcreates.trans (decide_eq_false hname)))
      rw [hmemory, Memory.schema?, Memory.index?_setIndex, if_neg (Ne.symm hname), Memory.schema?]

theorem IsFounded.take (h : fleet.IsFounded memory demands index)
    (hattended : fleet.Attended demands) (horderly : turn.isOrderly = true) (time : String) :
    (fleet.take time turn).IsFounded memory demands index := by
  cases turn with
  | advance number =>
    obtain hidle | ⟨name, schema, hdemand, hmoves⟩ := hattended.advance time number
    · rw [hidle]
      exact h
    · exact h.moves hdemand hmoves
  | fail number cause => cases horderly
  | foreign call =>
    have hcall : call.isCreation = false := by simpa [Turn.isOrderly] using horderly
    exact h.congr (fleet.memory.schema?_perform_eq hcall index)
      (creations_append_of_not rfl (creates_of_not_isCreation _ hcall index))

theorem Attended.takeAll (h : fleet.Attended demands) (time : String) {turns : List Turn}
    (horderly : ∀ turn ∈ turns, turn.isOrderly = true) :
    (fleet.takeAll time turns).Attended demands := by
  induction turns generalizing fleet with
  | nil => exact h
  | cons turn turns ih =>
    obtain ⟨hturn, hturns⟩ := List.forall_mem_cons.mp horderly
    exact ih (h.take hturn time) hturns

theorem IsFounded.takeAll (h : fleet.IsFounded memory demands index)
    (hattended : fleet.Attended demands) (time : String) {turns : List Turn}
    (horderly : ∀ turn ∈ turns, turn.isOrderly = true) :
    (fleet.takeAll time turns).IsFounded memory demands index := by
  induction turns generalizing fleet with
  | nil => exact h
  | cons turn turns ih =>
    obtain ⟨hturn, hturns⟩ := List.forall_mem_cons.mp horderly
    exact ih (h.take hattended hturn time) (hattended.take hturn time) hturns

/-- Callers leave an index that exists as it is, so it becomes what the calls of other clients make
of it alone. -/
theorem Attended.index?_takeAll (h : fleet.Attended demands) (time : String) {turns : List Turn}
    (horderly : ∀ turn ∈ turns, turn.isOrderly = true) {alone : Memory}
    (hsame : fleet.memory.index? index = alone.index? index)
    (hindexed : (fleet.memory.index? index).isSome = true) :
    (fleet.takeAll time turns).memory.index? index =
      (alone.performAll (foreignCalls turns)).index? index := by
  induction turns generalizing fleet alone with
  | nil => exact hsame
  | cons turn turns ih =>
    obtain ⟨hturn, hturns⟩ := List.forall_mem_cons.mp horderly
    have hattended := h.take hturn time
    have hstays := (fleet.adds_take time turn).indexed hindexed
    cases turn with
    | advance number =>
      refine ih hattended hturns ?_ hstays
      obtain hidle | ⟨name, schema, -, hmoves⟩ := h.advance time number
      · rw [hidle, hsame]
      · cases hmoves with
        | quiet hmemory => rw [hmemory, hsame]
        | creates hmissing hmemory =>
          have hname : index ≠ name := by
            rintro rfl
            rw [hmissing] at hindexed
            cases hindexed
          rw [hmemory, Memory.index?_setIndex, if_neg hname, hsame]
    | fail number cause => cases hturn
    | foreign call =>
      exact ih hattended hturns (Memory.index?_perform_congr hsame call) hstays

end Races

end Fleet

/-- Callers that make indices ready, each with a schema of its own, race while other clients work on
documents.  A caller is done after three turns at most, always with success and with its index
there.  An index that was missing is created by one caller once, and has the schema of that caller.
From then on, as from the start if it was there, it keeps its schema and holds the documents that
the other clients alone would have left in it. -/
theorem created_once (time : String) (memory : Memory) (demands : List (String × Json))
    (turns more : List Fleet.Turn) (hturns : ∀ turn ∈ turns, turn.isOrderly = true)
    (hmore : ∀ turn ∈ more, turn.isOrderly = true) :
    let race := (readiers memory demands).takeAll time turns
    let later := race.takeAll time more
    (∀ (number : Nat) index schema, demands[number]? = some (index, schema) →
      (3 ≤ turns.countP (·.mover = some number) → race.result? number = some (.ok ())) ∧
      ∀ result, race.result? number = some result →
        result = .ok () ∧ (race.memory.index? index).isSome = true) ∧
    (∀ index, race.IsFounded memory demands index) ∧
    ∀ index schema, race.memory.schema? index = some schema →
      later.memory.schema? index = some schema ∧
      later.memory.index? index =
        (race.memory.performAll (Fleet.foreignCalls more)).index? index := by
  intro race later
  have hbegun := Fleet.attended_readiers memory demands
  have hrace : race.Attended demands := hbegun.takeAll time hturns
  refine ⟨?_, ?_, ?_⟩
  · intro number index schema hdemand
    have hbegin : (readiers memory demands).Nears number index schema 3 := .begin hdemand
    have hnears := hbegin.takeAll time hturns
    constructor
    · intro hcount
      rw [Nat.sub_eq_zero_of_le hcount] at hnears
      exact hnears.result?_eq
    · intro result hresult
      exact hnears.ended hresult
  · intro index
    exact (Fleet.isFounded_readiers memory demands index).takeAll hbegun time hturns
  · intro index schema hschema
    obtain ⟨found, hfound, -⟩ := Option.map_eq_some_iff.mp hschema
    have hlater : later.memory.index? index =
        (race.memory.performAll (Fleet.foreignCalls more)).index? index :=
      hrace.index?_takeAll time hmore rfl (by rw [hfound, Option.isSome_some])
    refine ⟨?_, hlater⟩
    rw [Memory.schema?, hlater]
    exact Memory.schema?_performAll hschema _

/-- Two callers that want the index `rules` with different schemas. -/
def contestedDemands : List (String × Json) :=
  [("rules", .string "first"), ("rules", .string "second")]

/-- Both callers find no index.  The second creates it, and another client writes to it before the
first comes too late. -/
def contestedTurns : List Fleet.Turn :=
  [.foreign (.write "rules" "r" .null none 0 .none), .advance 0, .advance 1, .advance 1,
    .foreign (.write "rules" "r" (.string "body") none 0 .none), .advance 0, .advance 0]

/-- The document is removed, and both callers are asked to go on. -/
def laterTurns : List Fleet.Turn :=
  [.advance 0, .foreign (.delete "rules" "r" .none), .advance 1]

theorem created_once_contested :
    let race := (readiers .empty contestedDemands).takeAll "" contestedTurns
    let later := race.takeAll "" laterTurns
    race.result? 0 = some (.ok ()) ∧
      race.IsFounded .empty contestedDemands "rules" ∧
      race.memory.schema? "rules" = some (.string "second") ∧
      race.memory.document? "rules" "r" = some ⟨"r", 1, 0, 1, .string "body"⟩ ∧
      later.memory.schema? "rules" = some (.string "second") ∧
      later.memory.index? "rules" =
        (race.memory.performAll [.delete "rules" "r" .none]).index? "rules" := by
  intro race later
  have hturns : ∀ turn ∈ contestedTurns, turn.isOrderly = true := by decide
  have hmore : ∀ turn ∈ laterTurns, turn.isOrderly = true := by decide
  have hschema : race.memory.schema? "rules" = some (.string "second") := rfl
  obtain ⟨hcallers, hfounded, hkept⟩ :=
    created_once "" .empty contestedDemands contestedTurns laterTurns hturns hmore
  obtain ⟨hready, -⟩ := hcallers 0 "rules" (.string "first") rfl
  obtain ⟨hlater, hindex⟩ := hkept "rules" (.string "second") hschema
  exact ⟨hready (by decide), hfounded "rules", hschema, rfl, hlater, hindex⟩

end SigmaCatalog
