import SigmaCatalog.Proofs.Store.Turns

/-!
# Races for an index

Any number of callers make indices ready over one store.  A check for an index may fail, but the
creation of an index takes place at once or finds that the index exists.  A caller whose creation
came too late looks for the index once more, and finds it there, since no index is ever removed.
Only a caller that cannot look again reports that it was too late, although its index is there.
-/

namespace SigmaCatalog

open Program

/-! ## What is left of a caller -/

section Caller

variable (index : String) (schema : Json) (failure : ReadinessError)

/-- What is left of a caller that has looked for an index that it could not create. -/
def afterRecheck : Except StoreError Bool → Program (Except ReadinessError Unit)
  | .ok true => .done (.ok ())
  | .ok false => .done (.error failure)
  | .error _ => .act (.notify (.warning .recheckFailed)) fun _ => .done (.error failure)

/-- What is left of a caller after the creation of its index was answered. -/
def afterCreation : Except StoreError Bool → Program (Except ReadinessError Unit)
  | .ok true => .done (.ok ())
  | .ok false => recheckReady index (.notAcknowledged index)
  | .error cause => recheckReady index (.create index cause)

/-- What is left of a caller that has looked for its index. -/
def afterCheck : Except StoreError Bool → Program (Except ReadinessError Unit)
  | .ok true => .done (.ok ())
  | .ok false => createReady index schema
  | .error _ => .act (.notify (.warning .existsCheckFailed)) fun _ => createReady index schema

theorem recheckReady_eq :
    recheckReady index failure = .act (.store (.indexExists index)) (afterRecheck failure) := by
  rw [recheckReady]
  refine congrArg (Program.act (.store (.indexExists index))) (funext fun reply => ?_)
  rcases reply with cause | _ | _ <;> rfl

theorem createReady_eq :
    createReady index schema =
      .act (.store (.createIndex index schema)) (afterCreation index) := by
  rw [createReady]
  refine congrArg (Program.act (.store (.createIndex index schema))) (funext fun reply => ?_)
  rcases reply with cause | _ | _ <;> rfl

theorem makeReady_eq :
    makeReady index schema = .act (.store (.indexExists index)) (afterCheck index schema) := by
  rw [makeReady]
  refine congrArg (Program.act (.store (.indexExists index))) (funext fun reply => ?_)
  rcases reply with cause | _ | _ <;> rfl

end Caller

/-! ## The race -/

/-- Callers that are about to make indices ready, each with the schema that it has for its own. -/
def readiers (memory : Memory) (demands : List (String × Json)) :
    Fleet (Except ReadinessError Unit) :=
  { memory, programs := demands.map fun demand => makeReady demand.1 demand.2 }

namespace Fleet

def isCreating {α : Type} (fleet : Fleet α) (number : Nat) : Bool :=
  match fleet.programs[number]? with
  | some (.act (.store (.createIndex _ _)) _) => true
  | _ => false

/-- Whether in some turns every creation of an index reaches the store, whatever other calls
fail. -/
def createsAtOnce {α : Type} (time : String) : Fleet α → List Turn → Bool
  | _, [] => true
  | fleet, turn :: turns =>
    (match turn with
      | .fail number _ => !fleet.isCreating number
      | _ => true) && createsAtOnce time (fleet.take time turn) turns

/-- Whether some calls are those of a caller that has found out at its creation that its index
exists, and whose second look at it has failed. -/
def IsLostUnseen (number : Nat) (index : String) (schema : Json) (records : List Record) : Prop :=
  ∃ first cause, records = [
    ⟨some number, .indexExists index, first⟩,
    ⟨some number, .createIndex index schema, .error (.indexExists index)⟩,
    ⟨some number, .indexExists index, .error cause⟩]

end Fleet

/-- Where a caller stands, by its answered calls. -/
inductive Readying (number : Nat) (index : String) (schema : Json) (memory : Memory) :
    List Fleet.Record → Program (Except ReadinessError Unit) → Prop
  | checking : Readying number index schema memory [] (makeReady index schema)
  | warning (first : Except StoreError Bool) :
    Readying number index schema memory [⟨some number, .indexExists index, first⟩]
      (.act (.notify (.warning .existsCheckFailed)) fun _ => createReady index schema)
  | creating (first : Except StoreError Bool) :
    Readying number index schema memory [⟨some number, .indexExists index, first⟩]
      (createReady index schema)
  | lost (first : Except StoreError Bool) (hindexed : (memory.index? index).isSome = true) :
    Readying number index schema memory
      [⟨some number, .indexExists index, first⟩,
        ⟨some number, .createIndex index schema, .error (.indexExists index)⟩]
      (recheckReady index (.create index (.indexExists index)))
  | failing {records : List Fleet.Record}
    (hunseen : Fleet.IsLostUnseen number index schema records) :
    Readying number index schema memory records (.act (.notify (.warning .recheckFailed)) fun _ =>
      .done (.error (.create index (.indexExists index))))
  | failed {records : List Fleet.Record}
    (hunseen : Fleet.IsLostUnseen number index schema records) :
    Readying number index schema memory records
      (.done (.error (.create index (.indexExists index))))
  | ready {records : List Fleet.Record}
    (hseen : ¬Fleet.IsLostUnseen number index schema records) :
    Readying number index schema memory records (.done (.ok ()))

namespace Readying

variable {number : Nat} {index : String} {schema : Json} {memory after : Memory}
  {records : List Fleet.Record} {program : Program (Except ReadinessError Unit)}

/-- Where a caller stands does not change as long as its index stays. -/
theorem mono (h : Readying number index schema memory records program)
    (hindexed : (memory.index? index).isSome = true → (after.index? index).isSome = true) :
    Readying number index schema after records program := by
  cases h with
  | checking => exact .checking
  | warning first => exact .warning first
  | creating first => exact .creating first
  | lost first hfound => exact .lost first (hindexed hfound)
  | failing hunseen => exact .failing hunseen
  | failed hunseen => exact .failed hunseen
  | ready hseen => exact .ready hseen

theorem not_isLostUnseen_of_length (h : records.length ≠ 3) :
    ¬Fleet.IsLostUnseen number index schema records := by
  rintro ⟨first, cause, rfl⟩
  exact h rfl

theorem of_check (reply : Except StoreError Bool) :
    Readying number index schema memory [⟨some number, .indexExists index, reply⟩]
      (afterCheck index schema reply) := by
  rcases reply with cause | _ | _
  · exact .warning _
  · exact .creating _
  · exact .ready (not_isLostUnseen_of_length (by simp))

/-- What the store answers to a creation: it is carried out, or the index exists. -/
theorem of_creation (first : Except StoreError Bool) :
    Readying number index schema (memory.perform (.createIndex index schema)).2
      [⟨some number, .indexExists index, first⟩,
        ⟨some number, .createIndex index schema, (memory.perform (.createIndex index schema)).1⟩]
      (afterCreation index (memory.perform (.createIndex index schema)).1) := by
  cases hfound : memory.index? index with
  | none =>
    rw [Memory.perform_createIndex_of_none hfound]
    exact .ready (not_isLostUnseen_of_length (by simp))
  | some found =>
    rw [Memory.perform_createIndex_of_some hfound]
    exact .lost first (by rw [hfound, Option.isSome_some])

/-- A second look that is answered finds the index. -/
theorem of_recheck (first : Except StoreError Bool)
    (hindexed : (memory.index? index).isSome = true) :
    Readying number index schema memory
      [⟨some number, .indexExists index, first⟩,
        ⟨some number, .createIndex index schema, .error (.indexExists index)⟩,
        ⟨some number, .indexExists index, (memory.perform (.indexExists index)).1⟩]
      (afterRecheck (.create index (.indexExists index))
        (memory.perform (.indexExists index)).1) := by
  rw [Memory.perform_indexExists, hindexed]
  refine .ready ?_
  rintro ⟨first', cause, heq⟩
  have hlast := (List.cons.inj (List.cons.inj (List.cons.inj heq).2).2).1
  cases hlast

end Readying

/-- What holds of one caller of a race at any time. -/
def Fleet.Races (number : Nat) (index : String) (schema : Json)
    (fleet : Fleet (Except ReadinessError Unit)) : Prop :=
  ∃ program, fleet.programs[number]? = some program ∧
    Readying number index schema fleet.memory (fleet.callsOf number) program

namespace Fleet.Races

variable {number : Nat} {index : String} {schema : Json}
  {fleet after : Fleet (Except ReadinessError Unit)}

theorem begin {memory : Memory} {demands : List (String × Json)}
    (h : demands[number]? = some (index, schema)) :
    (readiers memory demands).Races number index schema := by
  refine ⟨makeReady index schema, ?_, .checking⟩
  rw [readiers, List.getElem?_map, h, Option.map_some]

/-- An answered call brings a caller further. -/
theorem answered (h : fleet.programs[number]? = some program) {call : Call} {reply : call.Reply}
    {left : Program (Except ReadinessError Unit)}
    (hprograms : after.programs = fleet.programs.set number left)
    (hhistory : after.history = fleet.history ++ [⟨some number, call, reply⟩])
    (hreadying : Readying number index schema after.memory
      (fleet.callsOf number ++ [⟨some number, call, reply⟩]) left) :
    after.Races number index schema := by
  refine ⟨left, ?_, ?_⟩
  · rw [hprograms, getElem?_set_of_eq_some h]
  · rw [callsOf_append_self hhistory rfl]
    exact hreadying

/-- A warning changes nothing else. -/
theorem warned (h : fleet.programs[number]? = some program)
    {left : Program (Except ReadinessError Unit)}
    (hreadying : Readying number index schema fleet.memory (fleet.callsOf number) left) :
    Races number index schema { fleet with programs := fleet.programs.set number left } :=
  ⟨left, getElem?_set_of_eq_some h, hreadying⟩

theorem advance (h : fleet.Races number index schema) (time : String) :
    (fleet.take time (.advance number)).Races number index schema := by
  obtain ⟨program, hprogram, hreadying⟩ := h
  generalize hrecords : fleet.callsOf number = records at hreadying
  cases hreadying with
  | checking =>
    rw [makeReady_eq] at hprogram
    rw [take_store hprogram]
    refine answered hprogram rfl rfl ?_
    rw [hrecords]
    exact .of_check _
  | warning first =>
    rw [take_notify hprogram]
    exact warned hprogram (hrecords ▸ .creating first)
  | creating first =>
    rw [createReady_eq] at hprogram
    rw [take_store hprogram]
    refine answered hprogram rfl rfl ?_
    rw [hrecords]
    exact .of_creation first
  | lost first hindexed =>
    rw [recheckReady_eq] at hprogram
    rw [take_store hprogram]
    refine answered hprogram rfl rfl ?_
    rw [hrecords]
    exact .of_recheck first hindexed
  | failing hunseen =>
    rw [take_notify hprogram]
    exact warned hprogram (hrecords ▸ .failed hunseen)
  | failed hunseen =>
    rw [take_done hprogram]
    exact ⟨_, hprogram, hrecords ▸ .failed hunseen⟩
  | ready hseen =>
    rw [take_done hprogram]
    exact ⟨_, hprogram, hrecords ▸ .ready hseen⟩

/-- A look at an index may fail. -/
theorem fail (h : fleet.Races number index schema) (hcreating : fleet.isCreating number = false)
    (time : String) (cause : StoreError) :
    (fleet.take time (.fail number cause)).Races number index schema := by
  obtain ⟨program, hprogram, hreadying⟩ := h
  generalize hrecords : fleet.callsOf number = records at hreadying
  cases hreadying with
  | checking =>
    rw [makeReady_eq] at hprogram
    rw [take_fail_store hprogram]
    refine answered hprogram rfl rfl ?_
    rw [hrecords]
    exact .of_check _
  | warning first =>
    rw [take_fail_notify hprogram]
    exact ⟨_, hprogram, hrecords ▸ .warning first⟩
  | creating first =>
    rw [createReady_eq] at hprogram
    rw [isCreating, hprogram] at hcreating
    cases hcreating
  | lost first hindexed =>
    rw [recheckReady_eq] at hprogram
    rw [take_fail_store hprogram]
    refine answered hprogram rfl rfl ?_
    rw [hrecords]
    exact .failing ⟨first, cause, rfl⟩
  | failing hunseen =>
    rw [take_fail_notify hprogram]
    exact ⟨_, hprogram, hrecords ▸ .failing hunseen⟩
  | failed hunseen =>
    rw [take_fail_done hprogram]
    exact ⟨_, hprogram, hrecords ▸ .failed hunseen⟩
  | ready hseen =>
    rw [take_fail_done hprogram]
    exact ⟨_, hprogram, hrecords ▸ .ready hseen⟩

/-- The turns of others leave a caller where it stands. -/
theorem aside (h : fleet.Races number index schema) {turn : Turn}
    (hmover : turn.mover ≠ some number) (time : String) :
    (fleet.take time turn).Races number index schema := by
  obtain ⟨program, hprogram, hreadying⟩ := h
  have hadds := fleet.adds_take time turn
  refine ⟨program, ?_, ?_⟩
  · rw [take_programs_other hmover, hprogram]
  · rw [hadds.callsOf_eq hmover]
    exact hreadying.mono hadds.indexed

theorem takeAll (h : fleet.Races number index schema) {time : String} {turns : List Turn}
    (hturns : fleet.createsAtOnce time turns = true) :
    (fleet.takeAll time turns).Races number index schema := by
  induction turns generalizing fleet with
  | nil => exact h
  | cons turn turns ih =>
    obtain ⟨hturn, hlater⟩ := Bool.and_eq_true_iff.mp hturns
    refine ih ?_ hlater
    by_cases hmover : turn.mover = some number
    · cases turn with
      | advance mover =>
        obtain rfl := Option.some.inj hmover
        exact h.advance time
      | fail mover cause =>
        obtain rfl := Option.some.inj hmover
        exact h.fail (by simpa using hturn) time cause
      | foreign call => cases hmover
    · exact h.aside hmover time

theorem result_cases (h : fleet.Races number index schema)
    {result : Except ReadinessError Unit} (hresult : fleet.result? number = some result) :
    (IsLostUnseen number index schema (fleet.callsOf number) ∧
      result = .error (.create index (.indexExists index))) ∨
    (¬IsLostUnseen number index schema (fleet.callsOf number) ∧ result = .ok ()) := by
  obtain ⟨program, hprogram, hreadying⟩ := h
  have hdone := hprogram.symm.trans (result?_eq_some_iff.mp hresult)
  obtain rfl := Option.some.inj hdone
  generalize fleet.callsOf number = records at hreadying ⊢
  cases hreadying with
  | failed hunseen => exact .inl ⟨hunseen, rfl⟩
  | ready hseen => exact .inr ⟨hseen, rfl⟩

end Fleet.Races

/-- However callers race for their indices, and whichever looks at an index fail, a caller that has
ended was successful, unless it has found out at its creation that its index exists and could not
look at it again; such a caller reports that the index exists. -/
theorem ready_unless_unseen (time : String) (memory : Memory) (demands : List (String × Json))
    (turns : List Fleet.Turn)
    (hturns : (readiers memory demands).createsAtOnce time turns = true) (number : Nat)
    (index : String) (schema : Json) (hdemand : demands[number]? = some (index, schema))
    (result : Except ReadinessError Unit)
    (hresult : ((readiers memory demands).takeAll time turns).result? number = some result) :
    let records := ((readiers memory demands).takeAll time turns).callsOf number
    (Fleet.IsLostUnseen number index schema records ∧
      result = .error (.create index (.indexExists index))) ∨
    (¬Fleet.IsLostUnseen number index schema records ∧ result = .ok ()) := by
  have hbegin : (readiers memory demands).Races number index schema := .begin hdemand
  exact (hbegin.takeAll hturns).result_cases hresult

/-- Three callers make the index `rules` ready. -/
def racingDemands : List (String × Json) :=
  [("rules", .null), ("rules", .null), ("rules", .null)]

/-- The first two callers cannot look at the index, and the third creates it.  The first caller
finds it at its second look; the second caller cannot look at it again. -/
def racingTurns : List Fleet.Turn :=
  [.fail 0 (.other "down"), .fail 1 (.other "down"), .advance 2, .advance 2, .advance 0, .advance 0,
    .advance 0, .advance 1, .advance 1, .fail 1 (.other "down"), .advance 1]

theorem ready_unless_unseen_racing :
    let race := (readiers .empty racingDemands).takeAll "" racingTurns
    (readiers .empty racingDemands).createsAtOnce "" racingTurns = true ∧
      race.result? 0 = some (.ok ()) ∧
      ¬Fleet.IsLostUnseen 0 "rules" .null (race.callsOf 0) ∧
      race.result? 1 = some (.error (.create "rules" (.indexExists "rules"))) ∧
      Fleet.IsLostUnseen 1 "rules" .null (race.callsOf 1) := by
  intro race
  have hturns : (readiers .empty racingDemands).createsAtOnce "" racingTurns = true := rfl
  have hfirst : race.result? 0 = some (.ok ()) := rfl
  have hsecond : race.result? 1 = some (.error (.create "rules" (.indexExists "rules"))) := rfl
  have hcases := ready_unless_unseen "" .empty racingDemands racingTurns hturns
  refine ⟨hturns, hfirst, ?_, hsecond, ?_⟩
  · rcases hcases 0 "rules" .null rfl _ hfirst with ⟨-, habsurd⟩ | ⟨hseen, -⟩
    · cases habsurd
    · exact hseen
  · rcases hcases 1 "rules" .null rfl _ hsecond with ⟨hunseen, -⟩ | ⟨-, habsurd⟩
    · exact hunseen
    · cases habsurd

/-- Of two callers one creates the index, and the other, whose looks at it fail, reports that it was
too late. -/
theorem lost_creation_reported :
    let demands := [("rules", Json.null), ("rules", Json.null)]
    let turns : List Fleet.Turn := [.fail 0 (.other "down"), .advance 0, .advance 1, .advance 1,
      .advance 0, .fail 0 (.other "down"), .advance 0]
    let race := (readiers .empty demands).takeAll "" turns
    (readiers .empty demands).createsAtOnce "" turns = true ∧
      race.result? 0 = some (.error (.create "rules" (.indexExists "rules"))) ∧
      race.result? 1 = some (.ok ()) ∧ (race.memory.index? "rules").isSome = true :=
  ⟨rfl, rfl, rfl, rfl⟩

end SigmaCatalog
