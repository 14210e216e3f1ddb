import SigmaCatalog.Proofs.Program.Trace
import SigmaCatalog.Store.MappingKeeper

/-!
# What is asked while field mappings are kept

Making an index ready looks for that index and creates it.  A keeper works on its own index alone,
or hands everything over; it removes nothing and reports nothing but warnings.
-/

namespace SigmaCatalog

open Program

def MappingKeeper.index? : MappingKeeper → Option String
  | index name _ _ => some name
  | external _ => none

/-- What making an index ready may do. -/
def IsReadying (index : String) : Action → Prop
  | .store (.indexExists name) => name = index
  | .store (.createIndex name _) => name = index
  | .notify (.warning _) => True
  | _ => False

/-- What a keeper of field mappings may do. -/
def IsKeeping (keeper : MappingKeeper) : Action → Prop
  | .store call => keeper.index? = some call.index
  | .handOver _ => keeper.index? = none
  | .notify (.warning _) => True
  | _ => False

/-- Whether an action comes to an end and removes no document. -/
def Retains : Action → Prop
  | .store (.delete ..) => False
  | .storeWithin _ (.delete ..) => False
  | .breakDown => False
  | _ => True

/-- What a keeper does: it keeps to its own index and removes nothing. -/
def IsUpkeep (keeper : MappingKeeper) (action : Action) : Prop :=
  IsKeeping keeper action ∧ Retains action

section Readying

variable {index : String}

theorem only_indexExists : Only (IsReadying index) (call (.indexExists index)) :=
  .perform rfl

theorem only_warn (warning : Warning) : Only (IsReadying index) (warn warning) :=
  .perform trivial

theorem only_recheckReady (failure : ReadinessError) :
    Only (IsReadying index) (recheckReady index failure) := by
  refine only_indexExists.bind fun reply => ?_
  cases reply with
  | error cause => exact (only_warn .recheckFailed).bind fun _ => .done _
  | ok found =>
    cases found with
    | true => exact .done _
    | false => exact .done _

theorem only_createReady (schema : Json) : Only (IsReadying index) (createReady index schema) := by
  have hcreate : Only (IsReadying index) (call (.createIndex index schema)) := .perform rfl
  refine hcreate.bind fun reply => ?_
  cases reply with
  | error cause => exact only_recheckReady _
  | ok created =>
    cases created with
    | true => exact .done _
    | false => exact only_recheckReady _

theorem only_makeReady (schema : Json) : Only (IsReadying index) (makeReady index schema) := by
  refine only_indexExists.bind fun reply => ?_
  cases reply with
  | error cause =>
    exact (only_warn .existsCheckFailed).bind fun _ => only_createReady schema
  | ok found =>
    cases found with
    | true => exact .done _
    | false => exact only_createReady schema

end Readying

section Keeping

variable {name schema : String} {timeout : Nat}

theorem isKeeping_of_isReadying {action : Action} (h : IsReadying name action) :
    IsKeeping (.index name schema timeout) action := by
  cases action with
  | store call =>
    cases call with
    | indexExists index => exact congrArg some h.symm
    | createIndex index schema => exact congrArg some h.symm
    | write | get | delete => exact h.elim
  | notify notice =>
    cases notice with
    | warning warning => trivial
    | entered | compiling => exact h.elim
  | storeWithin | handOver | askAbandoned | askTime | breakDown => exact h.elim

theorem retains_of_isReadying {action : Action} (h : IsReadying name action) : Retains action := by
  cases action with
  | store call =>
    cases call with
    | indexExists | createIndex => trivial
    | write | get | delete => exact h.elim
  | notify => trivial
  | storeWithin | handOver | askAbandoned | askTime | breakDown => exact h.elim

theorem only_mergeMapping (mapping : FieldMapping) (attempts : Nat) :
    Only (IsUpkeep (.index name schema timeout)) (mergeMapping name timeout mapping attempts) := by
  induction attempts with
  | zero => exact .done _
  | succ attempts ih =>
    have hcall : ∀ request : Call, request.index = name → Retains (.store request) →
        Only (IsUpkeep (.index name schema timeout)) (call request) :=
      fun request hrequest hretains => .perform ⟨congrArg some hrequest.symm, hretains⟩
    refine (hcall (.get name mapping.rawField) rfl trivial).bind fun reply => ?_
    cases reply with
    | error cause => exact .done _
    | ok existing =>
      have hwarn : Only (IsUpkeep (.index name schema timeout)) (warn .unreadableMapping) :=
        .perform ⟨trivial, trivial⟩
      have hwrite (merged : FieldMapping) : Only (IsUpkeep (.index name schema timeout))
          (call (mergeCall name timeout existing merged)) := hcall _ rfl trivial
      dsimp only
      split
      · refine hwarn.bind fun _ => (hwrite _).bind fun reply => ?_
        split
        · exact .done _
        · exact ih
        · exact .done _
      · refine (hwrite _).bind fun reply => ?_
        split
        · exact .done _
        · exact ih
        · exact .done _

theorem only_mergeMappings (mappings : List FieldMapping) :
    Only (IsUpkeep (.index name schema timeout)) (mergeMappings name timeout mappings) := by
  induction mappings with
  | nil => exact .done _
  | cons mapping mappings ih =>
    refine (only_mergeMapping mapping mergeAttempts).bind fun merged => ?_
    cases merged with
    | error cause => exact .done _
    | ok _ => exact ih

end Keeping

theorem only_upkeep (keeper : MappingKeeper) (mappings : List FieldMapping) :
    Only (IsUpkeep keeper) (keeper.keep mappings) := by
  cases keeper with
  | external schema => exact .perform ⟨rfl, trivial⟩
  | index name schema timeout =>
    cases mappings with
    | nil => exact .done _
    | cons mapping mappings =>
      have hready := @only_makeReady name IndexSchema.fieldMappings
      refine (hready.mono fun action h =>
        ⟨isKeeping_of_isReadying h, retains_of_isReadying h⟩).bind fun ready => ?_
      cases ready with
      | error cause => exact .done _
      | ok _ => exact only_mergeMappings _

theorem only_keep (keeper : MappingKeeper) (mappings : List FieldMapping) :
    Only (IsKeeping keeper) (keeper.keep mappings) :=
  (only_upkeep keeper mappings).mono fun _ h => h.1

end SigmaCatalog
