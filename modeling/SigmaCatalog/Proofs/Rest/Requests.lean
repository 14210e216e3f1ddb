import Mathlib.Data.List.Basic
import SigmaCatalog.Proofs.Rest.Addressing
import SigmaCatalog.Proofs.Text.Numeral
import SigmaCatalog.Rest.Server

/-!
# Reading requests back

A server reads a request back into the call that it was made from: the names from the segments of
the path after that of the address, and the rest from the parameters after the query of the address.
Only the timeout of a write may differ, since a request gives at least a second.
-/

namespace SigmaCatalog

/-- A call as a request asks for it: a write waits for at least a second. -/
def Call.sent : Call → Call
  | .write index id body condition timeout refresh =>
    .write index id body condition (max timeout 1) refresh
  | call => call

namespace Rest.Server

/-! ## Numbers -/

section Numbers

theorem digit?_of_isDigit {c : Char} (h : c.isDigit) : Host.digit? 10 c = some (c.toNat - 48) := by
  have hbounds : '0' ≤ c ∧ c ≤ '9' := by simpa [Char.isDigit, Char.le_def] using h
  have hle : c.toNat ≤ 57 := hbounds.2
  have hdecimal : ('0' ≤ c && c ≤ '9') = true := by simpa using hbounds
  rw [Host.digit?, if_pos hdecimal]
  exact if_pos (by omega)

theorem foldlM_digits {digits : List Char} (h : ∀ c ∈ digits, c.isDigit) (start : Nat) :
    (digits.foldlM (fun number c => (Host.digit? 10 c).map fun d => number * 10 + d) start) =
      some (Nat.ofDigitChars 10 digits start) := by
  induction digits generalizing start with
  | nil => rfl
  | cons c digits ih =>
    obtain ⟨hc, hdigits⟩ := List.forall_mem_cons.mp h
    rw [List.foldlM_cons, digit?_of_isDigit hc]
    change digits.foldlM _ (start * 10 + (c.toNat - 48)) = _
    rw [ih hdigits, Nat.mul_comm]
    rfl

theorem number?_toDigits (n : Nat) : Host.number? 10 (Nat.toDigits 10 n) = some n := by
  rw [Host.number?, foldlM_digits fun _ => Text.isDigit_of_mem, Nat.ofDigitChars_ten_toDigits]

theorem integer?_toString (n : Int) : integer? (toString n) = some n := by
  rw [integer?, Text.toList_toString]
  split
  · next rest heq =>
    split at heq
    · have hminus : '-' ∈ Nat.toDigits 10 n.toNat := heq ▸ List.mem_cons_self
      cases Text.isDigit_of_mem hminus
    · next hneg =>
      obtain rfl := (List.cons.inj heq).2
      rw [number?_toDigits, Option.map_some]
      exact congrArg some (by omega)
  · next hhead =>
    split at hhead
    · next hpos =>
      rw [if_pos hpos, number?_toDigits]
      exact congrArg some (Int.toNat_of_nonneg hpos)
    · exact absurd rfl (hhead _)

end Numbers

/-! ## Parameters -/

section Parameters

/-- Whether the key and the value of a parameter hold no character that separates parameters, and
the key none that ends a key. -/
def IsPlain (parameter : String × String) : Prop :=
  '&' ∉ parameter.1.toList ∧ '=' ∉ parameter.1.toList ∧ '&' ∉ parameter.2.toList

def written (parameter : String × String) : String :=
  parameter.1 ++ "=" ++ parameter.2

theorem added_queryWith (endpoint : Endpoint) (parameters : List (String × String)) :
    added endpoint.address.query (endpoint.queryWith parameters) =
      Text.joinWith "&" (parameters.map written) := by
  rw [Endpoint.queryWith]
  split
  · next hempty =>
    rw [List.isEmpty_iff.mp hempty]
    cases hown : endpoint.address.query with
    | none => rfl
    | some own =>
      rw [added]
      by_cases hblank : own = ""
      · subst hblank
        rfl
      · simp [hblank, Text.joinWith]
  · split
    · next hown =>
      rw [hown]
      rfl
    · next hown =>
      rw [hown]
      rfl
    · next own hblank hown =>
      rw [hown, added, Option.getD_some, if_neg hblank]
      change String.ofList
        ((own ++ "&" ++ Text.joinWith "&" (parameters.map written)).toList.drop _) = _
      simp

theorem parametersOf_joinWith {parameters : List (String × String)}
    (h : ∀ parameter ∈ parameters, IsPlain parameter) :
    parametersOf (Text.joinWith "&" (parameters.map written)) = parameters := by
  have htext (parameter : String × String) : (written parameter).toList =
      parameter.1.toList ++ '=' :: parameter.2.toList := by simp [written]
  have hpart : ∀ parameter ∈ parameters, '&' ∉ (written parameter).toList := by
    intro parameter hparameter
    obtain ⟨hkey, -, hvalue⟩ := h parameter hparameter
    simp [htext, hkey, hvalue]
  have hread : parameters.filterMap (fun parameter =>
      (Text.splitFirst '=' (written parameter).toList).map fun parts =>
        (String.ofList parts.1, String.ofList parts.2)) = parameters := by
    conv => rhs; rw [← List.filterMap_some (l := parameters)]
    refine List.filterMap_congr fun parameter hparameter => ?_
    rw [htext, Text.splitFirst_append (h parameter hparameter).2.1]
    simp
  cases parameters with
  | nil => rfl
  | cons first others =>
    obtain ⟨hfirst, hothers⟩ := List.forall_mem_cons.mp hpart
    have hsplit : Text.splitAll '&' (Text.joinWith "&" ((first :: others).map written)).toList =
        ((written first).toList, others.map fun parameter => (written parameter).toList) := by
      have hjoin : (Text.joinWith "&" ((first :: others).map written)).toList =
          (written first).toList ++
            (others.map fun parameter => (written parameter).toList).flatMap ('&' :: ·) := by
        rw [List.map_cons, Text.toList_joinWith, List.flatMap_map, List.flatMap_map]
        rfl
      have hlater : ∀ part ∈ others.map fun parameter => (written parameter).toList, '&' ∉ part := by
        intro part hpart
        obtain ⟨parameter, hparameter, rfl⟩ := List.mem_map.mp hpart
        exact hothers parameter hparameter
      rw [hjoin, Text.splitAll_append hfirst, Text.splitAll_flatMap hlater, List.append_nil]
    rw [parametersOf, hsplit]
    change ((first :: others).map fun parameter => (written parameter).toList).filterMap _ = _
    rw [List.filterMap_map]
    exact hread

/-- A server finds the parameters of a request after the query of its address. -/
theorem parametersOf_request (endpoint : Endpoint) (method : Method) (names : List String)
    (body : Option Json) {parameters : List (String × String)}
    (h : ∀ parameter ∈ parameters, IsPlain parameter) :
    parametersOf (added endpoint.address.query
      (endpoint.request method names parameters body).query) = parameters := by
  change parametersOf (added _ (endpoint.queryWith parameters)) = _
  rw [added_queryWith, parametersOf_joinWith h]

theorem IsPlain.withValue {key value : String} (h : IsPlain (key, ""))
    (hvalue : '&' ∉ value.toList) : IsPlain (key, value) :=
  ⟨h.1, h.2.1, hvalue⟩

theorem isPlain_refresh (refresh : RefreshPolicy) : IsPlain ("refresh", refresh.parameter) := by
  cases refresh
  all_goals exact ⟨by decide, by decide, by decide⟩

theorem toList_seconds (seconds : Nat) :
    (s!"{seconds}s").toList = Nat.toDigits 10 seconds ++ ['s'] := by
  have hunit : (toString "s").toList = ['s'] := rfl
  simp [Nat.toString_eq_repr, Nat.repr_eq_ofList_toDigits, hunit]

theorem isPlain_writeParameters (condition : Option Precondition) (timeout : Nat)
    (refresh : RefreshPolicy) :
    ∀ parameter ∈ writeParameters condition timeout refresh, IsPlain parameter := by
  have htimeout : IsPlain ("timeout", s!"{max timeout 1}s") := by
    refine IsPlain.withValue ⟨by decide, by decide, by decide⟩ ?_
    rw [toList_seconds, List.mem_append, List.mem_singleton]
    rintro (hdigit | hunit)
    · cases Text.isDigit_of_mem hdigit
    · cases hunit
  have hinteger (n : Int) : '&' ∉ (toString n).toList :=
    Text.notMem_toString (by decide) (by decide) n
  rw [writeParameters, List.forall_mem_append]
  refine ⟨by simpa using ⟨isPlain_refresh refresh, htimeout⟩, ?_⟩
  intro parameter hparameter
  cases condition with
  | none => cases hparameter
  | some condition =>
    cases condition with
    | absent =>
      obtain rfl := List.mem_singleton.mp hparameter
      exact ⟨by decide, by decide, by decide⟩
    | unchanged seqNo primaryTerm =>
      rcases List.mem_pair.mp hparameter with rfl | rfl
      · exact IsPlain.withValue ⟨by decide, by decide, by decide⟩ (hinteger seqNo)
      · exact IsPlain.withValue ⟨by decide, by decide, by decide⟩ (hinteger primaryTerm)

theorem conditionOf_writeParameters (condition : Option Precondition) (timeout : Nat)
    (refresh : RefreshPolicy) :
    conditionOf (writeParameters condition timeout refresh) = condition := by
  cases condition with
  | none => rfl
  | some condition =>
    cases condition with
    | absent => rfl
    | unchanged seqNo primaryTerm =>
      change (do
        let seqNo ← integer? (toString seqNo)
        let primaryTerm ← integer? (toString primaryTerm)
        return Precondition.unchanged seqNo primaryTerm) = _
      rw [integer?_toString, integer?_toString]
      rfl

theorem timeoutOf_writeParameters (condition : Option Precondition) (timeout : Nat)
    (refresh : RefreshPolicy) :
    timeoutOf (writeParameters condition timeout refresh) = max timeout 1 := by
  change (Host.number? 10 ((s!"{max timeout 1}s").toList.takeWhile (· != 's'))).getD 1 = _
  have hdigits : ∀ c ∈ Nat.toDigits 10 (max timeout 1), (c != 's') = true := by
    intro c hc
    have hdigit := Text.isDigit_of_mem hc
    rw [bne_iff_ne]
    rintro rfl
    cases hdigit
  rw [toList_seconds, List.takeWhile_append_of_pos hdigits]
  change (Host.number? 10 (_ ++ [])).getD 1 = _
  rw [List.append_nil, number?_toDigits, Option.getD_some]

theorem refreshOf_parameter (refresh : RefreshPolicy) (others : List (String × String)) :
    refreshOf (("refresh", refresh.parameter) :: others) = refresh := by
  have hread : RefreshPolicy.ofText refresh.parameter = .ok refresh := by
    cases refresh <;> decide
  have hfound : parameter? (("refresh", refresh.parameter) :: others) "refresh" =
      some refresh.parameter := rfl
  rw [refreshOf, hfound, Option.map_some, hread]

end Parameters

/-! ## Names -/

section Names

variable {names : List String}

theorem segments_below (base : Path) (hnames : names ≠ [])
    (h : ∀ name ∈ names, Addressable name ∧ name ≠ "") :
    (below base (base.addAll names)).segments = names.map segmentText := by
  have hsteps := Path.steps_addAll base h
  have hroot : base.addAll names ≠ .root := by
    intro heq
    have hempty : (base.addAll names).steps = [] := if_pos heq
    rw [hsteps, List.append_eq_nil_iff] at hempty
    exact hnames (List.map_eq_nil_iff.mp hempty.2)
  rw [Path.steps, if_neg hroot, Path.steps] at hsteps
  rw [below]
  split
  · next hbase =>
    rw [hsteps, if_pos hbase, List.nil_append]
  · next hbase =>
    change (base.addAll names).segments.drop _ = _
    rw [hsteps, if_neg hbase, List.drop_left]

/-- A server finds the names of a request in the path after that of its address. -/
theorem names?_below (base : Path) (hnames : names ≠ [])
    (h : ∀ name ∈ names, Addressable name ∧ name ≠ "") :
    (below base (base.addAll names)).names? = some names := by
  rw [Path.names?, segments_below base hnames h]
  clear hnames
  induction names with
  | nil => rfl
  | cons name names ih =>
    obtain ⟨⟨hname, -⟩, hothers⟩ := List.forall_mem_cons.mp h
    have hread := segmentName?_segmentText_eq_iff.mpr hname.no_breaks
    rw [List.map_cons, List.mapM_cons, hread, ih hothers]
    rfl

end Names

end Rest.Server

def Call.names : Call → List String
  | .indexExists index => [index]
  | .createIndex index _ => [index]
  | .write index id .. => [index, id]
  | .get index id => [index, id]
  | .delete index id _ => [index, id]

namespace Rest.Server

/-- A server reads a request back into the call that it asks for. -/
theorem callOf?_ofCall (endpoint : Endpoint) {call : Call}
    (h : ∀ name ∈ call.names, Addressable name ∧ name ≠ "") :
    callOf? endpoint.address (Request.ofCall endpoint call) = some call.sent := by
  have hdoc : Addressable "_doc" ∧ "_doc" ≠ "" := ⟨⟨by decide, by decide, by decide⟩, by decide⟩
  have hdocument {index id : String}
      (h : ∀ name ∈ [index, id], Addressable name ∧ name ≠ "") :
      (below endpoint.address.path
        (endpoint.address.path.addAll (documentNames index id))).names? =
          some (documentNames index id) :=
    names?_below _ (List.cons_ne_nil _ _) (by simpa [documentNames, hdoc] using h)
  have hindex {index : String} (h : ∀ name ∈ [index], Addressable name ∧ name ≠ "") :
      (below endpoint.address.path (endpoint.address.path.addAll [index])).names? = some [index] :=
    names?_below _ (List.cons_ne_nil _ _) h
  cases call with
  | indexExists index =>
    rw [callOf?, Request.ofCall]
    simp only [Endpoint.request, hindex h]
    rfl
  | createIndex index schema =>
    rw [callOf?, Request.ofCall]
    simp only [Endpoint.request, hindex h]
    rfl
  | write index id body condition timeout refresh =>
    rw [callOf?, Request.ofCall,
      parametersOf_request _ _ _ _ (isPlain_writeParameters condition timeout refresh)]
    simp only [Endpoint.request, hdocument h]
    have hrefresh : refreshOf (writeParameters condition timeout refresh) = refresh :=
      refreshOf_parameter refresh _
    change some (Call.write index id body (conditionOf (writeParameters condition timeout refresh))
      (timeoutOf (writeParameters condition timeout refresh))
      (refreshOf (writeParameters condition timeout refresh))) = _
    rw [conditionOf_writeParameters, timeoutOf_writeParameters, hrefresh]
    rfl
  | get index id =>
    rw [callOf?, Request.ofCall]
    simp only [Endpoint.request, hdocument h]
    rfl
  | delete index id refresh =>
    rw [callOf?, Request.ofCall,
      parametersOf_request _ _ _ _ (by simpa using isPlain_refresh refresh)]
    simp only [Endpoint.request, hdocument h]
    change some (Call.delete index id (refreshOf [("refresh", refresh.parameter)])) = _
    rw [refreshOf_parameter]
    rfl

end Rest.Server

end SigmaCatalog
