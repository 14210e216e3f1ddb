import SigmaCatalog.Proofs.Rest.Path
import SigmaCatalog.Rest.Request

/-!
# The documents that requests address

A request for a document has a path of three segments after the path of the endpoint, and they stand
for the index, `_doc` and the identifier: exactly when neither name is a dot or two and neither
holds a tab or a line break.  Other names leave a segment out or change it, and the request goes
somewhere else.
-/

namespace SigmaCatalog.Rest

/-- Whether a name is neither a dot nor two and holds no tab and no line break, so that it becomes a
segment that stands for it. -/
structure Addressable (name : String) : Prop where
  not_dot : name ≠ "."
  not_dots : name ≠ ".."
  no_breaks : name.toList.any isBreak = false

def documentOf? : Call → Option (String × String)
  | .write index id .. => some (index, id)
  | .get index id => some (index, id)
  | .delete index id _ => some (index, id)
  | .indexExists _ => none
  | .createIndex _ _ => none

/-- Segments as a path writes them, each after a slash. -/
def slashed (segments : List String) : List Char :=
  segments.flatMap fun segment => '/' :: segment.toList

namespace Path

/-- The segments of a path that others may follow; the empty segment of the root is none of them. -/
def steps (path : Path) : List String :=
  if path = root then [] else path.segments

/-- Whether a path leads from another to some names: after the other it has segments without slashes
that stand for the names. -/
def Leads (base path : Path) (names : List String) : Prop :=
  ∃ segments, path.text = String.ofList (slashed (base.steps ++ segments)) ∧
    (∀ segment ∈ segments, '/' ∉ segment.toList) ∧ segments.map segmentName? = names.map some

def slashes (path : Path) : Nat :=
  (slashed path.steps).count '/'

end Path

/-! ## Names that stand for themselves -/

theorem segmentName?_empty : segmentName? "" = some "" :=
  segmentName?_segmentText ""

/-- The segment of a name stands for it exactly when the name holds no tab or line break. -/
theorem segmentName?_segmentText_eq_iff {name : String} :
    segmentName? (segmentText name) = some name ↔ name.toList.any isBreak = false := by
  rw [segmentName?_segmentText, Option.some_inj, ← kept_eq_toList_iff, ← String.toList_inj,
    String.toList_ofList]

theorem segmentText_ne_empty {name : String} (h : Addressable name) (hname : name ≠ "") :
    segmentText name ≠ "" := by
  intro hempty
  have hsegment := segmentName?_segmentText_eq_iff.mpr h.no_breaks
  rw [hempty, segmentName?_empty] at hsegment
  exact hname (Option.some.inj hsegment).symm

/-! ## Written segments -/

section Written

variable {segment : String} {segments others : List String}

theorem slashed_append : slashed (segments ++ others) = slashed segments ++ slashed others :=
  List.flatMap_append

theorem slashed_singleton : slashed [segment] = '/' :: segment.toList := by
  rw [slashed, List.flatMap_cons, List.flatMap_nil, List.append_nil]

/-- Cut at its slashes, a written path falls into its segments. -/
theorem splitAll_slashed (h : ∀ segment ∈ segments, '/' ∉ segment.toList) :
    Text.splitAll '/' (slashed segments) = ([], segments.map String.toList) := by
  have hparts : slashed segments = (segments.map String.toList).flatMap ('/' :: ·) := by
    rw [slashed, List.flatMap_map]
  rw [hparts]
  refine Text.splitAll_flatMap fun part hpart => ?_
  obtain ⟨segment, hsegment, rfl⟩ := List.mem_map.mp hpart
  exact h segment hsegment

theorem slashed_inj (hsegments : ∀ segment ∈ segments, '/' ∉ segment.toList)
    (hothers : ∀ segment ∈ others, '/' ∉ segment.toList) (h : slashed segments = slashed others) :
    segments = others := by
  have hsplit := splitAll_slashed hsegments
  rw [h, splitAll_slashed hothers] at hsplit
  have hlists := (Prod.mk.inj hsplit).2
  exact ((List.map_inj_right fun _ _ heq => String.toList_injective heq).mp hlists).symm

theorem count_slashed (h : ∀ segment ∈ segments, '/' ∉ segment.toList) :
    (slashed segments).count '/' = segments.length := by
  induction segments with
  | nil => rfl
  | cons segment segments ih =>
    have hsegment := List.count_eq_zero.mpr (h segment List.mem_cons_self)
    have hrest := ih fun other hother => h other (List.mem_cons_of_mem segment hother)
    have hcons : slashed (segment :: segments) = '/' :: (segment.toList ++ slashed segments) := rfl
    rw [hcons, List.count_cons_self, List.count_append, hsegment, hrest, Nat.zero_add,
      List.length_cons]

theorem toList_joinWith_slash (h : segments ≠ []) :
    '/' :: (Text.joinWith "/" segments).toList = slashed segments := by
  cases segments with
  | nil => exact absurd rfl h
  | cons segment segments =>
    rw [Text.toList_joinWith]
    rfl

end Written

/-! ## Paths that grow -/

namespace Path

variable {base path : Path} {name segment : String}

theorem toList_text (path : Path) :
    path.text.toList = if path.steps = [] then ['/'] else slashed path.steps := by
  rw [text, String.toList_append]
  by_cases hroot : path = root
  · subst hroot
    rfl
  · rw [steps, if_neg hroot]
    by_cases hsegments : path.segments = []
    · rw [hsegments, if_pos rfl]
      rfl
    · rw [if_neg hsegments, ← toList_joinWith_slash hsegments]
      rfl

theorem steps_concat (segments : List String) (segment : String) :
    steps ⟨segments ++ [segment]⟩ =
      if segments = [] ∧ segment = "" then [] else segments ++ [segment] := by
  have hroot : (⟨segments ++ [segment]⟩ : Path) = root ↔ segments = [] ∧ segment = "" := by
    simp [root, List.append_eq_singleton_iff]
  by_cases h : segments = [] ∧ segment = ""
  · rw [if_pos h]
    exact if_pos (hroot.mpr h)
  · rw [if_neg h]
    exact if_neg (mt hroot.mp h)

/-- A segment is added to the steps, unless it is empty and there are none. -/
theorem steps_append (path : Path) (segment : String) :
    (path.append segment).steps =
      if path.steps = [] ∧ segment = "" then [] else path.steps ++ [segment] := by
  by_cases hroot : path = root
  · have happend : path.append segment = ⟨[] ++ [segment]⟩ := if_pos hroot
    have hsteps : path.steps = [] := if_pos hroot
    rw [happend, steps_concat, hsteps]
  · have happend : path.append segment = ⟨path.segments ++ [segment]⟩ := if_neg hroot
    have hsteps : path.steps = path.segments := if_neg hroot
    rw [happend, steps_concat, hsteps]

theorem slashes_up_le (path : Path) : path.up.slashes ≤ path.slashes := by
  rw [slashes, up, steps_concat]
  by_cases hshort : path.segments.dropLast = []
  · rw [if_pos ⟨hshort, rfl⟩]
    exact Nat.zero_le _
  · have hroot : path ≠ root := fun heq => hshort (heq ▸ rfl)
    have hsteps : path.steps = path.segments := if_neg hroot
    have hsegments : path.segments ≠ [] := fun heq => hshort (by rw [heq]; rfl)
    rw [if_neg fun h => hshort h.1, slashes, hsteps]
    conv => rhs; rw [← List.dropLast_concat_getLast hsegments]
    rw [slashed_append, slashed_append, List.count_append, List.count_append, slashed_singleton,
      slashed_singleton, List.count_cons_self, List.count_cons_self]
    exact Nat.add_le_add_left (Nat.succ_le_succ (Nat.zero_le _)) _

theorem add_of_addressable (path : Path) (h : Addressable name) :
    path.add name = path.append (segmentText name) := by
  obtain ⟨hdot, hdots, hbreaks⟩ := h
  have hkept : kept name = name.toList := (kept_eq_toList_iff name).mpr hbreaks
  rw [add, if_neg (by simp [hdot, hdots])]
  split
  · next heq =>
    have htext : name.toList = ".".toList := hkept.symm.trans heq
    exact absurd (String.toList_injective htext) hdot
  · next heq =>
    have htext : name.toList = "..".toList := hkept.symm.trans heq
    exact absurd (String.toList_injective htext) hdots
  · rfl

theorem steps_add (path : Path) (h : Addressable name) (hname : name ≠ "") :
    (path.add name).steps = path.steps ++ [segmentText name] := by
  rw [add_of_addressable path h, steps_append, if_neg fun hempty =>
    segmentText_ne_empty h hname hempty.2]

/-- An appended segment is one more step, or the path is still without steps. -/
theorem append_cases (path : Path) (segment : String) :
    (path.append segment).steps = path.steps ++ [segment] ∨
      (path.append segment).slashes ≤ path.slashes := by
  by_cases h : path.steps = [] ∧ segment = ""
  · right
    rw [slashes, steps_append, if_pos h]
    exact Nat.zero_le _
  · left
    rw [steps_append, if_neg h]

/-- What a name adds to a path: a segment, which stands for the name only if the name is
addressable; or nothing that brings a slash. -/
theorem add_cases (path : Path) (name : String) :
    (∃ segment, (path.add name).steps = path.steps ++ [segment] ∧ '/' ∉ segment.toList ∧
      (segmentName? segment = some name → name ≠ "" → Addressable name)) ∨
    (path.add name).slashes ≤ path.slashes := by
  rw [add]
  split
  · exact .inr (Nat.le_refl _)
  · next hdots =>
    obtain ⟨hdot, hdots⟩ : name ≠ "." ∧ name ≠ ".." := by simpa using hdots
    -- What is left of the name without its breaks may still be a dot or two.
    split
    · rcases append_cases path "" with hsteps | hslashes
      · refine .inl ⟨"", hsteps, List.not_mem_nil, fun hempty hname => ?_⟩
        rw [segmentName?_empty] at hempty
        exact absurd (Option.some.inj hempty).symm hname
      · exact .inr hslashes
    · exact .inr (slashes_up_le path)
    · rcases append_cases path (segmentText name) with hsteps | hslashes
      · refine .inl ⟨_, hsteps, slash_notMem_segmentText name, fun hsegment _ => ?_⟩
        exact ⟨hdot, hdots, segmentName?_segmentText_eq_iff.mp hsegment⟩
      · exact .inr hslashes

/-- Names add at most one slash each; where they add as many, each has added a segment. -/
theorem addAll_cases (path : Path) (names : List String) :
    (∃ segments, (path.addAll names).steps = path.steps ++ segments ∧
      (∀ segment ∈ segments, '/' ∉ segment.toList) ∧ segments.length = names.length ∧
      (segments.map segmentName? = names.map some →
        ∀ name ∈ names, name ≠ "" → Addressable name)) ∨
    (path.addAll names).slashes < path.slashes + names.length := by
  induction names generalizing path with
  | nil =>
    left
    refine ⟨[], (List.append_nil _).symm, ?_, rfl, ?_⟩
    · exact fun segment hsegment => absurd hsegment List.not_mem_nil
    · exact fun _ name hname => absurd hname List.not_mem_nil
  | cons name names ih =>
    have hadd : path.addAll (name :: names) = (path.add name).addAll names := rfl
    rw [hadd, List.length_cons]
    rcases add_cases path name with ⟨segment, hstep, hslash, hstands⟩ | hslashes
    · have hone : (path.add name).slashes = path.slashes + 1 := by
        have hsingle : ∀ other ∈ [segment], '/' ∉ other.toList := by simpa using hslash
        rw [slashes, hstep, slashed_append, List.count_append, count_slashed hsingle]
        rfl
      rcases ih (path.add name) with ⟨segments, hsteps, hslashes, hlength, hall⟩ | hfewer
      · left
        refine ⟨segment :: segments, ?_, ?_, congrArg Nat.succ hlength, ?_⟩
        · rw [hsteps, hstep, List.append_assoc, List.singleton_append]
        · exact List.forall_mem_cons.mpr ⟨hslash, hslashes⟩
        · intro hnames
          obtain ⟨hfirst, hothers⟩ := List.cons.inj hnames
          exact List.forall_mem_cons.mpr ⟨hstands hfirst, hall hothers⟩
      · right
        omega
    · right
      have hle : ((path.add name).addAll names).slashes ≤
          (path.add name).slashes + names.length := by
        rcases ih (path.add name) with ⟨segments, hsteps, hnone, hlength, -⟩ | hfewer
        · rw [slashes, hsteps, slashed_append, List.count_append, count_slashed hnone, hlength]
          exact Nat.le_refl _
        · exact Nat.le_of_lt hfewer
      omega

theorem steps_addAll (path : Path) {names : List String}
    (h : ∀ name ∈ names, Addressable name ∧ name ≠ "") :
    (path.addAll names).steps = path.steps ++ names.map segmentText := by
  induction names generalizing path with
  | nil => exact (List.append_nil _).symm
  | cons name names ih =>
    obtain ⟨⟨hname, hne⟩, hnames⟩ := List.forall_mem_cons.mp h
    have hrest := ih (path.add name) hnames
    rw [steps_add path hname hne, List.append_assoc, List.singleton_append] at hrest
    exact hrest

theorem Leads.eq_of_text_eq {other : Path} {names others : List String}
    (h : base.Leads path names) (hother : base.Leads other others)
    (htext : path.text = other.text) : names = others := by
  obtain ⟨segments, hsegments, hslashes, hnames⟩ := h
  obtain ⟨otherSegments, hotherSegments, hotherSlashes, hotherNames⟩ := hother
  have hwritten : slashed (base.steps ++ segments) = slashed (base.steps ++ otherSegments) :=
    String.ofList_injective (hsegments.symm.trans (htext.trans hotherSegments))
  rw [slashed_append, slashed_append] at hwritten
  obtain rfl := slashed_inj hslashes hotherSlashes (List.append_cancel_left hwritten)
  exact (List.map_inj_right fun _ _ => Option.some.inj).mp (hnames.symm.trans hotherNames)

theorem Leads.count_text {names : List String} (h : base.Leads path names) :
    path.text.toList.count '/' = base.slashes + names.length := by
  obtain ⟨segments, hsegments, hslashes, hnames⟩ := h
  have hlength : segments.length = names.length := by
    simpa using congrArg List.length hnames
  rw [hsegments, String.toList_ofList, slashed_append, List.count_append, count_slashed hslashes,
    hlength, slashes]

/-- Two names or more that are added to a path lead to them exactly when each of them is
addressable. -/
theorem leads_addAll_iff (base : Path) {names : List String} (hlength : 1 < names.length)
    (hnames : ∀ name ∈ names, name ≠ "") :
    base.Leads (base.addAll names) names ↔ ∀ name ∈ names, Addressable name := by
  constructor
  · intro hleads
    have hcount := hleads.count_text
    obtain ⟨segments, hsegments, hslashes, hread⟩ := hleads
    have htext := toList_text (base.addAll names)
    rcases addAll_cases base names with ⟨added, hsteps, hadded, hsize, hall⟩ | hfewer
    · have hsome : (base.addAll names).steps ≠ [] := by
        intro hempty
        rw [hempty] at hsteps
        have hnone : added = [] := (List.append_eq_nil_iff.mp hsteps.symm).2
        rw [hnone, List.length_nil] at hsize
        omega
      rw [if_neg hsome, hsegments, String.toList_ofList, hsteps, slashed_append,
        slashed_append] at htext
      obtain rfl := slashed_inj hslashes hadded (List.append_cancel_left htext)
      exact fun name hname => hall hread name hname (hnames name hname)
    · -- Fewer slashes than names would have to be enough.
      exfalso
      rw [htext] at hcount
      split at hcount
      · rw [List.count_singleton_self] at hcount
        omega
      · rw [← slashes] at hcount
        omega
  · intro h
    have hsteps : (base.addAll names).steps = base.steps ++ names.map segmentText :=
      steps_addAll base fun name hname => ⟨h name hname, hnames name hname⟩
    have hsome : (base.addAll names).steps ≠ [] := by
      intro hempty
      have hnone := (List.append_eq_nil_iff.mp (hsteps.symm.trans hempty)).2
      rw [List.map_eq_nil_iff.mp hnone] at hlength
      cases hlength
    refine ⟨names.map segmentText, ?_, ?_, ?_⟩
    · apply String.toList_injective
      rw [toList_text, if_neg hsome, hsteps, String.toList_ofList]
    · intro segment hsegment
      obtain ⟨name, -, rfl⟩ := List.mem_map.mp hsegment
      exact slash_notMem_segmentText name
    · rw [List.map_map]
      refine List.map_congr_left fun name hname => ?_
      rw [Function.comp_apply]
      exact segmentName?_segmentText_eq_iff.mpr (h name hname).no_breaks

/-- A path with one name added has at most one slash more. -/
theorem count_text_add_le (path : Path) (name : String) :
    (path.add name).text.toList.count '/' ≤ path.slashes + 1 := by
  rw [toList_text]
  split
  · rw [List.count_singleton_self]
    exact Nat.le_add_left 1 _
  · rw [← slashes]
    rcases add_cases path name with ⟨segment, hsteps, hslash, -⟩ | hslashes
    · have hsingle : ∀ other ∈ [segment], '/' ∉ other.toList := by simpa using hslash
      rw [slashes, hsteps, slashed_append, List.count_append, count_slashed hsingle]
      exact Nat.le_refl _
    · exact Nat.le_succ_of_le hslashes

end Path

/-! ## Requests -/

section Requests

variable {index id : String} {call : Call}

theorem path_of_documentOf? (endpoint : Endpoint) (h : documentOf? call = some (index, id)) :
    (Request.ofCall endpoint call).path = endpoint.address.path.addAll [index, "_doc", id] := by
  cases call with
  | indexExists => cases h
  | createIndex => cases h
  | write | get | delete =>
    cases h
    rfl

theorem path_of_documentOf?_eq_none (endpoint : Endpoint) (h : documentOf? call = none) :
    (Request.ofCall endpoint call).path = endpoint.address.path.add call.index := by
  cases call with
  | indexExists | createIndex => rfl
  | write | get | delete => cases h

theorem leads_document_iff (base : Path) (hindex : index ≠ "") (hid : id ≠ "") :
    base.Leads (base.addAll [index, "_doc", id]) [index, "_doc", id] ↔
      Addressable index ∧ Addressable id := by
  have hnames : ∀ name ∈ [index, "_doc", id], name ≠ "" := by
    simp [hindex, hid]
  have hdoc : Addressable "_doc" := ⟨by decide, by decide, by decide⟩
  rw [Path.leads_addAll_iff base (by simp) hnames]
  simp [hdoc]

end Requests

/-- A request for a document leads to that document exactly when the names of its index and of the
document are addressable.  Then no request for another such document, and none for an index, has the
same path. -/
theorem document_addressed (endpoint : Endpoint) (index id : String) (hindex : index ≠ "")
    (hid : id ≠ "") :
    ((∀ call, documentOf? call = some (index, id) →
        endpoint.address.path.Leads (Request.ofCall endpoint call).path [index, "_doc", id]) ↔
      Addressable index ∧ Addressable id) ∧
    (Addressable index → Addressable id → ∀ call, documentOf? call = some (index, id) →
      (∀ other otherIndex otherId, documentOf? other = some (otherIndex, otherId) →
        otherIndex ≠ "" → otherId ≠ "" → Addressable otherIndex → Addressable otherId →
        (Request.ofCall endpoint other).path.text = (Request.ofCall endpoint call).path.text →
        otherIndex = index ∧ otherId = id) ∧
      ∀ other, documentOf? other = none →
        (Request.ofCall endpoint other).path.text ≠ (Request.ofCall endpoint call).path.text) := by
  have hleads : ∀ call, documentOf? call = some (index, id) →
      (endpoint.address.path.Leads (Request.ofCall endpoint call).path [index, "_doc", id] ↔
        Addressable index ∧ Addressable id) := by
    intro call hcall
    rw [path_of_documentOf? endpoint hcall]
    exact leads_document_iff _ hindex hid
  refine ⟨⟨?_, ?_⟩, ?_⟩
  · intro hall
    exact (hleads (.get index id) rfl).mp (hall (.get index id) rfl)
  · intro haddressable call hcall
    exact (hleads call hcall).mpr haddressable
  · intro hindexOk hidOk call hcall
    have hdocument := (hleads call hcall).mpr ⟨hindexOk, hidOk⟩
    constructor
    · intro other otherIndex otherId hother hotherIndex hotherId hotherIndexOk hotherIdOk htext
      have hotherLeads := (leads_document_iff endpoint.address.path hotherIndex hotherId).mpr
        ⟨hotherIndexOk, hotherIdOk⟩
      rw [← path_of_documentOf? endpoint hother] at hotherLeads
      simpa using hotherLeads.eq_of_text_eq hdocument htext
    · intro other hother htext
      have hfew := Path.count_text_add_le endpoint.address.path other.index
      rw [← path_of_documentOf?_eq_none endpoint hother, htext, hdocument.count_text] at hfew
      exact absurd hfew (by simp)

/-- A store at the root of a host. -/
def localEndpoint : Endpoint where
  address :=
    { secure := false, host := "localhost", port := some 9200, path := .root, query := none }
  username := none
  password := none

theorem document_addressed_slashed :
    Addressable "rules" ∧ Addressable "../é" ∧
      localEndpoint.address.path.Leads
        (Request.ofCall localEndpoint (.delete "rules" "../é" .none)).path
        ["rules", "_doc", "../é"] := by
  have hindex : Addressable "rules" := ⟨by decide, by decide, by decide⟩
  have hid : Addressable "../é" := ⟨by decide, by decide, by decide⟩
  have hboth := document_addressed localEndpoint "rules" "../é" (by decide) (by decide)
  exact ⟨hindex, hid, hboth.1.mpr ⟨hindex, hid⟩ _ rfl⟩

/-- The removal of the document `.` goes to where that of `..` goes, and to no document; that of the
document `.` of an index `.` goes to the index `_doc`. -/
theorem dots_unaddressed :
    (Request.ofCall localEndpoint (.delete "rules" "." .none)).path.text = "/rules/_doc" ∧
      (Request.ofCall localEndpoint (.delete "rules" ".." .none)).path.text = "/rules/_doc" ∧
      (Request.ofCall localEndpoint (.delete "." "." .none)).path =
        (Request.ofCall localEndpoint (.indexExists "_doc")).path ∧
      ¬localEndpoint.address.path.Leads
        (Request.ofCall localEndpoint (.delete "rules" "." .none)).path
        ["rules", "_doc", "."] := by
  refine ⟨by decide, by decide, by decide, ?_⟩
  rw [path_of_documentOf? localEndpoint rfl, leads_document_iff _ (by decide) (by decide)]
  exact fun haddressable => haddressable.2.not_dot rfl

end SigmaCatalog.Rest
