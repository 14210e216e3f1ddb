import Mathlib.Data.List.Infix
import SigmaCatalog.Proofs.Table
import SigmaCatalog.Settings.Basic

/-!
# Listed profiles and the settings they take

The listing looks at the names of variables, and the settings of a profile look at the values of the
variables that stand under its name.  Where a setting comes from is said by what it depends on: it
is taken from a variable of the profile when no other variable makes a difference to it.  A profile
with a name that the listing admits, and without empty variables, is listed exactly when one of its
marker keys is taken from a variable of its own.
-/

namespace SigmaCatalog.Settings

variable {environment : Environment} {name key marker : String}

/-! ## The listing -/

/-- The variable that a profile has of its own for a key. -/
def ownVariable (name key : String) : String :=
  name ++ "_" ++ key

theorem markedBy?_eq_some_iff :
    markedBy? key marker = some name ↔
      key = ownVariable name marker ∧ isProfileName name.toList = true := by
  constructor
  · intro h
    simp only [markedBy?] at h
    split at h
    · next hsuffix =>
      split at h
      · next hname =>
        obtain rfl := Option.some.inj h
        refine ⟨?_, by rwa [String.toList_ofList]⟩
        obtain ⟨front, hfront⟩ := List.isSuffixOf_iff_suffix.mp hsuffix
        rw [← String.toList_inj, ownVariable]
        simp [← hfront]
      · cases h
    · cases h
  · rintro ⟨rfl, hname⟩
    have hkey : (ownVariable name marker).toList = name.toList ++ ("_" ++ marker).toList := by
      simp [ownVariable]
    have hsuffix : ("_" ++ marker).toList.isSuffixOf (ownVariable name marker).toList = true := by
      rw [List.isSuffixOf_iff_suffix, hkey]
      exact List.suffix_append _ _
    have htake : (ownVariable name marker).toList.take
        ((ownVariable name marker).toList.length - ("_" ++ marker).toList.length) =
          name.toList := by
      rw [hkey, List.length_append, Nat.add_sub_cancel, List.take_left]
    simp only [markedBy?, hsuffix, if_true, htake, hname, String.ofList_toList]

/-- A profile is listed when a marker key stands after its name in the name of a variable; nothing
is asked of the value. -/
theorem mem_profiles_iff :
    name ∈ profiles environment ↔ name = defaultLabel ∨
      isProfileName name.toList = true ∧
        ∃ marker ∈ markerKeys, (environment.get? (ownVariable name marker)).isSome = true := by
  have hempty : name ∉ TextSet.members Table.empty := by
    rintro ⟨⟩
  rw [profiles, TextSet.ofList, TextSet.mem_addAll, or_iff_left hempty, List.mem_cons]
  refine or_congr_right ?_
  simp only [List.mem_flatMap, List.mem_filterMap, markedBy?_eq_some_iff, Table.mem_keys_iff]
  constructor
  · rintro ⟨_, hkey, marker, hmarker, rfl, hname⟩
    exact ⟨hname, marker, hmarker, hkey⟩
  · rintro ⟨hname, marker, hmarker, hkey⟩
    exact ⟨_, hkey, marker, hmarker, rfl, hname⟩

theorem profiles_increasing (environment : Environment) :
    (profiles environment).Pairwise (· < ·) :=
  List.pairwise_map.mpr (TextSet.ofList _).increasing

/-! ## The settings -/

/-- The setting that a marker key decides. -/
def marked (settings : Settings) : (marker : String) → Option String
  | "OPENSEARCH_HOST" => some settings.connection.host
  | "OPENSEARCH_USERNAME" => settings.connection.username
  | "RULES_INDEX" => some settings.indexing.rulesIndex
  | _ => none

/-- Whether the settings of a profile take a marker key from the variable of the profile itself:
whatever the other variables say, the setting stays as it is. -/
def TakesOwn (environment : Environment) (name marker : String) : Prop :=
  ∀ other : Environment,
    other.get? (ownVariable name marker) = environment.get? (ownVariable name marker) →
      (ofProfile other name).marked marker = (ofProfile environment name).marked marker

theorem marked_host (settings : Settings) :
    settings.marked "OPENSEARCH_HOST" = some settings.connection.host := by
  simp [marked]

theorem marked_username (settings : Settings) :
    settings.marked "OPENSEARCH_USERNAME" = settings.connection.username := by
  simp [marked]

theorem marked_rulesIndex (settings : Settings) :
    settings.marked "RULES_INDEX" = some settings.indexing.rulesIndex := by
  simp [marked]

/-- Every marker key is looked for in the same way, and has a standard of its own. -/
theorem exists_standard (hmarker : marker ∈ markerKeys) (name : String) :
    ∃ standard, ∀ environment : Environment, (ofProfile environment name).marked marker =
      (environment.profiled? (Text.upper name) marker).or standard := by
  have htext (value : Option String) (standard : String) :
      some (value.getD standard) = value.or (some standard) := by
    cases value <;> rfl
  simp only [markerKeys, List.mem_cons, List.not_mem_nil, or_false] at hmarker
  obtain rfl | rfl | rfl := hmarker
  · refine ⟨some "localhost", fun environment => ?_⟩
    simp only [marked_host, ofProfile, connectionOf, Environment.text, htext]
  · refine ⟨none, fun environment => ?_⟩
    simp only [marked_username, ofProfile, connectionOf, Option.or_none]
  · refine ⟨some ".detect-prepackaged-rules", fun environment => ?_⟩
    simp only [marked_rulesIndex, ofProfile, indexingOf, Environment.text, htext]

theorem value?_congr {other : Environment} (h : other.get? key = environment.get? key) :
    other.value? key = environment.value? key := by
  rw [Environment.value?, h, Environment.value?]

theorem ownVariable_ne (name key : String) : key ≠ ownVariable name key := by
  intro h
  have hlength := congrArg String.length h
  simp [ownVariable] at hlength

/-- A setting depends on the variable of its profile alone when this variable has a value. -/
theorem takesOwn_iff (hmarker : marker ∈ markerKeys) (hupper : Text.upper name = name)
    (hname : name ≠ "") :
    TakesOwn environment name marker ↔
      (environment.value? (ownVariable name marker)).isSome = true := by
  have hnamed : name.isEmpty = false := by simpa using hname
  obtain ⟨standard, hstandard⟩ := exists_standard hmarker name
  have hmarked (environment : Environment) : (ofProfile environment name).marked marker =
      ((environment.value? (ownVariable name marker)).or (environment.value? marker)).or
        standard := by
    rw [hstandard, hupper, Environment.profiled?, hnamed]
    rfl
  simp only [TakesOwn, hmarked]
  constructor
  · intro htakes
    by_contra hnone
    rw [Bool.not_eq_true, Option.isSome_eq_false_iff, Option.isNone_iff_eq_none] at hnone
    -- The variable without the name of the profile decides, so another value of it is seen.
    let current := ((environment.value? marker).or standard).getD ""
    have hother := Table.get?_insert_of_ne environment (current ++ "x")
      (ownVariable_ne name marker).symm
    have hvalue : Environment.value? (environment.insert marker (current ++ "x")) marker =
        some (current ++ "x") := by
      rw [Environment.value?, Table.get?_insert_self]
      simp
    have hsame := htakes (environment.insert marker (current ++ "x")) hother
    rw [value?_congr hother, hnone, hvalue] at hsame
    have hcurrent : current ++ "x" = current := congrArg (Option.getD · "") hsame
    simpa using congrArg String.length hcurrent
  · intro hsome other hother
    obtain ⟨value, hvalue⟩ := Option.isSome_iff_exists.mp hsome
    rw [value?_congr hother, hvalue]
    rfl

/-! ## The agreement -/

theorem isProfileName_iff : isProfileName name.toList = true ↔
    name ≠ "" ∧ ∀ c ∈ name.toList, c.isUpper = true ∨ c = '_' := by
  simp [isProfileName]

theorem isSome_get?_of_value? (h : (environment.value? key).isSome = true) :
    (environment.get? key).isSome = true := by
  rw [Environment.value?] at h
  cases hget : Table.get? environment key with
  | none => simp [hget] at h
  | some text => rfl

theorem isSome_value?_of_get? (h : (environment.get? key).isSome = true)
    (hfilled : environment.get? key ≠ some "") : (environment.value? key).isSome = true := by
  obtain ⟨text, htext⟩ := Option.isSome_iff_exists.mp h
  have hne : text ≠ "" := by
    rintro rfl
    exact hfilled htext
  rw [Environment.value?, htext]
  simp [hne]

/-- The listing is in order, names no profile twice and always names the default one.  Of the names
in upper case it lists none with another character than letters from `A` to `Z` and underscores.  A
profile with such a name is listed if it takes a marker key from a variable of its own, and only
then, unless one of its variables for the marker keys is empty. -/
theorem listed_iff_takesOwn (environment : Environment) :
    (profiles environment).Pairwise (· < ·) ∧ defaultLabel ∈ profiles environment ∧
    ∀ name : String, Text.upper name = name → name ≠ "" →
      (name ∈ profiles environment → ∀ c ∈ name.toList, c.isUpper = true ∨ c = '_') ∧
      ((∀ c ∈ name.toList, c.isUpper = true ∨ c = '_') →
        ((∃ marker ∈ markerKeys, TakesOwn environment name marker) →
          name ∈ profiles environment) ∧
        ((∀ marker ∈ markerKeys, environment.get? (ownVariable name marker) ≠ some "") →
          name ∈ profiles environment →
            ∃ marker ∈ markerKeys, TakesOwn environment name marker)) := by
  refine ⟨profiles_increasing environment, mem_profiles_iff.mpr (.inl rfl), ?_⟩
  intro name hupper hname
  have hlisted : name ∈ profiles environment ↔ isProfileName name.toList = true ∧
      ∃ marker ∈ markerKeys, (environment.get? (ownVariable name marker)).isSome = true := by
    rw [mem_profiles_iff, or_iff_right]
    rintro rfl
    exact absurd hupper (by decide +kernel)
  rw [hlisted, isProfileName_iff]
  constructor
  · exact fun h => h.1.2
  · intro hchars
    constructor
    · rintro ⟨marker, hmarker, htakes⟩
      rw [takesOwn_iff hmarker hupper hname] at htakes
      exact ⟨⟨hname, hchars⟩, marker, hmarker, isSome_get?_of_value? htakes⟩
    · rintro hfilled ⟨-, marker, hmarker, hget⟩
      refine ⟨marker, hmarker, ?_⟩
      rw [takesOwn_iff hmarker hupper hname]
      exact isSome_value?_of_get? hget (hfilled marker hmarker)

/-- An environment with a variable for a profile whose name ends in a digit, and with an empty one
for another profile. -/
def unevenEnvironment : Environment :=
  Table.ofList [("PROD2_OPENSEARCH_HOST", "search.internal"), ("STAGE_RULES_INDEX", "")]

/-- A profile may take a marker key from a variable of its own without being listed, and be listed
without taking one. -/
theorem listing_differs :
    (Text.upper "PROD2" = "PROD2" ∧ "PROD2" ∉ profiles unevenEnvironment ∧
      ∃ marker ∈ markerKeys, TakesOwn unevenEnvironment "PROD2" marker) ∧
    (Text.upper "STAGE" = "STAGE" ∧ "STAGE" ∈ profiles unevenEnvironment ∧
      ¬∃ marker ∈ markerKeys, TakesOwn unevenEnvironment "STAGE" marker) := by
  have hprod : Text.upper "PROD2" = "PROD2" := by decide +kernel
  have hstage : Text.upper "STAGE" = "STAGE" := by decide +kernel
  refine ⟨⟨hprod, ?_, "OPENSEARCH_HOST", by decide, ?_⟩, hstage, ?_, ?_⟩
  · have hdigit : isProfileName "PROD2".toList = false := by decide +kernel
    rw [mem_profiles_iff, hdigit]
    simp [defaultLabel]
  · rw [takesOwn_iff (by decide) hprod (by decide)]
    decide +kernel
  · exact mem_profiles_iff.mpr
      (.inr ⟨by decide +kernel, "RULES_INDEX", by decide, by decide +kernel⟩)
  · rintro ⟨marker, hmarker, htakes⟩
    rw [takesOwn_iff hmarker hstage (by decide)] at htakes
    have hempty : ∀ marker ∈ markerKeys,
        (unevenEnvironment.value? (ownVariable "STAGE" marker)).isSome = false := by
      decide +kernel
    rw [hempty marker hmarker] at htakes
    cases htakes

/-- An environment in which a profile sets two marker keys and leaves the third to the others. -/
def stagedEnvironment : Environment :=
  Table.ofList [("OPENSEARCH_USERNAME", "everyone"),
    ("PRE_PROD_OPENSEARCH_HOST", "search.internal"),
    ("PRE_PROD_RULES_INDEX", "rules")]

theorem listed_iff_takesOwn_staged :
    (Text.upper "PRE_PROD" = "PRE_PROD" ∧ "PRE_PROD" ≠ "" ∧
      (∀ c ∈ "PRE_PROD".toList, c.isUpper = true ∨ c = '_') ∧
      ∀ marker ∈ markerKeys, stagedEnvironment.get? (ownVariable "PRE_PROD" marker) ≠ some "") ∧
    profiles stagedEnvironment = ["PRE_PROD", "default"] ∧
    ∃ marker ∈ markerKeys, TakesOwn stagedEnvironment "PRE_PROD" marker := by
  have hupper : Text.upper "PRE_PROD" = "PRE_PROD" := by decide +kernel
  have hchars : ∀ c ∈ "PRE_PROD".toList, c.isUpper = true ∨ c = '_' := by
    have hall : "PRE_PROD".toList.all (fun c => c.isUpper || c == '_') = true := by decide +kernel
    simpa only [List.all_eq_true, Bool.or_eq_true, beq_iff_eq] using hall
  have hfilled : ∀ marker ∈ markerKeys,
      stagedEnvironment.get? (ownVariable "PRE_PROD" marker) ≠ some "" := by
    decide +kernel
  have hprofiles : profiles stagedEnvironment = ["PRE_PROD", "default"] := by decide +kernel
  obtain ⟨-, -, hnames⟩ := listed_iff_takesOwn stagedEnvironment
  have hlisted := ((hnames "PRE_PROD" hupper (by decide)).2 hchars).2 hfilled
  refine ⟨⟨hupper, by decide, hchars, hfilled⟩, hprofiles, hlisted ?_⟩
  rw [hprofiles]
  exact List.mem_cons_self

end SigmaCatalog.Settings
