import SigmaCatalog.FieldMapping

/-!
# What is found in built tables

The contents of tables that are built entry by entry, stated by what is found at each key.  A table
read from its own entries is the table itself, and so is a set of texts read from its members.
-/

namespace SigmaCatalog

namespace Table

variable {β : Type}

/-- Of entries with increasing keys, each sets its own key. -/
theorem get?_insertAll_of_increasing (table : Table β) {newer : List (String × β)}
    (h : Increasing newer) (key : String) :
    (table.insertAll newer).get? key = (Entries.get? key newer).or (table.get? key) := by
  induction newer generalizing table with
  | nil => rfl
  | cons entry newer ih =>
    have hlater : ∀ later ∈ newer, entry.1 < later.1 := fun _ => List.rel_of_pairwise_cons h
    rw [insertAll, List.foldl_cons, ← insertAll, ih _ (List.Pairwise.of_cons h), get?_insert,
      Entries.get?]
    by_cases hkey : key = entry.1
    · rw [if_pos hkey, if_pos hkey, hkey, Entries.get?_eq_none_of_lt hlater, Option.none_or,
        Option.some_or]
    · rw [if_neg hkey, if_neg hkey]

/-- Of two tables merged, the newer one decides at every key that it has. -/
theorem get?_insertAll_toList (table newer : Table β) (key : String) :
    (table.insertAll newer.toList).get? key = (newer.get? key).or (table.get? key) :=
  get?_insertAll_of_increasing table newer.increasing key

theorem ofList_toList (table : Table β) : ofList table.toList = table :=
  ext_get? fun key => (get?_insertAll_toList empty table key).trans Option.or_none

/-- Entries that all agree with one function make a table that agrees with it at their keys. -/
theorem get?_insertAll_map (table : Table β) (f : String → β) (keys : List String)
    (key : String) :
    (table.insertAll (keys.map fun key => (key, f key))).get? key =
      if key ∈ keys then some (f key) else table.get? key := by
  induction keys generalizing table with
  | nil => rfl
  | cons first keys ih =>
    rw [List.map_cons, insertAll, List.foldl_cons, ← insertAll, ih, get?_insert]
    by_cases hkeys : key ∈ keys
    · rw [if_pos hkeys, if_pos (List.mem_cons_of_mem first hkeys)]
    · rw [if_neg hkeys]
      by_cases hfirst : key = first
      · rw [if_pos hfirst, hfirst, if_pos List.mem_cons_self]
      · rw [if_neg hfirst, if_neg (by simp [hfirst, hkeys])]

theorem mem_keys_iff {table : Table β} {key : String} :
    key ∈ table.keys ↔ (table.get? key).isSome := by
  rw [keys, List.mem_map, Option.isSome_iff_exists]
  constructor
  · rintro ⟨entry, hentry, rfl⟩
    exact ⟨entry.2, mem_toList_iff.mp hentry⟩
  · rintro ⟨value, hvalue⟩
    exact ⟨(key, value), mem_toList_iff.mpr hvalue, rfl⟩

end Table

namespace TextSet

theorem addAll_eq_insertAll (set : TextSet) (members : List String) :
    addAll set members = Table.insertAll set (members.map fun member => (member, ())) := by
  rw [Table.insertAll, List.foldl_map]
  rfl

theorem get?_addAll (set : TextSet) (members : List String) (key : String) :
    (addAll set members).get? key = if key ∈ members then some () else set.get? key := by
  rw [addAll_eq_insertAll]
  exact Table.get?_insertAll_map set (fun _ => ()) members key

theorem mem_addAll {set : TextSet} {members : List String} {text : String} :
    text ∈ TextSet.members (addAll set members) ↔
      text ∈ members ∨ text ∈ TextSet.members set := by
  rw [TextSet.members, TextSet.members, Table.mem_keys_iff, Table.mem_keys_iff, get?_addAll]
  by_cases h : text ∈ members
  · simp [h]
  · simp [h]

/-- A set is determined by its members. -/
theorem ext_members {first second : TextSet}
    (h : ∀ text, text ∈ TextSet.members first ↔ text ∈ TextSet.members second) :
    first = second := by
  refine Table.ext_get? fun text => Option.ext fun _ => ?_
  have hmember (set : TextSet) : text ∈ TextSet.members set ↔ set.get? text = some () := by
    rw [TextSet.members, Table.mem_keys_iff, Option.isSome_iff_exists]
    exact ⟨fun ⟨_, hget⟩ => hget, fun hget => ⟨(), hget⟩⟩
  rw [← hmember, ← hmember, h]

theorem ofList_members (set : TextSet) : ofList (TextSet.members set) = set := by
  refine Table.ext_get? fun key => ?_
  rw [ofList, get?_addAll, TextSet.members]
  by_cases h : key ∈ set.keys
  · obtain ⟨value, hvalue⟩ := Option.isSome_iff_exists.mp (Table.mem_keys_iff.mp h)
    rw [if_pos h, hvalue]
  · rw [if_neg h]
    exact (Option.not_isSome_iff_eq_none.mp (mt Table.mem_keys_iff.mpr h)).symm

end TextSet

/-- The identity resolver gives every field its own name. -/
theorem Resolver.get?_identity (fields : List String) (field : String) :
    (identity fields).get? field = if field ∈ fields then some field else none :=
  Table.get?_insertAll_map Table.empty id fields field

end SigmaCatalog
