/-!
# Tables and sets of texts in key order

A `Table` maps texts to values and a `TextSet` is a set of texts.  Both keep their keys in
increasing order without repetition, so equal contents are equal values, whatever the order in
which they were built.
-/

namespace SigmaCatalog

def Increasing {β : Type} (entries : List (String × β)) : Prop :=
  entries.Pairwise fun a b => a.1 < b.1

instance {β : Type} (entries : List (String × β)) : Decidable (Increasing entries) :=
  inferInstanceAs (Decidable (entries.Pairwise fun a b => a.1 < b.1))

namespace Entries

variable {β : Type}

/-- The entries with `key` set to `value`, in key order. -/
def insert (key : String) (value : β) : List (String × β) → List (String × β)
  | [] => [(key, value)]
  | entry :: entries =>
    if key < entry.1 then (key, value) :: entry :: entries
    else if key = entry.1 then (key, value) :: entries
    else entry :: insert key value entries

def get? (key : String) : List (String × β) → Option β
  | [] => none
  | entry :: entries => if key = entry.1 then some entry.2 else get? key entries

def erase (key : String) (entries : List (String × β)) : List (String × β) :=
  entries.filter fun entry => entry.1 != key

/-- A key of the entries after an insertion is the inserted key or was there before. -/
theorem mem_insert_key {key : String} {value : β} {entries : List (String × β)}
    {entry : String × β} (h : entry ∈ insert key value entries) :
    entry.1 = key ∨ entry ∈ entries := by
  induction entries with
  | nil => simp_all [insert]
  | cons head tail ih =>
    simp only [insert] at h
    split at h
    · simp only [List.mem_cons] at h
      rcases h with rfl | h
      · exact .inl rfl
      · exact .inr (List.mem_cons.2 h)
    · split at h
      · simp only [List.mem_cons] at h
        rcases h with rfl | h
        · exact .inl rfl
        · exact .inr (List.mem_cons_of_mem _ h)
      · simp only [List.mem_cons] at h
        rcases h with rfl | h
        · exact .inr List.mem_cons_self
        · exact (ih h).imp id (List.mem_cons_of_mem _)

/-- An insertion keeps the keys increasing. -/
theorem increasing_insert {key : String} {value : β} {entries : List (String × β)}
    (h : Increasing entries) : Increasing (insert key value entries) := by
  induction entries with
  | nil => simp [insert, Increasing]
  | cons head tail ih =>
    have htail : Increasing tail := List.Pairwise.of_cons h
    have hhead : ∀ entry ∈ tail, head.1 < entry.1 := fun entry => List.rel_of_pairwise_cons h
    simp only [insert]
    split
    case isTrue hlt =>
      refine List.Pairwise.cons ?_ h
      intro entry hentry
      rcases List.mem_cons.1 hentry with rfl | hentry
      · exact hlt
      · exact String.lt_trans hlt (hhead entry hentry)
    case isFalse hlt =>
      split
      case isTrue heq =>
        subst heq
        exact List.Pairwise.cons hhead htail
      case isFalse hne =>
        have hgt : head.1 < key := by
          have := String.not_lt.1 hlt
          exact Decidable.not_not.1 fun h' => hne (String.le_antisymm (String.not_lt.1 h') this)
        refine List.Pairwise.cons ?_ (ih htail)
        intro entry hentry
        rcases mem_insert_key hentry with heq | hentry
        · exact heq ▸ hgt
        · exact hhead entry hentry

/-- An insertion sets its own key and leaves every other one. -/
theorem get?_insert (key other : String) (value : β) (entries : List (String × β)) :
    get? other (insert key value entries) =
      if other = key then some value else get? other entries := by
  induction entries with
  | nil => simp [insert, get?]
  | cons head tail ih =>
    simp only [insert]
    split
    · simp [get?]
    · split
      · next heq =>
        subst heq
        by_cases h : other = head.1 <;> simp [get?, h]
      · next hne =>
        by_cases h : other = head.1
        · subst h
          simp [get?, Ne.symm hne]
        · simp [get?, h, ih]

/-- An erasure takes away its own key and leaves every other one. -/
theorem get?_erase (key other : String) (entries : List (String × β)) :
    get? other (erase key entries) = if other = key then none else get? other entries := by
  induction entries with
  | nil => simp [erase, get?]
  | cons head tail ih =>
    simp only [erase, List.filter_cons] at ih ⊢
    by_cases hkey : head.1 = key
    · simp only [hkey, bne_self_eq_false, Bool.false_eq_true, if_false, ih, get?]
      by_cases h : other = key <;> simp [h]
    · have hne : (head.1 != key) = true := by simpa using hkey
      simp only [hne, if_true, get?, ih]
      by_cases h : other = head.1
      · simp [h, hkey]
      · simp [h]

/-- What is found at a key is an entry. -/
theorem mem_of_get?_eq_some {key : String} {value : β} {entries : List (String × β)}
    (h : get? key entries = some value) : (key, value) ∈ entries := by
  induction entries with
  | nil => simp [get?] at h
  | cons head tail ih =>
    simp only [get?] at h
    split at h
    · next heq =>
      obtain rfl := Option.some.inj h
      exact heq ▸ List.mem_cons_self
    · exact List.mem_cons_of_mem _ (ih h)

/-- Every entry is found at its key when the keys increase. -/
theorem get?_eq_some_of_mem {key : String} {value : β} {entries : List (String × β)}
    (hinc : Increasing entries) (h : (key, value) ∈ entries) : get? key entries = some value := by
  induction entries with
  | nil => simp at h
  | cons head tail ih =>
    rcases List.mem_cons.1 h with rfl | h
    · simp [get?]
    · have hlt : head.1 < key := List.rel_of_pairwise_cons hinc h
      have hne : key ≠ head.1 := fun heq => String.lt_irrefl _ (heq ▸ hlt)
      simp [get?, hne, ih (List.Pairwise.of_cons hinc) h]

/-- Nothing is found at a key below all others. -/
theorem get?_eq_none_of_lt {key : String} {entries : List (String × β)}
    (h : ∀ entry ∈ entries, key < entry.1) : get? key entries = none := by
  induction entries with
  | nil => rfl
  | cons head tail ih =>
    have hne : key ≠ head.1 := fun heq => String.lt_irrefl _ (heq ▸ h head List.mem_cons_self)
    simp only [get?, hne, if_false]
    exact ih fun entry hentry => h entry (List.mem_cons_of_mem _ hentry)

/-- Increasing entries are determined by what is found in them. -/
theorem eq_of_get?_eq {first second : List (String × β)} (hfirst : Increasing first)
    (hsecond : Increasing second) (h : ∀ key, get? key first = get? key second) :
    first = second := by
  induction first generalizing second with
  | nil =>
    cases second with
    | nil => rfl
    | cons head tail => simpa [get?] using h head.1
  | cons head tail ih =>
    cases second with
    | nil => simpa [get?] using h head.1
    | cons head' tail' =>
      have hlt : ∀ entry ∈ tail, head.1 < entry.1 := fun _ => List.rel_of_pairwise_cons hfirst
      have hlt' : ∀ entry ∈ tail', head'.1 < entry.1 := fun _ => List.rel_of_pairwise_cons hsecond
      have hkey : head.1 = head'.1 := by
        by_cases hbefore : head.1 < head'.1
        · have hnone : get? head.1 (head' :: tail') = none := by
            refine get?_eq_none_of_lt fun entry hentry => ?_
            rcases List.mem_cons.1 hentry with rfl | hentry
            · exact hbefore
            · exact String.lt_trans hbefore (hlt' entry hentry)
          have hsome := h head.1
          rw [hnone] at hsome
          simp [get?] at hsome
        · by_cases hafter : head'.1 < head.1
          · have hnone : get? head'.1 (head :: tail) = none := by
              refine get?_eq_none_of_lt fun entry hentry => ?_
              rcases List.mem_cons.1 hentry with rfl | hentry
              · exact hafter
              · exact String.lt_trans hafter (hlt entry hentry)
            have hsome := h head'.1
            rw [hnone] at hsome
            simp [get?] at hsome
          · exact String.le_antisymm (String.not_lt.1 hafter) (String.not_lt.1 hbefore)
      have hvalue : head.2 = head'.2 := by simpa [get?, hkey] using h head.1
      have htail : tail = tail' := by
        refine ih (List.Pairwise.of_cons hfirst) (List.Pairwise.of_cons hsecond) fun key => ?_
        by_cases hhead : key = head.1
        · rw [hhead, get?_eq_none_of_lt hlt, get?_eq_none_of_lt (hkey ▸ hlt')]
        · have := h key
          simpa [get?, hhead, hkey ▸ hhead] using this
      rw [Prod.ext hkey hvalue, htail]

end Entries

/-- A map from texts to values, in key order. -/
structure Table (β : Type) where
  entries : List (String × β)
  increasing : Increasing entries

namespace Table

variable {β : Type}

instance [DecidableEq β] : DecidableEq (Table β) := fun a b =>
  if h : a.entries = b.entries then
    .isTrue (by cases a; cases b; simp_all)
  else .isFalse (fun heq => h (congrArg entries heq))

def empty : Table β :=
  ⟨[], List.Pairwise.nil⟩

instance : EmptyCollection (Table β) := ⟨empty⟩

def insert (table : Table β) (key : String) (value : β) : Table β :=
  ⟨Entries.insert key value table.entries, Entries.increasing_insert table.increasing⟩

def erase (table : Table β) (key : String) : Table β :=
  ⟨Entries.erase key table.entries, List.Pairwise.filter _ table.increasing⟩

def get? (table : Table β) (key : String) : Option β :=
  Entries.get? key table.entries

/-- The table with every entry of `newer` set, in order; a later entry for a key wins. -/
def insertAll (table : Table β) (newer : List (String × β)) : Table β :=
  newer.foldl (fun table entry => table.insert entry.1 entry.2) table

/-- The table of a list of entries; a later entry for a key wins. -/
def ofList (entries : List (String × β)) : Table β :=
  empty.insertAll entries

def toList (table : Table β) : List (String × β) :=
  table.entries

def keys (table : Table β) : List String :=
  table.entries.map Prod.fst

@[simp]
theorem get?_empty (key : String) : (∅ : Table β).get? key = none :=
  rfl

theorem get?_insert (table : Table β) (key other : String) (value : β) :
    (table.insert key value).get? other = if other = key then some value else table.get? other :=
  Entries.get?_insert key other value table.entries

@[simp]
theorem get?_insert_self (table : Table β) (key : String) (value : β) :
    (table.insert key value).get? key = some value := by
  simp [get?_insert]

theorem get?_insert_of_ne (table : Table β) {key other : String} (value : β) (h : other ≠ key) :
    (table.insert key value).get? other = table.get? other := by
  simp [get?_insert, h]

theorem get?_erase (table : Table β) (key other : String) :
    (table.erase key).get? other = if other = key then none else table.get? other :=
  Entries.get?_erase key other table.entries

/-- The entries of a table are what is found in it. -/
theorem mem_toList_iff {table : Table β} {key : String} {value : β} :
    (key, value) ∈ table.toList ↔ table.get? key = some value :=
  ⟨Entries.get?_eq_some_of_mem table.increasing, Entries.mem_of_get?_eq_some⟩

/-- A table is determined by what is found in it. -/
theorem ext_get? {first second : Table β} (h : ∀ key, first.get? key = second.get? key) :
    first = second := by
  cases first
  cases second
  simp only [mk.injEq]
  exact Entries.eq_of_get?_eq ‹_› ‹_› h

end Table

/-- A set of texts, in increasing order. -/
abbrev TextSet : Type :=
  Table Unit

namespace TextSet

def add (set : TextSet) (member : String) : TextSet :=
  Table.insert set member ()

def addAll (set : TextSet) (members : List String) : TextSet :=
  members.foldl add set

def ofList (members : List String) : TextSet :=
  addAll Table.empty members

def members (set : TextSet) : List String :=
  Table.keys set

end TextSet

end SigmaCatalog
