/-!
# Tables in order of arrival

A table is a list of keys with their values. `Table.insert` puts a new key at the end; a key that
is present keeps its place and gets the new value.
-/

namespace ApiShorthand

/-- Values under text keys, in the order in which the keys first arrived. -/
abbrev Table (α : Type) := List (String × α)

namespace Table

variable {α β : Type}

/-- The keys in order. -/
def keys (table : Table α) : List String :=
  table.map Prod.fst

/-- The values in order. -/
def values (table : Table α) : List α :=
  table.map Prod.snd

/-- The value under a key. -/
def find? (key : String) : Table α → Option α
  | [] => none
  | (k, value) :: rest => if k = key then some value else find? key rest

/-- Puts a value under a key: in the key's place if it is present, else at the end. -/
def insert (key : String) (value : α) : Table α → Table α
  | [] => [(key, value)]
  | (k, old) :: rest =>
    if k = key then (key, value) :: rest else (k, old) :: insert key value rest

/-- The table with the entries of a list, each inserted in turn. -/
def insertAll (table : Table α) (entries : List (String × α)) : Table α :=
  entries.foldl (fun table entry => insert entry.1 entry.2 table) table

/-- The table that holds the entries of a list, each inserted in turn. -/
def ofList (entries : List (String × α)) : Table α :=
  insertAll [] entries

/-- The table without a key. -/
def erase (key : String) : Table α → Table α
  | [] => []
  | (k, value) :: rest => if k = key then rest else (k, value) :: erase key rest

/-- The table with `f` applied to the value under a key, if it is present. -/
def modify (key : String) (f : α → α) : Table α → Table α
  | [] => []
  | (k, value) :: rest =>
    if k = key then (k, f value) :: rest else (k, value) :: modify key f rest

/-- The table with `f` applied to every value. -/
def mapValues (f : α → β) (table : Table α) : Table β :=
  table.map fun entry => (entry.1, f entry.2)

/-! ### Laws -/

@[simp] theorem keys_nil : keys ([] : Table α) = [] := rfl

@[simp] theorem keys_cons {entry : String × α} {rest : Table α} :
    keys (entry :: rest) = entry.1 :: keys rest := rfl

@[simp] theorem keys_mapValues {f : α → β} {table : Table α} :
    keys (mapValues f table) = keys table := by
  simp [keys, mapValues, Function.comp_def]

/-- The value that was put under a key is found there. -/
@[simp] theorem find?_insert_self (key : String) (value : α) (table : Table α) :
    find? key (insert key value table) = some value := by
  induction table with
  | nil => simp [insert, find?]
  | cons entry rest ih =>
    obtain ⟨k, old⟩ := entry
    by_cases h : k = key <;> simp [insert, find?, h, ih]

/-- Putting a value under one key changes no other key. -/
theorem find?_insert_of_ne {key other : String} (value : α) (table : Table α) (h : other ≠ key) :
    find? other (insert key value table) = find? other table := by
  induction table with
  | nil => simp [insert, find?, Ne.symm h]
  | cons entry rest ih =>
    obtain ⟨k, old⟩ := entry
    by_cases hk : k = key
    · subst hk
      simp [insert, find?, Ne.symm h]
    · simp [insert, find?, hk, ih]

/-- A new key goes to the end. -/
theorem insert_of_not_mem {key : String} {value : α} {table : Table α} (h : key ∉ keys table) :
    insert key value table = table ++ [(key, value)] := by
  induction table with
  | nil => rfl
  | cons entry rest ih =>
    obtain ⟨k, old⟩ := entry
    simp only [keys_cons, List.mem_cons, not_or] at h
    simp [insert, Ne.symm h.1, ih h.2]

/-- A key that is present stays in its place. -/
theorem keys_insert_of_mem {key : String} {value : α} {table : Table α} (h : key ∈ keys table) :
    keys (insert key value table) = keys table := by
  induction table with
  | nil => simp at h
  | cons entry rest ih =>
    obtain ⟨k, old⟩ := entry
    by_cases hk : k = key
    · subst hk
      simp [insert]
    · have hmem : key ∈ keys rest := by
        simpa [Ne.symm hk] using h
      simp [insert, hk, ih hmem]

end Table

end ApiShorthand
