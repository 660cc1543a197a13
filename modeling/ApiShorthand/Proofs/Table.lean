import ApiShorthand.Table
import Mathlib.Data.List.Induction
import Mathlib.Data.List.Nodup

/-!
# Correctness of tables

What is in a table after insertions: the keys are the old ones and the new one (`mem_keys_insert`),
no entry comes from elsewhere (`mem_of_mem_ofList`), and entries of distinct keys are kept as they
are (`ofList_eq_self`). `tabulate` is the table of a function over distinct keys, for which
`insert` is a change at one key (`insert_tabulate`).
-/

namespace ApiShorthand.Table

variable {α : Type}

/-! ### Keys and entries -/

theorem mem_keys_insert {key k : String} {value : α} {table : Table α} :
    k ∈ keys (insert key value table) ↔ k = key ∨ k ∈ keys table := by
  by_cases h : key ∈ keys table
  · rw [keys_insert_of_mem h]
    constructor
    · exact Or.inr
    · rintro (rfl | hk)
      · exact h
      · exact hk
  · rw [insert_of_not_mem h, keys, List.map_append, List.mem_append, List.map_singleton,
      List.mem_singleton, or_comm, ← keys]

theorem mem_of_mem_insert {key : String} {value : α} {table : Table α} {entry : String × α}
    (h : entry ∈ insert key value table) : entry = (key, value) ∨ entry ∈ table := by
  induction table with
  | nil => exact Or.inl (List.mem_singleton.1 h)
  | cons first rest ih =>
    obtain ⟨k, old⟩ := first
    rw [insert] at h
    split at h
    · rcases List.mem_cons.1 h with heq | hrest
      · exact Or.inl heq
      · exact Or.inr (List.mem_cons_of_mem _ hrest)
    · rcases List.mem_cons.1 h with heq | hrest
      · exact Or.inr (heq ▸ List.mem_cons_self)
      · exact (ih hrest).imp_right (List.mem_cons_of_mem _)

/-- The last entry of a list is inserted last. -/
theorem ofList_concat (entries : List (String × α)) (entry : String × α) :
    ofList (entries ++ [entry]) = insert entry.1 entry.2 (ofList entries) := by
  rw [ofList, insertAll, List.foldl_append]
  rfl

theorem mem_keys_ofList {k : String} {entries : List (String × α)} :
    k ∈ keys (ofList entries) ↔ k ∈ entries.map Prod.fst := by
  induction entries using List.reverseRecOn with
  | nil => exact Iff.rfl
  | append_singleton entries entry ih =>
    rw [ofList_concat, mem_keys_insert, ih, List.map_append, List.mem_append, List.map_singleton,
      List.mem_singleton, or_comm]

theorem mem_of_mem_ofList {entries : List (String × α)} {entry : String × α}
    (h : entry ∈ ofList entries) : entry ∈ entries := by
  induction entries using List.reverseRecOn with
  | nil => exact h
  | append_singleton entries last ih =>
    rw [ofList_concat] at h
    rw [List.mem_append]
    rcases mem_of_mem_insert h with heq | hmem
    · exact Or.inr (List.mem_singleton.2 heq)
    · exact Or.inl (ih hmem)

theorem nodup_keys_insert {key : String} {value : α} {table : Table α} (h : (keys table).Nodup) :
    (keys (insert key value table)).Nodup := by
  by_cases hkey : key ∈ keys table
  · rw [keys_insert_of_mem hkey]
    exact h
  · have hkeys : keys (table ++ [(key, value)]) = (keys table).concat key := by
      simp [keys]
    rw [insert_of_not_mem hkey, hkeys]
    exact h.concat hkey

/-- The keys of a table that is made by insertions are distinct. -/
theorem nodup_keys_ofList (entries : List (String × α)) : (keys (ofList entries)).Nodup := by
  induction entries using List.reverseRecOn with
  | nil => exact List.nodup_nil
  | append_singleton entries entry ih =>
    rw [ofList_concat]
    exact nodup_keys_insert ih

/-- In a table of distinct keys, a value that is put takes the place of the one under its key, and
the other entries stay. -/
theorem mem_insert_iff {key : String} {value : α} {table : Table α} (h : (keys table).Nodup)
    {entry : String × α} :
    entry ∈ insert key value table ↔ entry = (key, value) ∨ entry.1 ≠ key ∧ entry ∈ table := by
  induction table with
  | nil => simp [insert]
  | cons first rest ih =>
    obtain ⟨k, old⟩ := first
    rw [keys_cons, List.nodup_cons] at h
    rw [insert]
    split_ifs with hk
    · subst hk
      -- no later entry has the key
      have hne : ∀ entry ∈ rest, entry.1 ≠ k := by
        rintro entry hentry rfl
        have hmem : entry.1 ∈ keys rest := List.mem_map_of_mem hentry
        exact h.1 hmem
      rw [List.mem_cons, List.mem_cons]
      refine or_congr_right ⟨fun hrest => ⟨hne entry hrest, Or.inr hrest⟩, ?_⟩
      rintro ⟨hentry, rfl | hrest⟩
      · exact absurd rfl hentry
      · exact hrest
    · rw [List.mem_cons, List.mem_cons, ih h.2]
      constructor
      · rintro (rfl | rfl | ⟨hentry, hrest⟩)
        · exact Or.inr ⟨hk, Or.inl rfl⟩
        · exact Or.inl rfl
        · exact Or.inr ⟨hentry, Or.inr hrest⟩
      · rintro (rfl | ⟨hentry, rfl | hrest⟩)
        · exact Or.inr (Or.inl rfl)
        · exact Or.inl rfl
        · exact Or.inr (Or.inr ⟨hentry, hrest⟩)

/-- What is left of entries after all insertions: the last one of each key. -/
theorem mem_ofList_iff {entries : List (String × α)} {entry : String × α} :
    entry ∈ ofList entries ↔ ∃ before after, entries = before ++ entry :: after ∧
      entry.1 ∉ after.map Prod.fst := by
  induction entries using List.reverseRecOn with
  | nil => simp [ofList, insertAll]
  | append_singleton entries last ih =>
    rw [ofList_concat, mem_insert_iff (nodup_keys_ofList entries), ih]
    constructor
    · rintro (rfl | ⟨hne, before, after, rfl, hafter⟩)
      · exact ⟨entries, [], rfl, List.not_mem_nil⟩
      · refine ⟨before, after ++ [last], by simp, ?_⟩
        simpa [hne] using hafter
    · rintro ⟨before, after, heq, hafter⟩
      rcases List.eq_nil_or_concat after with rfl | ⟨front, c, rfl⟩
      · obtain ⟨-, hlast⟩ := List.append_inj' heq rfl
        exact Or.inl (List.singleton_inj.1 hlast).symm
      · rw [List.concat_eq_append] at heq hafter
        have hsplit : entries ++ [last] = (before ++ entry :: front) ++ [c] := by simpa using heq
        obtain ⟨rfl, hlast⟩ := List.append_inj' hsplit rfl
        obtain rfl := List.singleton_inj.1 hlast
        simp only [List.map_append, List.map_singleton, List.mem_append, List.mem_singleton,
          not_or] at hafter
        exact Or.inr ⟨hafter.2, before, front, rfl, hafter.1⟩

theorem keys_append (table rest : Table α) : keys (table ++ rest) = keys table ++ keys rest :=
  List.map_append

/-- New entries of distinct keys go to the end as they stand. -/
theorem insertAll_eq_append {table entries : Table α} (hnodup : (keys entries).Nodup)
    (hnew : ∀ key ∈ keys entries, key ∉ keys table) :
    insertAll table entries = table ++ entries := by
  induction entries generalizing table with
  | nil => exact (List.append_nil table).symm
  | cons entry entries ih =>
    rw [keys_cons, List.nodup_cons] at hnodup
    rw [keys_cons, List.forall_mem_cons] at hnew
    -- the first entry has become the last one of the table
    have hrest : ∀ key ∈ keys entries, key ∉ keys (table ++ [entry]) := by
      intro key hkey
      rw [keys_append, List.mem_append, not_or]
      refine ⟨hnew.2 key hkey, fun h => hnodup.1 ?_⟩
      rwa [← List.mem_singleton.1 h]
    calc insertAll table (entry :: entries)
        = insertAll (insert entry.1 entry.2 table) entries := rfl
      _ = insertAll (table ++ [entry]) entries := by rw [insert_of_not_mem hnew.1]
      _ = table ++ [entry] ++ entries := ih hnodup.2 hrest
      _ = table ++ entry :: entries := List.append_assoc _ _ _

/-- Entries of distinct keys are a table as they stand. -/
theorem ofList_eq_self {entries : List (String × α)} (h : (entries.map Prod.fst).Nodup) :
    ofList entries = entries :=
  insertAll_eq_append h fun _ _ => List.not_mem_nil

/-! ### Tables of functions -/

/-- The values of a function under keys. -/
def tabulate (keys : List String) (f : String → α) : Table α :=
  keys.map fun key => (key, f key)

@[simp] theorem keys_tabulate (names : List String) (f : String → α) :
    keys (tabulate names f) = names := by
  rw [keys, tabulate, List.map_map]
  exact List.map_id names

theorem find?_tabulate {names : List String} {key : String} (h : key ∈ names)
    (f : String → α) : find? key (tabulate names f) = some (f key) := by
  induction names with
  | nil => cases h
  | cons name names ih =>
    rw [tabulate, List.map_cons, find?]
    by_cases hname : name = key
    · rw [if_pos hname, hname]
    · rw [if_neg hname]
      exact ih ((List.mem_cons.1 h).resolve_left (Ne.symm hname))

theorem find?_eq_none {key : String} {table : Table α} (h : key ∉ keys table) :
    find? key table = none := by
  induction table with
  | nil => rfl
  | cons entry rest ih =>
    rw [keys_cons, List.mem_cons, not_or] at h
    rw [find?, if_neg (Ne.symm h.1)]
    exact ih h.2

theorem not_mem_keys_of_find?_eq_none {key : String} {table : Table α}
    (h : find? key table = none) : key ∉ keys table := by
  induction table with
  | nil => exact List.not_mem_nil
  | cons entry rest ih =>
    rw [find?] at h
    split_ifs at h with hkey
    rw [keys_cons, List.mem_cons, not_or]
    exact ⟨Ne.symm hkey, ih h⟩

/-- In a table of distinct keys, every entry is found under its key. -/
theorem find?_eq_some_iff {table : Table α} (hnodup : (keys table).Nodup) {key : String}
    {value : α} : find? key table = some value ↔ (key, value) ∈ table := by
  induction table with
  | nil => simp [find?]
  | cons entry rest ih =>
    obtain ⟨k, old⟩ := entry
    rw [keys_cons, List.nodup_cons] at hnodup
    rw [find?, List.mem_cons]
    by_cases hk : k = key
    · subst hk
      have hrest : (k, value) ∉ rest := fun h => hnodup.1 (List.mem_map.2 ⟨(k, value), h, rfl⟩)
      simp [hrest, eq_comm]
    · simp [hk, Ne.symm hk, ih hnodup.2]

theorem tabulate_congr {names : List String} {f g : String → α}
    (h : ∀ name ∈ names, f name = g name) :
    tabulate names f = tabulate names g :=
  List.map_congr_left fun name hname => by rw [h name hname]

/-- A value that is put under a key of a function's table changes the function there. -/
theorem insert_tabulate {names : List String} {key : String} (hnodup : names.Nodup)
    (h : key ∈ names) (f : String → α) (value : α) :
    insert key value (tabulate names f) =
      tabulate names fun name => if name = key then value else f name := by
  induction names with
  | nil => cases h
  | cons name names ih =>
    rw [List.nodup_cons] at hnodup
    rw [tabulate, List.map_cons, insert, tabulate, List.map_cons]
    by_cases hname : name = key
    · subst hname
      -- the name is distinct from all that follow
      have hrest : ∀ other ∈ names, f other = if other = name then value else f other := by
        intro other hother
        rw [if_neg]
        rintro rfl
        exact hnodup.1 hother
      rw [if_pos rfl, if_pos rfl]
      exact congrArg _ (tabulate_congr hrest)
    · rw [if_neg hname, if_neg hname]
      exact congrArg _ (ih hnodup.2 ((List.mem_cons.1 h).resolve_left (Ne.symm hname)))

/-- A value that is put under a new key extends a function's table. -/
theorem insert_tabulate_of_not_mem {names : List String} {key : String} (h : key ∉ names)
    (f : String → α) (value : α) :
    insert key value (tabulate names f) =
      tabulate (names ++ [key]) fun name => if name = key then value else f name := by
  have hnames : ∀ name ∈ names, f name = if name = key then value else f name := by
    intro name hname
    rw [if_neg]
    rintro rfl
    exact h hname
  rw [insert_of_not_mem (by rwa [keys_tabulate]), tabulate_congr hnames, tabulate, tabulate,
    List.map_append, List.map_singleton, if_pos rfl]

/-! ### Taking back -/

/-- What is put under a key is put there once. -/
theorem insert_insert_self (key : String) (value other : α) (table : Table α) :
    insert key value (insert key other table) = insert key value table := by
  induction table with
  | nil => simp [insert]
  | cons entry rest ih =>
    obtain ⟨k, old⟩ := entry
    by_cases hk : k = key
    · simp [insert, hk]
    · simp [insert, hk, ih]

theorem erase_insert {key : String} {table : Table α} (value : α) (h : find? key table = none) :
    erase key (insert key value table) = table := by
  induction table with
  | nil => simp [insert, erase]
  | cons entry rest ih =>
    obtain ⟨k, old⟩ := entry
    rw [find?] at h
    split_ifs at h with hk
    simp [insert, erase, hk, ih h]

theorem modify_insert {key : String} {table : Table α} {value old : α} {f : α → α}
    (h : find? key table = some old) (hf : f value = old) :
    modify key f (insert key value table) = table := by
  induction table with
  | nil => cases h
  | cons entry rest ih =>
    obtain ⟨k, other⟩ := entry
    rw [find?] at h
    split_ifs at h with hk
    · cases h
      simp [insert, modify, hk, hf]
    · simp [insert, modify, hk, ih h]

end ApiShorthand.Table
