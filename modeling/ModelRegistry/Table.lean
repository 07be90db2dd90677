/-!
# Finite maps

A finite map as a list of entries with distinct keys. Writing a key takes the
place of its entry or adds one at the end. Everything a map answers is given by
`lookup` and `size`, and each has one equation for writing.
-/

namespace ModelRegistry

variable {κ υ : Type} [DecidableEq κ]

namespace Entries

/-- The value of the first entry with a key. -/
def lookup (key : κ) : List (κ × υ) → Option υ
  | [] => none
  | (k, v) :: rest => if k = key then some v else lookup key rest

/-- Writes a value in the place of the first entry with its key, or at the end. -/
def assign (key : κ) (value : υ) : List (κ × υ) → List (κ × υ)
  | [] => [(key, value)]
  | (k, v) :: rest => if k = key then (key, value) :: rest else (k, v) :: assign key value rest

/-- The keys after writing: the same, and the written key last if it was not
among them. -/
theorem keys_assign (key : κ) (value : υ) (entries : List (κ × υ)) :
    (assign key value entries).map Prod.fst =
      if key ∈ entries.map Prod.fst then entries.map Prod.fst
      else entries.map Prod.fst ++ [key] := by
  induction entries with
  | nil => rfl
  | cons entry rest ih =>
    obtain ⟨k, v⟩ := entry
    by_cases hk : k = key
    · simp [assign, hk]
    · simp only [assign, if_neg hk, List.map_cons, ih, List.mem_cons, Ne.symm hk, false_or]
      split <;> rfl

/-- Writing keeps keys distinct. -/
theorem nodup_assign {key : κ} {value : υ} {entries : List (κ × υ)}
    (h : (entries.map Prod.fst).Nodup) : ((assign key value entries).map Prod.fst).Nodup := by
  rw [keys_assign]
  split
  · exact h
  · rename_i hk
    rw [List.nodup_append]
    refine ⟨h, List.nodup_cons.mpr ⟨List.not_mem_nil, List.nodup_nil⟩, ?_⟩
    intro a ha b hb hab
    rw [List.mem_singleton] at hb
    exact hk (hb ▸ hab ▸ ha)

/-- Writing a key changes its own value and no other. -/
theorem lookup_assign (query key : κ) (value : υ) (entries : List (κ × υ)) :
    lookup query (assign key value entries) =
      if key = query then some value else lookup query entries := by
  induction entries with
  | nil => rfl
  | cons entry rest ih =>
    obtain ⟨k, v⟩ := entry
    by_cases hk : k = key
    · subst hk
      by_cases hq : k = query <;> simp [assign, lookup, hq]
    · simp only [assign, if_neg hk, lookup, ih]
      by_cases hq : k = query
      · simp [hq, show key ≠ query from fun e => hk (hq.trans e.symm)]
      · simp [hq]

/-- A key has a value exactly when it is the key of an entry. -/
theorem lookup_isSome_iff (key : κ) (entries : List (κ × υ)) :
    (lookup key entries).isSome ↔ key ∈ entries.map Prod.fst := by
  induction entries with
  | nil => simp [lookup]
  | cons entry rest ih =>
    obtain ⟨k, v⟩ := entry
    by_cases hk : k = key
    · simp [lookup, hk]
    · simp [lookup, hk, ih, Ne.symm hk]

/-- Among distinct keys the value of a key is that of its only entry. -/
theorem lookup_eq_some_iff {key : κ} {value : υ} {entries : List (κ × υ)}
    (h : (entries.map Prod.fst).Nodup) :
    lookup key entries = some value ↔ (key, value) ∈ entries := by
  induction entries with
  | nil => simp [lookup]
  | cons entry rest ih =>
    obtain ⟨k, v⟩ := entry
    rw [List.map_cons, List.nodup_cons] at h
    by_cases hk : k = key
    · subst hk
      have : (k, value) ∉ rest := fun hm => h.1 (List.mem_map.mpr ⟨_, hm, rfl⟩)
      simp [lookup, this, eq_comm]
    · simp [lookup, hk, ih h.2, Ne.symm hk]

end Entries

/-- A finite map. -/
structure Table (κ υ : Type) where
  /-- The entries. -/
  entries : List (κ × υ)
  /-- No key has two entries. -/
  distinct : (entries.map Prod.fst).Nodup

namespace Table

/-- The map without entries. -/
def empty : Table κ υ := ⟨[], List.nodup_nil⟩

/-- The value of a key. -/
def lookup (table : Table κ υ) (key : κ) : Option υ := Entries.lookup key table.entries

/-- Writes the value of a key. -/
def insert (table : Table κ υ) (key : κ) (value : υ) : Table κ υ :=
  ⟨Entries.assign key value table.entries, Entries.nodup_assign table.distinct⟩

/-- The number of keys. -/
def size (table : Table κ υ) : Nat := table.entries.length

/-- The empty map has no values. -/
theorem lookup_empty (key : κ) : (empty : Table κ υ).lookup key = none := rfl

/-- Writing a key changes its own value and no other. -/
theorem lookup_insert (table : Table κ υ) (key query : κ) (value : υ) :
    (table.insert key value).lookup query =
      if key = query then some value else table.lookup query :=
  Entries.lookup_assign query key value table.entries

/-- The value of a key is that of its entry. -/
theorem lookup_eq_some_iff {table : Table κ υ} {key : κ} {value : υ} :
    table.lookup key = some value ↔ (key, value) ∈ table.entries :=
  Entries.lookup_eq_some_iff table.distinct

/-- Writing adds a key exactly when it had no value. -/
theorem size_insert (table : Table κ υ) (key : κ) (value : υ) :
    (table.insert key value).size = table.size + if (table.lookup key).isSome then 0 else 1 := by
  have hk := Entries.keys_assign key value table.entries
  have hl := congrArg List.length hk
  rw [List.length_map] at hl
  simp only [size, insert, lookup, Entries.lookup_isSome_iff, hl]
  split <;> simp

end Table

end ModelRegistry
