import Mathlib.Data.Finset.Card
import Mathlib.Data.Finset.Dedup
import Mathlib.Data.List.Nodup
import ModelRegistry.Table

/-!
# Contents of finite maps

Since no key has two entries, the values of the keys decide all that a finite map holds:
how many keys there are, and the entries but for their order. The order depends on which
key was written first and is left open.
-/

namespace ModelRegistry.Table

variable {κ υ : Type} [DecidableEq κ]

/-- The number of keys of a map is that of the different keys in a list of all
its keys. -/
theorem size_eq_card {table : Table κ υ} {keys : List κ}
    (h : ∀ key, (table.lookup key).isSome ↔ key ∈ keys) : table.size = keys.toFinset.card := by
  have hs : keys.toFinset = (table.entries.map Prod.fst).toFinset := by
    ext key
    rw [List.mem_toFinset, List.mem_toFinset, ← h, Table.lookup, Entries.lookup_isSome_iff]
  rw [hs, List.toFinset_card_of_nodup table.distinct, List.length_map, Table.size]

/-- Maps in which all keys have the same values hold the same entries. -/
theorem entries_perm {first second : Table κ υ}
    (h : ∀ key, first.lookup key = second.lookup key) :
    first.entries.Perm second.entries := by
  have hf : first.entries.Nodup := first.distinct.of_map
  have hs : second.entries.Nodup := second.distinct.of_map
  rw [List.perm_ext_iff_of_nodup hf hs]
  rintro ⟨key, value⟩
  rw [← lookup_eq_some_iff, ← lookup_eq_some_iff, h]

end ModelRegistry.Table
