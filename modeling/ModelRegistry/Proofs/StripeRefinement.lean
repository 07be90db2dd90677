import Mathlib
import ModelRegistry.Proofs.TableContents
import ModelRegistry.StripedMap

/-!
# Striped maps as plain maps

A two-way map in stripes answers as two plain maps do that undergo the same
edits, whatever the number of stripes is and whatever the digests are: the digest
only selects the stripe in which an entry lies. The relation between the two says
where each entry lies and what is answered, and each edit keeps it. That the two
directions agree with each other is not claimed.
-/

namespace ModelRegistry

variable {κ υ : Type}

/-- An edit of a two-way map. -/
inductive Edit (κ υ : Type) where
  /-- Writes a key and a value in both directions. -/
  | insert (key : κ) (value : υ)
  /-- Removes all entries. -/
  | clear

namespace Edit

/-- Whether an edit removes all entries. -/
def isClear : Edit κ υ → Bool
  | clear => true
  | insert _ _ => false

/-- The key that an edit writes. -/
def key? : Edit κ υ → Option κ
  | insert key _ => some key
  | clear => none

/-- The keys written since all entries were removed last. -/
def keysSinceClear (edits : List (Edit κ υ)) : List κ :=
  (edits.rtakeWhile (!·.isClear)).filterMap key?

/-- Once all entries are removed no key is written. -/
theorem keysSinceClear_concat_clear (edits : List (Edit κ υ)) :
    keysSinceClear (edits ++ [clear]) = [] := by
  rw [keysSinceClear, List.rtakeWhile_concat_neg _ _ _ Bool.false_ne_true, List.filterMap_nil]

/-- A key that is written is the last one. -/
theorem keysSinceClear_concat_insert (edits : List (Edit κ υ)) (key : κ) (value : υ) :
    keysSinceClear (edits ++ [insert key value]) = keysSinceClear edits ++ [key] := by
  rw [keysSinceClear, List.rtakeWhile_concat_pos _ _ _ rfl, List.filterMap_append]
  rfl

end Edit

/-- A two-way map without stripes: one map for each direction. -/
structure TwoWayMap (κ υ : Type) where
  /-- The map from keys to values. -/
  forward : Table κ υ
  /-- The map from values to keys. -/
  reverse : Table υ κ

namespace TwoWayMap

/-- The map without entries. -/
def empty : TwoWayMap κ υ := ⟨.empty, .empty⟩

variable [DecidableEq κ] [DecidableEq υ]

/-- Edits each direction on its own. -/
def edit (map : TwoWayMap κ υ) : Edit κ υ → TwoWayMap κ υ
  | .insert key value => ⟨map.forward.insert key value, map.reverse.insert value key⟩
  | .clear => empty

/-- The map after some edits, in order. -/
def editAll (map : TwoWayMap κ υ) (edits : List (Edit κ υ)) : TwoWayMap κ υ :=
  edits.foldl edit map

/-- The keys with a value are those written since all entries were removed last. -/
theorem isSome_lookup_editAll (edits : List (Edit κ υ)) (key : κ) :
    (((empty : TwoWayMap κ υ).editAll edits).forward.lookup key).isSome ↔
      key ∈ Edit.keysSinceClear edits := by
  induction edits using List.reverseRecOn with
  | nil => exact ⟨Bool.noConfusion, List.not_mem_nil.elim⟩
  | append_singleton rest last ih =>
    rw [editAll, List.foldl_append]
    cases last with
    | insert written value =>
      have hl : ((rest.foldl edit empty).edit (.insert written value)).forward.lookup key =
          if written = key then some value else (rest.foldl edit empty).forward.lookup key :=
        Table.lookup_insert _ written key value
      rw [Edit.keysSinceClear_concat_insert, List.mem_append, List.mem_singleton, List.foldl_cons,
        List.foldl_nil, hl, ← ih]
      by_cases hk : written = key
      · simp [hk]
      · simp [hk, Ne.symm hk, editAll]
    | clear =>
      rw [Edit.keysSinceClear_concat_clear]
      exact ⟨Bool.noConfusion, List.not_mem_nil.elim⟩

end TwoWayMap

namespace StripedMap

/-- The number of keys is that of all stripes, added up. -/
theorem size_eq_sum (map : StripedMap κ υ) :
    map.size = (map.forward.toList.map Table.size).sum := by
  rw [size, List.sum_eq_foldr, List.foldr_map]

/-- A cleared map has no keys. -/
theorem size_clear (map : StripedMap κ υ) : map.clear.size = 0 := by
  have hz : (Table.empty : Table κ υ).size = 0 := rfl
  rw [size_eq_sum, clear, Vector.toList_replicate, List.map_replicate, hz, List.sum_replicate_nat,
    Nat.mul_zero]

variable [DecidableEq κ] [DecidableEq υ]

/-- Writing adds a key exactly when it had no value. -/
theorem size_insert (map : StripedMap κ υ) (key : κ) (value : υ) :
    (map.insert key value).size = map.size + if (map.lookupKey key).isSome then 0 else 1 := by
  let old := map.forward[map.stripeOfKey key]
  let new := old.insert key value
  have hl : (map.stripeOfKey key).val < map.forward.toList.length := by simp
  have hg : map.forward.toList[(map.stripeOfKey key).val] = old := Vector.getElem_toList _
  have hs : (map.insert key value).size =
      ((map.forward.toList.set (map.stripeOfKey key) new).map Table.size).sum := by
    rw [size_eq_sum, insert, Vector.toList_set]
  -- Both sums are the sum over the other stripes and one more.
  have ha := ((List.set_perm_cons_eraseIdx hl new).map Table.size).sum_nat
  have hb := ((List.getElem_cons_eraseIdx_perm hl).map Table.size).sum_nat
  have hn : new.size = old.size + if (old.lookup key).isSome then 0 else 1 :=
    Table.size_insert old key value
  rw [List.map_cons, List.sum_cons] at ha hb
  rw [hg] at hb
  rw [hs, size_eq_sum, show map.lookupKey key = old.lookup key from rfl]
  omega

/-- Edits both directions, each in the stripe that its digest selects. -/
def edit (map : StripedMap κ υ) : Edit κ υ → StripedMap κ υ
  | .insert key value => map.insert key value
  | .clear => map.clear

/-- The map after some edits, in order. -/
def editAll (map : StripedMap κ υ) (edits : List (Edit κ υ)) : StripedMap κ υ :=
  edits.foldl edit map

/-- No edit changes the number of stripes. -/
theorem stripes_editAll (map : StripedMap κ υ) (edits : List (Edit κ υ)) :
    (map.editAll edits).stripes = map.stripes := by
  induction edits generalizing map with
  | nil => rfl
  | cons head rest ih =>
    rw [editAll, List.foldl_cons]
    cases head with
    | insert key value => exact ih (map.insert key value)
    | clear => exact ih map.clear

/-- No edit changes the digests. -/
theorem digests_editAll (map : StripedMap κ υ) (edits : List (Edit κ υ)) :
    (map.editAll edits).digests = map.digests := by
  induction edits generalizing map with
  | nil => rfl
  | cons head rest ih =>
    rw [editAll, List.foldl_cons]
    cases head with
    | insert key value => exact ih (map.insert key value)
    | clear => exact ih map.clear

/-- Every entry of some stripes lies in the stripe that is selected for its key. -/
def Placed {α β : Type} {stripes : Nat} (tables : Vector (Table α β) stripes)
    (stripeOf : α → Fin stripes) : Prop :=
  ∀ (stripe : Fin stripes) (entry : α × β),
    entry ∈ (tables.get stripe).entries → stripe = stripeOf entry.1

/-- A map in stripes answers as a plain one, and every entry lies in the stripe
that its digest selects. -/
structure Represents (map : StripedMap κ υ) (plain : TwoWayMap κ υ) : Prop where
  /-- Keys have the same values. -/
  lookupKey : ∀ key, map.lookupKey key = plain.forward.lookup key
  /-- Values have the same keys. -/
  lookupValue : ∀ value, map.lookupValue value = plain.reverse.lookup value
  /-- There are as many keys. -/
  size : map.size = plain.forward.size
  /-- A key lies in the stripe of its digest. -/
  keyPlaced : Placed map.forward map.stripeOfKey
  /-- A value lies in the stripe of its digest. -/
  valuePlaced : Placed map.reverse map.stripeOfValue

section

variable {α β : Type} {stripes : Nat} {tables : Vector (Table α β) stripes}
  {stripeOf : α → Fin stripes}

/-- Nothing lies in stripes without entries. -/
theorem placed_replicate_empty (stripeOf : α → Fin stripes) :
    Placed (Vector.replicate stripes (Table.empty : Table α β)) stripeOf := by
  intro stripe entry hm
  simp [Table.empty] at hm

variable [DecidableEq α]

/-- An entry lies in the stripe of its key and nowhere else. -/
theorem Placed.mem_iff (placed : Placed tables stripeOf) {stripe : Fin stripes} {entry : α × β} :
    entry ∈ (tables.get stripe).entries ↔
      stripe = stripeOf entry.1 ∧
        (tables.get (stripeOf entry.1)).lookup entry.1 = some entry.2 := by
  constructor
  · intro hm
    obtain rfl := placed stripe entry hm
    exact ⟨rfl, Table.lookup_eq_some_iff.mpr hm⟩
  · rintro ⟨rfl, hl⟩
    exact Table.lookup_eq_some_iff.mp hl

/-- Writing a key in its own stripe leaves every key in its own stripe. -/
theorem Placed.set (placed : Placed tables stripeOf) (key : α) (value : β) :
    Placed (tables.set (stripeOf key) (tables[stripeOf key].insert key value)
      (stripeOf key).isLt) stripeOf := by
  intro stripe entry hm
  rw [Vector.get_eq_getElem, Vector.getElem_set] at hm
  split at hm
  · rename_i hs
    have hk : stripeOf key = stripe := Fin.ext hs
    have hl : (tables[stripeOf key].insert key value).lookup entry.1 = some entry.2 :=
      Table.lookup_eq_some_iff.mpr hm
    rw [Table.lookup_insert] at hl
    split at hl
    · rename_i he
      rw [← hk, he]
    · rw [← hk]
      exact placed (stripeOf key) entry (Table.lookup_eq_some_iff.mp hl)
  · exact placed stripe entry hm

end

namespace Represents

variable {map : StripedMap κ υ} {plain : TwoWayMap κ υ}

/-- Without entries a map in stripes is a plain one without entries. -/
theorem empty (digests : Digests κ υ) (stripes : Nat) :
    (StripedMap.empty digests stripes).Represents .empty where
  lookupKey := lookupKey_empty digests stripes
  lookupValue := lookupValue_empty digests stripes
  size := size_clear (StripedMap.empty digests stripes)
  keyPlaced := placed_replicate_empty _
  valuePlaced := placed_replicate_empty _

/-- Clearing a map in stripes clears the plain one. -/
theorem clear (map : StripedMap κ υ) : map.clear.Represents .empty where
  lookupKey := lookupKey_clear map
  lookupValue := lookupValue_clear map
  size := size_clear map
  keyPlaced := placed_replicate_empty _
  valuePlaced := placed_replicate_empty _

/-- Writing in a map in stripes writes in the plain one. -/
theorem insert (h : map.Represents plain) (key : κ) (value : υ) :
    (map.insert key value).Represents (plain.edit (.insert key value)) where
  lookupKey query := by
    rw [lookupKey_insert, h.lookupKey]
    exact (Table.lookup_insert plain.forward key query value).symm
  lookupValue query := by
    rw [lookupValue_insert, h.lookupValue]
    exact (Table.lookup_insert plain.reverse value query key).symm
  size := by
    rw [size_insert, h.lookupKey, h.size]
    exact (Table.size_insert plain.forward key value).symm
  keyPlaced := h.keyPlaced.set key value
  valuePlaced := h.valuePlaced.set value key

/-- Every edit of a map in stripes is one of the plain map. -/
theorem edit (h : map.Represents plain) (edit : Edit κ υ) :
    (map.edit edit).Represents (plain.edit edit) := by
  cases edit with
  | insert key value => exact h.insert key value
  | clear => exact .clear map

/-- Any number of edits of a map in stripes are edits of the plain map. -/
theorem editAll (h : map.Represents plain) (edits : List (Edit κ υ)) :
    (map.editAll edits).Represents (plain.editAll edits) := by
  induction edits generalizing map plain with
  | nil => exact h
  | cons head rest ih => exact ih (h.edit head)

/-- What lies in a stripe is what the plain map has for the keys of its digest. -/
theorem mem_forward_iff (h : map.Represents plain) (stripe : Fin map.stripes) (key : κ)
    (value : υ) :
    (key, value) ∈ map.forward[stripe].entries ↔
      stripe = map.stripeOfKey key ∧ plain.forward.lookup key = some value := by
  rw [← h.lookupKey]
  exact h.keyPlaced.mem_iff

/-- What lies in a stripe of the way back is what the plain map has for the values
of its digest. -/
theorem mem_reverse_iff (h : map.Represents plain) (stripe : Fin map.stripes) (value : υ)
    (key : κ) :
    (value, key) ∈ map.reverse[stripe].entries ↔
      stripe = map.stripeOfValue value ∧ plain.reverse.lookup value = some key := by
  rw [← h.lookupValue]
  exact h.valuePlaced.mem_iff

end Represents

end StripedMap

end ModelRegistry
