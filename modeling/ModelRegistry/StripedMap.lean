import ModelRegistry.Table

/-!
# Two-way maps in stripes

A two-way map keeps one direction from keys to values and one from values to
keys. Each direction is split into a fixed positive number of stripes, and the
digest of a key or value selects its stripe. The digests are drawn when a map is
made and stay with it; nothing is known of them, and keys may share one. The two
directions are written on their own: writing a key does not clean up the value it
had, nor a key that had the value before, so the directions need not be inverse to
each other.
-/

namespace ModelRegistry

variable {κ υ : Type}

/-- The digests by which a two-way map selects stripes. -/
structure Digests (κ υ : Type) where
  /-- The digest of a key. -/
  ofKey : κ → UInt64
  /-- The digest of a value. -/
  ofValue : υ → UInt64

/-- A two-way map in stripes. -/
structure StripedMap (κ υ : Type) where
  /-- The number of stripes of each direction. -/
  stripes : Nat
  /-- There is at least one stripe. -/
  positive : 0 < stripes
  /-- The digests of keys and values. -/
  digests : Digests κ υ
  /-- The stripes from keys to values. -/
  forward : Vector (Table κ υ) stripes
  /-- The stripes from values to keys. -/
  reverse : Vector (Table υ κ) stripes

namespace StripedMap

/-- The map without entries. A request for no stripes gives one. -/
def empty (digests : Digests κ υ) (stripes : Nat) : StripedMap κ υ :=
  ⟨max 1 stripes, by omega, digests, .replicate _ .empty, .replicate _ .empty⟩

/-- The stripe that a digest selects. -/
def select (map : StripedMap κ υ) (digest : UInt64) : Fin map.stripes :=
  ⟨digest.toNat % map.stripes, Nat.mod_lt _ map.positive⟩

/-- The stripe of a key. -/
def stripeOfKey (map : StripedMap κ υ) (key : κ) : Fin map.stripes :=
  map.select (map.digests.ofKey key)

/-- The stripe of a value. -/
def stripeOfValue (map : StripedMap κ υ) (value : υ) : Fin map.stripes :=
  map.select (map.digests.ofValue value)

/-- The value of a key. -/
def lookupKey [DecidableEq κ] (map : StripedMap κ υ) (key : κ) : Option υ :=
  map.forward[map.stripeOfKey key].lookup key

/-- The key of a value. -/
def lookupValue [DecidableEq υ] (map : StripedMap κ υ) (value : υ) : Option κ :=
  map.reverse[map.stripeOfValue value].lookup value

/-- Writes a key and a value in both directions. -/
def insert [DecidableEq κ] [DecidableEq υ] (map : StripedMap κ υ) (key : κ) (value : υ) :
    StripedMap κ υ :=
  let front := map.stripeOfKey key
  let back := map.stripeOfValue value
  { map with
    forward := map.forward.set front (map.forward[front].insert key value) front.isLt
    reverse := map.reverse.set back (map.reverse[back].insert value key) back.isLt }

/-- The number of keys over all stripes. -/
def size (map : StripedMap κ υ) : Nat :=
  map.forward.toList.foldr (fun stripe total => stripe.size + total) 0

/-- The map with the same stripes and digests and no entries. -/
def clear (map : StripedMap κ υ) : StripedMap κ υ :=
  { map with forward := .replicate _ .empty, reverse := .replicate _ .empty }

/-- A stripe without entries has no values. -/
theorem lookup_replicate_empty {α β : Type} [DecidableEq α] (stripes : Nat) (stripe : Fin stripes)
    (item : α) :
    ((Vector.replicate stripes Table.empty : Vector (Table α β) stripes)[stripe]).lookup item =
      none := by
  simp [Table.lookup_empty]

/-- The empty map has no values. -/
theorem lookupKey_empty [DecidableEq κ] (digests : Digests κ υ) (stripes : Nat) (key : κ) :
    (empty digests stripes).lookupKey key = none :=
  lookup_replicate_empty _ _ key

/-- The empty map has no keys. -/
theorem lookupValue_empty [DecidableEq υ] (digests : Digests κ υ) (stripes : Nat) (value : υ) :
    (empty digests stripes).lookupValue value = none :=
  lookup_replicate_empty _ _ value

/-- A cleared map has no values. -/
theorem lookupKey_clear [DecidableEq κ] (map : StripedMap κ υ) (key : κ) :
    map.clear.lookupKey key = none :=
  lookup_replicate_empty _ _ key

/-- A cleared map has no keys. -/
theorem lookupValue_clear [DecidableEq υ] (map : StripedMap κ υ) (value : υ) :
    map.clear.lookupValue value = none :=
  lookup_replicate_empty _ _ value

/-- Writing a key changes its own value and no other. -/
theorem lookupKey_insert [DecidableEq κ] [DecidableEq υ] (map : StripedMap κ υ)
    (key query : κ) (value : υ) :
    (map.insert key value).lookupKey query =
      if key = query then some value else map.lookupKey query := by
  have hs : (map.insert key value).lookupKey query =
      ((map.forward.set (map.stripeOfKey key) (map.forward[map.stripeOfKey key].insert key value)
        (map.stripeOfKey key).isLt)[map.stripeOfKey query]).lookup query := rfl
  rw [hs, lookupKey]
  simp only [Fin.getElem_fin, Vector.getElem_set]
  split
  · rename_i h
    rw [Table.lookup_insert]
    simp only [h]
  · rename_i h
    have hk : key ≠ query := fun e => h (by rw [e])
    rw [if_neg hk]

/-- Writing a value changes its own key and no other. -/
theorem lookupValue_insert [DecidableEq κ] [DecidableEq υ] (map : StripedMap κ υ) (key : κ)
    (value query : υ) :
    (map.insert key value).lookupValue query =
      if value = query then some key else map.lookupValue query := by
  have hs : (map.insert key value).lookupValue query =
      ((map.reverse.set (map.stripeOfValue value)
        (map.reverse[map.stripeOfValue value].insert value key)
        (map.stripeOfValue value).isLt)[map.stripeOfValue query]).lookup query := rfl
  rw [hs, lookupValue]
  simp only [Fin.getElem_fin, Vector.getElem_set]
  split
  · rename_i h
    rw [Table.lookup_insert]
    simp only [h]
  · rename_i h
    have hk : value ≠ query := fun e => h (by rw [e])
    rw [if_neg hk]

end StripedMap

end ModelRegistry
