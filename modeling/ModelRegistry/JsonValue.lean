/-!
# JSON values

A JSON value as it is read: integers and binary64 numbers are told apart, and
the members of an object keep the order and the repetitions of the text. What
an object means is its canonical member list: one member per key, the last one
written, in ascending order of keys.
-/

namespace ModelRegistry

/-- A JSON value. -/
inductive Json where
  /-- The value `null`. -/
  | null
  /-- A truth value. -/
  | bool (value : Bool)
  /-- A number written as an integer. -/
  | int (value : Int)
  /-- A number written with a point or an exponent, or too large for an integer. -/
  | float (value : Float)
  /-- A text. -/
  | text (value : String)
  /-- A list of values. -/
  | array (items : List Json)
  /-- Keyed values, as written. -/
  | object (members : List (String × Json))
deriving Inhabited

/-- Keyed values; the name of the type says nothing about order or repetition. -/
abbrev Members := List (String × Json)

namespace Members

/-- Puts a member at its place in an ascending list, in the place of an earlier
one with the same key. -/
def put (key : String) (value : Json) : Members → Members
  | [] => [(key, value)]
  | (k, v) :: rest =>
    match compare key k with
    | .lt => (key, value) :: (k, v) :: rest
    | .eq => (key, value) :: rest
    | .gt => (k, v) :: put key value rest

/-- One member per key, the last one written, in ascending order of keys. -/
def canonical (members : Members) : Members :=
  members.foldl (fun sorted member => put member.1 member.2 sorted) []

/-- Keys in strictly ascending order, so that none is repeated. -/
def Ascending (members : Members) : Prop :=
  members.Pairwise fun a b => compare a.1 b.1 = .lt

/-- The value under a key in a list without repetitions. -/
def value? (key : String) : Members → Option Json
  | [] => none
  | (k, v) :: rest => if k = key then some v else value? key rest

/-- Putting a member changes the value of its own key and of no other. -/
theorem value?_put (query key : String) (value : Json) (members : Members) :
    value? query (put key value members) =
      if key = query then some value else value? query members := by
  induction members with
  | nil => rfl
  | cons member rest ih =>
    obtain ⟨k, v⟩ := member
    simp only [put]
    split
    · rfl
    · rename_i h
      have hk : key = k := Std.LawfulEqCmp.eq_of_compare h
      subst hk
      simp only [value?]
      split <;> rfl
    · rename_i h
      have hk : k ≠ key := by
        rintro rfl
        rw [Std.ReflOrd.compare_self] at h
        exact Ordering.noConfusion h
      simp only [value?, ih]
      by_cases hq : k = query
      · have : key ≠ query := fun e => hk (hq.trans e.symm)
        simp [hq, this]
      · simp [hq]

/-- A member at the end is found where no earlier one has its key. -/
theorem value?_append_singleton (query key : String) (value : Json) (front : Members) :
    value? query (front ++ [(key, value)]) =
      (value? query front).or (if key = query then some value else none) := by
  induction front with
  | nil => simp [value?]
  | cons member rest ih =>
    simp only [List.cons_append, value?]
    split
    · rfl
    · exact ih

/-- A fold of `put` answers with the last member of a key. -/
theorem value?_foldl_put (query : String) (members sorted : Members) :
    value? query (members.foldl (fun sorted member => put member.1 member.2 sorted) sorted) =
      (value? query members.reverse).or (value? query sorted) := by
  induction members generalizing sorted with
  | nil => simp [value?]
  | cons member rest ih =>
    rw [List.foldl_cons, ih, List.reverse_cons, value?_append_singleton, value?_put]
    cases value? query rest.reverse with
    | some value => rfl
    | none => by_cases hk : member.1 = query <;> simp [hk]

/-- The canonical list answers with the last member written. -/
theorem value?_canonical (query : String) (members : Members) :
    value? query (canonical members) = value? query members.reverse := by
  rw [canonical, value?_foldl_put]
  simp [value?]

/-- The members after putting one are it and earlier ones. -/
theorem mem_of_mem_put {member : String × Json} {key : String} {value : Json} {members : Members}
    (h : member ∈ put key value members) : member = (key, value) ∨ member ∈ members := by
  induction members with
  | nil => exact Or.inl (List.mem_singleton.mp h)
  | cons head rest ih =>
    simp only [put] at h
    split at h
    · exact List.mem_cons.mp h
    · rcases List.mem_cons.mp h with h | h
      · exact Or.inl h
      · exact Or.inr (List.mem_cons_of_mem _ h)
    · rcases List.mem_cons.mp h with h | h
      · exact Or.inr (h ▸ List.mem_cons_self)
      · exact (ih h).imp id (List.mem_cons_of_mem _)

/-- Putting a member keeps keys ascending. -/
theorem Ascending.put {key : String} {value : Json} {members : Members} (h : members.Ascending) :
    (put key value members).Ascending := by
  induction members with
  | nil => exact List.pairwise_singleton _ _
  | cons head rest ih =>
    obtain ⟨hh, hr⟩ := List.pairwise_cons.mp h
    simp only [Members.put]
    split
    · rename_i hlt
      refine List.pairwise_cons.mpr ⟨?_, h⟩
      intro member hm
      rcases List.mem_cons.mp hm with rfl | hm
      · exact hlt
      · exact Std.TransCmp.lt_trans hlt (hh member hm)
    · rename_i heq
      have hk : key = head.1 := Std.LawfulEqCmp.eq_of_compare heq
      exact List.pairwise_cons.mpr ⟨fun member hm => hk ▸ hh member hm, hr⟩
    · rename_i hgt
      refine List.pairwise_cons.mpr ⟨?_, ih hr⟩
      intro member hm
      rcases mem_of_mem_put hm with rfl | hm
      · exact Std.OrientedCmp.lt_of_gt hgt
      · exact hh member hm

/-- The keys of the canonical list ascend. -/
theorem ascending_canonical (members : Members) : members.canonical.Ascending := by
  have h : ∀ sorted : Members, sorted.Ascending →
      (members.foldl (fun sorted member => put member.1 member.2 sorted) sorted).Ascending := by
    induction members with
    | nil => exact fun _ hs => hs
    | cons member rest ih => exact fun sorted hs => ih _ hs.put
  exact h [] List.Pairwise.nil

end Members

end ModelRegistry
