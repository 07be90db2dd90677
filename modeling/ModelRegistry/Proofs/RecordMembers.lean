import ModelRegistry.JsonRecord
import ModelRegistry.Proofs.LastEntries
import Mathlib.Data.List.Nodup
import Mathlib.Data.String.Basic

/-!
# Members of a record

A record is read from the canonical members of an object. These are members of the object,
and each key has the value written last, so what is read depends neither on the order in
which the members were written nor on values that were written over. The visit of the
members finds a fault exactly if one of them is not admitted, and of several faults the one
of the first key in ascending order. Only then are the fields looked at one by one.
-/

namespace ModelRegistry

/-- Two steps come to a result exactly if the second does with what the first came to. -/
theorem bind_eq_ok_iff {ε α β : Type} {first : Except ε α} {next : α → Except ε β} {result : β} :
    (first >>= next) = .ok result ↔ ∃ value, first = .ok value ∧ next value = .ok result := by
  cases first with
  | error fault => simp [bind, Except.bind]
  | ok value => simp [bind, Except.bind]

/-- Two steps come to a fault exactly if the first does, or else the second. -/
theorem bind_eq_error_iff {ε α β : Type} {first : Except ε α} {next : α → Except ε β} {fault : ε} :
    (first >>= next) = .error fault ↔
      first = .error fault ∨ ∃ value, first = .ok value ∧ next value = .error fault := by
  cases first with
  | error fault => simp [bind, Except.bind]
  | ok value => simp [bind, Except.bind]

namespace Members

/-- The value that was written last under a key. -/
def last? (members : Members) (key : String) : Option Json :=
  (members.findRev? (·.1 = key)).map Prod.snd

/-- The value under a key is that of the first member with the key. -/
theorem value?_eq_find? (key : String) (members : Members) :
    value? key members = (members.find? (·.1 = key)).map Prod.snd := by
  induction members with
  | nil => rfl
  | cons member rest ih =>
    obtain ⟨k, v⟩ := member
    rw [value?, List.find?_cons, ih]
    by_cases h : k = key <;> simp [h]

/-- The canonical members answer with the value that was written last. -/
theorem value?_canonical_eq_last? (key : String) (members : Members) :
    value? key members.canonical = members.last? key := by
  rw [value?_canonical, value?_eq_find?, last?, List.findRev?_eq_find?_reverse]

/-- Where no key is repeated, each member has the value under its key. -/
theorem Ascending.value?_eq_some_iff {members : Members} (h : members.Ascending) {key : String}
    {value : Json} : value? key members = some value ↔ (key, value) ∈ members := by
  induction members with
  | nil => simp [value?]
  | cons member rest ih =>
    obtain ⟨k, v⟩ := member
    obtain ⟨hk, hrest⟩ := List.pairwise_cons.mp h
    rw [value?, List.mem_cons, Prod.mk.injEq]
    by_cases same : k = key
    · -- no later member has this key
      have hn : (key, value) ∉ rest := fun hm => by
        have hlt : compare k key = .lt := hk _ hm
        rw [same, Std.ReflOrd.compare_self] at hlt
        cases hlt
      simp [same, hn, eq_comm]
    · rw [if_neg same, ih hrest]
      simp [Ne.symm same]

/-- The canonical members are the keys with the values written last. -/
theorem mem_canonical_iff {members : Members} {key : String} {value : Json} :
    (key, value) ∈ members.canonical ↔ members.last? key = some value := by
  rw [← (ascending_canonical members).value?_eq_some_iff, value?_canonical_eq_last?]

/-- Some value was written last under a key exactly if one was written. -/
theorem isSome_last?_iff {members : Members} {key : String} :
    (members.last? key).isSome ↔ ∃ member ∈ members, member.1 = key := by
  rw [last?, Option.isSome_map, isSome_findRev?_iff]
  simp only [decide_eq_true_eq]

/-- The value that was written last under a key was written under it. -/
theorem mem_of_last?_eq_some {members : Members} {key : String} {value : Json}
    (h : members.last? key = some value) : (key, value) ∈ members := by
  obtain ⟨⟨found, given⟩, hf, rfl⟩ := Option.map_eq_some_iff.mp h
  rw [List.findRev?_eq_find?_reverse] at hf
  have same : found = key := by simpa using List.find?_some hf
  subst same
  exact List.mem_reverse.mp (List.mem_of_find?_eq_some hf)

/-- If no key is repeated, each member has the value under its key. -/
theorem last?_eq_some_of_mem {members : Members} (distinct : (members.map Prod.fst).Nodup)
    {key : String} {value : Json} (h : (key, value) ∈ members) :
    members.last? key = some value := by
  obtain ⟨last, hlast⟩ := Option.isSome_iff_exists.mp (isSome_last?_iff.mpr ⟨_, h, rfl⟩)
  cases List.inj_on_of_nodup_map distinct h (mem_of_last?_eq_some hlast) rfl
  exact hlast

/-- Different keys that are written with values have these values. -/
theorem map_last?_zip {keys : List String} {values : List Json} (distinct : keys.Nodup)
    (full : keys.length = values.length) :
    keys.map (last? (keys.zip values)) = values.map some := by
  have hkeys : (keys.zip values).map Prod.fst = keys := List.map_fst_zip full.le
  have hvalues : (keys.zip values).map Prod.snd = values := List.map_snd_zip full.ge
  calc keys.map (last? (keys.zip values))
      = ((keys.zip values).map Prod.fst).map (last? (keys.zip values)) := by rw [hkeys]
    _ = ((keys.zip values).map Prod.snd).map some := by
        rw [List.map_map, List.map_map]
        exact List.map_congr_left fun member hm => last?_eq_some_of_mem (by rwa [hkeys]) hm
    _ = values.map some := by rw [hvalues]

end Members

/-- A check passes exactly if the value can be read. -/
theorem JsonReader.check_eq_ok_iff {α : Type} {reader : JsonReader α} {value : Json} :
    reader.check value = .ok () ↔ ∃ result, reader value = .ok result := by
  rw [check]
  cases reader value with
  | error fault => simp [Except.map]
  | ok result => simp [Except.map]

namespace RecordShape

variable {shape : RecordShape}

/-- The visit of some members ends well exactly if each of them is admitted. -/
theorem checkMembers_eq_ok_iff {members : Members} :
    shape.checkMembers members = .ok () ↔
      ∀ member ∈ members, shape.checkMember member.1 member.2 = .ok () := by
  induction members with
  | nil => simp [checkMembers]
  | cons member rest ih =>
    rw [checkMembers, List.forall_mem_cons, ← ih]
    cases shape.checkMember member.1 member.2 with
    | error fault => simp [bind, Except.bind]
    | ok passed => simp [bind, Except.bind]

/-- The visit of members in ascending order of keys ends with a fault exactly if it is that of
the first key of which the member is not admitted. -/
theorem checkMembers_eq_error_iff {members : Members} {fault : Fault}
    (ascending : members.Ascending) :
    shape.checkMembers members = .error fault ↔
      ∃ member ∈ members, shape.checkMember member.1 member.2 = .error fault ∧
        ∀ other ∈ members, shape.checkMember other.1 other.2 ≠ .ok () → member.1 ≤ other.1 := by
  induction members with
  | nil => simp [checkMembers]
  | cons head rest ih =>
    obtain ⟨hhead, hrest⟩ := List.pairwise_cons.mp ascending
    have hle : ∀ other ∈ rest, head.1 < other.1 := fun other ho =>
      compare_lt_iff_lt.mp (hhead other ho)
    rw [checkMembers, bind_eq_error_iff]
    cases hc : shape.checkMember head.1 head.2 with
    | error found =>
      constructor
      · rintro (⟨⟨⟩⟩ | ⟨_, ⟨⟩, -⟩)
        refine ⟨head, List.mem_cons_self, hc, List.forall_mem_cons.mpr ⟨fun _ => le_refl _, ?_⟩⟩
        exact fun other ho _ => (hle other ho).le
      · rintro ⟨member, hm, hf, first⟩
        rcases List.mem_cons.mp hm with rfl | hm
        · exact .inl (hc.symm.trans hf)
        · exact absurd (first head List.mem_cons_self (by simp [hc])) (not_le_of_gt (hle member hm))
    | ok passed =>
      -- the first member is admitted, so it is neither the fault nor to be compared with it
      simp only [List.exists_mem_cons_iff, List.forall_mem_cons, hc]
      simp [ih hrest]

end RecordShape

end ModelRegistry
