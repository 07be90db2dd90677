import ModelRegistry.Proofs.RecordMembers

/-!
# What a reader admits

Each reader of a single value admits exactly the values of one form, and gives back what
stands in them. A list is read exactly if all its items are, and otherwise the fault is that
of the first item that is not. What a field is read from may be missing; what that comes to
is told by the field, not by the reader.
-/

namespace ModelRegistry

/-- A list is read item by item. -/
theorem mapM_eq_ok_iff {ε α β : Type} {read : α → Except ε β} {items : List α} {results : List β} :
    items.mapM read = .ok results ↔
      List.Forall₂ (fun item result => read item = .ok result) items results := by
  induction items generalizing results with
  | nil =>
    cases results with
    | nil => exact iff_of_true rfl .nil
    | cons first others => exact iff_of_false nofun nofun
  | cons head rest ih =>
    rw [List.mapM_cons, bind_eq_ok_iff]
    simp only [bind_eq_ok_iff, ih]
    constructor
    · rintro ⟨first, hfirst, others, hothers, ⟨⟩⟩
      exact .cons hfirst hothers
    · rintro ⟨⟩
      exact ⟨_, ‹_›, _, ‹_›, rfl⟩

/-- A list is not read because of the first item that is not. -/
theorem mapM_eq_error_iff {ε α β : Type} {read : α → Except ε β} {fault? : α → Option ε}
    (exact : ∀ item fault, read item = .error fault ↔ fault? item = some fault) {items : List α}
    {fault : ε} : items.mapM read = .error fault ↔ items.findSome? fault? = some fault := by
  induction items with
  | nil => simp [pure, Except.pure]
  | cons head rest ih =>
    rw [List.mapM_cons, bind_eq_error_iff, List.findSome?_cons]
    cases hr : read head with
    | error found =>
      rw [(exact head found).mp hr]
      simp
    | ok result =>
      have hf : fault? head = none := Option.eq_none_iff_forall_ne_some.mpr fun found h => by
        rw [(exact head found).mpr h] at hr
        cases hr
      simp [hf, bind_eq_error_iff, ih, pure, Except.pure]

namespace JsonReader

variable {value : Json}

/-- A text is read as what it is. -/
theorem string_eq_ok_iff {text : String} : string value = .ok text ↔ value = .text text := by
  cases value <;> simp [string]

/-- A truth value is read as what it is. -/
theorem boolean_eq_ok_iff {truth : Bool} : boolean value = .ok truth ↔ value = .bool truth := by
  cases value <;> simp [boolean]

/-- A count is an integer that 64 bits hold. -/
theorem count_eq_ok_iff {n : UInt64} : count value = .ok n ↔ value = .int n.toNat := by
  cases value with
  | int given =>
    rw [count, Json.int.injEq]
    split
    · rename_i range
      have hlt : given.toNat < UInt64.size := by omega
      rw [Except.ok.injEq, UInt64.ofNat_eq_iff_mod_eq_toNat, Nat.mod_eq_of_lt hlt]
      omega
    · rename_i range
      have hn := n.toNat_lt
      refine iff_of_false nofun ?_
      rintro rfl
      exact range ⟨by omega, by simp only [UInt64.size]; omega⟩
  | _ => simp [count]

/-- A list is read exactly if its items are. -/
theorem list_eq_ok_iff {α : Type} {item : JsonReader α} {results : List α} :
    list item value = .ok results ↔ ∃ items, value = .array items ∧
      List.Forall₂ (fun given result => item given = .ok result) items results := by
  cases value with
  | array items => simp [list, mapM_eq_ok_iff]
  | _ => simp [list]

end JsonReader

namespace Members

variable {α : Type} {members : Members} {key : String} {reader : JsonReader α} {result : α}

/-- A field is read from the value that was written last under its key. -/
theorem field_eq_ok_iff : field members.canonical key reader = .ok result ↔
    ∃ value, members.last? key = some value ∧ reader value = .ok result := by
  rw [field, value?_canonical_eq_last?]
  cases members.last? key <;> simp

end Members

/-- What comes of a value that may be missing: what the value means, or else a default. -/
def Given {α : Type} (means : Json → α → Prop) (absent : α) : Option Json → α → Prop
  | some value, result => means value result
  | none, result => result = absent

section Given

variable {α : Type} {means : Json → α → Prop} {reader : JsonReader α} {absent result : α}

/-- Something comes of a value that may be missing exactly if it means something when it is
there. -/
theorem exists_given_iff {given : Option Json} :
    (∃ result, Given means absent given result) ↔
      ∀ value ∈ given, ∃ result, means value result := by
  cases given <;> simp [Given]

/-- A value of which something comes passes the check of a reader that reads what it means. -/
theorem Given.check_eq_ok
    (exact : ∀ value result, reader value = .ok result ↔ means value result) {given : Option Json}
    (h : Given means absent given result) (value : Json) (there : given = some value) :
    reader.check value = .ok () := by
  subst there
  exact JsonReader.check_eq_ok_iff.mpr ⟨result, (exact value result).mpr h⟩

/-- A field with a default is what comes of the value that was written last under its key. -/
theorem Members.fieldOr_eq_ok_iff
    (exact : ∀ value result, reader value = .ok result ↔ means value result) {members : Members}
    {key : String} : fieldOr members.canonical key reader absent = .ok result ↔
      Given means absent (members.last? key) result := by
  rw [fieldOr, value?_canonical_eq_last?]
  cases members.last? key with
  | none => simp [Given, eq_comm]
  | some value => exact exact value result

/-- A field of a list with a default is what comes of the value at its place. -/
theorem RecordShape.itemOr_eq_ok_iff
    (exact : ∀ value result, reader value = .ok result ↔ means value result) {items : List Json}
    {place : Nat} : itemOr items place reader absent = .ok result ↔
      Given means absent items[place]? result := by
  rw [itemOr]
  cases items[place]? with
  | none => simp [Given, eq_comm]
  | some value => exact exact value result

end Given

namespace RecordShape

variable {α : Type} {shape : RecordShape} {ofMembers : Members → Except Fault α}
  {ofItems : List Json → Except Fault α} {result : α}

/-- An object is read exactly if the value written last under each key is admitted there and
the canonical members are read. -/
theorem read_object_eq_ok_iff {members : Members} :
    shape.read ofMembers ofItems (.object members) = .ok result ↔
      (∀ key value, members.last? key = some value → shape.checkMember key value = .ok ()) ∧
        ofMembers members.canonical = .ok result := by
  have hchecked : shape.checkMembers members.canonical = .ok () ↔
      ∀ key value, members.last? key = some value → shape.checkMember key value = .ok () := by
    simp only [checkMembers_eq_ok_iff, Prod.forall, Members.mem_canonical_iff]
  rw [read, bind_eq_ok_iff, ← hchecked]
  constructor
  · rintro ⟨passed, h⟩
    exact h
  · exact fun h => ⟨(), h⟩

/-- A field of a list is read from the value at its place. -/
theorem item_eq_ok_iff {reader : JsonReader α} {items : List Json} {place : Nat} :
    shape.item items place reader = .ok result ↔
      ∃ value, items[place]? = some value ∧ reader value = .ok result := by
  rw [item]
  cases items[place]? <;> simp

/-- If no name is given twice, looking up a name gives the check of its field. -/
theorem lookup_fields_eq_some_iff (distinct : shape.names.Nodup) {key : String}
    {check : JsonReader Unit} :
    shape.fields.lookup key = some check ↔ (key, check) ∈ shape.fields := by
  rw [names] at distinct
  generalize shape.fields = fields at distinct ⊢
  induction fields with
  | nil => simp
  | cons head rest ih =>
    obtain ⟨name, first⟩ := head
    rw [List.map_cons, List.nodup_cons] at distinct
    rw [List.lookup_cons, List.mem_cons, Prod.mk.injEq]
    by_cases same : key = name
    · subst same
      have hn : (key, check) ∉ rest := fun hm =>
        distinct.1 (List.mem_map.mpr ⟨(key, check), hm, rfl⟩)
      simp [hn, eq_comm]
    · have hb : (key == name) = false := by simpa using same
      simp [hb, same, ih distinct.2]

/-- A closed record admits the members of an object exactly if each of them is that of a field
and each field admits the value written last. -/
theorem closed_admits_iff (closed : shape.closed = true) (distinct : shape.names.Nodup)
    {members : Members} :
    (∀ key value, members.last? key = some value → shape.checkMember key value = .ok ()) ↔
      (∀ member ∈ members, member.1 ∈ shape.names) ∧
        ∀ field ∈ shape.fields, ∀ value, members.last? field.1 = some value →
          field.2 value = .ok () := by
  constructor
  · intro admitted
    refine ⟨fun member hm => ?_, fun field hf value hv => ?_⟩
    · obtain ⟨value, hv⟩ := Option.isSome_iff_exists.mp
        (Members.isSome_last?_iff.mpr ⟨member, hm, rfl⟩)
      have hc := admitted _ _ hv
      rw [checkMember] at hc
      cases hl : shape.fields.lookup member.1 with
      | none => simp [hl, closed] at hc
      | some check =>
        exact List.mem_map_of_mem ((lookup_fields_eq_some_iff distinct).mp hl)
    · have hc := admitted _ _ hv
      rwa [checkMember, (lookup_fields_eq_some_iff distinct).mpr hf] at hc
  · rintro ⟨known, admitted⟩ key value hv
    obtain ⟨member, hm, rfl⟩ := Members.isSome_last?_iff.mp (Option.isSome_of_eq_some hv)
    obtain ⟨field, hf, hn⟩ := List.mem_map.mp (known member hm)
    rw [← hn] at hv ⊢
    rw [checkMember, (lookup_fields_eq_some_iff distinct).mpr hf]
    exact admitted field hf value hv

/-- A list is read exactly if it is not longer than the record and the fields are read. -/
theorem read_array_eq_ok_iff {items : List Json} :
    shape.read ofMembers ofItems (.array items) = .ok result ↔
      items.length ≤ shape.fields.length ∧ ofItems items = .ok result := by
  rw [read, bind_eq_ok_iff]
  split
  · rename_i long
    simp [Nat.not_le.mpr long]
  · rename_i short
    simp [Nat.not_lt.mp short]

end RecordShape

end ModelRegistry
