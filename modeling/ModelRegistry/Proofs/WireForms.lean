import ModelRegistry.IdentifierJson
import ModelRegistry.Proofs.FieldKinds

/-!
# Wire forms of identifiers and descriptors

Each of these values is written as an object of its fields. An object is read exactly if it has
a value of the right kind under the name of each field, and its other members do not matter; a
list is read exactly if it is that of the fields in declaration order. Of the values of another
kind the one with the first name in byte order is the fault, and without one the first missing
name in declaration order. For lists it is only told here which are read, not the faults of
the others.
-/

namespace ModelRegistry

/-- Names in the order of their bytes. -/
def ByteOrder (first second : String) : Prop :=
  first.toUTF8.data.toList ≤ second.toUTF8.data.toList

instance (first second : String) : Decidable (ByteOrder first second) :=
  inferInstanceAs (Decidable (first.toUTF8.data.toList ≤ second.toUTF8.data.toList))

section

variable (declared : List (String × FieldKind)) (members : Members) (fault : Fault)

/-- The fault is that of a value of another kind than its field's, and no other such value has
a name that is before in byte order. -/
def FirstMisfit : Prop :=
  ∃ field ∈ declared, ∃ value, members.last? field.1 = some value ∧
    field.2.fault? value = some fault ∧
    ∀ other ∈ declared, ∀ given, members.last? other.1 = some given → ¬ other.2.Admits given →
      ByteOrder field.1 other.1

/-- Each value there is of the kind of its field, and the fault is that of the first name in
declaration order without a value. -/
def FirstMissing : Prop :=
  (∀ field ∈ declared, ∀ value, members.last? field.1 = some value → field.2.Admits value) ∧
  ∃ earlier field later, declared = earlier ++ field :: later ∧
    (∀ known ∈ earlier, members.last? known.1 ≠ none) ∧
    members.last? field.1 = none ∧ fault = .missingField field.1

end

/-- The wire form of values with declared fields: how each is written, and from which objects
and lists it is read. -/
structure WireForm {α : Type} (declared : List (String × FieldKind)) (parts : α → List Json)
    (write : α → Json) (read : JsonReader α) : Prop where
  /-- A value is written as the object of its fields. -/
  written : ∀ given, write given = .object ((declared.map Prod.fst).zip (parts given))
  /-- What is written is read back. -/
  read_write : ∀ given, read (write given) = .ok given
  /-- An object is read exactly if it has a value of the right kind for each field. -/
  readable : ∀ members : Members, (∃ result, read (.object members) = .ok result) ↔
    ∀ field ∈ declared, ∃ value, members.last? field.1 = some value ∧ field.2.Admits value
  /-- It is read as the value with these in its fields. -/
  read_object : ∀ (members : Members) (result : α), read (.object members) = .ok result ↔
    declared.map (members.last? ·.1) = (parts result).map some
  /-- Only the members with the names of fields matter, also for the fault. -/
  unaffected : ∀ members others : Members,
    (∀ field ∈ declared, members.last? field.1 = others.last? field.1) →
      read (.object members) = read (.object others)
  /-- A list is read exactly if it is that of the fields. -/
  read_list : ∀ items result, read (.array items) = .ok result ↔ items = parts result
  /-- Nothing is read from a list of another length. -/
  other_length : ∀ items : List Json, items.length ≠ declared.length →
    ∃ fault, read (.array items) = .error fault
  /-- The fault of an object is that of the first value of another kind in byte order, or else
  that of the first missing name in declaration order. -/
  rejected : ∀ members fault, read (.object members) = .error fault ↔
    FirstMisfit declared members fault ∨ FirstMissing declared members fault

section

variable {declared : List (String × FieldKind)} {members others : Members} {fault : Fault}
  (same : ∀ field ∈ declared, members.last? field.1 = others.last? field.1)

include same

/-- Which misfit is the first is told by the values of the fields. -/
theorem FirstMisfit.congr (h : FirstMisfit declared members fault) :
    FirstMisfit declared others fault := by
  obtain ⟨field, hfield, value, hv, hf, first⟩ := h
  refine ⟨field, hfield, value, same field hfield ▸ hv, hf, fun other hother given hg => ?_⟩
  exact first other hother given ((same other hother).trans hg)

/-- Which name is the first missing one is told by the values of the fields. -/
theorem FirstMissing.congr (h : FirstMissing declared members fault) :
    FirstMissing declared others fault := by
  obtain ⟨fits, earlier, field, later, rfl, known, absent, hf⟩ := h
  refine ⟨fun field hfield value hv => fits field hfield value ((same field hfield).trans hv),
    earlier, field, later, rfl, fun name hn => ?_, ?_, hf⟩
  · rw [← same name (List.mem_append_left _ hn)]
    exact known name hn
  · rw [← same field (by simp)]
    exact absent

end

namespace Members

/-- The places of declared fields in an object are under their names. -/
def slots (members : Members) (declared : List (String × FieldKind)) : List (Slot × FieldKind) :=
  declared.map fun field => (⟨members.value? field.1, .missingField field.1⟩, field.2)

/-- The places in an object are for the kinds of the fields. -/
@[simp] theorem map_snd_slots (members : Members) (declared : List (String × FieldKind)) :
    (slots members declared).map Prod.snd = declared.map Prod.snd := by
  simp only [slots, List.map_map, Function.comp_def]

/-- In the canonical members a place has the value that was written last. -/
theorem slots_canonical (members : Members) (declared : List (String × FieldKind)) :
    slots members.canonical declared =
      declared.map fun field => (⟨members.last? field.1, .missingField field.1⟩, field.2) := by
  simp only [slots, value?_canonical_eq_last?]

end Members

namespace RecordShape

/-- The places of declared fields in a list are numbered. -/
def slots (shape : RecordShape) (items : List Json) (declared : List (String × FieldKind)) :
    List (Slot × FieldKind) :=
  declared.zipIdx.map fun field =>
    (⟨items[field.2]?, .tooShort field.2 shape.name shape.fields.length⟩, field.1.2)

/-- The places in a list are for the kinds of the fields. -/
@[simp] theorem map_snd_slots (shape : RecordShape) (items : List Json)
    (declared : List (String × FieldKind)) :
    (shape.slots items declared).map Prod.snd = declared.map Prod.snd := by
  conv_rhs => rw [← List.zipIdx_map_fst 0 declared]
  simp only [slots, List.map_map, Function.comp_def]

/-- The values at numbered places are those of a list exactly if it is the list. -/
theorem map_given_slots_iff {shape : RecordShape} {items values : List Json}
    {declared : List (String × FieldKind)} (short : items.length ≤ declared.length)
    (full : values.length = declared.length) :
    (shape.slots items declared).map (·.1.given) = values.map some ↔ items = values := by
  have hat : ∀ place, ((shape.slots items declared).map (·.1.given))[place]? =
      if place < declared.length then some items[place]? else none := by
    intro place
    rw [slots, List.map_map, List.getElem?_map, List.getElem?_zipIdx]
    by_cases hp : place < declared.length <;> simp [hp]
  have beyond : ∀ place, ¬ place < declared.length → items[place]? = none ∧ values[place]? = none :=
    fun place hp => ⟨List.getElem?_eq_none (by omega), List.getElem?_eq_none (by omega)⟩
  have within : ∀ place, place < declared.length →
      (values.map some)[place]? = some values[place]? := fun place hp => by
      have hv : place < values.length := by omega
      simp only [List.getElem?_map, List.getElem?_eq_getElem hv, Option.map_some]
  constructor
  · intro same
    refine List.ext_getElem? fun place => ?_
    by_cases hp : place < declared.length
    · have hs := hat place
      rw [same, within place hp, if_pos hp] at hs
      exact (Option.some.inj hs).symm
    · rw [(beyond place hp).1, (beyond place hp).2]
  · rintro rfl
    refine List.ext_getElem? fun place => ?_
    by_cases hp : place < declared.length
    · rw [hat, if_pos hp, within place hp]
    · rw [hat, if_neg hp, List.getElem?_map, (beyond place hp).1, Option.map_none]

/-- An open record has declared fields, and their names are distinct and ordered byte by byte. -/
structure Declares (shape : RecordShape) (declared : List (String × FieldKind)) : Prop where
  /-- Other members are let through. -/
  opened : shape.closed = false
  /-- The fields are checked for their kinds. -/
  fields : shape.fields = declared.map fun field => (field.1, field.2.check)
  /-- No name is given twice. -/
  distinct : (declared.map Prod.fst).Nodup
  /-- The order of names is that of their bytes. -/
  bytes : ∀ first ∈ declared, ∀ second ∈ declared,
    first.1 ≤ second.1 ↔ ByteOrder first.1 second.1

namespace Declares

variable {shape : RecordShape} {declared : List (String × FieldKind)} {members : Members}
  {fault : Fault}

/-- Under the name of a field a value is checked for the kind of the field. -/
theorem checkMember_of_mem (h : shape.Declares declared) {field : String × FieldKind}
    (hf : field ∈ declared) : shape.checkMember field.1 = field.2.check := by
  have distinct : shape.names.Nodup := by
    rw [names, h.fields, List.map_map]
    exact h.distinct
  have hm : (field.1, field.2.check) ∈ shape.fields := by
    rw [h.fields]
    exact List.mem_map_of_mem hf
  funext value
  rw [checkMember, (lookup_fields_eq_some_iff distinct).mpr hm]

/-- A member that is not admitted is one of a field, with a value of another kind. -/
theorem checkMember_eq_error_iff (h : shape.Declares declared) {key : String} {value : Json} :
    shape.checkMember key value = .error fault ↔
      ∃ field ∈ declared, field.1 = key ∧ field.2.fault? value = some fault := by
  constructor
  · intro hc
    by_cases known : ∃ field ∈ declared, field.1 = key
    · obtain ⟨field, hf, rfl⟩ := known
      rw [h.checkMember_of_mem hf, FieldKind.check_eq_error_iff] at hc
      exact ⟨field, hf, rfl, hc⟩
    · have hl : shape.fields.lookup key = none := by
        rw [h.fields, List.lookup_eq_none_iff]
        intro field hf
        obtain ⟨declaredField, hd, rfl⟩ := List.mem_map.mp hf
        exact bne_iff_ne.mpr fun same => known ⟨declaredField, hd, same.symm⟩
      simp [checkMember, hl, h.opened] at hc
  · rintro ⟨field, hf, rfl, hk⟩
    rw [h.checkMember_of_mem hf, FieldKind.check_eq_error_iff]
    exact hk

/-- The members of an object are not admitted because of the first misfit. -/
theorem checkMembers_eq_error_iff (h : shape.Declares declared) :
    shape.checkMembers members.canonical = .error fault ↔ FirstMisfit declared members fault := by
  rw [RecordShape.checkMembers_eq_error_iff (Members.ascending_canonical members)]
  constructor
  · rintro ⟨⟨key, value⟩, hm, hc, first⟩
    obtain ⟨field, hf, rfl, hk⟩ := h.checkMember_eq_error_iff.mp hc
    refine ⟨field, hf, value, Members.mem_canonical_iff.mp hm, hk,
      fun other ho given hg misfit => ?_⟩
    refine (h.bytes field hf other ho).mp
      (first (other.1, given) (Members.mem_canonical_iff.mpr hg) ?_)
    rw [h.checkMember_of_mem ho]
    exact fun passed => misfit (FieldKind.check_eq_ok_iff.mp passed)
  · rintro ⟨field, hf, value, hv, hk, first⟩
    refine ⟨(field.1, value), Members.mem_canonical_iff.mpr hv,
      h.checkMember_eq_error_iff.mpr ⟨field, hf, rfl, hk⟩, ?_⟩
    rintro ⟨key, given⟩ hg refused
    cases hc : shape.checkMember key given with
    | ok passed => exact absurd hc refused
    | error found =>
      obtain ⟨other, ho, rfl, hfound⟩ := h.checkMember_eq_error_iff.mp hc
      refine (h.bytes field hf other ho).mpr
        (first other ho given (Members.mem_canonical_iff.mp hg) fun admits => ?_)
      rw [FieldKind.fault?_eq_none_iff.mpr admits] at hfound
      cases hfound

/-- The members of an object are admitted exactly if no field has a value of another kind. -/
theorem checkMembers_eq_ok_iff (h : shape.Declares declared) :
    shape.checkMembers members.canonical = .ok () ↔
      ∀ field ∈ declared, ∀ value, members.last? field.1 = some value → field.2.Admits value := by
  constructor
  · intro hc field hf value hv
    have hm := RecordShape.checkMembers_eq_ok_iff.mp hc _ (Members.mem_canonical_iff.mpr hv)
    rwa [h.checkMember_of_mem hf, FieldKind.check_eq_ok_iff] at hm
  · intro fits
    cases hc : shape.checkMembers members.canonical with
    | ok passed => rfl
    | error found =>
      obtain ⟨field, hf, value, hv, hk, -⟩ := h.checkMembers_eq_error_iff.mp hc
      rw [FieldKind.fault?_eq_none_iff.mpr (fits field hf value hv)] at hk
      cases hk

end Declares

end RecordShape

/-- Without a value of another kind the fault of the fields is that of the first missing name. -/
theorem ReadOff.eq_error_iff {α : Type} {declared : List (String × FieldKind)} {members : Members}
    {madeOf : α → List Json → Prop} {outcome : Except Fault α} {fault : Fault}
    (h : ReadOff (members.canonical.slots declared) madeOf outcome)
    (fits : ∀ field ∈ declared, ∀ value, members.last? field.1 = some value →
      field.2.Admits value) :
    outcome = .error fault ↔ FirstMissing declared members fault := by
  have hnone : ∀ field ∈ declared, (⟨members.last? field.1, .missingField field.1⟩ : Slot).fault?
      field.2 = none ↔ members.last? field.1 ≠ none := fun field hf => by
    rw [Slot.fault?_eq_none_iff, Option.ne_none_iff_exists']
    exact exists_congr fun value => and_iff_left_of_imp (fits field hf value)
  have hsome : ∀ field ∈ declared, (⟨members.last? field.1, .missingField field.1⟩ : Slot).fault?
      field.2 = some fault ↔ members.last? field.1 = none ∧ fault = .missingField field.1 :=
    fun field hf => by
      rw [Slot.fault?]
      cases hv : members.last? field.1 with
      | none => simp [eq_comm]
      | some value => simp [FieldKind.fault?_eq_none_iff.mpr (fits field hf value hv)]
  rw [h.error, Members.slots_canonical, List.findSome?_map, List.findSome?_eq_some_iff,
    FirstMissing, and_iff_right fits]
  constructor
  · rintro ⟨earlier, field, later, rfl, hf, none⟩
    exact ⟨earlier, field, later, rfl,
      fun known hk => (hnone known (List.mem_append_left _ hk)).mp (none known hk),
      (hsome field (by simp)).mp hf⟩
  · rintro ⟨earlier, field, later, rfl, present, missing⟩
    exact ⟨earlier, field, later, rfl, (hsome field (by simp)).mpr missing,
      fun known hk => (hnone known (List.mem_append_left _ hk)).mpr (present known hk)⟩

namespace RecordShape.Declares

variable {α : Type} {shape : RecordShape} {declared : List (String × FieldKind)}
  {parts : α → List Json} {ofMembers : Members → Except Fault α}
  {ofItems : List Json → Except Fault α} {members : Members} {result : α}

/-- An object is not read because of its first misfit, or else its first missing name. -/
theorem read_object_eq_error_iff (h : shape.Declares declared) {fault : Fault}
    (off : ReadOff (members.canonical.slots declared) (parts · = ·)
      (ofMembers members.canonical)) :
    shape.read ofMembers ofItems (.object members) = .error fault ↔
      FirstMisfit declared members fault ∨ FirstMissing declared members fault := by
  rw [read, bind_eq_error_iff, h.checkMembers_eq_error_iff]
  refine or_congr_right ⟨?_, fun missing => ?_⟩
  · rintro ⟨passed, hc, hf⟩
    exact (off.eq_error_iff (h.checkMembers_eq_ok_iff.mp hc)).mp hf
  · exact ⟨(), h.checkMembers_eq_ok_iff.mpr missing.1, (off.eq_error_iff missing.1).mpr missing⟩

/-- An object is read as what is read off the places of its fields. -/
theorem read_object_eq_ok_iff (h : shape.Declares declared)
    (off : ReadOff (members.canonical.slots declared) (parts · = ·)
      (ofMembers members.canonical)) :
    shape.read ofMembers ofItems (.object members) = .ok result ↔
      ofMembers members.canonical = .ok result := by
  rw [read, bind_eq_ok_iff]
  constructor
  · rintro ⟨passed, -, hr⟩
    exact hr
  · intro hr
    have fits := off.exists_ok_iff.mp ⟨result, hr⟩
    rw [Members.slots_canonical, List.forall_mem_map] at fits
    refine ⟨(), h.checkMembers_eq_ok_iff.mpr fun field hf value hv => ?_, hr⟩
    obtain ⟨given, hg, admits⟩ := fits field hf
    cases hv.symm.trans hg
    exact admits

/-- A list is read exactly if it is that of the fields. -/
theorem read_array_eq_ok_iff (h : shape.Declares declared) {items : List Json}
    (fits : List.Forall₂ FieldKind.Admits (declared.map Prod.snd) (parts result))
    (off : ReadOff (shape.slots items declared) (parts · = ·) (ofItems items)) :
    shape.read ofMembers ofItems (.array items) = .ok result ↔ items = parts result := by
  have full : (parts result).length = declared.length := by
    rw [← fits.length_eq, List.length_map]
  rw [RecordShape.read_array_eq_ok_iff, off.eq_ok_iff (by rwa [map_snd_slots]), h.fields,
    List.length_map]
  constructor
  · rintro ⟨short, given⟩
    exact (map_given_slots_iff short full).mp given
  · rintro rfl
    exact ⟨full.le, (map_given_slots_iff full.le full).mpr rfl⟩

/-- An open record that is read off its places has the wire form of its fields. -/
theorem wireForm {write : α → Json} (h : shape.Declares declared)
    (fits : ∀ given, List.Forall₂ FieldKind.Admits (declared.map Prod.snd) (parts given))
    (written : ∀ given, write given = .object ((declared.map Prod.fst).zip (parts given)))
    (offMembers : ∀ members : Members,
      ReadOff (members.slots declared) (parts · = ·) (ofMembers members))
    (offItems : ∀ items : List Json,
      ReadOff (shape.slots items declared) (parts · = ·) (ofItems items)) :
    WireForm declared parts write (shape.read ofMembers ofItems) := by
  have full : ∀ given, (parts given).length = declared.length := fun given => by
    rw [← (fits given).length_eq, List.length_map]
  have read_object : ∀ (members : Members) (result : α),
      shape.read ofMembers ofItems (.object members) = .ok result ↔
        declared.map (members.last? ·.1) = (parts result).map some := fun members result => by
    rw [h.read_object_eq_ok_iff (offMembers _),
      (offMembers _).eq_ok_iff (by rw [Members.map_snd_slots]; exact fits result),
      Members.slots_canonical, List.map_map]
    rfl
  have read_list : ∀ items result, shape.read ofMembers ofItems (.array items) = .ok result ↔
      items = parts result := fun items result =>
    h.read_array_eq_ok_iff (fits result) (offItems items)
  refine ⟨written, ?read_write, ?readable, read_object, ?unaffected, read_list, ?other_length,
    fun members fault => h.read_object_eq_error_iff (offMembers _)⟩
  case read_write =>
    intro given
    rw [written, read_object, ← Members.map_last?_zip h.distinct (by simp [full]), List.map_map]
    rfl
  case readable =>
    intro members
    simp only [h.read_object_eq_ok_iff (offMembers _), (offMembers _).exists_ok_iff,
      Members.slots_canonical, List.forall_mem_map]
  case unaffected =>
    intro members others same
    cases hr : shape.read ofMembers ofItems (.object others) with
    | ok result =>
      rw [read_object, ← (read_object others result).mp hr]
      exact List.map_congr_left same
    | error fault =>
      rw [h.read_object_eq_error_iff (offMembers _)] at hr ⊢
      have back := fun field hf => (same field hf).symm
      exact hr.imp (FirstMisfit.congr back) (FirstMissing.congr back)
  case other_length =>
    intro items other
    cases hr : shape.read ofMembers ofItems (.array items) with
    | ok result => exact absurd ((read_list _ _).mp hr ▸ full result) other
    | error fault => exact ⟨fault, rfl⟩

end RecordShape.Declares

namespace GroupVersion

/-- The fields of a group and version with their kinds. -/
def declared : List (String × FieldKind) := [("group", .text), ("version", .text)]

/-- What stands in the fields. -/
def parts (gv : GroupVersion) : List Json := [.text gv.group, .text gv.version]

/-- A group and version is read off two places. -/
theorem readOff (group version : Slot) :
    ReadOff [(group, .text), (version, .text)] (parts · = ·) (do
      let group ← group.read JsonReader.string
      let version ← version.read JsonReader.string
      return GroupVersion.mk group version) :=
  .cons FieldKind.reads_text fun _ => .cons FieldKind.reads_text fun _ => .nil fun other => by
    cases other
    simp [parts, eq_comm]

/-- The record of a group and version is that of its fields. -/
theorem declares : shape.Declares declared where
  opened := rfl
  fields := rfl
  distinct := by decide
  bytes := by decide

end GroupVersion

namespace GroupVersionKind

/-- The fields of a kind's identifier with their kinds. -/
def declared : List (String × FieldKind) := [("group", .text), ("version", .text), ("kind", .text)]

/-- What stands in the fields. -/
def parts (gvk : GroupVersionKind) : List Json :=
  [.text gvk.group, .text gvk.version, .text gvk.kind]

/-- A kind's identifier is read off three places. -/
theorem readOff (group version kind : Slot) :
    ReadOff [(group, .text), (version, .text), (kind, .text)] (parts · = ·) (do
      let group ← group.read JsonReader.string
      let version ← version.read JsonReader.string
      let kind ← kind.read JsonReader.string
      return GroupVersionKind.mk group version kind) :=
  .cons FieldKind.reads_text fun _ => .cons FieldKind.reads_text fun _ =>
    .cons FieldKind.reads_text fun _ => .nil fun other => by
      cases other
      simp [parts, eq_comm]

/-- The record of a kind's identifier is that of its fields. -/
theorem declares : shape.Declares declared where
  opened := rfl
  fields := rfl
  distinct := by decide
  bytes := by decide

end GroupVersionKind

namespace GroupVersionResource

/-- The fields of a collection's identifier with their kinds. -/
def declared : List (String × FieldKind) :=
  [("group", .text), ("version", .text), ("resource_plural", .text)]

/-- What stands in the fields. -/
def parts (gvr : GroupVersionResource) : List Json :=
  [.text gvr.group, .text gvr.version, .text gvr.plural]

/-- A collection's identifier is read off three places. -/
theorem readOff (group version plural : Slot) :
    ReadOff [(group, .text), (version, .text), (plural, .text)] (parts · = ·) (do
      let group ← group.read JsonReader.string
      let version ← version.read JsonReader.string
      let plural ← plural.read JsonReader.string
      return GroupVersionResource.mk group version plural) :=
  .cons FieldKind.reads_text fun _ => .cons FieldKind.reads_text fun _ =>
    .cons FieldKind.reads_text fun _ => .nil fun other => by
      cases other
      simp [parts, eq_comm]

/-- The record of a collection's identifier is that of its fields. -/
theorem declares : shape.Declares declared where
  opened := rfl
  fields := rfl
  distinct := by decide
  bytes := by decide

end GroupVersionResource

namespace ApiResource

/-- The fields of a descriptor with their kinds. -/
def declared : List (String × FieldKind) :=
  [("group", .text), ("kind", .text), ("versions", .texts), ("resourcePlural", .text),
    ("namespaced", .truth)]

/-- What stands in the fields. -/
def parts (resource : ApiResource) : List Json :=
  [.text resource.group, .text resource.kind, .array (resource.versions.map .text),
    .text resource.plural, .bool resource.namespaced]

/-- A descriptor is read off five places. -/
theorem readOff (group kind versions plural namespaced : Slot) :
    ReadOff [(group, .text), (kind, .text), (versions, .texts), (plural, .text),
      (namespaced, .truth)] (parts · = ·) (do
        let group ← group.read JsonReader.string
        let kind ← kind.read JsonReader.string
        let versions ← versions.read (JsonReader.list JsonReader.string)
        let plural ← plural.read JsonReader.string
        let namespaced ← namespaced.read JsonReader.boolean
        return ApiResource.mk group kind versions plural namespaced) :=
  .cons FieldKind.reads_text fun _ => .cons FieldKind.reads_text fun _ =>
    .cons FieldKind.reads_texts fun _ => .cons FieldKind.reads_text fun _ =>
      .cons FieldKind.reads_truth fun _ => .nil fun other => by
        have texts : Function.Injective Json.text := fun _ _ same => Json.text.inj same
        cases other
        simp [parts, List.map_inj_right texts, eq_comm]

/-- The record of a descriptor is that of its fields. -/
theorem declares : shape.Declares declared where
  opened := rfl
  fields := rfl
  distinct := by decide
  bytes := by decide

end ApiResource

/-- Groups and versions, identifiers and descriptors have the wire forms of their declared
fields. -/
theorem wire_forms :
    WireForm GroupVersion.declared GroupVersion.parts GroupVersion.toJson GroupVersion.ofJson ∧
    WireForm GroupVersionKind.declared GroupVersionKind.parts GroupVersionKind.toJson
      GroupVersionKind.ofJson ∧
    WireForm GroupVersionResource.declared GroupVersionResource.parts GroupVersionResource.toJson
      GroupVersionResource.ofJson ∧
    WireForm ApiResource.declared ApiResource.parts ApiResource.toJson ApiResource.ofJson := by
  refine ⟨?groupVersion, ?kind, ?resource, ?descriptor⟩
  case groupVersion =>
    exact GroupVersion.declares.wireForm
      (fun _ => .cons ⟨_, rfl⟩ (.cons ⟨_, rfl⟩ .nil)) (fun _ => rfl)
      (fun _ => GroupVersion.readOff _ _) (fun _ => GroupVersion.readOff _ _)
  case kind =>
    exact GroupVersionKind.declares.wireForm
      (fun _ => .cons ⟨_, rfl⟩ (.cons ⟨_, rfl⟩ (.cons ⟨_, rfl⟩ .nil))) (fun _ => rfl)
      (fun _ => GroupVersionKind.readOff _ _ _) (fun _ => GroupVersionKind.readOff _ _ _)
  case resource =>
    exact GroupVersionResource.declares.wireForm
      (fun _ => .cons ⟨_, rfl⟩ (.cons ⟨_, rfl⟩ (.cons ⟨_, rfl⟩ .nil))) (fun _ => rfl)
      (fun _ => GroupVersionResource.readOff _ _ _) (fun _ => GroupVersionResource.readOff _ _ _)
  case descriptor =>
    exact ApiResource.declares.wireForm
      (fun _ => .cons ⟨_, rfl⟩ (.cons ⟨_, rfl⟩ (.cons ⟨_, rfl⟩ (.cons ⟨_, rfl⟩
        (.cons ⟨_, rfl⟩ .nil))))) (fun _ => rfl)
      (fun _ => ApiResource.readOff _ _ _ _ _) (fun _ => ApiResource.readOff _ _ _ _ _)

-- of two misfits it is not the first one declared that is reported, nor the missing group
example : ApiResource.ofJson (.object [("versions", .null), ("namespaced", .int 1)]) =
    .error (.wrongKind (.integer 1) .boolean) := by
  rfl

end ModelRegistry
