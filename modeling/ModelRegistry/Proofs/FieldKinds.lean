import ModelRegistry.Proofs.JsonReaders
import Mathlib.Data.List.Forall2

/-!
# Kinds of fields

The declared fields of a record are texts, lists of texts or truth values. For each kind it is
said which values are of the kind and which fault any other value is. A record that is read
field by field, whatever the places are where its fields are looked for, comes out exactly if
each place holds a value of its kind, and it is made of these values; otherwise the fault is
that of the first place. In which order the places are checked beforehand is not said here.
-/

namespace ModelRegistry

/-- The kinds of values that declared fields have. -/
inductive FieldKind where
  /-- A text. -/
  | text
  /-- A list of texts. -/
  | texts
  /-- A truth value. -/
  | truth

namespace FieldKind

/-- The values of a kind. -/
def Admits : FieldKind → Json → Prop
  | text, value => ∃ given, value = .text given
  | texts, value => ∃ given : List String, value = .array (given.map .text)
  | truth, value => ∃ given, value = .bool given

/-- The fault that a value is that is no text. -/
def textFault? : Json → Option Fault
  | .text _ => none
  | other => some (.wrongKind other.found .text)

/-- The fault that a value of another kind is; in a list it is that of the first other item. -/
def fault? : FieldKind → Json → Option Fault
  | text, value => textFault? value
  | texts, .array items => items.findSome? textFault?
  | texts, other => some (.wrongKind other.found .sequence)
  | truth, .bool _ => none
  | truth, other => some (.wrongKind other.found .boolean)

/-- The check of the values of a kind. -/
def check : FieldKind → JsonReader Unit
  | text => JsonReader.string.check
  | texts => (JsonReader.list JsonReader.string).check
  | truth => JsonReader.boolean.check

/-- A reader reads the values of a kind, which are written in one way. -/
structure Reads {α : Type} (kind : FieldKind) (reader : JsonReader α) (write : α → Json) :
    Prop where
  /-- What is written is read, and nothing else. -/
  ok : ∀ value result, reader value = .ok result ↔ value = write result
  /-- Any other value is the fault of the kind. -/
  error : ∀ value fault, reader value = .error fault ↔ kind.fault? value = some fault

/-- Texts are read as they are. -/
theorem reads_text : text.Reads JsonReader.string .text where
  ok _ _ := JsonReader.string_eq_ok_iff
  error value fault := by cases value <;> simp [JsonReader.string, fault?, textFault?]

/-- Truth values are read as they are. -/
theorem reads_truth : truth.Reads JsonReader.boolean .bool where
  ok _ _ := JsonReader.boolean_eq_ok_iff
  error value fault := by cases value <;> simp [JsonReader.boolean, fault?]

/-- Lists of texts are read text by text. -/
theorem reads_texts :
    texts.Reads (JsonReader.list JsonReader.string) fun given => .array (given.map .text) where
  ok value given := by
    have hitems : ∀ items : List Json,
        List.Forall₂ (fun item text => item = .text text) items given ↔ items = given.map .text :=
          fun items => by
      rw [← List.forall₂_map_right_iff (R := (· = ·)), List.forall₂_eq_eq_eq]
    simp only [JsonReader.list_eq_ok_iff, JsonReader.string_eq_ok_iff, hitems]
    constructor
    · rintro ⟨items, rfl, rfl⟩
      rfl
    · rintro rfl
      exact ⟨_, rfl, rfl⟩
  error value fault := by
    cases value with
    | array items =>
      exact mapM_eq_error_iff reads_text.error
    | _ => simp [JsonReader.list, fault?]

section

variable {α : Type} {kind : FieldKind} {reader : JsonReader α} {write : α → Json} {value : Json}

/-- A value is no fault exactly if it is written for something. -/
theorem Reads.fault?_eq_none_iff (h : kind.Reads reader write) :
    kind.fault? value = none ↔ ∃ result, value = write result := by
  cases hr : reader value with
  | error fault =>
    have hf := (h.error value fault).mp hr
    refine iff_of_false (by simp [hf]) ?_
    rintro ⟨result, hv⟩
    rw [(h.ok value result).mpr hv] at hr
    cases hr
  | ok result =>
    refine iff_of_true (Option.eq_none_iff_forall_ne_some.mpr fun fault hf => ?_)
      ⟨result, (h.ok value result).mp hr⟩
    rw [(h.error value fault).mpr hf] at hr
    cases hr

/-- The check of a kind comes to the fault of the kind. -/
theorem Reads.check_eq_error_iff (h : kind.Reads reader write) {fault : Fault} :
    reader.check value = .error fault ↔ kind.fault? value = some fault := by
  rw [← h.error, JsonReader.check]
  cases reader value <;> simp [Except.map]

end

/-- The values of a kind are those that are no fault. -/
theorem fault?_eq_none_iff {kind : FieldKind} {value : Json} :
    kind.fault? value = none ↔ kind.Admits value := by
  cases kind with
  | text => exact reads_text.fault?_eq_none_iff
  | texts => exact reads_texts.fault?_eq_none_iff
  | truth => exact reads_truth.fault?_eq_none_iff

/-- The check of a kind fails with the fault of the kind. -/
theorem check_eq_error_iff {kind : FieldKind} {value : Json} {fault : Fault} :
    kind.check value = .error fault ↔ kind.fault? value = some fault := by
  cases kind with
  | text => exact reads_text.check_eq_error_iff
  | texts => exact reads_texts.check_eq_error_iff
  | truth => exact reads_truth.check_eq_error_iff

/-- The check of a kind passes exactly for its values. -/
theorem check_eq_ok_iff {kind : FieldKind} {value : Json} :
    kind.check value = .ok () ↔ kind.Admits value := by
  rw [← fault?_eq_none_iff, Option.eq_none_iff_forall_ne_some]
  simp only [ne_eq, ← check_eq_error_iff]
  cases kind.check value <;> simp

end FieldKind

/-- A place where a field is looked for: the value there, if there is one, and the fault that
its absence is. -/
structure Slot where
  /-- The value at the place. -/
  given : Option Json
  /-- The fault without a value. -/
  absent : Fault

namespace Slot

/-- Reads the value at a place. -/
def read {α : Type} (slot : Slot) (reader : JsonReader α) : Except Fault α :=
  match slot.given with
  | some value => reader value
  | none => .error slot.absent

/-- The fault of a place that is to hold a value of a kind. -/
def fault? (slot : Slot) (kind : FieldKind) : Option Fault :=
  match slot.given with
  | some value => kind.fault? value
  | none => some slot.absent

/-- A place holds a value of its kind exactly if it is no fault. -/
theorem fault?_eq_none_iff {slot : Slot} {kind : FieldKind} :
    slot.fault? kind = none ↔ ∃ value, slot.given = some value ∧ kind.Admits value := by
  rw [fault?]
  cases slot.given <;> simp [FieldKind.fault?_eq_none_iff]

end Slot

/-- Something comes out of some places, read one after the other: what is made of the values
there, or the first fault. -/
structure ReadOff {α : Type} (slots : List (Slot × FieldKind)) (madeOf : α → List Json → Prop)
    (outcome : Except Fault α) : Prop where
  /-- It is made of the values at the places, which are of the right kinds. -/
  ok : ∀ result, outcome = .ok result ↔ (∀ slot ∈ slots, slot.1.fault? slot.2 = none) ∧
    ∃ parts, madeOf result parts ∧ slots.map (·.1.given) = parts.map some
  /-- The fault is that of the first place. -/
  error : ∀ fault, outcome = .error fault ↔
    slots.findSome? (fun slot => slot.1.fault? slot.2) = some fault

namespace ReadOff

variable {α β : Type} {slots : List (Slot × FieldKind)} {madeOf : α → List Json → Prop}
  {outcome : Except Fault α}

/-- Nothing more is read. -/
theorem nil {result : α} (made : ∀ other, madeOf other [] ↔ result = other) :
    ReadOff [] madeOf (pure result) where
  ok other := by
    simp only [pure, Except.pure, Except.ok.injEq, ← made other]
    constructor
    · exact fun h => ⟨nofun, [], h, rfl⟩
    · rintro ⟨-, parts, h, hp⟩
      rwa [List.map_eq_nil_iff.mp hp.symm] at h
  error fault := by simp [pure, Except.pure]

/-- One more place is read first. -/
theorem cons {slot : Slot} {kind : FieldKind} {reader : JsonReader β} {write : β → Json}
    {next : β → Except Fault α} (reads : kind.Reads reader write)
    (rest : ∀ first, ReadOff slots (fun result parts => madeOf result (write first :: parts))
      (next first)) :
    ReadOff ((slot, kind) :: slots) madeOf (slot.read reader >>= next) := by
  cases hg : slot.given with
  | none =>
    have hf : slot.fault? kind = some slot.absent := by rw [Slot.fault?, hg]
    have hr : slot.read reader = .error slot.absent := by rw [Slot.read, hg]
    constructor
    · intro result
      rw [hr]
      refine iff_of_false nofun ?_
      rintro ⟨fits, -⟩
      simp [hf] at fits
    · intro fault
      rw [hr, List.findSome?_cons, hf]
      simp [bind, Except.bind]
  | some value =>
    have hf : slot.fault? kind = kind.fault? value := by rw [Slot.fault?, hg]
    have hr : slot.read reader = reader value := by rw [Slot.read, hg]
    constructor
    · intro result
      rw [hr, bind_eq_ok_iff, List.forall_mem_cons, hf, reads.fault?_eq_none_iff, List.map_cons, hg]
      simp only [reads.ok, (rest _).ok]
      constructor
      · rintro ⟨first, rfl, fits, parts, made, hp⟩
        exact ⟨⟨⟨first, rfl⟩, fits⟩, _, made, by rw [hp, List.map_cons]⟩
      · rintro ⟨⟨⟨first, rfl⟩, fits⟩, parts, made, hp⟩
        obtain ⟨head, others, rfl, hhead, hothers⟩ := List.map_eq_cons_iff.mp hp.symm
        cases hhead
        exact ⟨first, rfl, fits, others, made, hothers.symm⟩
    · intro fault
      rw [hr, bind_eq_error_iff, reads.error, List.findSome?_cons, hf]
      cases hk : kind.fault? value with
      | some found =>
        refine or_iff_left ?_
        rintro ⟨first, hv, -⟩
        have hn := reads.fault?_eq_none_iff.mpr ⟨first, (reads.ok value first).mp hv⟩
        rw [hk] at hn
        cases hn
      | none =>
        obtain ⟨first, hv⟩ := reads.fault?_eq_none_iff.mp hk
        have hfirst := (reads.ok value first).mpr hv
        rw [← (rest first).error fault]
        simp [hfirst]

/-- Something comes out exactly if each place holds a value of its kind. -/
theorem exists_ok_iff (h : ReadOff slots madeOf outcome) :
    (∃ result, outcome = .ok result) ↔
      ∀ slot ∈ slots, ∃ value, slot.1.given = some value ∧ slot.2.Admits value := by
  simp only [← Slot.fault?_eq_none_iff]
  constructor
  · rintro ⟨result, hr⟩
    exact ((h.ok result).mp hr).1
  · intro fits
    cases hr : outcome with
    | ok result => exact ⟨result, rfl⟩
    | error fault =>
      have hf := (h.error fault).mp hr
      rw [List.findSome?_eq_none_iff.mpr fits] at hf
      cases hf

/-- What comes out is told by the values at the places, if everything that may come out is made
of values of the right kinds. -/
theorem eq_ok_iff {parts : α → List Json} (h : ReadOff slots (parts · = ·) outcome)
    {result : α} (fits : List.Forall₂ FieldKind.Admits (slots.map Prod.snd) (parts result)) :
    outcome = .ok result ↔ slots.map (·.1.given) = (parts result).map some := by
  have admitted : slots.map (·.1.given) = (parts result).map some →
      ∀ slot ∈ slots, slot.1.fault? slot.2 = none := by
    generalize parts result = values at fits
    clear h
    induction slots generalizing values with
    | nil => exact fun _ => nofun
    | cons slot others ih =>
      obtain ⟨value, rest, hvalue, hrest, rfl⟩ := List.forall₂_cons_left_iff.mp fits
      intro given
      obtain ⟨hg, hothers⟩ := List.cons.inj given
      exact List.forall_mem_cons.mpr
        ⟨Slot.fault?_eq_none_iff.mpr ⟨value, hg, hvalue⟩, ih rest hrest hothers⟩
  rw [h.ok]
  constructor
  · rintro ⟨-, values, rfl, given⟩
    exact given
  · exact fun given => ⟨admitted given, _, rfl, given⟩

end ReadOff

end ModelRegistry
