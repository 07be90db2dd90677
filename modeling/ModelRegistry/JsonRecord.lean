import ModelRegistry.JsonFault

/-!
# Reading records from JSON

A record is read from an object or from a list. The members of an object are
visited in ascending order of keys, the last one of each key, and the first
value that its field does not admit is the fault; a closed record also refuses
a key that is no field. Only then is a field without a member missed, the first
one in declaration order. A list gives the fields in declaration order: the
first value not admitted is the fault, then too few values, then too many.
-/

namespace ModelRegistry

/-- A reader of one kind of value. -/
abbrev JsonReader (α : Type) := Json → Except Fault α

/-- The shape of a record: its name, its fields in declaration order, each with
the check of its values, and whether it refuses other members. -/
structure RecordShape where
  /-- The name used in messages. -/
  name : String
  /-- The fields in declaration order with the check of their values. -/
  fields : List (String × JsonReader Unit)
  /-- Whether a member that is no field is refused. -/
  closed : Bool

namespace JsonReader

/-- Reads a text. -/
def string : JsonReader String
  | .text value => .ok value
  | other => .error (.wrongKind other.found .text)

/-- Reads a truth value. -/
def boolean : JsonReader Bool
  | .bool value => .ok value
  | other => .error (.wrongKind other.found .boolean)

/-- Reads an unsigned 64-bit count. -/
def count : JsonReader UInt64
  | .int value =>
    if 0 ≤ value ∧ value < UInt64.size then .ok (UInt64.ofNat value.toNat)
    else .error (.wrongValue (.integer value) .count)
  | other => .error (.wrongKind other.found .count)

/-- Reads a list of which every item is admitted; the first other one is the
fault. -/
def list {α : Type} (item : JsonReader α) : JsonReader (List α)
  | .array items => items.mapM item
  | other => .error (.wrongKind other.found .sequence)

/-- A reader as a check that keeps no value. -/
def check {α : Type} (reader : JsonReader α) : JsonReader Unit := fun value =>
  (reader value).map fun _ => ()

end JsonReader

namespace RecordShape

/-- The names of the fields in declaration order. -/
def names (shape : RecordShape) : List String := shape.fields.map Prod.fst

/-- The check of one member: that of its field, if it is one. -/
def checkMember (shape : RecordShape) (key : String) : JsonReader Unit := fun value =>
  match shape.fields.lookup key with
  | some check => check value
  | none => if shape.closed then .error (.unknownField key shape.names) else .ok ()

/-- Visits the members in the order given; the first fault ends the visit. -/
def checkMembers (shape : RecordShape) : Members → Except Fault Unit
  | [] => .ok ()
  | (key, value) :: rest => do
    shape.checkMember key value
    shape.checkMembers rest

/-- Reads a record from an object or a list. -/
def read {α : Type} (shape : RecordShape) (ofMembers : Members → Except Fault α)
    (ofItems : List Json → Except Fault α) : JsonReader α
  | .object members => do
    shape.checkMembers (Members.canonical members)
    ofMembers (Members.canonical members)
  | .array items => do
    let value ← ofItems items
    if shape.fields.length < items.length then .error (.tooLong items.length) else .ok value
  | other => .error (.wrongKind other.found (.record shape.name))

/-- The field at a place of a list; the list must reach it. -/
def item {α : Type} (shape : RecordShape) (items : List Json) (place : Nat)
    (reader : JsonReader α) : Except Fault α :=
  match items[place]? with
  | some value => reader value
  | none => .error (.tooShort place shape.name shape.fields.length)

/-- The field at a place of a list, or a default when the list ends before. -/
def itemOr {α : Type} (items : List Json) (place : Nat) (reader : JsonReader α)
    (absent : α) : Except Fault α :=
  match items[place]? with
  | some value => reader value
  | none => .ok absent

end RecordShape

namespace Members

/-- The field under a key; a member must be there. -/
def field {α : Type} (members : Members) (key : String) (reader : JsonReader α) :
    Except Fault α :=
  match members.value? key with
  | some value => reader value
  | none => .error (.missingField key)

/-- The field under a key, or a default without a member. -/
def fieldOr {α : Type} (members : Members) (key : String) (reader : JsonReader α)
    (absent : α) : Except Fault α :=
  match members.value? key with
  | some value => reader value
  | none => .ok absent

end Members

end ModelRegistry
