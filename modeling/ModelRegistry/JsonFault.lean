import ModelRegistry.JsonValue
import ModelRegistry.NumberText
import ModelRegistry.TextQuoted

/-!
# Faults of reading a value from JSON

A fault says what was found where something else was expected. It is a value;
its wording is given by `Fault.message` alone.
-/

namespace ModelRegistry

/-- What a fault found in the JSON value. -/
inductive Found where
  /-- The value `null`. -/
  | null
  /-- A truth value. -/
  | boolean (value : Bool)
  /-- An integer. -/
  | integer (value : Int)
  /-- A binary64 number. -/
  | floating (value : Float)
  /-- A text. -/
  | text (value : String)
  /-- A list. -/
  | sequence
  /-- An object. -/
  | map

/-- What a reader expected. -/
inductive Expected where
  /-- A text. -/
  | text
  /-- A truth value. -/
  | boolean
  /-- A list. -/
  | sequence
  /-- An unsigned 64-bit count. -/
  | count
  /-- A length of time in words. -/
  | duration
  /-- A record with a name. -/
  | record (name : String)

/-- Why a value could not be read. -/
inductive Fault where
  /-- A value of another kind than expected. -/
  | wrongKind (found : Found) (expected : Expected)
  /-- A value of the right kind that the reader does not admit. -/
  | wrongValue (found : Found) (expected : Expected)
  /-- A list that ends before the fields of a record do. -/
  | tooShort (length : Nat) (record : String) (fields : Nat)
  /-- A list that goes on after the fields of a record. -/
  | tooLong (length : Nat)
  /-- A field without a member and without a default. -/
  | missingField (name : String)
  /-- A member that is no field of a closed record. -/
  | unknownField (name : String) (known : List String)

/-- What a reader finds in a value. -/
def Json.found : Json → Found
  | .null => .null
  | .bool value => .boolean value
  | .int value => .integer value
  | .float value => .floating value
  | .text value => .text value
  | .array _ => .sequence
  | .object _ => .map

/-- A word between grave accents. -/
def Fault.tick (word : String) : String := "\x60" ++ word ++ "\x60"

/-- The wording of what was found. -/
def Found.message : Found → String
  | .null => "null"
  | .boolean value => "boolean " ++ Fault.tick (if value then "true" else "false")
  | .integer value => "integer " ++ Fault.tick (toString value)
  | .floating value => "floating point " ++ Fault.tick (NumberText.text value)
  | .text value => "string " ++ TextQuoted.quote value
  | .sequence => "sequence"
  | .map => "map"

/-- The wording of what was expected. -/
def Expected.message : Expected → String
  | .text => "a string"
  | .boolean => "a boolean"
  | .sequence => "a sequence"
  | .count => "usize"
  | .duration => "a duration"
  | .record name => "struct " ++ name

/-- The wording of the names a record knows: two are joined by `or`, more are
listed. -/
def Fault.alternatives : List String → String
  | [] => "there are no fields"
  | [one] => "expected " ++ tick one
  | [one, two] => "expected " ++ tick one ++ " or " ++ tick two
  | names => "expected one of " ++ String.intercalate ", " (names.map tick)

/-- The wording of a fault. -/
def Fault.message : Fault → String
  | .wrongKind found expected =>
    "invalid type: " ++ found.message ++ ", expected " ++ expected.message
  | .wrongValue found expected =>
    "invalid value: " ++ found.message ++ ", expected " ++ expected.message
  | .tooShort length record fields =>
    "invalid length " ++ toString length ++ ", expected struct " ++ record ++ " with " ++
      toString fields ++ " elements"
  | .tooLong length => "invalid length " ++ toString length ++ ", expected fewer elements in array"
  | .missingField name => "missing field " ++ tick name
  | .unknownField name known => "unknown field " ++ tick name ++ ", " ++ alternatives known

end ModelRegistry
