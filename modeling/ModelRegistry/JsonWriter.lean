import ModelRegistry.JsonValue
import ModelRegistry.NumberText

/-!
# Writing JSON

The text of a JSON value in ASCII without spaces. Characters outside ASCII are
written as escapes of their UTF-16 units. A number that is no finite binary64
value has no JSON form and is written `null`.
-/

namespace ModelRegistry.JsonWriter

/-- A 16-bit unit as an escape with four hexadecimal digits. -/
def escapeUnit (unit : Nat) : List Char :=
  let digits := Nat.toDigits 16 unit
  ['\\', 'u'] ++ List.replicate (4 - digits.length) '0' ++ digits

/-- One character inside quotes. -/
def escapeChar (c : Char) : List Char :=
  let code := c.toNat
  if c = '\x22' then ['\\', '\x22']
  else if c = '\\' then ['\\', '\\']
  else if 0x20 ≤ code && code < 0x7F then [c]
  else if code < 0x10000 then escapeUnit code
  else
    escapeUnit (0xD800 + (code - 0x10000) / 0x400) ++ escapeUnit (0xDC00 + (code - 0x10000) % 0x400)

/-- A text between quotes. -/
def string (text : String) : String :=
  String.ofList ('\x22' :: text.toList.flatMap escapeChar ++ ['\x22'])

/-- A number; infinities and NaN become `null`. -/
def number (x : Float) : String := if x.isFinite then NumberText.text x else "null"

mutual

/-- The text of a value. -/
def write : Json → String
  | .null => "null"
  | .bool value => if value then "true" else "false"
  | .int value => toString value
  | .float value => number value
  | .text value => string value
  | .array items => "[" ++ String.intercalate "," (writeItems items) ++ "]"
  | .object members => "\x7b" ++ String.intercalate "," (writeMembers members) ++ "\x7d"

/-- The texts of the items of a list. -/
def writeItems : List Json → List String
  | [] => []
  | item :: rest => write item :: writeItems rest

/-- The texts of the members of an object. -/
def writeMembers : List (String × Json) → List String
  | [] => []
  | (key, value) :: rest => (string key ++ ":" ++ write value) :: writeMembers rest

end

end ModelRegistry.JsonWriter
