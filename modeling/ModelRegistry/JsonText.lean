import ModelRegistry.JsonValue

/-!
# Reading JSON text

A reader of one JSON value. A number is an integer when it has neither point
nor exponent and fits 64 bits, signed or unsigned; `-0` and every other number
is a binary64 number. Such a number is read from at most the leading digits
that fit 64 bits, and scaled once by a power of ten, so its last bit may differ
from the nearest one. A number beyond the largest finite one has no value.
-/

namespace ModelRegistry.JsonText

/-- What a reader of one part leaves: the part and the characters after it. -/
abbrev Part (α : Type) := Option (α × List Char)

/-- The characters after leading blanks of JSON. -/
def skipBlanks (text : List Char) : List Char :=
  text.dropWhile fun c => c = ' ' || c = '\n' || c = '\t' || c = '\r'

/-- The leading decimal digits and the characters after them. -/
def digits (text : List Char) : List Char × List Char := text.span Char.isDigit

/-- The leading digits of a number as far as they fit 64 bits. -/
structure Significand where
  /-- The number that the kept digits form. -/
  value : Nat
  /-- The power of ten by which the number is to be scaled. -/
  exponent : Int

/-- Takes up digits while the number fits 64 bits and drops the rest. The
exponent moves by one step for each digit taken and by another for each digit
dropped. -/
def Significand.extend (taken dropped : Int) (s : Significand) : List Char → Significand
  | [] => s
  | d :: rest =>
    let value := 10 * s.value + (d.toNat - 48)
    if value < UInt64.size then extend taken dropped ⟨value, s.exponent + taken⟩ rest
    else ⟨s.value, s.exponent + dropped * (rest.length + 1)⟩

/-- Scales a binary64 number by a power of ten: one multiplication or division
by a power up to 308, after divisions by the largest power where the exponent
is smaller. -/
def scale : Nat → Float → Int → Option Float
  | 0, x, _ => some x
  | steps + 1, x, exponent =>
    if 308 < exponent then if x == 0 then some x else none
    else if 0 ≤ exponent then
      let scaled := x * Float.ofScientific 1 false exponent.toNat
      if scaled.isFinite then some scaled else none
    else if -308 ≤ exponent then some (x / Float.ofScientific 1 false exponent.natAbs)
    else if x == 0 then some x
    else scale steps (x / Float.ofScientific 1 false 308) (exponent + 308)

/-- The binary64 number of a significand; more than four divisions leave zero. -/
def Significand.toFloat? (s : Significand) (negative : Bool) : Option Float :=
  (scale 5 (UInt64.ofNat s.value).toFloat s.exponent).map fun x => if negative then -x else x

/-- An exponent after its letter. -/
def exponent (text : List Char) : Part Int :=
  let (negative, text) :=
    match text with
    | '-' :: rest => (true, rest)
    | '+' :: rest => (false, rest)
    | _ => (false, text)
  match digits text with
  | ([], _) => none
  | (ds, rest) =>
    let size : Int := (Nat.ofDigitChars 10 ds 0 : Nat)
    some (if negative then -size else size, rest)

/-- The end of a number with a point or an exponent. -/
def floating (negative : Bool) (s : Significand) (text : List Char) : Part Json :=
  let finish (s : Significand) (rest : List Char) : Part Json :=
    (s.toFloat? negative).map fun x => (.float x, rest)
  match text with
  | 'e' :: rest | 'E' :: rest =>
    match exponent rest with
    | some (shift, rest) => finish ⟨s.value, s.exponent + shift⟩ rest
    | none => none
  | _ => finish s text

/-- A number after its sign. -/
def number (negative : Bool) (text : List Char) : Part Json :=
  match digits text with
  | ([], _) => none
  | (whole, rest) =>
    if 1 < whole.length && whole.head? = some '0' then none
    else
      let s := Significand.extend 0 1 ⟨0, 0⟩ whole
      match rest with
      | '.' :: rest =>
        match digits rest with
        | ([], _) => none
        | (fraction, rest) => floating negative (s.extend (-1) 0 fraction) rest
      | 'e' :: _ | 'E' :: _ => floating negative s rest
      | _ =>
        let value := Nat.ofDigitChars 10 whole 0
        if negative then
          if 0 < value && value ≤ UInt64.size / 2 then some (.int (-value), rest)
          else floating negative s rest
        else if value < UInt64.size then some (.int value, rest)
        else floating negative s rest

/-- A 16-bit unit of four hexadecimal digits. -/
def unit : List Char → Part Nat
  | a :: b :: c :: d :: rest =>
    let value? (c : Char) : Option Nat :=
      if c.isDigit then some (c.toNat - 48)
      else if 'a' ≤ c && c ≤ 'f' then some (c.toNat - 87)
      else if 'A' ≤ c && c ≤ 'F' then some (c.toNat - 55)
      else none
    match value? a, value? b, value? c, value? d with
    | some a, some b, some c, some d => some (((a * 16 + b) * 16 + c) * 16 + d, rest)
    | _, _, _, _ => none
  | _ => none

/-- The character of an escape after its backslash; a surrogate must be half of
a pair. -/
def escape : List Char → Part Char
  | 'u' :: rest =>
    match unit rest with
    | some (high, rest) =>
      if 0xD800 ≤ high && high < 0xDC00 then
        match rest with
        | '\\' :: 'u' :: rest =>
          match unit rest with
          | some (low, rest) =>
            if 0xDC00 ≤ low && low < 0xE000 then
              some (Char.ofNat (0x10000 + (high - 0xD800) * 0x400 + (low - 0xDC00)), rest)
            else none
          | none => none
        | _ => none
      else if 0xDC00 ≤ high && high < 0xE000 then none
      else some (Char.ofNat high, rest)
    | none => none
  | 'n' :: rest => some ('\n', rest)
  | 't' :: rest => some ('\t', rest)
  | 'r' :: rest => some ('\r', rest)
  | 'b' :: rest => some ('\x08', rest)
  | 'f' :: rest => some ('\x0c', rest)
  | '/' :: rest => some ('/', rest)
  | '\\' :: rest => some ('\\', rest)
  | '\x22' :: rest => some ('\x22', rest)
  | _ => none

/-- The characters of a text after its opening quote; the first argument bounds
their number. -/
def quoted : Nat → List Char → List Char → Part String
  | 0, _, _ => none
  | steps + 1, done, text =>
    match text with
    | [] => none
    | '\x22' :: rest => some (String.ofList done.reverse, rest)
    | '\\' :: rest =>
      match escape rest with
      | some (c, rest) => quoted steps (c :: done) rest
      | none => none
    | c :: rest => if c.toNat < 0x20 then none else quoted steps (c :: done) rest

/-- A text after its opening quote. -/
def string (text : List Char) : Part String := quoted (text.length + 1) [] text

mutual

/-- One value; the first argument bounds the number of readers it takes. -/
def value : Nat → List Char → Part Json
  | 0, _ => none
  | steps + 1, text =>
    match skipBlanks text with
    | 'n' :: 'u' :: 'l' :: 'l' :: rest => some (.null, rest)
    | 't' :: 'r' :: 'u' :: 'e' :: rest => some (.bool true, rest)
    | 'f' :: 'a' :: 'l' :: 's' :: 'e' :: rest => some (.bool false, rest)
    | '\x22' :: rest => (string rest).map fun part => (.text part.1, part.2)
    | '[' :: rest =>
      match skipBlanks rest with
      | ']' :: rest => some (.array [], rest)
      | rest => (items steps [] rest).map fun part => (.array part.1, part.2)
    | '\x7b' :: rest =>
      match skipBlanks rest with
      | '\x7d' :: rest => some (.object [], rest)
      | rest => (members steps [] rest).map fun part => (.object part.1, part.2)
    | '-' :: rest => number true rest
    | rest => number false rest

/-- The items of a list after its bracket, at least one. -/
def items : Nat → List Json → List Char → Part (List Json)
  | 0, _, _ => none
  | steps + 1, done, text =>
    match value steps text with
    | none => none
    | some (item, rest) =>
      match skipBlanks rest with
      | ',' :: rest => items steps (item :: done) rest
      | ']' :: rest => some ((item :: done).reverse, rest)
      | _ => none

/-- The members of an object after its brace, at least one. -/
def members : Nat → Members → List Char → Part Members
  | 0, _, _ => none
  | steps + 1, done, text =>
    match skipBlanks text with
    | '\x22' :: rest =>
      match string rest with
      | none => none
      | some (key, rest) =>
        match skipBlanks rest with
        | ':' :: rest =>
          match value steps rest with
          | none => none
          | some (item, rest) =>
            match skipBlanks rest with
            | ',' :: rest => members steps ((key, item) :: done) rest
            | '\x7d' :: rest => some (((key, item) :: done).reverse, rest)
            | _ => none
        | _ => none
    | _ => none

end

/-- Reads a text that is one JSON value. -/
def read? (text : String) : Option Json :=
  match value (2 * text.length + 2) text.toList with
  | some (json, rest) => if skipBlanks rest = [] then some json else none
  | none => none

end ModelRegistry.JsonText
