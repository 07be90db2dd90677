import ModelRegistry.DurationSpan
import ModelRegistry.TextBlank

/-!
# Reading a duration from words

A text is cut into chunks, each a quantity and the letters of a unit. A
quantity is a decimal number that may have a fraction; blanks may stand before
it and between its digits. The chunks are added up one by one. A count and its
unit are multiplied in 64 bits, in seconds for seconds and larger units and in
nanoseconds for smaller ones; a fraction has to come out as a whole number of
nanoseconds up to minutes, of seconds for larger units, and nanoseconds have no
fraction. Whatever does not fit is refused; no reason is kept.
-/

namespace ModelRegistry.DurationText

open TextBlank

/-- Whether a character belongs to the name of a unit. -/
def isUnitLetter (c : Char) : Bool := c.isAlpha || c = '\u00b5'

/-- Cuts a text behind each run of unit letters: the characters before the
letters and the letters. Only the last chunk may have no letters. -/
def chunks : List Char → List (List Char × List Char)
  | [] => []
  | c :: text =>
    match chunks text with
    | [] => if isUnitLetter c then [([], [c])] else [([c], [])]
    | (quantity, letters) :: rest =>
      if isUnitLetter c then
        if quantity = [] then ([], c :: letters) :: rest
        else ([], [c]) :: (quantity, letters) :: rest
      else (c :: quantity, letters) :: rest

/-- The cut loses nothing. -/
theorem flatten_chunks (text : List Char) :
    ((chunks text).flatMap fun chunk => chunk.1 ++ chunk.2) = text := by
  induction text with
  | nil => rfl
  | cons c text ih =>
    simp only [chunks]
    split
    · rename_i h
      rw [h] at ih
      split <;> simpa using ih
    · rename_i quantity letters rest h
      rw [h] at ih
      split
      · split
        · rename_i hq
          subst hq
          simpa using ih
        · simpa using ih
      · simpa using ih

/-- A decimal number as written: its whole part, and the digits of its fraction
with the power of ten below them. -/
structure Quantity where
  /-- The number before the point. -/
  whole : Nat
  /-- The digits after the point as a number, and ten to their count. -/
  fraction : Option (Nat × Nat)

/-- The number that the digits among some characters form. -/
def digitsValue (text : List Char) : Nat := Nat.ofDigitChars 10 (text.filter Char.isDigit) 0

/-- Whether a character may stand inside a number. -/
def isNumeral (c : Char) : Bool := c.isDigit || isBlank c

/-- The fraction after a point: digits and blanks, at least one digit, and the
power of ten below them fits 64 bits. -/
def fraction? (text : List Char) : Option (Nat × Nat) :=
  let denominator := Nat.pow 10 (text.filter Char.isDigit).length
  if text.all isNumeral ∧ 1 < denominator ∧ denominator < UInt64.size then
    some (digitsValue text, denominator)
  else none

/-- A quantity: blanks, then digits and blanks that begin with a digit, then
perhaps a point and a fraction. -/
def quantity? (text : List Char) : Option Quantity :=
  let number := text.dropWhile isBlank
  let whole := number.takeWhile isNumeral
  if whole = [] ∨ UInt64.size ≤ digitsValue whole then none
  else
    match number.dropWhile isNumeral with
    | [] => some ⟨digitsValue whole, none⟩
    | '.' :: rest => (fraction? rest).map fun fraction => ⟨digitsValue whole, some fraction⟩
    | _ => none

/-- Adds a count of a unit to a duration. -/
def addWhole? (d : Duration) (count : Nat) (unit : TimeUnit) : Option Duration :=
  if TimeUnit.second.nanos ≤ unit.nanos then
    let seconds := count * (unit.nanos / TimeUnit.second.nanos)
    if seconds < UInt64.size then d.add? seconds 0 else none
  else
    let nanos := count * unit.nanos
    if nanos < UInt64.size then d.add? 0 nanos else none

/-- Adds a fraction of a unit to a duration. -/
def addFraction? (d : Duration) (numerator denominator : Nat) (unit : TimeUnit) :
    Option Duration :=
  let fine := unit.nanos ≤ TimeUnit.minute.nanos
  let product := numerator * (if fine then unit.nanos else unit.nanos / TimeUnit.second.nanos)
  if unit = .nanosecond ∨ UInt64.size ≤ product ∨ product % denominator ≠ 0 then none
  else if fine then d.add? 0 (product / denominator)
  else d.add? (product / denominator) 0

/-- Adds a chunk to a duration. -/
def addChunk? (d : Duration) (chunk : List Char × List Char) : Option Duration := do
  let unit ← TimeUnit.ofName? (String.ofList chunk.2)
  let quantity ← quantity? chunk.1
  let sum ← addWhole? d quantity.whole unit
  match quantity.fraction with
  | none => some sum
  | some (numerator, denominator) => addFraction? sum numerator denominator unit

/-- Whether a chunk is only the blanks at the end of a text. -/
def isTail (chunk : List Char × List Char) : Bool := chunk.2 = [] && chunk.1.all isBlank

/-- Reads a duration; at least one chunk must count something, save that `0`
alone is no time. -/
def read? (text : String) : Option Duration :=
  if text = "0" then some .zero
  else
    match (chunks text.toList).filter fun chunk => !isTail chunk with
    | [] => none
    | counted => counted.foldlM addChunk? .zero

end ModelRegistry.DurationText
