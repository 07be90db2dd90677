import ModelRegistry.Duration

/-!
# Spans of time in words

A span is a count of one unit, such as `3days`. A duration is the sum of its
spans from years to nanoseconds. A year has 365.25 days and a month is a
twelfth of a year, so every unit is a whole multiple of each smaller one except
that months do not divide into days.
-/

namespace ModelRegistry

/-- A unit of time. -/
inductive TimeUnit where
  /-- The billionth of a second. -/
  | nanosecond
  /-- The millionth of a second. -/
  | microsecond
  /-- The thousandth of a second. -/
  | millisecond
  /-- The second. -/
  | second
  /-- Sixty seconds. -/
  | minute
  /-- Sixty minutes. -/
  | hour
  /-- Twenty-four hours. -/
  | day
  /-- Seven days. -/
  | week
  /-- The twelfth of a year. -/
  | month
  /-- Three hundred and sixty-five days and a quarter. -/
  | year
deriving DecidableEq

namespace TimeUnit

/-- The unit in nanoseconds. -/
def nanos : TimeUnit → Nat
  | nanosecond => 1
  | microsecond => 1_000
  | millisecond => 1_000_000
  | second => 1_000_000_000
  | minute => 60 * 1_000_000_000
  | hour => 3600 * 1_000_000_000
  | day => 86400 * 1_000_000_000
  | week => 604800 * 1_000_000_000
  | month => 2630016 * 1_000_000_000
  | year => 31557600 * 1_000_000_000

/-- The names of the units, each exactly as it must be written. -/
def names : List (TimeUnit × List String) :=
  [(nanosecond, ["nanos", "nsec", "ns"]),
    (microsecond, ["usec", "us", "\u00b5s"]),
    (millisecond, ["millis", "msec", "ms"]),
    (second, ["seconds", "second", "secs", "sec", "s"]),
    (minute, ["minutes", "minute", "min", "mins", "m"]),
    (hour, ["hours", "hour", "hr", "hrs", "h"]),
    (day, ["days", "day", "d"]),
    (week, ["weeks", "week", "wk", "wks", "w"]),
    (month, ["months", "month", "M"]),
    (year, ["years", "year", "yr", "yrs", "y"])]

/-- The unit with a name. -/
def ofName? (name : String) : Option TimeUnit :=
  (names.find? fun entry => entry.2.contains name).map Prod.fst

/-- The name of a unit behind a count: years, months and days in full and in
the plural beyond one, all others by their sign. -/
def label (count : Nat) : TimeUnit → String
  | nanosecond => "ns"
  | microsecond => "us"
  | millisecond => "ms"
  | second => "s"
  | minute => "m"
  | hour => "h"
  | day => if 1 < count then "days" else "day"
  | week => "w"
  | month => if 1 < count then "months" else "month"
  | year => if 1 < count then "years" else "year"

/-- A label names its unit. -/
theorem ofName?_label (count : Nat) (unit : TimeUnit) :
    ofName? (unit.label count) = some unit := by
  cases unit <;> simp only [label] <;> (try split) <;> decide

end TimeUnit

namespace Duration

/-- How often each unit fits what the units before it leave. -/
def parts : List TimeUnit → Nat → List (Nat × TimeUnit)
  | [], _ => []
  | unit :: smaller, nanos => (nanos / unit.nanos, unit) :: parts smaller (nanos % unit.nanos)

/-- What all units together leave. -/
def remainder : List TimeUnit → Nat → Nat
  | [], nanos => nanos
  | unit :: smaller, nanos => remainder smaller (nanos % unit.nanos)

/-- The parts and the remainder add up to the whole. -/
theorem foldr_parts (units : List TimeUnit) (nanos : Nat) :
    (parts units nanos).foldr (fun part rest => part.1 * part.2.nanos + rest)
      (remainder units nanos) = nanos := by
  induction units generalizing nanos with
  | nil => rfl
  | cons unit smaller ih =>
    simp only [parts, remainder, List.foldr_cons, ih]
    exact Nat.div_add_mod' nanos unit.nanos

/-- Units that end with the nanosecond leave nothing. -/
theorem remainder_append_nanosecond (units : List TimeUnit) (nanos : Nat) :
    remainder (units ++ [.nanosecond]) nanos = 0 := by
  induction units generalizing nanos with
  | nil => exact Nat.mod_one nanos
  | cons unit smaller ih => exact ih (nanos % unit.nanos)

/-- The units of the text of a duration, in descending order. -/
def textUnits : List TimeUnit :=
  [.year, .month, .day, .hour, .minute, .second, .millisecond, .microsecond, .nanosecond]

/-- The spans of a duration: its parts that are not empty. -/
def spans (d : Duration) : List (Nat × TimeUnit) :=
  (parts textUnits d.nanos).filter fun part => part.1 ≠ 0

/-- The text of a span: its count and the label of its unit. -/
def spanText (span : Nat × TimeUnit) : List Char :=
  Nat.toDigits 10 span.1 ++ (span.2.label span.1).toList

/-- The text of a duration: its spans with a space between two of them, and
`0s` for no time at all. -/
def text (d : Duration) : String :=
  if d.nanos = 0 then "0s" else String.ofList ([' '].intercalate (d.spans.map spanText))

end Duration

end ModelRegistry
