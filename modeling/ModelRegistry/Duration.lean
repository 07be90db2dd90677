/-!
# Lengths of time and instants

A duration is a whole number of nanoseconds whose seconds fit 64 bits. An
instant is a number of nanoseconds since the clock was started. The platform
clock holds instants whose seconds fit 63 bits.
-/

namespace ModelRegistry

/-- A length of time. -/
@[ext]
structure Duration where
  /-- The length in nanoseconds. -/
  nanos : Nat
  /-- The whole seconds fit 64 bits. -/
  inRange : nanos < UInt64.size * 1_000_000_000
deriving DecidableEq

namespace Duration

/-- The length of no time. -/
def zero : Duration := ⟨0, by decide⟩

/-- A duration of whole seconds. -/
def ofSeconds (seconds : UInt64) : Duration :=
  ⟨seconds.toNat * 1_000_000_000,
    Nat.mul_lt_mul_of_pos_right seconds.toNat_lt (by decide)⟩

/-- A duration of a number of nanoseconds, if its seconds fit 64 bits. -/
def ofNanos? (nanos : Nat) : Option Duration :=
  if h : nanos < UInt64.size * 1_000_000_000 then some ⟨nanos, h⟩ else none

/-- The whole seconds. -/
def seconds (d : Duration) : Nat := d.nanos / 1_000_000_000

/-- The nanoseconds beyond the whole seconds. -/
def subsecond (d : Duration) : Nat := d.nanos % 1_000_000_000

/-- Whole seconds and the rest make up the duration. -/
theorem seconds_subsecond (d : Duration) : d.seconds * 1_000_000_000 + d.subsecond = d.nanos := by
  simp only [seconds, subsecond]
  omega

/-- The seconds of a duration fit 64 bits. -/
theorem seconds_lt (d : Duration) : d.seconds < UInt64.size :=
  (Nat.div_lt_iff_lt_mul (by decide)).mpr d.inRange

/-- Less than one second is beyond the whole seconds. -/
theorem subsecond_lt (d : Duration) : d.subsecond < 1_000_000_000 := by
  simp only [subsecond]
  omega

/-- The sum of a duration, whole seconds and nanoseconds. The nanoseconds are
added to those beyond the whole seconds in 64 bits, and the seconds of the sum
have to fit 64 bits as well. -/
def add? (d : Duration) (seconds nanos : Nat) : Option Duration :=
  if d.subsecond + nanos < UInt64.size then
    ofNanos? (d.nanos + seconds * 1_000_000_000 + nanos)
  else none

end Duration

/-- A point in time, in nanoseconds since the clock was started. -/
abbrev Instant := Nat

namespace Instant

/-- The latest instant of the platform clock. -/
def latest : Instant := UInt64.size / 2 * 1_000_000_000 - 1

/-- The instant a duration later, if the platform clock holds it. -/
def add? (now : Instant) (d : Duration) : Option Instant :=
  if now + d.nanos ≤ latest then some (now + d.nanos) else none

end Instant

end ModelRegistry
