/-!
# The shortest decimal of a binary64 number

A finite number is the exact value `m · 2^q`, and the reals that round to it
form an interval around it, ends included exactly when `m` is even. Its text
has the digits of the coarsest decimal grid with a point in that interval; of
two neighbours on the grid the nearer one is taken, and on a tie the even one.
Everything is computed on natural numbers. Infinities and NaN have no text here.
-/

namespace ModelRegistry.NumberText

/-- A positive value with the interval that rounds to it, as numerators over
one positive denominator. -/
structure Rounding where
  /-- The value itself. -/
  value : Nat
  /-- The lower end of the interval. -/
  lower : Nat
  /-- The upper end of the interval. -/
  upper : Nat
  /-- The common denominator. -/
  denominator : Nat
  /-- Whether the ends belong to the interval. -/
  closed : Bool

/-- The interval of `m · 2^q`. Below a power of two the neighbour is half as
far away, unless it is the least normal number. -/
def Rounding.ofBinary (m : Nat) (q : Int) (narrowBelow : Bool) : Rounding :=
  let scale := if 2 ≤ q then Nat.pow 2 (q - 2).toNat else 1
  ⟨4 * m * scale, (4 * m - if narrowBelow then 1 else 2) * scale, (4 * m + 2) * scale,
    if 2 ≤ q then 1 else Nat.pow 2 (2 - q).toNat, m % 2 = 0⟩

/-- Whether `digits · 10^exponent` lies in the interval. -/
def Rounding.admits (r : Rounding) (digits : Nat) (exponent : Int) : Bool :=
  let point := digits * (if 0 ≤ exponent then Nat.pow 10 exponent.toNat else 1) * r.denominator
  let unit := if 0 ≤ exponent then 1 else Nat.pow 10 (-exponent).toNat
  if r.closed then r.lower * unit ≤ point && point ≤ r.upper * unit
  else r.lower * unit < point && point < r.upper * unit

/-- The point of the grid `10^exponent` that stands for the value, if the
interval holds one. -/
def Rounding.onGrid? (r : Rounding) (exponent : Int) : Option Nat :=
  let numerator := r.value * (if 0 ≤ exponent then 1 else Nat.pow 10 (-exponent).toNat)
  let denominator := r.denominator * (if 0 ≤ exponent then Nat.pow 10 exponent.toNat else 1)
  let below := numerator / denominator
  let excess := 2 * (numerator % denominator)
  let nearer :=
    if excess < denominator || (excess = denominator && below % 2 = 0) then below else below + 1
  let other := if nearer = below then below + 1 else below
  if r.admits nearer exponent then some nearer
  else if r.admits other exponent then some other
  else none

/-- The first hit on the grids `10^exponent`, `10^(exponent-1)` and so on. -/
def Rounding.search (r : Rounding) : Nat → Int → Option (Nat × Int)
  | 0, _ => none
  | steps + 1, exponent =>
    match r.onGrid? exponent with
    | some digits => some (digits, exponent)
    | none => r.search steps (exponent - 1)

/-- The layout of digits with a decimal exponent: positional while the leading
digit stands between the fifth place after the point and the sixteenth before
it, and otherwise one digit before the point and an exponent with its sign. A
positional text always has a point. -/
def layout (digits : List Char) (exponent : Int) : List Char :=
  let leading := exponent + (digits.length - 1 : Nat)
  if leading < -5 || 15 < leading then
    let fraction := if digits.length = 1 then [] else '.' :: digits.drop 1
    digits.take 1 ++ fraction ++ ['e', if leading < 0 then '-' else '+'] ++
      Nat.toDigits 10 leading.natAbs
  else if 0 ≤ exponent then digits ++ List.replicate exponent.toNat '0' ++ ['.', '0']
  else if 0 ≤ leading then
    digits.take (leading.toNat + 1) ++ '.' :: digits.drop (leading.toNat + 1)
  else ['0', '.'] ++ List.replicate (-leading - 1).toNat '0' ++ digits

/-- The text of a finite number; the sign of zero shows. -/
def text (x : Float) : String :=
  let bits := x.toBits.toNat
  let sign := if bits / Nat.pow 2 63 = 1 then ['-'] else []
  let field := bits / Nat.pow 2 52 % Nat.pow 2 11
  let fraction := bits % Nat.pow 2 52
  let m := if field = 0 then fraction else fraction + Nat.pow 2 52
  let q : Int := (if field = 0 then 1 else field : Nat) - 1075
  let shortest :=
    if m = 0 then some (0, 0)
    else (Rounding.ofBinary m q (fraction = 0 && 1 < field)).search 660 310
  match shortest with
  | some (digits, exponent) => String.ofList (sign ++ layout (Nat.toDigits 10 digits) exponent)
  | none => ""

example : text 2.0 = "2.0" := by decide +kernel
example : text (-0.0) = "-0.0" := by decide +kernel
example : text 100.25 = "100.25" := by decide +kernel
example : text 18446744073709551616 = "1.8446744073709552e+19" := by decide +kernel
example : text 1e15 = "1000000000000000.0" := by decide +kernel
example : text 1e16 = "1e+16" := by decide +kernel
example : text 0.00001 = "0.00001" := by decide +kernel
example : text 0.000001 = "1e-6" := by decide +kernel
example : text 5e-324 = "5e-324" := by decide +kernel

end ModelRegistry.NumberText
