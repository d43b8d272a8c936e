import ScriptEngine.Number.Binary64

namespace ScriptEngine.Number

/-!
# The fewest digits that read back

A positive double is written with the fewest decimal digits that still round to
it, and among those with the ones nearest to it.  For one digit, two digits and
so on, the two neighbours of the number on that decimal grid are tested against
the interval of reals that round to it.
-/

/-- A positive decimal `digits * 10 ^ power`. -/
structure Decimal where
  digits : Nat
  power : Int
  deriving DecidableEq, Repr

namespace Decimal

/-- Numerator and denominator of a decimal. -/
def ratio (decimal : Decimal) : Nat × Nat :=
  if 0 ≤ decimal.power then (decimal.digits * Nat.pow 10 decimal.power.toNat, 1)
  else (decimal.digits, Nat.pow 10 (-decimal.power).toNat)

/-- Drop the zeros at the end of the digits, with one step for each. -/
def stripZeros : Nat → Decimal → Decimal
  | 0, decimal => decimal
  | budget + 1, decimal =>
      if decimal.digits % 10 = 0 ∧ decimal.digits ≠ 0 then
        stripZeros budget ⟨decimal.digits / 10, decimal.power + 1⟩
      else decimal

end Decimal

namespace Shortest

/-- Whether a quotient reaches a power of ten. -/
def reachesTenPower (numerator denominator : Nat) (power : Int) : Bool :=
  if 0 ≤ power then denominator * Nat.pow 10 power.toNat ≤ numerator
  else denominator ≤ numerator * Nat.pow 10 (-power).toNat

/-- The least power of ten above a positive quotient. -/
def magnitude (numerator denominator : Nat) : Int :=
  let guess := Binary64.log2Ratio numerator denominator * 30103 / 100000 + 1
  if reachesTenPower numerator denominator guess then guess + 1
  else if reachesTenPower numerator denominator (guess - 1) then guess
  else guess - 1

/-- The interval of reals that round to a double, in quarters of its last place: both ends, and
whether they belong to it. -/
structure Interval where
  low : Nat
  middle : Nat
  high : Nat
  closed : Bool
  /-- The exponent of the quarters. -/
  exponent : Int

/-- The rounding interval of a positive multiple of a power of two. -/
def interval (significand : Nat) (exponent : Int) : Interval where
  low :=
    if significand = Nat.pow 2 52 ∧ exponent ≠ Binary64.leastExponent then 4 * significand - 1
    else 4 * significand - 2
  middle := 4 * significand
  high := 4 * significand + 2
  closed := significand % 2 = 0
  exponent := exponent - 2

/-- Whether a decimal lies in a rounding interval. -/
def Interval.holds (bounds : Interval) (decimal : Decimal) : Bool :=
  let (numerator, denominator) := decimal.ratio
  let (scaledUp, scaledDown) := Binary64.ratio 1 bounds.exponent
  let left := numerator * scaledDown
  let lowRight := bounds.low * scaledUp * denominator
  let highRight := bounds.high * scaledUp * denominator
  if bounds.closed then lowRight ≤ left && left ≤ highRight
  else lowRight < left && left < highRight

/-- The neighbour below a quotient on a decimal grid, and whether the one above is nearer. -/
def below (numerator denominator : Nat) (power : Int) : Nat × Bool :=
  let (scaled, unit) :=
    if 0 ≤ power then (numerator, denominator * Nat.pow 10 power.toNat)
    else (numerator * Nat.pow 10 (-power).toNat, denominator)
  let whole := scaled / unit
  let twice := 2 * (scaled % unit)
  (whole, unit < twice || (twice == unit && whole % 2 == 1))

/-- Try grids of one more digit each until one holds a decimal of the interval. -/
def search (significand : Nat) (exponent : Int) (top : Int) : Nat → Nat → Decimal
  | 0, count =>
      let (numerator, denominator) := Binary64.ratio significand exponent
      let power := top - Int.ofNat count
      let (low, up) := below numerator denominator power
      ⟨if up then low + 1 else low, power⟩
  | budget + 1, count =>
      let (numerator, denominator) := Binary64.ratio significand exponent
      let bounds := interval significand exponent
      let power := top - Int.ofNat count
      let (low, up) := below numerator denominator power
      let lower : Decimal := ⟨low, power⟩
      let upper : Decimal := ⟨low + 1, power⟩
      let (near, far) := if up then (upper, lower) else (lower, upper)
      if bounds.holds near then near
      else if bounds.holds far then far
      else search significand exponent top budget (count + 1)

/-- The shortest decimal that rounds to a positive multiple of a power of two. -/
def decimal (significand : Nat) (exponent : Int) : Decimal :=
  let (numerator, denominator) := Binary64.ratio significand exponent
  (search significand exponent (magnitude numerator denominator) 16 1).stripZeros 20

end Shortest

end ScriptEngine.Number
