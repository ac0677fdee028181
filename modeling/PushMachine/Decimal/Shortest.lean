/-! # Shortest decimals

The fewest decimal digits that still identify a double. A finite double is `m · 2^q`; the reals
that round to it form an interval around it, closed exactly when `m` is even. For `1, 2, …`
digits the two neighbours of the value on that decimal grid are tested against the interval; the
first grid with a hit wins, and of two hits the one nearer to the value. -/

namespace PushMachine.Decimal

/-- The exact value `mantissa · 2^exponent` of a finite double, without its sign. -/
structure Magnitude where
  /-- The integer mantissa, below `2^53`. -/
  mantissa : Nat
  /-- The binary exponent. -/
  exponent : Int
  /-- The next smaller double is only half as far away as the next larger one. -/
  lowerIsNear : Bool

/-- The sign bit of a double. -/
def isNegative (x : Float) : Bool := 0x8000000000000000 ≤ x.toBits

/-- The magnitude of a finite double. -/
def magnitude (x : Float) : Magnitude :=
  let bits : Nat := x.toBits.toNat
  let fraction : Nat := bits % Nat.pow 2 52
  let biased : Nat := bits / Nat.pow 2 52 % Nat.pow 2 11
  if biased = 0 then ⟨fraction, -1074, false⟩
  else ⟨fraction + Nat.pow 2 52, (biased : Int) - 1075, fraction = 0 && 1 < biased⟩

/-- The integer part of a double, toward zero; a NaN counts as `0` and an infinity as `2^1024`. -/
def truncate (x : Float) : Int :=
  if x.isNaN then 0
  else
    let m := magnitude x
    let size : Nat :=
      if 0 ≤ m.exponent then m.mantissa * Nat.pow 2 m.exponent.toNat
      else m.mantissa / Nat.pow 2 (-m.exponent).toNat
    if isNegative x then -(size : Int) else size

/-- Which neighbour an exact tie between two decimals goes to. -/
inductive Tie where
  /-- The one whose last digit is even. -/
  | toEven
  /-- The larger one. -/
  | up
  deriving DecidableEq

/-- A positive decimal `digits · 10^exponent`. -/
structure Scientific where
  /-- The digits read as one number. -/
  digits : Nat
  /-- The power of ten of the last digit. -/
  exponent : Int

/-- Number of decimal digits of a natural number. -/
def digitCount (n : Nat) : Nat := (Nat.toDigits 10 n).length

/-- A positive rational number with an interval around it, all over one denominator. -/
structure Window where
  /-- The lower end of the interval. -/
  low : Nat
  /-- The number itself. -/
  value : Nat
  /-- The upper end of the interval. -/
  high : Nat
  /-- The common denominator. -/
  denominator : Nat
  /-- The ends belong to the interval. -/
  closed : Bool

/-- The interval of reals that round to a magnitude. -/
def Magnitude.window (m : Magnitude) : Window :=
  let scale := if 0 ≤ m.exponent then Nat.pow 2 m.exponent.toNat else 1
  let denominator := if 0 ≤ m.exponent then 4 else 4 * Nat.pow 2 (-m.exponent).toNat
  let below := if m.lowerIsNear then 1 else 2
  { low := (4 * m.mantissa - below) * scale
    value := 4 * m.mantissa * scale
    high := (4 * m.mantissa + 2) * scale
    denominator := denominator
    closed := m.mantissa % 2 = 0 }

/-- The power of ten `k` with `10^(k-1) ≤ value < 10^k`. -/
def Window.scale (w : Window) : Int :=
  if w.denominator ≤ w.value then (digitCount (w.value / w.denominator) : Int)
  else 1 - (digitCount ((w.denominator - 1) / w.value) : Int)

/-- Whether `digits / unit` lies in the interval, `unit` being the denominator of the grid and
`step` its numerator. -/
def Window.holds (w : Window) (digits step unit : Nat) : Bool :=
  let point := digits * step * w.denominator
  if w.closed then w.low * unit ≤ point && point ≤ w.high * unit
  else w.low * unit < point && point < w.high * unit

/-- The best decimal of `count` digits in the interval, if there is one. -/
def Window.candidate? (w : Window) (tie : Tie) (count : Nat) : Option Scientific :=
  let exponent := w.scale - count
  let step := if 0 ≤ exponent then Nat.pow 10 exponent.toNat else 1
  let unit := if 0 ≤ exponent then 1 else Nat.pow 10 (-exponent).toNat
  let below := w.value * unit / (w.denominator * step)
  let above := below + 1
  match w.holds below step unit, w.holds above step unit with
  | false, false => none
  | true, false => some ⟨below, exponent⟩
  | false, true => some ⟨above, exponent⟩
  | true, true =>
    let toBelow := w.value * unit - below * step * w.denominator
    let toAbove := above * step * w.denominator - w.value * unit
    if toBelow < toAbove then some ⟨below, exponent⟩
    else if toAbove < toBelow then some ⟨above, exponent⟩
    else
      match tie with
      | .up => some ⟨above, exponent⟩
      | .toEven => some ⟨if below % 2 = 0 then below else above, exponent⟩

/-- The first decimal found when `count`, `count + 1`, … digits are tried, at most `tries` times. -/
def Window.search (w : Window) (tie : Tie) : Nat → Nat → Scientific
  | 0, count => ⟨w.value / w.denominator, count⟩
  | tries + 1, count => (w.candidate? tie count).getD (w.search tie tries (count + 1))

/-- The shortest decimal that reads back as the double `x`, which is finite and not zero. Seventeen
digits always suffice. -/
def shortest (tie : Tie) (x : Float) : Scientific := (magnitude x).window.search tie 17 1

end PushMachine.Decimal
