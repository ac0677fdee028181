import PushMachine.Decimal.Shortest

/-! # Bounded numbers

Results of arithmetic are kept within bounds: integers and doubles between `-10^12` and `10^12`, and
doubles too small to matter at zero. `clampInt` and `clampFloat?` are the two bounds, and
`nearestPlace`, `cyclicPlace?` and `cyclicPoint` turn an integer of a program into a position. -/

namespace PushMachine

/-- The largest magnitude of a result. -/
def maxMagnitude : Int := 1000000000000

/-- An integer result, moved to the nearest of the bounds `±maxMagnitude` if it lies outside. -/
def clampInt (n : Int) : Int64 := Int64.ofInt (max (-maxMagnitude) (min n maxMagnitude))

/-- A double result, moved to the nearest bound if it lies outside and to zero if its magnitude is
below `10^-10`. A NaN is no result. -/
def clampFloat? (x : Float) : Option Float :=
  if x.isNaN then none
  else
    let y := if x < -1e12 then -1e12 else if 1e12 < x then 1e12 else x
    if y.abs < 1e-10 then some 0.0 else some y

/-- The integer part of a double as a result. -/
def truncateToInt (x : Float) : Int64 := clampInt (Decimal.truncate x)

/-- A position of at most `limit`: negative integers count as zero. -/
def nearestPlace (n : Int64) (limit : Nat) : Nat := min n.toInt.toNat limit

/-- The position that an integer has when it runs around `length` places; none if there are none. -/
def cyclicPlace? (n : Int64) (length : Nat) : Option Nat :=
  if length = 0 then none else some (n.toInt % length).toNat

/-- The remainder of the magnitude of `n` by a number of points. -/
def cyclicPoint (n : Int64) (points : Nat) : Nat :=
  if points = 0 then 0 else n.toInt.natAbs % points

/-- The largest integer, `2^63 - 1`. -/
def largestInt : Nat := 9223372036854775807

/-- A count as an integer, or `none` from `2 ^ 63` on. -/
def countToInt? (n : Nat) : Option Int64 :=
  if n ≤ largestInt then some (Int64.ofNat n) else none

end PushMachine
