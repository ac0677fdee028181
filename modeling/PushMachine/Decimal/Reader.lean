/-! # Reading decimals

Readers for the decimal text of integers and doubles. Both accept a sign; an integer is ASCII
digits only, and a double may be a number with a point and an exponent, or the name of an infinity
or of a NaN in any mix of cases. -/

namespace PushMachine.Decimal

/-- The value of an ASCII digit. -/
def digit? (c : Char) : Option Nat :=
  if '0' ≤ c ∧ c ≤ '9' then some (c.toNat - '0'.toNat) else none

/-- The digits at the front of a text as a number and their count, continued from `value` and
`count`, with the rest of the text. -/
def takeDigits (value count : Nat) : List Char → Nat × Nat × List Char
  | [] => (value, count, [])
  | c :: rest =>
    match digit? c with
    | some d => takeDigits (value * 10 + d) (count + 1) rest
    | none => (value, count, c :: rest)

/-- Splits off a sign; `true` is negative. -/
def takeSign : List Char → Bool × List Char
  | '-' :: rest => (true, rest)
  | '+' :: rest => (false, rest)
  | text => (false, text)

/-- Reads a whole text as an integer: an optional sign and at least one digit. -/
def readInt? (text : List Char) : Option Int :=
  let (negative, rest) := takeSign text
  match takeDigits 0 0 rest with
  | (_, 0, _) => none
  | (n, _, []) => some (if negative then -(n : Int) else n)
  | _ => none

/-- The magnitude of the least integer of a signed 128-bit word, `2^127`. -/
def int128Bound : Int := 170141183460469231731687303715884105728

/-- Reads a whole text as an integer of a signed 128-bit word, by `readInt?`. -/
def readInt128? (text : List Char) : Option Int :=
  (readInt? text).filter fun n => -int128Bound ≤ n && n < int128Bound

/-- Reads the exponent part of a double: nothing, or the mark and an integer. -/
def readExponent? : List Char → Option Int
  | [] => some 0
  | c :: rest => if c = 'e' ∨ c = 'E' then readInt? rest else none

/-- The double nearest to `digits · 10^exponent`. -/
def nearest (digits : Nat) (exponent : Int) : Float :=
  Float.ofScientific digits (exponent < 0) exponent.natAbs

/-- Reads a whole text as an unsigned decimal number. A digit stands on at least one side of the
point. -/
def readNumber? (text : List Char) : Option Float :=
  let (whole, wholeCount, rest) := takeDigits 0 0 text
  let (digits, fractionCount, rest) :=
    match rest with
    | '.' :: rest => takeDigits whole 0 rest
    | rest => (whole, 0, rest)
  if wholeCount + fractionCount = 0 then none
  else (readExponent? rest).map fun e => nearest digits (e - fractionCount)

/-- Reads a whole text as a double: a sign, and then the name of an infinity or of a NaN, or a
number (`readNumber?`). -/
def readFloat? (text : List Char) : Option Float :=
  let (negative, rest) := takeSign text
  let name := rest.map Char.toLower
  let size : Option Float :=
    if name = "inf".toList ∨ name = "infinity".toList then some (1.0 / 0.0)
    else if name = "nan".toList then some (0.0 / 0.0)
    else readNumber? rest
  size.map fun x => if negative then -x else x

end PushMachine.Decimal
