import PushMachine.Decimal.Shortest

/-! # Layouts of decimals

How the digits of a double are laid out as text: positionally inside a window of exponents, in
exponent form outside it. `Layout` holds the choices of one format, and `render` is the one
printer. -/

namespace PushMachine.Decimal

/-- The choices a text format makes for doubles. -/
structure Layout where
  /-- The smallest exponent of the first digit that is written positionally. -/
  least : Int
  /-- The first exponent of the first digit that is no longer written positionally. -/
  limit : Int
  /-- A positive exponent carries a plus sign. -/
  plusSign : Bool
  /-- Which way an exact tie goes. -/
  tie : Tie
  /-- The text of a NaN. -/
  nan : String
  /-- The text of an infinity, without its sign. -/
  infinity : String

/-- Removes trailing zeros from a digit list. -/
def stripZeros (digits : List Char) : List Char :=
  (digits.reverse.dropWhile (· = '0')).reverse

/-- The digits of a positional number whose first digit has exponent `first`; at least one digit
stands on each side of the point. -/
def positional (digits : List Char) (first : Int) : List Char :=
  if first < 0 then
    '0' :: '.' :: List.replicate (-first - 1).toNat '0' ++ digits
  else
    let whole := first.toNat + 1
    if digits.length ≤ whole then
      digits ++ List.replicate (whole - digits.length) '0' ++ ['.', '0']
    else digits.take whole ++ '.' :: digits.drop whole

/-- The digits of a number in exponent form, such as `1.5e-7`. -/
def exponential (layout : Layout) (digits : List Char) (first : Int) : List Char :=
  let mantissa :=
    match digits with
    | [] => []
    | [d] => [d]
    | d :: rest => d :: '.' :: rest
  let sign := if first < 0 then ['-'] else if layout.plusSign then ['+'] else []
  mantissa ++ 'e' :: sign ++ Nat.toDigits 10 first.natAbs

/-- The text of a finite positive number given by its digits: `positional` if the exponent of the
first digit is in the window of the layout, and `exponential` if not. -/
def Layout.number (layout : Layout) (s : Scientific) : List Char :=
  let digits := Nat.toDigits 10 s.digits
  let first := s.exponent + digits.length - 1
  if layout.least ≤ first ∧ first < layout.limit then positional (stripZeros digits) first
  else exponential layout (stripZeros digits) first

/-- **The text of a double** under a layout, by the digits of `shortest`. -/
def Layout.render (layout : Layout) (x : Float) : String :=
  if x.isNaN then layout.nan
  else
    let sign := if isNegative x then "-" else ""
    if x.isInf then sign ++ layout.infinity
    else if x == 0.0 then sign ++ "0.0"
    else sign ++ String.ofList (layout.number (shortest layout.tie x))

end PushMachine.Decimal
