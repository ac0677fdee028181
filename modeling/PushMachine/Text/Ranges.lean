/-! # Ranges of characters

A class of characters is given by the ordered list of the ranges of code points it covers. -/

namespace PushMachine.Text

/-- Ranges `(first, last)` of code points, both ends included, in increasing order. -/
abbrev Ranges := List (Nat × Nat)

/-- Whether a code point lies in one of the ranges. -/
def Ranges.covers (ranges : Ranges) (point : Nat) : Bool :=
  match ranges with
  | [] => false
  | (first, last) :: rest =>
    if point < first then false else if point ≤ last then true else Ranges.covers rest point

end PushMachine.Text
