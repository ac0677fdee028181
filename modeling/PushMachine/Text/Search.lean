/-! # Searching text

Every search is expressed by one cut: `pieces pattern text` are the stretches of `text` between the
left-to-right, non-overlapping matches of `pattern`. Putting the pattern back between the pieces
gives the text again, so replacing, removing, counting and splitting are all read off the pieces. -/

namespace PushMachine.Text

/-- Puts a character in front of the first piece. -/
def consPiece (c : Char) : List (List Char) → List (List Char)
  | [] => [[c]]
  | piece :: rest => (c :: piece) :: rest

/-- The pieces of a text after its first `skip` characters, which belong to a match. -/
def piecesFrom (pattern : List Char) : Nat → List Char → List (List Char)
  | _, [] => [[]]
  | skip + 1, _ :: rest => piecesFrom pattern skip rest
  | 0, c :: rest =>
    if pattern.isPrefixOf (c :: rest) then
      [] :: piecesFrom pattern (pattern.length - 1) rest
    else consPiece c (piecesFrom pattern 0 rest)

/-- **The pieces** of a text between the matches of a pattern that is not empty. There is one more
piece than there are matches. -/
def pieces (pattern text : List Char) : List (List Char) := piecesFrom pattern 0 text

/-- Number of matches of `pattern`, one less than its `pieces`; the empty pattern counts as absent.
-/
def occurrences (pattern text : List Char) : Nat :=
  if pattern = [] then 0 else (pieces pattern text).length - 1

/-- Position of the first match, the length of the first of the `pieces`; the empty pattern matches
at the start. -/
def indexOf? (pattern text : List Char) : Option Nat :=
  if pattern = [] then some 0
  else
    match pieces pattern text with
    | first :: _ :: _ => some first.length
    | _ => none

/-- Whether a pattern occurs in a text (`indexOf?`). -/
def contains (pattern text : List Char) : Bool := (indexOf? pattern text).isSome

/-- The pieces joined by `separator`. -/
def joinWith (separator : List Char) : List (List Char) → List Char
  | [] => []
  | [piece] => piece
  | piece :: rest => piece ++ separator ++ joinWith separator rest

/-- The pieces joined by the pattern, with `replacement` in the gap of index `gap`. -/
def joinAt (pattern replacement : List Char) : Nat → List (List Char) → List Char
  | _, [] => []
  | _, [piece] => piece
  | 0, piece :: rest => piece ++ replacement ++ joinWith pattern rest
  | gap + 1, piece :: rest => piece ++ pattern ++ joinAt pattern replacement gap rest

/-- Replaces every match: the `pieces` joined by `replacement`. -/
def replaceAll (pattern replacement text : List Char) : List Char :=
  joinWith replacement (pieces pattern text)

/-- Replaces the match of index `gap`, counted from zero. -/
def replaceAt (pattern replacement : List Char) (gap : Nat) (text : List Char) : List Char :=
  joinAt pattern replacement gap (pieces pattern text)

/-- The `pieces` that are not empty. -/
def split (separator text : List Char) : List (List Char) :=
  (pieces separator text).filter fun piece => !piece.isEmpty

end PushMachine.Text
