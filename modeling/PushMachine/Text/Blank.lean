import PushMachine.Text.Ranges

/-! # Blank characters

The characters with the Unicode property White_Space, with the two operations that go by them:
trimming a text and cutting it into words. -/

namespace PushMachine.Text

/-- The ranges of the property White_Space. -/
def blankRanges : Ranges :=
  [(0x9, 0xd), (0x20, 0x20), (0x85, 0x85), (0xa0, 0xa0), (0x1680, 0x1680), (0x2000, 0x200a),
    (0x2028, 0x2029), (0x202f, 0x202f), (0x205f, 0x205f), (0x3000, 0x3000)]

/-- Whether a character is blank, by `blankRanges`. -/
def isBlank (c : Char) : Bool := blankRanges.covers c.toNat

/-- A text without the characters at its two ends that are `isBlank`. -/
def trim (text : List Char) : List Char :=
  ((text.dropWhile isBlank).reverse.dropWhile isBlank).reverse

/-- The maximal runs of characters that are not blank, the first of which continues `run`. -/
def wordsFrom (run : List Char) : List Char → List (List Char)
  | [] => if run = [] then [] else [run]
  | c :: rest =>
    if isBlank c then
      if run = [] then wordsFrom [] rest else run :: wordsFrom [] rest
    else wordsFrom (run ++ [c]) rest

/-- The words of a text: its maximal runs of characters that are not blank. -/
def words (text : List Char) : List (List Char) := wordsFrom [] text

end PushMachine.Text
