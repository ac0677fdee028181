import PushMachine.Display
import PushMachine.Instruction
import PushMachine.Text.Letter
import PushMachine.Text.Search

/-! # Strings and characters

Positions count characters. Searching comes in variants that take a string or a single character as
the pattern, and replacing and removing in variants for the first, a chosen, or every match; the
replacement lies above the pattern, and the pattern above the text. -/

namespace PushMachine.Instruction

open Script

/-- Pushes a string, or gives up if it is longer than `collectionSizeCap`. -/
def pushTextWithin (caps : SizeCaps) (text : List Char) : Script Unit :=
  if caps.collectionSizeCap < text.length then revert else push .str (.str (String.ofList text))

/-- Pushes a vector of strings, or gives up if it is longer than `collectionSizeCap`. -/
def pushTextsWithin (caps : SizeCaps) (texts : List (List Char)) : Script Unit :=
  if caps.collectionSizeCap < texts.length then revert
  else push .vectorStr (.strs (texts.map String.ofList))

/-- Takes the characters of a string. -/
def popText : Script (List Char) := do
  return (← popStr).toList

/-! ## Searching -/

/-- What a pattern is taken from. -/
inductive Needle where
  /-- A string. -/
  | str
  /-- A character. -/
  | char

namespace Needle

/-- The name of the pattern's stack. -/
def name : Needle → String
  | .str => "str"
  | .char => "char"

/-- The pattern's stack. -/
def stack : Needle → StackId
  | .str => .str
  | .char => .char

/-- Takes a pattern. -/
def pop : Needle → Script (List Char)
  | .str => popText
  | .char => do return [← popChar]

end Needle

/-- Which matches are replaced. -/
inductive Choice where
  /-- The first one. -/
  | first
  /-- The one whose number an integer gives, running around (`cyclicPlace?`). -/
  | nth
  /-- Every one. -/
  | all

namespace Choice

/-- The name of the choice. -/
def name : Choice → String
  | .first => "first"
  | .nth => "n"
  | .all => "all"

/-- The stacks that the choice reads: `.int` for a number. -/
def inputs : Choice → List StackId
  | .nth => [.int]
  | _ => []

/-- Takes the number of the match, where the choice needs one, and is `0` where not. -/
def popNumber : Choice → Script Int64
  | .nth => popInt
  | _ => return 0

end Choice

/-- Replaces matches of a pattern by `Text.replaceAt` or `Text.replaceAll`; `none` for the empty
pattern. -/
def replaceMatches? (choice : Choice) (n : Int64) (pattern replacement text : List Char) :
    Option (List Char) :=
  if pattern = [] then none
  else
    match choice with
    | .first => some (Text.replaceAt pattern replacement 0 text)
    | .all => some (Text.replaceAll pattern replacement text)
    | .nth =>
      match cyclicPlace? n (Text.occurrences pattern text) with
      | some gap => some (Text.replaceAt pattern replacement gap text)
      | none => some text

/-- Replaces matches of a pattern by `replaceMatches?`. -/
def replaceText (pattern : Needle) (choice : Choice) (caps : SizeCaps) : Script Unit := do
  let n ← choice.popNumber
  let new ← pattern.pop
  let old ← pattern.pop
  let text ← popText
  pushTextWithin caps (← ofOption (replaceMatches? choice n old new text))

/-- Removes matches of a pattern: `replaceMatches?` with the empty text. -/
def removeText (pattern : Needle) (choice : Choice) (caps : SizeCaps) : Script Unit := do
  let n ← choice.popNumber
  let old ← pattern.pop
  let text ← popText
  pushTextWithin caps (← ofOption (replaceMatches? choice n old [] text))

/-- Counts the matches of a pattern by `Text.occurrences`. -/
def countMatches (pattern : Needle) : Script Unit := do
  let sought ← pattern.pop
  let text ← popText
  pushNat (Text.occurrences sought text)

/-- Whether a pattern matches, by `Text.contains`. -/
def testMatch (pattern : Needle) : Script Unit := do
  let sought ← pattern.pop
  let text ← popText
  pushBool (Text.contains sought text)

/-- Pushes a position, or `-1` if there is none. -/
def pushPosition : Option Nat → Script Unit
  | some place => pushNat place
  | none => pushInt (-1)

/-- The position of the first match, by `Text.indexOf?`. -/
def findMatch (pattern : Needle) : Script Unit := do
  let sought ← pattern.pop
  let text ← popText
  pushPosition (Text.indexOf? sought text)

/-- Cuts a string at the matches of a pattern and keeps the pieces that are not empty
(`Text.split`). -/
def splitText (pattern : Needle) (caps : SizeCaps) : Script Unit := do
  let separator ← pattern.pop
  let text ← popText
  if separator = [] then revert else pushTextsWithin caps (Text.split separator text)

/-- Cuts a string into words (`Text.words`). -/
def splitWords (caps : SizeCaps) : Script Unit := do
  let text ← popText
  pushTextsWithin caps (Text.words text)

/-- The instructions `"str_replace_…"` and `"str_remove_…"` for one choice of matches. -/
def replacing (pattern : Needle) (choice : Choice) : List Instruction :=
  [{ name := "str_replace_" ++ choice.name ++ "_" ++ pattern.name
     inputs := [.str, pattern.stack, pattern.stack] ++ choice.inputs, outputs := [.str]
     body := replaceText pattern choice },
   { name := "str_remove_" ++ choice.name ++ "_" ++ pattern.name
     inputs := [.str, pattern.stack] ++ choice.inputs, outputs := [.str]
     body := removeText pattern choice }]

/-- The instructions that search for one kind of pattern, those of `replacing` first. -/
def searching (pattern : Needle) : List Instruction :=
  replacing pattern .first ++ replacing pattern .nth ++ replacing pattern .all ++
  [{ name := "str_occurrences_of_" ++ pattern.name, inputs := [.str, pattern.stack]
     outputs := [.int], body := fun _ => countMatches pattern },
   { name := "str_contains_" ++ pattern.name, inputs := [.str, pattern.stack], outputs := [.bool]
     body := fun _ => testMatch pattern },
   { name := "str_index_of_" ++ pattern.name, inputs := [.str, pattern.stack], outputs := [.int]
     body := fun _ => findMatch pattern },
   { name := "str_split_on_" ++ pattern.name, inputs := [.str, pattern.stack]
     outputs := [.vectorStr], body := splitText pattern }]

/-! ## Parts of strings -/

/-- Joins two strings. -/
def concatText (caps : SizeCaps) : Script Unit := do
  let b ← popText
  let a ← popText
  pushTextWithin caps (a ++ b)

/-- Inserts a string into another at the position that is `nearestPlace` to an integer. -/
def insertText (caps : SizeCaps) : Script Unit := do
  let n ← popInt
  let inserted ← popText
  let text ← popText
  let place := nearestPlace n text.length
  pushTextWithin caps (text.take place ++ inserted ++ text.drop place)

/-- Inserts a character into a string at the position that is `nearestPlace` to an integer. -/
def insertChar (caps : SizeCaps) : Script Unit := do
  let n ← popInt
  let c ← popChar
  let text ← popText
  let place := nearestPlace n text.length
  pushTextWithin caps (text.take place ++ c :: text.drop place)

/-- The character of a string that `f` picks: the first or the last. -/
def pickChar (f : List Char → Option Char) : Script Unit := do
  let text ← popText
  push .char (.char (← ofOption (f text)))

/-- The character at a position, running around (`cyclicPlace?`). -/
def nthChar : Script Unit := do
  let n ← popInt
  let text ← popText
  let place ← ofOption (cyclicPlace? n text.length)
  push .char (.char (← ofOption text[place]?))

/-- The number of characters. -/
def textLength : Script Unit := do
  let text ← popText
  pushNat text.length

/-- Replaces a string by what `f` makes of its characters. -/
def changeText (f : List Char → List Char) (caps : SizeCaps) : Script Unit := do
  let text ← popText
  pushTextWithin caps (f text)

/-- Replaces a string by what `f` makes of an integer and its characters; a negative integer counts
as zero. -/
def changeTextBy (f : Nat → List Char → List Char) (caps : SizeCaps) : Script Unit := do
  let n ← popInt
  let text ← popText
  pushTextWithin caps (f n.toInt.toNat text)

/-- Whether a character has the property `f`. -/
def testChar (f : Char → Bool) : Script Unit := do
  let c ← popChar
  pushBool (f c)

/-- An instruction that changes a string (`changeText`). -/
def strChange (verb : String) (f : List Char → List Char) : Instruction :=
  { name := "str_" ++ verb, inputs := [.str], outputs := [.str], body := changeText f }

/-- An instruction that changes a string by an integer (`changeTextBy`). -/
def strChangeBy (verb : String) (f : Nat → List Char → List Char) : Instruction :=
  { name := "str_" ++ verb, inputs := [.str, .int], outputs := [.str], body := changeTextBy f }

/-- An instruction that tests a character (`testChar`). -/
def charTest (verb : String) (f : Char → Bool) : Instruction :=
  { name := "char_" ++ verb, inputs := [.char], outputs := [.bool], body := fun _ => testChar f }

/-! ## Conversions -/

/-- The text of an integer, by `displayInt`. -/
def strFromInt (caps : SizeCaps) : Script Unit := do
  pushTextWithin caps (displayInt (← popInt)).toList

/-- The text of a truth value. -/
def strFromBool (caps : SizeCaps) : Script Unit := do
  pushTextWithin caps (displayBool (← popBool)).toList

/-- A character as a string. -/
def strFromChar (caps : SizeCaps) : Script Unit := do
  pushTextWithin caps [← popChar]

/-- The text of a double, by `displayFloat`. -/
def strFromFloat (caps : SizeCaps) : Script Unit := do
  pushTextWithin caps (displayFloat (← popFloat)).toList

/-- The ASCII character of `n` modulo `128`. -/
def charOfCode (n : Int64) : Char := Char.ofNat (n.toInt % 128).toNat

/-- The ASCII character of an integer. -/
def charFromInt : Script Unit := do
  push .char (.char (charOfCode (← popInt)))

/-- The ASCII character of the integer part of a double, by `truncateToInt`. -/
def charFromFloat : Script Unit := do
  push .char (.char (charOfCode (truncateToInt (← popFloat))))

/-- The letter of a truth value, `'T'` or `'F'`. -/
def charFromBool : Script Unit := do
  let b ← popBool
  push .char (.char (if b then 'T' else 'F'))

/-- The code point of a character. -/
def intFromChar : Script Unit := do
  pushInt (Int64.ofNat (← popChar).toNat)

/-- The integer that a string writes, read by `Decimal.readInt128?` and clamped. -/
def intFromStr : Script Unit := do
  let n ← ofOption (Decimal.readInt128? (Text.trim (← popText)))
  pushInt (clampInt n)

/-- The code point of a character as a double. -/
def floatFromChar : Script Unit := do
  push .float (.float (Float.ofNat (← popChar).toNat))

/-- The double that a string writes, read by `Decimal.readFloat?` and clamped. -/
def floatFromStr : Script Unit := do
  let x ← ofOption ((Decimal.readFloat? (Text.trim (← popText))).bind clampFloat?)
  push .float (.float x)

/-- **The instructions on strings and characters**. -/
def strings : List Instruction :=
  [{ name := "str_concat", inputs := [.str, .str], outputs := [.str], body := concatText },
   { name := "str_insert_str", inputs := [.str, .str, .int], outputs := [.str]
     body := insertText },
   { name := "str_insert_char", inputs := [.str, .char, .int], outputs := [.str]
     body := insertChar },
   { name := "str_first_char", inputs := [.str], outputs := [.char]
     body := fun _ => pickChar List.head? },
   { name := "str_last_char", inputs := [.str], outputs := [.char]
     body := fun _ => pickChar List.getLast? },
   { name := "str_nth_char", inputs := [.str, .int], outputs := [.char], body := fun _ => nthChar },
   { name := "str_length", inputs := [.str], outputs := [.int], body := fun _ => textLength },
   strChange "reverse" List.reverse,
   strChange "rest" (List.drop 1),
   strChange "but_last" List.dropLast,
   strChange "strip_whitespace" Text.trim,
   strChangeBy "drop" List.drop,
   strChangeBy "take" List.take,
   charTest "is_digit" fun c => (Decimal.digit? c).isSome,
   charTest "is_letter" Text.isLetter,
   charTest "is_whitespace" Text.isBlank] ++
  searching .str ++ searching .char ++
  [{ name := "str_split_on_space", inputs := [.str], outputs := [.vectorStr], body := splitWords },
   { name := "str_from_int", inputs := [.int], outputs := [.str], body := strFromInt },
   { name := "str_from_bool", inputs := [.bool], outputs := [.str], body := strFromBool },
   { name := "str_from_char", inputs := [.char], outputs := [.str], body := strFromChar },
   { name := "str_from_float", inputs := [.float], outputs := [.str], body := strFromFloat },
   { name := "char_from_int", inputs := [.int], outputs := [.char], body := fun _ => charFromInt },
   { name := "char_from_float", inputs := [.float], outputs := [.char]
     body := fun _ => charFromFloat },
   { name := "char_from_bool", inputs := [.bool], outputs := [.char]
     body := fun _ => charFromBool },
   { name := "int_from_char", inputs := [.char], outputs := [.int], body := fun _ => intFromChar },
   { name := "int_from_str", inputs := [.str], outputs := [.int], body := fun _ => intFromStr },
   { name := "float_from_char", inputs := [.char], outputs := [.float]
     body := fun _ => floatFromChar },
   { name := "float_from_str", inputs := [.str], outputs := [.float]
     body := fun _ => floatFromStr }]

end PushMachine.Instruction
