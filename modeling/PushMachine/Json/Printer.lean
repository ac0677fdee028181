import PushMachine.Decimal.Layout
import PushMachine.Json.Basic

/-! # JSON text of a tree

The compact text of a JSON tree: no blanks, fields in their order, and only those characters
escaped that JSON does not allow in a string.

The printer stands for one that the machine is given from outside. No theorem rests on its details:
what is proved about stored code is about the trees of `Storage.writeProgram` and
`Storage.writeGenome`, before they are printed. -/

namespace PushMachine.Json

/-- **Doubles in JSON text**: positional from `10^-5` up to `10^16`, an exponent with its sign
outside, and an exact tie goes to the even digit. -/
def realLayout : Decimal.Layout :=
  { least := -5, limit := 16, plusSign := true, tie := .toEven, nan := "null", infinity := "null" }

/-- One character inside a JSON string. Controls without a short escape are written as `\u00xx`. -/
def escape (c : Char) : List Char :=
  if c = '"' then ['\\', '"']
  else if c = '\\' then ['\\', '\\']
  else if c = '\x08' then ['\\', 'b']
  else if c = '\x0c' then ['\\', 'f']
  else if c = '\n' then ['\\', 'n']
  else if c = '\r' then ['\\', 'r']
  else if c = '\t' then ['\\', 't']
  else if c.toNat < 0x20 then
    '\\' :: 'u' :: '0' :: '0' :: Nat.digitChar (c.toNat / 16) :: [Nat.digitChar (c.toNat % 16)]
  else [c]

/-- A string in quotes, with every character as by `escape`. -/
def renderString (s : String) : String :=
  String.ofList ('"' :: s.toList.flatMap escape ++ ['"'])

/-- The text of a number; a double is laid out by `realLayout`. -/
def renderNumber : JsonNumber → String
  | .natural n => toString n.toNat
  | .negative n => toString n.toInt
  | .real x => realLayout.render x

mutual

/-- **The compact text** of a tree. -/
def render : Json → String
  | null => "null"
  | bool b => if b then "true" else "false"
  | number n => renderNumber n
  | string s => renderString s
  | array items => "[" ++ renderItems items ++ "]"
  | object fields => "\x7b" ++ renderFields fields ++ "\x7d"

/-- The items of an array, divided by commas. -/
def renderItems : List Json → String
  | [] => ""
  | [item] => render item
  | item :: rest => render item ++ "," ++ renderItems rest

/-- The fields of an object, divided by commas. -/
def renderFields : List (String × Json) → String
  | [] => ""
  | [(key, value)] => renderString key ++ ":" ++ render value
  | (key, value) :: rest =>
    renderString key ++ ":" ++ render value ++ "," ++ renderFields rest

end

end PushMachine.Json
