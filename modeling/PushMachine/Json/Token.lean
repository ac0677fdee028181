import PushMachine.Decimal.Reader
import PushMachine.Json.Basic

/-! # JSON tokens

The words of a JSON text. A number or a string that is well written but names no double, or no
sequence of characters, is kept as a token without a value: whoever reads its value refuses it,
and whoever skips it does not care. -/

namespace PushMachine.Json

/-- A word of a JSON text. -/
inductive Token where
  /-- An opening brace. -/
  | openBrace
  /-- A closing brace. -/
  | closeBrace
  /-- An opening bracket. -/
  | openBracket
  /-- A closing bracket. -/
  | closeBracket
  /-- A colon. -/
  | colon
  /-- A comma. -/
  | comma
  /-- The literal `null`. -/
  | null
  /-- A truth value. -/
  | bool (b : Bool)
  /-- A number, or `none` if no double is large enough for it. -/
  | number (n : Option JsonNumber)
  /-- A string, or `none` if its escapes form no characters. -/
  | string (s : Option String)

/-! ## Numbers -/

/-- The largest unsigned word, `2^64 - 1`. -/
def wordMax : Nat := 18446744073709551615

/-- The magnitude of the least signed word, `2^63`. -/
def negativeMax : Nat := 9223372036854775808

/-- Takes whole digits into a word as long as it is at most `wordMax`; once a digit no longer fits,
it and the digits after it are only counted. -/
def takeWhole (word : Nat) : List Nat → Nat × Nat
  | [] => (word, 0)
  | d :: rest =>
    if word * 10 + d ≤ wordMax then takeWhole (word * 10 + d) rest else (word, (d :: rest).length)

/-- Takes digits behind the point into a word as long as it is at most `wordMax`, counting those
that fit; the rest is dropped. -/
def takeFraction (word count : Nat) : List Nat → Nat × Nat
  | [] => (word, count)
  | d :: rest =>
    if word * 10 + d ≤ wordMax then takeFraction (word * 10 + d) (count + 1) rest
    else (word, count)

/-- Multiplies or divides `x` by a power of ten, in steps that a double can hold. The result is
`none` if it is too large for a double. -/
def scaleByTen (x : Float) (exponent : Int) : Option Float :=
  if exponent.natAbs ≤ 308 then
    let power := Float.ofScientific 1 false exponent.natAbs
    if 0 ≤ exponent then
      let y := x * power
      if y.isInf then none else some y
    else some (x / power)
  else if x == 0.0 then some x
  else if 0 ≤ exponent then none
  else scaleByTen (x / 1e308) (exponent + 308)
termination_by exponent.natAbs

/-- The digits (`Decimal.digit?`) at the front of a text, and the rest. -/
def spanDigits (text : List Char) : List Nat × List Char :=
  ((text.takeWhile (Decimal.digit? · |>.isSome)).filterMap Decimal.digit?,
    text.dropWhile (Decimal.digit? · |>.isSome))

/-- The double of the digits of a number read so far, `word * 10 ^ exponent` with its sign. -/
def realValue (negative : Bool) (word : Nat) (exponent : Int) : Option JsonNumber :=
  (scaleByTen (UInt64.ofNat word).toFloat exponent).map fun x =>
    .real (if negative then -x else x)

/-- The value of an integer. A negative zero, and an integer that has `dropped` digits or is outside
the signed or unsigned words, is a double. -/
def wholeValue (negative : Bool) (word dropped : Nat) : Option JsonNumber :=
  if dropped ≠ 0 then realValue negative word dropped
  else if !negative then some (.natural (UInt64.ofNat word))
  else if word = 0 ∨ negativeMax < word then some (.real (-(UInt64.ofNat word).toFloat))
  else some (.negative (Int64.ofInt (-word)))

/-- The exponent part: the mark has been read, a sign may follow, and there is at least one
digit. -/
def readPower? (text : List Char) : Option Int :=
  let (negative, rest) := Decimal.takeSign text
  match spanDigits rest with
  | ([], _) => none
  | (digits, []) =>
    let size : Nat := digits.foldl (fun n d => n * 10 + d) 0
    some (if negative then -(size : Int) else size)
  | _ => none

/-- Reads what follows the point, or the whole digits, of a number: nothing, or an exponent
(`readPower?`). -/
def readTail? (negative : Bool) (word : Nat) (exponent : Int) :
    List Char → Option (Option JsonNumber)
  | [] => some (realValue negative word exponent)
  | c :: rest =>
    if c = 'e' ∨ c = 'E' then
      (readPower? rest).map fun power => realValue negative word (exponent + power)
    else none

/-- Reads the whole digits of a number and what follows them. The first digit of several is not
zero. -/
def readUnsigned? (negative : Bool) (text : List Char) : Option (Option JsonNumber) :=
  match spanDigits text with
  | ([], _) => none
  | (0 :: _ :: _, _) => none
  | (digits, rest) =>
    let (word, dropped) := takeWhole 0 digits
    match rest with
    | [] => some (wholeValue negative word dropped)
    | '.' :: rest =>
      match spanDigits rest with
      | ([], _) => none
      | (fraction, rest) =>
        let (word, count) := takeFraction word 0 fraction
        readTail? negative word ((dropped : Int) - count) rest
    | rest => readTail? negative word dropped rest

/-- Reads a whole text as a number: `none` if it is not one, and `some none` if it is out of range.
-/
def readNumber? : List Char → Option (Option JsonNumber)
  | '-' :: rest => readUnsigned? true rest
  | text => readUnsigned? false text

/-- Whether a character can stand in a number. -/
def isNumeric (c : Char) : Bool :=
  (Decimal.digit? c).isSome || c = '-' || c = '+' || c = '.' || c = 'e' || c = 'E'

/-! ## Strings -/

/-- One element of a string: a character, or a half of a surrogate pair. -/
inductive Unit16 where
  /-- A character. -/
  | char (c : Char)
  /-- A code from `D800` to `DFFF`, which is no character by itself. -/
  | surrogate (n : Nat)

/-- The value of a hexadecimal digit. -/
def hexDigit? (c : Char) : Option Nat :=
  if '0' ≤ c ∧ c ≤ '9' then some (c.toNat - '0'.toNat)
  else if 'a' ≤ c ∧ c ≤ 'f' then some (c.toNat - 'a'.toNat + 10)
  else if 'A' ≤ c ∧ c ≤ 'F' then some (c.toNat - 'A'.toNat + 10)
  else none

/-- The element that four hexadecimal digits (`hexDigit?`) stand for. -/
def hexUnit? (a b c d : Char) : Option Unit16 := do
  let n := (← hexDigit? a) * 4096 + (← hexDigit? b) * 256 + (← hexDigit? c) * 16 + (← hexDigit? d)
  return if 0xD800 ≤ n ∧ n ≤ 0xDFFF then .surrogate n else .char (Char.ofNat n)

/-- The character that a letter stands for behind a backslash, other than `u`. -/
def shortEscape? : Char → Option Char
  | '"' => some '"'
  | '\\' => some '\\'
  | '/' => some '/'
  | 'b' => some '\x08'
  | 'f' => some '\x0c'
  | 'n' => some '\n'
  | 'r' => some '\r'
  | 't' => some '\t'
  | _ => none

/-- Reads a string up to its closing quote; the elements come with the rest of the text. -/
def readUnits? : List Char → Option (List Unit16 × List Char)
  | [] => none
  | '"' :: rest => some ([], rest)
  | '\\' :: 'u' :: a :: b :: c :: d :: rest => do
    let unit ← hexUnit? a b c d
    let (units, rest) ← readUnits? rest
    return (unit :: units, rest)
  | '\\' :: c :: rest => do
    let c ← shortEscape? c
    let (units, rest) ← readUnits? rest
    return (.char c :: units, rest)
  | c :: rest =>
    if c.toNat < 0x20 ∨ c = '\\' then none
    else do
      let (units, rest) ← readUnits? rest
      return (.char c :: units, rest)

/-- The characters of a string; a half of a surrogate pair (`Unit16.surrogate`) that stands alone is
refused. -/
def joinUnits? : List Unit16 → Option (List Char)
  | [] => some []
  | .char c :: rest => (joinUnits? rest).map (c :: ·)
  | .surrogate high :: .surrogate low :: rest =>
    if high < 0xDC00 ∧ 0xDC00 ≤ low then
      let point := 0x10000 + (high - 0xD800) * 0x400 + (low - 0xDC00)
      (joinUnits? rest).map (Char.ofNat point :: ·)
    else none
  | .surrogate _ :: _ => none

/-- Reading a string by `readUnits?` uses up at least its closing quote. -/
theorem length_lt_of_readUnits? {text rest : List Char} {units : List Unit16}
    (h : readUnits? text = some (units, rest)) : rest.length < text.length := by
  fun_induction readUnits? text generalizing units rest with
  | case1 => simp at h
  | case2 rest => simp_all
  | case3 a b c d tail ih =>
    simp only [bind, Option.bind_eq_some_iff, pure, Option.some.injEq, Prod.mk.injEq] at h
    obtain ⟨unit, -, ⟨found, left⟩, hfound, -, rfl⟩ := h
    have := ih hfound
    simp only [List.length_cons] at this ⊢
    omega
  | case4 c tail _ ih =>
    simp only [bind, Option.bind_eq_some_iff, pure, Option.some.injEq, Prod.mk.injEq] at h
    obtain ⟨unit, -, ⟨found, left⟩, hfound, -, rfl⟩ := h
    have := ih hfound
    simp only [List.length_cons] at this ⊢
    omega
  | case5 => simp at h
  | case6 c tail _ _ _ _ ih =>
    simp only [bind, Option.bind_eq_some_iff, pure, Option.some.injEq, Prod.mk.injEq] at h
    obtain ⟨⟨found, left⟩, hfound, -, rfl⟩ := h
    have := ih hfound
    simp only [List.length_cons] at this ⊢
    omega

/-! ## The tokens of a text -/

/-- The token that a single character is. -/
def mark? : Char → Option Token
  | '\x7b' => some .openBrace
  | '\x7d' => some .closeBrace
  | '[' => some .openBracket
  | ']' => some .closeBracket
  | ':' => some .colon
  | ',' => some .comma
  | _ => none

/-- The token that a run of letters is: `null`, `true` or `false`. -/
def word? (letters : List Char) : Option Token :=
  if letters = "null".toList then some .null
  else if letters = "true".toList then some (.bool true)
  else if letters = "false".toList then some (.bool false)
  else none

/-- Whether a character is blank between tokens. -/
def isSpace (c : Char) : Bool := c = ' ' || c = '\n' || c = '\t' || c = '\r'

/-- **The tokens** of a text, or `none` if some part of it is no token. -/
def tokens? (text : List Char) : Option (List Token) :=
  match text with
  | [] => some []
  | c :: rest =>
    if isSpace c then tokens? rest
    else
      match mark? c with
      | some token => (tokens? rest).map (token :: ·)
      | none =>
        if c = '"' then
          match _h : readUnits? rest with
          | some (units, after) =>
            (tokens? after).map (.string ((joinUnits? units).map String.ofList) :: ·)
          | none => none
        else if (Decimal.digit? c).isSome ∨ c = '-' then
          match readNumber? (c :: rest.takeWhile isNumeric) with
          | some n => (tokens? (rest.dropWhile isNumeric)).map (.number n :: ·)
          | none => none
        else
          match word? (c :: rest.takeWhile Char.isAlpha) with
          | some token => (tokens? (rest.dropWhile Char.isAlpha)).map (token :: ·)
          | none => none
termination_by text.length
decreasing_by
  all_goals simp only [List.length_cons]
  · omega
  · omega
  · have := length_lt_of_readUnits? _h
    omega
  · have := (List.dropWhile_sublist isNumeric (l := rest)).length_le
    omega
  · have := (List.dropWhile_sublist Char.isAlpha (l := rest)).length_le
    omega

end PushMachine.Json
