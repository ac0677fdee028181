/-! # JSON trees

`Json` is the payload of user-defined values and the tree form of stored programs. A number keeps
the reading it came from (a natural word, a negative word, or a double), so `1` and `1.0` stay
different. An object is a list of fields; `Json.insertField` keeps it in order of the keys' code
points, with one entry per key. -/

namespace PushMachine

/-- A JSON number, by the way it is written. -/
inductive JsonNumber where
  /-- An integer from `0` to `2^64 - 1`. -/
  | natural (n : UInt64)
  /-- A negative integer down to `-2^63`. -/
  | negative (n : Int64)
  /-- Any other number. -/
  | real (x : Float)

namespace JsonNumber

/-- The number as a signed word; naturals past `2^63 - 1` and doubles are none. -/
def toInt64? : JsonNumber → Option Int64
  | natural n => if n ≤ 9223372036854775807 then some (Int64.ofNat n.toNat) else none
  | negative n => some n
  | real _ => none

/-- The number as an unsigned word; only a `natural` is one. -/
def toUInt64? : JsonNumber → Option UInt64
  | natural n => some n
  | negative _ => none
  | real _ => none

/-- The double nearest to the number. -/
def toFloat : JsonNumber → Float
  | natural n => n.toFloat
  | negative n => Float.ofInt n.toInt
  | real x => x

/-- The number that a signed word is written as. -/
def ofInt64 (n : Int64) : JsonNumber :=
  if 0 ≤ n.toInt then natural (UInt64.ofNat n.toInt.toNat) else negative n

/-- Equality of numbers of one kind; doubles compare by `==`, so a NaN differs from itself. -/
def beq : JsonNumber → JsonNumber → Bool
  | natural m, natural n => m == n
  | negative m, negative n => m == n
  | real x, real y => x == y
  | _, _ => false

instance : BEq JsonNumber := ⟨beq⟩

end JsonNumber

/-- A JSON tree. -/
inductive Json where
  /-- The literal `null`. -/
  | null
  /-- A truth value. -/
  | bool (b : Bool)
  /-- A number. -/
  | number (n : JsonNumber)
  /-- A string. -/
  | string (s : String)
  /-- An array. -/
  | array (items : List Json)
  /-- An object, as its fields. -/
  | object (fields : List (String × Json))

namespace Json

mutual

/-- Structural equality of trees. -/
def beq : Json → Json → Bool
  | null, null => true
  | bool a, bool b => a == b
  | number a, number b => a == b
  | string a, string b => a == b
  | array a, array b => beqItems a b
  | object a, object b => beqFields a b
  | _, _ => false

/-- Equality of arrays, item by item with `beq`. -/
def beqItems : List Json → List Json → Bool
  | [], [] => true
  | a :: as, b :: bs => beq a b && beqItems as bs
  | _, _ => false

/-- Equality of field lists, key and value with `beq`, field by field. -/
def beqFields : List (String × Json) → List (String × Json) → Bool
  | [], [] => true
  | (k, a) :: as, (l, b) :: bs => k == l && beq a b && beqFields as bs
  | _, _ => false

end

instance : BEq Json := ⟨beq⟩

/-- The JSON form of a signed word. -/
def ofInt64 (n : Int64) : Json := number (.ofInt64 n)

/-- The JSON form of a natural number below `2^64`. -/
def ofNat (n : Nat) : Json := number (.natural (UInt64.ofNat n))

/-- The JSON form of a double: a number if it is finite, else `null`. -/
def ofFloat (x : Float) : Json := if x.isFinite then number (.real x) else null

/-- The truth value a tree is, if it is one. -/
def toBool? : Json → Option Bool
  | bool b => some b
  | _ => none

/-- The string a tree is, if it is one. -/
def toString? : Json → Option String
  | string s => some s
  | _ => none

/-- The signed word a tree is, if it is one (`JsonNumber.toInt64?`). -/
def toInt64? : Json → Option Int64
  | number n => n.toInt64?
  | _ => none

/-- The unsigned word a tree is, if it is one (`JsonNumber.toUInt64?`). -/
def toUInt64? : Json → Option UInt64
  | number n => n.toUInt64?
  | _ => none

/-- The double nearest to the number a tree is, if it is one (`JsonNumber.toFloat`). -/
def toFloat? : Json → Option Float
  | number n => some n.toFloat
  | _ => none

/-- The single character of a one-character string. -/
def toChar? : Json → Option Char
  | string s =>
    match s.toList with
    | [c] => some c
    | _ => none
  | _ => none

/-- The items of an array. -/
def toItems? : Json → Option (List Json)
  | array items => some items
  | _ => none

/-- The fields of an object. -/
def toFields? : Json → Option (List (String × Json))
  | object fields => some fields
  | _ => none

/-- The value of the first field named `key`. -/
def field? (key : String) : List (String × Json) → Option Json
  | [] => none
  | (k, v) :: rest => if k = key then some v else field? key rest

@[simp] theorem field?_nil (key : String) : field? key [] = none := rfl

@[simp] theorem field?_cons (key k : String) (v : Json) (rest : List (String × Json)) :
    field? key ((k, v) :: rest) = if k = key then some v else field? key rest := rfl

/-- Puts a field into a list ordered by key, in place of the field named `key` if there is one. -/
def insertField (key : String) (value : Json) : List (String × Json) → List (String × Json)
  | [] => [(key, value)]
  | (k, v) :: rest =>
    if key < k then (key, value) :: (k, v) :: rest
    else if k = key then (key, value) :: rest
    else (k, v) :: insertField key value rest

/-- The fields ordered by key, put in by `insertField`; of fields with one name the last is kept. -/
def sortFields (fields : List (String × Json)) : List (String × Json) :=
  fields.foldl (fun done entry => insertField entry.1 entry.2 done) []

end Json

end PushMachine
