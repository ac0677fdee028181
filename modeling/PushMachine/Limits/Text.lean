import PushMachine.Limits
import PushMachine.Json.Printer
import PushMachine.Json.Reader

/-! # Limits and signatures as text

The JSON form of limits and signatures. A record is an object with any of its fields, or an array of
field values in order; what is left out keeps its default. Fields of other names are skipped, and a
field that is given twice is refused. -/

namespace PushMachine

open Json (Written)

/-- A field of a record: its name, and how its value is read into a record. -/
structure RecordField (α : Type) where
  /-- The name. -/
  name : String
  /-- Reads the value into the record. -/
  read? : Written → α → Option α

namespace RecordField

variable {α : Type}

/-- Reads field values in the order of the `fields`. Fewer values are fine, more are not. -/
def readItems? : List (RecordField α) → List Written → α → Option α
  | _, [], target => some target
  | [], _ :: _, _ => none
  | field :: fields, item :: items, target => do
    readItems? fields items (← field.read? item target)

/-- Reads one named value by the field of the name `key`; the names of other fields are skipped. -/
def readNamed? (fields : List (RecordField α)) (key : String) (value : Written) (target : α) :
    Option α :=
  match fields.find? fun field => field.name == key with
  | some field => field.read? value target
  | none => some target

/-- Reads named values one after another by `readNamed?`. A key that is not text is refused. -/
def readFields? (fields : List (RecordField α)) :
    List (Option String × Written) → α → Option α
  | [], target => some target
  | (key, value) :: rest, target => do
    readFields? fields rest (← readNamed? fields (← key) value target)

/-- The keys among some `written` ones that are names of the record's own `fields`. -/
def ownKeys (fields : List (RecordField α)) (written : List (Option String × Written)) :
    List String :=
  (written.filterMap Prod.fst).filter fun key => fields.any fun field => field.name == key

/-- **Reads a record** into a `target` that holds the defaults. Of an object, none of the `ownKeys`
may come twice. -/
def readRecord? (fields : List (RecordField α)) (target : α) : Written → Option α
  | .object written =>
    if (ownKeys fields written).Nodup then readFields? fields written target else none
  | .array items => readItems? fields items target
  | _ => none

/-- A field that holds a natural number, stored by `set`. -/
def natural (name : String) (set : Nat → α → α) : RecordField α :=
  { name := name
    read? := fun value target =>
      match value with
      | .number (some (.natural n)) => some (set n.toNat target)
      | _ => none }

end RecordField

/-- The strings of an array of strings. -/
def readStrings? : Written → Option (List String)
  | .array items => items.mapM fun
    | .string s => s
    | _ => none
  | _ => none

namespace Limits

/-- The fields of a run's limits. -/
def fields : List (RecordField Limits) :=
  [.natural "step_limit" fun n limits => { limits with stepLimit := n },
   .natural "runtime_limit_ms" fun n limits => { limits with runtimeLimitMs := n },
   .natural "growth_cap" fun n limits => { limits with growthCap := n },
   .natural "collection_size_cap" fun n limits => { limits with collectionSizeCap := n },
   .natural "max_points" fun n limits => { limits with maxPoints := n }]

/-- Reads limits off a written tree, by their `fields` and with the defaults of `Limits`. -/
def ofWritten? (written : Written) : Option Limits := RecordField.readRecord? fields {} written

/-- **Reads limits** from text, by `Json.Written.ofText?`. -/
def parse? (text : String) : Option Limits := do
  ofWritten? (← Written.ofText? text)

/-- The tree form of limits. -/
def toJson (limits : Limits) : Json :=
  .object [("step_limit", .ofNat limits.stepLimit),
    ("runtime_limit_ms", .ofNat limits.runtimeLimitMs),
    ("growth_cap", .ofNat limits.growthCap),
    ("collection_size_cap", .ofNat limits.collectionSizeCap),
    ("max_points", .ofNat limits.maxPoints)]

end Limits

namespace Signature

/-- The fields of a signature. -/
def fields : List (RecordField Signature) :=
  [.natural "arity" fun n signature => { signature with arity := n },
   { name := "output_stacks"
     read? := fun value signature => do
       return { signature with outputStacks := ← readStrings? value } },
   { name := "push_config"
     read? := fun value signature => do
       return { signature with limits := ← Limits.ofWritten? value } }]

/-- **Reads a signature** from text. -/
def parse? (text : String) : Option Signature := do
  RecordField.readRecord? fields {} (← Written.ofText? text)

/-- The tree form of a signature. -/
def toJson (signature : Signature) : Json :=
  .object [("arity", .ofNat signature.arity),
    ("output_stacks", .array (signature.outputStacks.map .string)),
    ("push_config", signature.limits.toJson)]

end Signature

end PushMachine
