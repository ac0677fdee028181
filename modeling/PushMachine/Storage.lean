import PushMachine.Genome
import PushMachine.Json.Printer
import PushMachine.Json.Reader
import PushMachine.Machine

/-! # Stored programs and genomes

The JSON form of code. Every atom is an object with a tag under `a`, and a nested block is a nested
array. A literal gives the name of its type and its value, and is read back through the type: the
value is taken as it is if the type accepts it, and is coerced otherwise. An instruction gives its
name only; the number of groups it opens comes from the instruction set. -/

namespace PushMachine

/-- Why code cannot be stored or read. -/
inductive StorageError where
  /-- The text is not JSON (`Json.parse?`). -/
  | json
  /-- An atom has a tag that does not exist. -/
  | unknownAtomTag (tag : String)
  /-- A field is missing or is not of the right form. -/
  | missingField (field : String)
  /-- A value does not fit the type of its literal (`Storage.fit?`). -/
  | badValue (type : String) (value : Json)
  /-- A literal is of a type that is not registered. -/
  | unknownType (name : String)
  /-- A program has a closer. -/
  | closerInProgram
  /-- A genome has a nested block. -/
  | blockInGenome

/-- The text of a failure. -/
def StorageError.message : StorageError → String
  | .json => "invalid json"
  | .unknownAtomTag tag => "unknown atom tag: " ++ tag
  | .missingField field => "missing or malformed field: " ++ field
  | .badValue type value => "value " ++ value.render ++ " is not a valid " ++ type
  | .unknownType name => "unknown type: " ++ name
  | .closerInProgram => "closer atom in a program"
  | .blockInGenome => "nested block in a genome"

namespace Storage

/-! ## Writing -/

mutual

/-- The tree of a value. Code is written as by `writeAtom`, and user-defined data as it is. -/
def writeValue (registry : Registry) : Value → Except StorageError Json
  | .bool b => .ok (.bool b)
  | .int n => .ok (.ofInt64 n)
  | .float x => .ok (.ofFloat x)
  | .char c => .ok (.string c.toString)
  | .str s => .ok (.string s)
  | .bools items => .ok (.array (items.map .bool))
  | .ints items => .ok (.array (items.map .ofInt64))
  | .floats items => .ok (.array (items.map .ofFloat))
  | .chars items => .ok (.array (items.map fun c => .string c.toString))
  | .strs items => .ok (.array (items.map .string))
  | .code atom => writeAtom registry atom
  | .custom _ data => .ok data

/-- The tree of an atom. -/
def writeAtom (registry : Registry) : Atom → Except StorageError Json
  | .closer => .ok (.object [("a", .string "close")])
  | .expr e => writeExpr registry e

/-- The tree of an expression. A literal is written with the name that `registry.nameAt?` gives its
stack, which has to be there. -/
def writeExpr (registry : Registry) : Expr → Except StorageError Json
  | .literal value on =>
    match registry.nameAt? on with
    | none => .error (.unknownType ("#" ++ toString on.index))
    | some name => do
      let stored ← writeValue registry value
      return .object [("a", .string "lit"), ("t", .string name), ("v", stored)]
  | .input index => .ok (.object [("a", .string "input"), ("i", .ofNat index)])
  | .instr name _ => .ok (.object [("a", .string "instr"), ("n", .string name)])
  | .deferred name => .ok (.object [("a", .string "jit-instr"), ("n", .string name)])
  | .block body => do
    let items ← writeItems registry body
    return .array items

/-- The trees of the parts of a block, by `writeExpr`. -/
def writeItems (registry : Registry) : List Expr → Except StorageError (List Json)
  | [] => .ok []
  | e :: rest => do
    let item ← writeExpr registry e
    let items ← writeItems registry rest
    return item :: items

end

/-- **The tree of a program**: an array of the trees of its parts (`writeItems`). -/
def writeProgram (registry : Registry) (code : Block) : Except StorageError Json := do
  return .array (← writeItems registry code)

/-- The tree of a gene: that of its atom, with the fields `silent` and `close` for what differs from
the defaults. -/
def writeGene (registry : Registry) (gene : Gene) : Except StorageError Json := do
  match ← writeAtom registry gene.atom with
  | .object fields =>
    let fields := if gene.silent then Json.insertField "silent" (.bool true) fields else fields
    let fields :=
      if 0 < gene.closes then Json.insertField "close" (.ofNat gene.closes.toNat) fields else fields
    return .object fields
  | _ => .error .blockInGenome

/-- **The tree of a genome**: an array of the trees of its genes (`writeGene`). -/
def writeGenome (registry : Registry) (genome : Genome) : Except StorageError Json := do
  return .array (← genome.mapM (writeGene registry))

/-! ## Reading -/

/-- The value of the field `name`, which has to be a string. -/
def stringField (name : String) (fields : List (String × Json)) : Except StorageError String :=
  match (Json.field? name fields).bind Json.toString? with
  | some s => .ok s
  | none => .error (.missingField name)

/-- The value that a tree is for a type without items. A number is an integer if `toInt64?` has one,
and a double otherwise. -/
def singleValue? : Json → Option Value
  | .bool b => some (.bool b)
  | .number n => some (match n.toInt64? with
    | some i => .int i
    | none => .float n.toFloat)
  | .string s => some (.str s)
  | _ => none

/-- The items of an array, each read by `read?`. -/
def itemsWith? {α : Type} (json : Json) (read? : Json → Option α) : Option (List α) := do
  (← json.toItems?).mapM read?

/-- The value that a tree is for a stack other than those for code, before the type looks at it. -/
def plainValue? (id : StackId) (type : String) (json : Json) : Option Value :=
  if id = .vectorBool then (itemsWith? json Json.toBool?).map .bools
  else if id = .vectorInt then (itemsWith? json Json.toInt64?).map .ints
  else if id = .vectorFloat then (itemsWith? json Json.toFloat?).map .floats
  else if id = .vectorChar then (itemsWith? json Json.toChar?).map .chars
  else if id = .vectorStr then (itemsWith? json Json.toString?).map .strs
  else if id.index < StackId.coreSize then singleValue? json
  else some (.custom type json)

/-- Fits a value to a type: it is taken as it is if `type.accepts` it, and coerced otherwise. -/
def fit? (type : StackType) (value : Value) : Option Value :=
  if type.accepts value then some value else type.coerce value

/-- The literal of a value for a stack, or the complaint `.badValue` that the tree it was read from
is no value of the type. -/
def fitLiteral (name : String) (id : StackId) (type : StackType) (json : Json)
    (value : Option Value) : Except StorageError Expr :=
  match value.bind (fit? type) with
  | some value => .ok (.literal value id)
  | none => .error (.badValue name json)

/-- The part of a program that an atom is: `.closer` is none. -/
def requireExpr : Atom → Except StorageError Expr
  | .closer => .error .closerInProgram
  | .expr e => .ok e

mutual

/-- Reads an atom by the tag in its field `a`. -/
def readAtom (library : Library) : Json → Except StorageError Atom
  | .object fields => do
    let tag ← stringField "a" fields
    if tag = "lit" then
      let name ← stringField "t" fields
      readLiteral library name fields
    else if tag = "input" then
      match (Json.field? "i" fields).bind Json.toUInt64? with
      | some index => return .expr (.input index.toNat)
      | none => .error (.missingField "i")
    else if tag = "instr" then
      return .expr (library.instructions.toExpr (← stringField "n" fields))
    else if tag = "jit-instr" then
      return .expr (.deferred (← stringField "n" fields))
    else if tag = "close" then return .closer
    else .error (.unknownAtomTag tag)
  | _ => .error (.missingField "a")

/-- Reads the literal of a type from the field `v` among some fields. -/
def readLiteral (library : Library) (name : String) :
    List (String × Json) → Except StorageError Atom
  | [] => .error (.missingField "v")
  | (key, value) :: rest =>
    if key = "v" then literalOf library name value else readLiteral library name rest

/-- Reads the literal of a type from the tree of its value: by `readCode` for a stack for code, and
by `plainValue?` for any other. Both go through `fitLiteral`. -/
def literalOf (library : Library) (name : String) (value : Json) : Except StorageError Atom :=
  match library.registry.find? name with
  | none => .error (.unknownType name)
  | some id =>
    match library.registry.get? id with
    | none => .error (.badValue name value)
    | some type =>
      if id = .exec ∨ id = .code then do
        let atom ← readCode library value
        return .expr (← fitLiteral name id type value (some (.code atom)))
      else do
        return .expr (← fitLiteral name id type value (plainValue? id type.name value))

/-- Reads code: an array is a block, and anything else an atom. -/
def readCode (library : Library) : Json → Except StorageError Atom
  | .array items => do
    let body ← readItems library items
    return .expr (.block body)
  | json => readAtom library json

/-- Reads the parts of a block by `readCode`, none of which may be a closer. -/
def readItems (library : Library) : List Json → Except StorageError Block
  | [] => .ok []
  | item :: rest => do
    let atom ← readCode library item
    let e ← requireExpr atom
    let body ← readItems library rest
    return e :: body

end

/-- **Reads a program** from its tree, by `readItems`. -/
def readProgram (library : Library) : Json → Except StorageError Block
  | .array items => readItems library items
  | _ => .error (.missingField "program")

/-- The number of closes of a gene in the field `close`, which is below `256`. -/
def readCloses (fields : List (String × Json)) : Except StorageError UInt8 :=
  match Json.field? "close" fields with
  | none => .ok 0
  | some json =>
    match json.toUInt64? with
    | some n => if n.toNat < 256 then .ok n.toUInt8 else .error (.missingField "close")
    | none => .error (.missingField "close")

/-- Reads a gene: its atom by `readAtom`, and its marks. -/
def readGene (library : Library) (json : Json) : Except StorageError Gene :=
  match json with
  | .object fields => do
    let atom ← readAtom library json
    let closes ← readCloses fields
    return {
      atom := atom
      silent := ((Json.field? "silent" fields).bind Json.toBool?).getD false
      closes := closes }
  | _ => .error .blockInGenome

/-- **Reads a genome** from its tree, by `readGene`. -/
def readGenome (library : Library) : Json → Except StorageError Genome
  | .array items => items.mapM (readGene library)
  | _ => .error (.missingField "genome")

/-! ## Text -/

/-- The tree of a text, by `Json.parse?`. -/
def parseText (text : String) : Except StorageError Json :=
  match Json.parse? text with
  | some json => .ok json
  | none => .error .json

/-- Stores a program as the text of `writeProgram`. -/
def programToText (registry : Registry) (code : Block) : Except StorageError String := do
  return (← writeProgram registry code).render

/-- Reads a program from text, by `readProgram`. -/
def programOfText (library : Library) (text : String) : Except StorageError Block := do
  readProgram library (← parseText text)

/-- Stores a genome as the text of `writeGenome`. -/
def genomeToText (registry : Registry) (genome : Genome) : Except StorageError String := do
  return (← writeGenome registry genome).render

/-- Reads a genome from text, by `readGenome`. -/
def genomeOfText (library : Library) (text : String) : Except StorageError Genome := do
  readGenome library (← parseText text)

end Storage

end PushMachine
