import PushMachine.Coercion

/-! # The type registry

Every stack belongs to a type, and the registry hands out the stack numbers. A number once given is
never given again: a type that is removed leaves an empty slot. Types other than the two for code
are meant to share no value, and a new type is refused if it accepts the witness of another type or
the other accepts its own. -/

namespace PushMachine

/-- A family of values that share a stack. -/
structure StackType where
  /-- The name of the type and of its stack. -/
  name : String
  /-- Whether a value belongs to the type. -/
  accepts : Value → Bool
  /-- Takes a value for one that the type `accepts`, where that makes sense. -/
  coerce : Value → Option Value
  /-- A value of the type, by which `Registry.overlap` finds overlaps with other types. -/
  witness : Value
  /-- The values have a number of items. -/
  isCollection : Bool := false
  /-- The values are numbers. -/
  isNumeric : Bool := false

/-- Why the registry refuses a request. -/
inductive Refusal where
  /-- The name belongs to the machine (`isOwnName`). -/
  | reservedName (name : String)
  /-- A type of this name is registered already. -/
  | duplicateName (name : String)
  /-- The type and a registered one accept a common value. -/
  | ambiguousType (name conflictsWith : String)
  /-- The type does not accept its own `witness`. -/
  | invalidWitness (name : String)
  /-- No type of this name is registered. -/
  | unknownType (name : String)
  /-- No registered type accepts the value. -/
  | noTypeForValue
  /-- An instruction names a stack that no type has. -/
  | unregisteredStack (instruction : String) (stack : StackId)
  /-- Every stack number is taken. -/
  | tooManyTypes
  deriving DecidableEq

/-- The text of a refusal. -/
def Refusal.message : Refusal → String
  | .reservedName name => "type name is reserved: " ++ name
  | .duplicateName name => "type already registered: " ++ name
  | .ambiguousType name conflictsWith =>
    "type " ++ name ++ " overlaps registered type " ++ conflictsWith
  | .invalidWitness name => "witness rejected by its own type: " ++ name
  | .unknownType name => "unknown type: " ++ name
  | .noTypeForValue => "no registered type accepts the value"
  | .unregisteredStack instruction stack =>
    "instruction " ++ instruction ++ " declares unregistered stack " ++ toString stack.index
  | .tooManyTypes => "too many registered types"

/-- The names that belong to the machine: the two stacks for code, the printed text, and values
without a type (`"untyped"`). -/
def ownNames : List String := ["exec", "code", "stdout", "untyped"]

/-- Whether a name is one of the `ownNames`. -/
def isOwnName (name : String) : Bool := ownNames.contains name

/-- **The registry**: one slot per stack number handed out, and the number of each registered
name. -/
structure Registry where
  /-- The types by `StackId.index`; a removed type leaves its slot empty. -/
  slots : List (Option StackType)
  /-- The stack number of each registered name. -/
  entries : List (String × StackId)

namespace Registry

/-- The registry without any type. -/
def empty : Registry := ⟨[], []⟩

/-- The type of a stack, or `none` if its slot is empty or past the end. -/
def get? (registry : Registry) (id : StackId) : Option StackType := registry.slots[id.index]?.join

/-- Whether `registry.get? id` is a type. -/
def contains (registry : Registry) (id : StackId) : Bool := (registry.get? id).isSome

/-- The stack of a name, by the `entries`. -/
def find? (registry : Registry) (name : String) : Option StackId := registry.entries.lookup name

/-- The name of a stack. -/
def nameAt? (registry : Registry) (id : StackId) : Option String :=
  (registry.get? id).map StackType.name

/-- Number of stack numbers handed out, those of removed types included: the length of `slots`. -/
def size (registry : Registry) : Nat := registry.slots.length

/-- The registered types with their stacks, in order of the stack numbers. -/
def types (registry : Registry) : List (StackId × StackType) :=
  registry.slots.zipIdx.filterMap fun (slot, index) => slot.map fun type => (⟨index⟩, type)

/-- The most stack numbers there are, `2^16`. -/
def maxSlots : Nat := 65536

/-- Gives a type the next stack number, or refuses with `.tooManyTypes` if there is none left. -/
def insert (registry : Registry) (type : StackType) : Except Refusal StackId × Registry :=
  if registry.slots.length < maxSlots then
    let id : StackId := ⟨registry.slots.length⟩
    (.ok id, ⟨registry.slots ++ [some type], (type.name, id) :: registry.entries⟩)
  else (.error .tooManyTypes, registry)

/-- Whether `a` accepts the witness of `b` or `b` accepts the witness of `a`. -/
def overlap (a b : StackType) : Bool := a.accepts b.witness || b.accepts a.witness

/-- The first registered type that shares a value with the given one, as far as `overlap` shows. The
types under a name of the machine are left out. -/
def conflict? (registry : Registry) (type : StackType) : Option StackType :=
  (registry.slots.filterMap id).find? fun existing =>
    !isOwnName existing.name && overlap type existing

/-- **Registers a type** by `insert`, unless the name is reserved or taken, the witness is not
accepted, or there is a `conflict?`. The answer comes with the registry as it is then. -/
def add (registry : Registry) (type : StackType) : Except Refusal StackId × Registry :=
  if isOwnName type.name then (.error (.reservedName type.name), registry)
  else if (registry.find? type.name).isSome then (.error (.duplicateName type.name), registry)
  else if !type.accepts type.witness then (.error (.invalidWitness type.name), registry)
  else
    match registry.conflict? type with
    | some existing => (.error (.ambiguousType type.name existing.name), registry)
    | none => registry.insert type

/-- Forgets a name: the stack that `find?` gives for it, and the registry without the name. -/
def takeName (registry : Registry) (name : String) : Option StackId × Registry :=
  (registry.find? name,
    { registry with entries := registry.entries.filter fun entry => entry.1 != name })

/-- Empties a slot: the type that `get?` gives for it, and the registry without the type. -/
def takeType (registry : Registry) (id : StackId) : Option StackType × Registry :=
  (registry.get? id, { registry with slots := registry.slots.set id.index none })

/-- **Removes a type** by name: the answer, and the registry as it is then. The name goes first
(`takeName`) and the type after it (`takeType`), and the stack number stays taken. -/
def remove (registry : Registry) (name : String) : Except Refusal StackType × Registry :=
  if isOwnName name then (.error (.reservedName name), registry)
  else
    match registry.takeName name with
    | (none, rest) => (.error (.unknownType name), rest)
    | (some id, rest) =>
      match rest.takeType id with
      | (none, rest) => (.error (.unknownType name), rest)
      | (some type, rest) => (.ok type, rest)

/-- The answer and the registry behind it, where a request was granted. The registry of a refused
request is left out. -/
def granted {α : Type} : Except Refusal α × Registry → Except Refusal (α × Registry)
  | (.ok answer, registry) => .ok (answer, registry)
  | (.error refusal, _) => .error refusal

/-- A granted registration (`add`): the stack of the type, and the registry with the type. -/
def register (registry : Registry) (type : StackType) : Except Refusal (StackId × Registry) :=
  granted (registry.add type)

/-- A granted removal (`remove`): the type, and the registry without it. -/
def unregister (registry : Registry) (name : String) : Except Refusal (StackType × Registry) :=
  granted (registry.remove name)

/-- The first stack whose type accepts the value and has a name that is not `isOwnName`. -/
def scan? (registry : Registry) (value : Value) : Option StackId :=
  (registry.types.find? fun (_, type) => !isOwnName type.name && type.accepts value).map (·.1)

/-- **The stack a value goes to**: `value.homeStack?` if the type there accepts it, else the first
stack that does (`scan?`). -/
def place (registry : Registry) (value : Value) : Except Refusal StackId :=
  let direct := do
    let id ← value.homeStack?
    let type ← registry.get? id
    if type.accepts value then some id else none
  match direct <|> registry.scan? value with
  | some id => .ok id
  | none => .error .noTypeForValue

/-- The type of the stack `registry.place value`. -/
def classify (registry : Registry) (value : Value) : Except Refusal StackType := do
  let id ← registry.place value
  match registry.get? id with
  | some type => .ok type
  | none => .error .noTypeForValue

/-- A literal of the value, for the stack `registry.place value`. -/
def literal (registry : Registry) (value : Value) : Except Refusal Expr := do
  return .literal value (← registry.place value)

/-! ## The core types -/

/-- The two types for code, and the ten core types for data, in order of their stack numbers. -/
def builtinTypes : List StackType :=
  [{ name := "exec", accepts := fun | .code _ => true | _ => false, coerce := Value.toCode?
     witness := .code Expr.noop },
   { name := "code", accepts := fun | .code _ => true | _ => false, coerce := Value.toCode?
     witness := .code Expr.noop },
   { name := "bool", accepts := fun | .bool _ => true | _ => false, coerce := Value.toBool?
     witness := .bool false },
   { name := "int", accepts := fun | .int _ => true | _ => false, coerce := Value.toInt?
     witness := .int 0, isNumeric := true },
   { name := "float", accepts := fun | .float _ => true | _ => false, coerce := Value.toFloat?
     witness := .float 0.0, isNumeric := true },
   { name := "char", accepts := fun | .char _ => true | _ => false, coerce := Value.toChar?
     witness := .char 'a' },
   { name := "str", accepts := fun | .str _ => true | _ => false, coerce := Value.toStr?
     witness := .str "", isCollection := true },
   { name := "vector_bool", accepts := fun | .bools _ => true | _ => false
     coerce := Value.toBools?, witness := .bools [], isCollection := true },
   { name := "vector_int", accepts := fun | .ints _ => true | _ => false
     coerce := Value.toInts?, witness := .ints [], isCollection := true },
   { name := "vector_float", accepts := fun | .floats _ => true | _ => false
     coerce := Value.toFloats?, witness := .floats [], isCollection := true },
   { name := "vector_char", accepts := fun | .chars _ => true | _ => false
     coerce := Value.toChars?, witness := .chars [], isCollection := true },
   { name := "vector_str", accepts := fun | .strs _ => true | _ => false
     coerce := Value.toStrs?, witness := .strs [], isCollection := true }]

/-- **The core registry**: the core types at the stack numbers that `StackId` gives them. -/
def core : Registry :=
  ⟨builtinTypes.map some, builtinTypes.zipIdx.map fun (type, index) => (type.name, ⟨index⟩)⟩

end Registry

end PushMachine
