import PushMachine.Instruction.Arithmetic
import PushMachine.Instruction.Control
import PushMachine.Instruction.Logic
import PushMachine.Instruction.Printing
import PushMachine.Instruction.Shuffle
import PushMachine.Instruction.Strings
import PushMachine.Instruction.Vectors

/-! # Instruction sets

A set of instructions by name: adding an instruction replaces the one that had its name. The core
set of a registry has the shuffling and printing instructions of every registered type and all
instructions on the core stacks, as far as their stacks are registered. -/

namespace PushMachine

/-- **A set of instructions**, one for each name. -/
structure InstructionSet where
  /-- The instructions, in any order. The sets here are made by `insert`, which keeps one for each
  name. -/
  instructions : List Instruction

namespace InstructionSet

/-- The set without instructions. -/
def empty : InstructionSet := ⟨[]⟩

/-- The instruction of a name. -/
def get? (set : InstructionSet) (name : String) : Option Instruction :=
  set.instructions.find? fun instruction => instruction.name == name

/-- Whether `set.get? name` is an instruction. -/
def contains (set : InstructionSet) (name : String) : Bool := (set.get? name).isSome

/-- Number of instructions. -/
def size (set : InstructionSet) : Nat := set.instructions.length

/-- Removes the instruction of a name. -/
def erase (set : InstructionSet) (name : String) : InstructionSet :=
  ⟨set.instructions.filter fun instruction => instruction.name != name⟩

/-- Adds an instruction in place of the one of its name (`erase`). -/
def insert (set : InstructionSet) (instruction : Instruction) : InstructionSet :=
  ⟨instruction :: (set.erase instruction.name).instructions⟩

/-- The set of some instructions, added by `insert` from the first; of those with one name the last
is kept. -/
def ofList (instructions : List Instruction) : InstructionSet := instructions.foldl insert empty

/-- Keeps the instructions that satisfy `keep`. -/
def filter (set : InstructionSet) (keep : Instruction → Bool) : InstructionSet :=
  ⟨set.instructions.filter keep⟩

/-- The names in increasing order. -/
def names (set : InstructionSet) : List String :=
  (set.instructions.map Instruction.name).mergeSort fun a b => !(b < a)

/-- Keeps the instructions that declare (`touched`) only stacks with one of the given names. -/
def restrict (set : InstructionSet) (registry : Registry) (names : List String) :
    InstructionSet :=
  let allowed := names.filterMap registry.find?
  set.filter fun instruction => instruction.touched.all allowed.contains

/-- Refuses with `.unregisteredStack` if an instruction declares a stack that is not registered. -/
def check (set : InstructionSet) (registry : Registry) : Except Refusal Unit :=
  let offence := set.instructions.findSome? fun instruction =>
    (instruction.touched.find? fun id => !registry.contains id).map fun id =>
      Refusal.unregisteredStack instruction.name id
  match offence with
  | some error => .error error
  | none => .ok ()

/-- The expression `Instruction.toExpr` of an instruction of the set; a name that the set lacks
opens no groups. -/
def toExpr (set : InstructionSet) (name : String) : Expr :=
  match set.get? name with
  | some instruction => instruction.toExpr
  | none => .instr name 0

/-- Every instruction for the types of a registry, in the order of registration. -/
def instructionsFor (registry : Registry) : List Instruction :=
  (registry.types.flatMap fun (id, type) =>
    Instruction.shuffling id type ++ [Instruction.printing id type.name]) ++
  Instruction.arithmetic ++ Instruction.logic ++ Instruction.strings ++ Instruction.vectors ++
  [Instruction.printNewline] ++ Instruction.codeEditing ++ Instruction.control

/-- **The core set** of a registry: of `instructionsFor registry` those whose declared stacks are
registered. -/
def core (registry : Registry) : InstructionSet :=
  (ofList (instructionsFor registry)).filter fun instruction =>
    instruction.touched.all registry.contains

end InstructionSet

end PushMachine
