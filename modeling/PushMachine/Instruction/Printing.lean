import PushMachine.Display
import PushMachine.Instruction

/-! # Printing

Instructions that append to the printed text. A print that would go past the limit gives up and
leaves its item on the stack. -/

namespace PushMachine.Instruction

open Script

/-- Prints `value.display` of the top item, or gives up if it does not fit. -/
def printTop (id : StackId) (caps : SizeCaps) : Script Unit := do
  let value ← pop id
  print value.display caps.collectionSizeCap

/-- The printing instruction of a stack, `"print_" ++ type`. -/
def printing (id : StackId) (type : String) : Instruction :=
  { name := "print_" ++ type, inputs := [id], outputs := []
    groups := if id = .exec then 1 else 0, body := printTop id }

/-- Prints a line break. -/
def printNewline : Instruction :=
  { name := "print_newline", inputs := [], outputs := []
    body := fun caps => print "\n" caps.collectionSizeCap }

end PushMachine.Instruction
