import PushMachine.Genome
import PushMachine.InstructionSet

/-! # Sample programs

Programs of known behaviour and adjustable size. -/

namespace PushMachine.Samples

/-- An integer literal; a number past the integers counts as the largest one. -/
def intOfNat (n : Nat) : Expr := .int (Int64.ofNat (min n largestInt))

/-- Adds up the numbers below `n`, one literal and one addition after another. -/
def chainedSum (n : Nat) : Block :=
  .int 0 :: (List.range n).flatMap fun i => [intOfNat i, .instr "int_add" 0]

/-- Adds up the numbers from zero to `n` in a loop. -/
def loopedSum (set : InstructionSet) (n : Int64) : Block :=
  [.int 0, .int 0, .int n, set.toExpr "exec_do_range", set.toExpr "int_add"]

/-- Prints the first input with a line break for every space, and counts its other characters. -/
def spacesToLines (set : InstructionSet) : Block :=
  [.input 0, set.toExpr "str_dup", .char ' ', .char '\n', set.toExpr "str_replace_all_char",
   set.toExpr "print_str", .char ' ', set.toExpr "str_remove_all_char", set.toExpr "str_length"]

/-- A genome of `n` nested groups, each of which is run twice and begins with a literal. -/
def nestedPairs (set : InstructionSet) (n : Nat) : Genome :=
  ((List.range n).flatMap fun i =>
    [{ atom := .expr (set.toExpr "exec_dup") }, { atom := .expr (intOfNat i) }]) ++
  List.replicate n Gene.closer

end PushMachine.Samples
