import PushMachine.Instruction.Arithmetic
import PushMachine.Instruction.Logic
import PushMachine.Instruction.Printing
import PushMachine.Instruction.Shuffle
import PushMachine.Proofs.Closure

/-! # Instructions on any stack, on numbers and on truth values

The instructions that shuffle and print obey every closed discipline in which their stack is
present, and so do the instructions on numbers and truth values. The main statements are one for
each list of instructions: `shuffling_obeys`, `printing_obeys`, `arithmetic_obeys` and
`logic_obeys`. -/

namespace PushMachine.Instruction

open Script

variable {discipline : Discipline} {caps : SizeCaps}

/-! ## Shuffling -/

section Shuffling

variable {id : StackId}

/-- Dropping an item (`dropTop`) keeps every discipline in which the stack is present. -/
theorem dropTop_keeps (present : discipline.present id) : (dropTop id).Keeps discipline :=
  .bind (pop_obeys present fun _ _ => trivial)

/-- Copying an item (`copyTop`) does so, too. -/
theorem copyTop_keeps (present : discipline.present id) : (copyTop id).Keeps discipline :=
  .bind (peek_obeys present fun _ allowed => push_obeys present allowed trivial)

/-- Copying an item many times (`copyTimes`). -/
theorem copyTimes_keeps (closed : discipline.Closed caps) (present : discipline.present id)
    (int : discipline.declared .int) : (copyTimes id caps).Keeps discipline := by
  refine .bind (closed.popInt int fun n => .bind (pop_obeys present fun value allowed => ?_))
  refine pushAll_obeys present (fun copy hcopy => ?_) trivial
  rw [List.eq_of_mem_replicate hcopy]
  exact allowed

/-- Exchanging two items. -/
theorem swapTop_keeps (present : discipline.present id) : (swapTop id).Keeps discipline := by
  refine .bind (pop_obeys present fun a ha => .bind (pop_obeys present fun b hb => ?_))
  exact .bind (push_obeys present ha (push_obeys present hb trivial))

/-- Rotating three items. -/
theorem rotateTop_keeps (present : discipline.present id) : (rotateTop id).Keeps discipline := by
  refine .bind (pop_obeys present fun a ha => .bind (pop_obeys present fun b hb => ?_))
  refine .bind (pop_obeys present fun c hc => .bind (push_obeys present hb ?_))
  exact .bind (push_obeys present ha (push_obeys present hc trivial))

/-- Comparing two items. -/
theorem compareTop_keeps (closed : discipline.Closed caps) (present : discipline.present id)
    (bool : discipline.declared .bool) : (compareTop id).Keeps discipline := by
  refine .bind (pop_obeys present fun a _ => .bind (pop_obeys present fun b _ => ?_))
  exact closed.pushBool bool trivial

/-- Counting items. -/
theorem countItems_keeps (closed : discipline.Closed caps) (int : discipline.declared .int) :
    (countItems id).Keeps discipline :=
  .bind (depth_obeys fun _ _ => closed.pushNat int trivial)

/-- Finding the bottom item by `lastDepth` obeys every discipline, for it only counts. -/
theorem lastDepth_obeys {post : Nat → Prop} (h : ∀ n, post n) :
    (lastDepth id).Obeys discipline post := by
  refine .bind (depth_obeys fun count _ => ?_)
  cases count with
  | zero => exact revert_obeys
  | succ n => exact h n

/-- Bringing an item to the top (`yankItem`). -/
theorem yankItem_keeps (closed : discipline.Closed caps) (present : discipline.present id)
    (int : discipline.declared .int) : (yankItem id).Keeps discipline := by
  refine .bind (closed.popInt int fun n => .bind (lastDepth_obeys fun last => ?_))
  exact .bind (yank_obeys present fun value allowed => push_obeys present allowed trivial)

/-- Copying an item to the top. -/
theorem yankCopy_keeps (closed : discipline.Closed caps) (present : discipline.present id)
    (int : discipline.declared .int) : (yankCopy id).Keeps discipline := by
  refine .bind (closed.popInt int fun n => .bind (lastDepth_obeys fun last => ?_))
  exact .bind (peek_obeys present fun value allowed => push_obeys present allowed trivial)

/-- Moving the top item down (`shoveItem`). -/
theorem shoveItem_keeps (closed : discipline.Closed caps) (present : discipline.present id)
    (int : discipline.declared .int) : (shoveItem id).Keeps discipline := by
  refine .bind (closed.popInt int fun n => .bind (pop_obeys present fun value allowed => ?_))
  exact .bind (depth_obeys fun count _ => shove_obeys present allowed trivial)

/-- Copying the top item down. -/
theorem shoveCopy_keeps (closed : discipline.Closed caps) (present : discipline.present id)
    (int : discipline.declared .int) : (shoveCopy id).Keeps discipline := by
  refine .bind (closed.popInt int fun n => .bind (peek_obeys present fun value allowed => ?_))
  exact .bind (depth_obeys fun count _ => shove_obeys present allowed trivial)

/-- Testing a stack for items. -/
theorem testEmpty_keeps (closed : discipline.Closed caps) (bool : discipline.declared .bool) :
    (testEmpty id).Keeps discipline :=
  .bind (depth_obeys fun _ _ => closed.pushBool bool trivial)

/-- Testing a collection for items (`testEmptyItem`), whose stack need only be present. -/
theorem testEmptyItem_keeps (closed : discipline.Closed caps) (present : discipline.present id)
    (bool : discipline.declared .bool) : (testEmptyItem id).Keeps discipline := by
  refine .bind (pop_obeys present fun value _ => ?_)
  exact ofOption_bind_obeys fun length _ => closed.pushBool bool trivial

/-- **The shuffling instructions** of a stack that is `present` obey a closed discipline. -/
theorem shuffling_obeys (closed : discipline.Closed caps) (present : discipline.present id)
    (type : StackType) :
    ∀ instruction ∈ shuffling id type, instruction.Obeys discipline caps := by
  rw [shuffling, List.forall_mem_append]
  simp only [ofVerb, List.forall_mem_cons, List.not_mem_nil, obeys_mk, false_implies, implies_true,
    forall_const, and_true, and_imp]
  constructor
  · exact ⟨fun _ => dropTop_keeps present, fun _ _ => copyTop_keeps present,
      fun int _ _ => copyTimes_keeps closed present int, fun _ _ _ => swapTop_keeps present,
      fun _ _ _ _ => rotateTop_keeps present, flush_obeys present trivial,
      fun _ _ bool => compareTop_keeps closed present bool, countItems_keeps closed,
      fun int _ _ => yankItem_keeps closed present int,
      fun int _ _ => yankCopy_keeps closed present int,
      fun int _ _ => shoveItem_keeps closed present int,
      fun int _ _ => shoveCopy_keeps closed present int, testEmpty_keeps closed⟩
  -- Only a collection has a test for an empty item.
  · split
    · simp only [List.forall_mem_singleton, obeys_mk]
      exact fun _ bool => testEmptyItem_keeps closed present bool
    · exact List.forall_mem_nil _

end Shuffling

/-! ## Printing -/

/-- **The printing instruction** of a stack that is `present` obeys a closed discipline. -/
theorem printing_obeys {id : StackId} (present : discipline.present id) (type : String) :
    (printing id type).Obeys discipline caps :=
  fun _ => .bind (pop_obeys present fun _ _ => print_obeys trivial)

/-- Printing a line break obeys every discipline. -/
theorem printNewline_obeys : printNewline.Obeys discipline caps := fun _ => print_obeys trivial

/-! ## Arithmetic -/

/-- Replacing two integers by one, whatever `f`. -/
theorem intOperation_obeys (closed : discipline.Closed caps) (verb : String)
    (f : Int → Int → Option Int) : (intOperation verb f).Obeys discipline caps := by
  intro declared
  have int := declared .int (by simp [touched, intOperation])
  refine .bind (closed.popInt int fun b => .bind (closed.popInt int fun a => ?_))
  exact ofOption_bind_obeys fun result _ => closed.pushInt int trivial

/-- Changing an integer, whatever `f`. -/
theorem intChange_obeys (closed : discipline.Closed caps) (verb : String) (f : Int → Int) :
    (intChange verb f).Obeys discipline caps := by
  intro declared
  have int := declared .int (by simp [touched, intChange])
  exact .bind (closed.popInt int fun a => closed.pushInt int trivial)

/-- Comparing two integers, whatever `f`. -/
theorem intCompare_obeys (closed : discipline.Closed caps) (verb : String)
    (f : Int64 → Int64 → Bool) : (intCompare verb f).Obeys discipline caps := by
  intro declared
  have int := declared .int (by simp [touched, intCompare])
  have bool := declared .bool (by simp [touched, intCompare])
  refine .bind (closed.popInt int fun b => .bind (closed.popInt int fun a => ?_))
  exact closed.pushBool bool trivial

/-- Replacing two doubles by one. -/
theorem floatOperation_obeys (closed : discipline.Closed caps) (verb : String)
    (f : Float → Float → Option Float) : (floatOperation verb f).Obeys discipline caps := by
  intro declared
  have float := declared .float (by simp [touched, floatOperation])
  refine .bind (closed.popFloat float fun b => .bind (closed.popFloat float fun a => ?_))
  exact ofOption_bind_obeys fun result _ => closed.pushFloat float trivial

/-- Changing a double. -/
theorem floatChange_obeys (closed : discipline.Closed caps) (verb : String) (f : Float → Float) :
    (floatChange verb f).Obeys discipline caps := by
  intro declared
  have float := declared .float (by simp [touched, floatChange])
  refine .bind (closed.popFloat float fun a => ?_)
  exact ofOption_bind_obeys fun result _ => closed.pushFloat float trivial

/-- Comparing two doubles. -/
theorem floatCompare_obeys (closed : discipline.Closed caps) (verb : String)
    (f : Float → Float → Bool) : (floatCompare verb f).Obeys discipline caps := by
  intro declared
  have float := declared .float (by simp [touched, floatCompare])
  have bool := declared .bool (by simp [touched, floatCompare])
  refine .bind (closed.popFloat float fun b => .bind (closed.popFloat float fun a => ?_))
  exact closed.pushBool bool trivial

/-- **The instructions on numbers** (`arithmetic`) obey a closed discipline. -/
theorem arithmetic_obeys (closed : discipline.Closed caps) :
    ∀ instruction ∈ arithmetic, instruction.Obeys discipline caps := by
  simp only [arithmetic, List.forall_mem_cons, List.not_mem_nil, intOperation_obeys closed,
    intChange_obeys closed, intCompare_obeys closed, floatOperation_obeys closed,
    floatChange_obeys closed, floatCompare_obeys closed, obeys_mk, false_implies, implies_true,
    true_and, and_true]
  -- The conversions are left.
  exact ⟨fun bool int => .bind (closed.popBool bool fun _ => closed.pushInt int trivial),
    fun float int => .bind (closed.popFloat float fun _ => closed.pushInt int trivial),
    fun int float => .bind (closed.popInt int fun _ => closed.pushFloat float trivial),
    fun bool float => .bind (closed.popBool bool fun _ => closed.pushFloat float trivial)⟩

/-! ## Logic -/

/-- Replacing two truth values by one. -/
theorem boolOperation_obeys (closed : discipline.Closed caps) (verb : String)
    (f : Bool → Bool → Bool) : (boolOperation verb f).Obeys discipline caps := by
  intro declared
  have bool := declared .bool (by simp [touched, boolOperation])
  refine .bind (closed.popBool bool fun b => .bind (closed.popBool bool fun a => ?_))
  exact closed.pushBool bool trivial

/-- **The instructions on truth values** (`logic`) obey a closed discipline. -/
theorem logic_obeys (closed : discipline.Closed caps) :
    ∀ instruction ∈ logic, instruction.Obeys discipline caps := by
  simp only [logic, List.forall_mem_cons, List.not_mem_nil, boolOperation_obeys closed,
    obeys_mk, false_implies, implies_true, true_and, and_true]
  exact ⟨fun bool _ => .bind (closed.popBool bool fun _ => closed.pushBool bool trivial),
    fun int bool => .bind (closed.popInt int fun _ => closed.pushBool bool trivial),
    fun float bool => .bind (closed.popFloat float fun _ => closed.pushBool bool trivial)⟩

end PushMachine.Instruction
