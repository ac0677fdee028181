import Mathlib.Algebra.BigOperators.Group.List.Basic
import PushMachine.Proofs.RunLimits

/-! # The growth of the stacks

The stacks of a run grow at most linearly with its steps. A call adds no more items than its
transaction counted (`State.Did.itemCount_le`), and the limit on growth bounds that count. Making
the parts of a block pending adds as many items as the block has parts, and no limit is looked at.
There the bound rests on a second fact: a block on the stacks is no longer than one of the program
or its inputs, or has no more points than the limit allows, or has the three parts that a loop over
a vector leaves to do (`Registry.KeepsCore.unrolled_short`). -/

namespace PushMachine

/-! ## The length of blocks -/

mutual

/-- Length of the longest block that occurs in a value, at any depth and in code that literals
hold. -/
def Value.width : Value → Nat
  | .code atom => Atom.width atom
  | _ => 0
termination_by structural value => value

/-- Length of the longest block that occurs in an atom. -/
def Atom.width : Atom → Nat
  | .closer => 0
  | .expr e => Expr.width e
termination_by structural atom => atom

/-- Length of the longest block that occurs in an expression, which may be the expression. -/
def Expr.width : Expr → Nat
  | .literal value _ => Value.width value
  | .block body => max body.length (Block.partsWidth body)
  | _ => 0
termination_by structural e => e

/-- Length of the longest block that occurs in the parts of a block. -/
def Block.partsWidth : List Expr → Nat
  | [] => 0
  | e :: rest => max (Expr.width e) (Block.partsWidth rest)
termination_by structural body => body

end

/-- A block of at most `bound` parts, or any other expression. -/
def Expr.Short (bound : Nat) : Expr → Prop
  | .block body => body.length ≤ bound
  | _ => True

section Width

variable {bound : Nat}

mutual

/-- The longest block bounds every block that occurs in a value, and is one of them: all are
`Short bound` exactly if `value.width ≤ bound`. -/
theorem Value.every_short_iff : (value : Value) →
    (value.Every (Expr.Short bound) ↔ value.width ≤ bound)
  | .code atom => Atom.every_short_iff atom
  | .bool _ | .int _ | .float _ | .char _ | .str _ | .bools _ | .ints _ | .floats _ | .chars _
  | .strs _ | .custom _ _ => iff_of_true trivial (Nat.zero_le bound)

/-- The same for `Atom.width`. -/
theorem Atom.every_short_iff : (atom : Atom) →
    (atom.Every (Expr.Short bound) ↔ atom.width ≤ bound)
  | .closer => iff_of_true trivial (Nat.zero_le bound)
  | .expr e => Expr.every_short_iff e

/-- The same for `Expr.width`. -/
theorem Expr.every_short_iff : (e : Expr) → (e.Every (Expr.Short bound) ↔ e.width ≤ bound)
  | .literal value _ => (and_iff_right trivial).trans (Value.every_short_iff value)
  | .input _ | .instr _ _ | .deferred _ => iff_of_true trivial (Nat.zero_le bound)
  | .block body => (and_congr_right' (Block.every_short_iff body)).trans max_le_iff.symm

/-- The same for `Block.partsWidth`. -/
theorem Block.every_short_iff : (body : List Expr) →
    (Block.Every (Expr.Short bound) body ↔ Block.partsWidth body ≤ bound)
  | [] => iff_of_true trivial (Nat.zero_le bound)
  | e :: rest =>
    (and_congr (Expr.every_short_iff e) (Block.every_short_iff rest)).trans max_le_iff.symm

end

end Width

/-- Length of the longest block that occurs in a program, the program itself included, or in its
inputs. -/
def longestBlock (code : Block) (inputs : List Value) : Nat :=
  max (Expr.block code).width ((inputs.map Value.width).foldr max 0)

/-- An input has no block longer than the `longestBlock`. -/
theorem width_le_longestBlock (code : Block) {inputs : List Value} {value : Value}
    (h : value ∈ inputs) : value.width ≤ longestBlock code inputs := by
  have hfold : value.width ≤ (inputs.map Value.width).foldr max 0 := by
    induction h with
    | head rest => exact Nat.le_max_left _ _
    | tail other _ ih => exact ih.trans (Nat.le_max_right _ _)
  exact hfold.trans (Nat.le_max_right _ _)

/-- Every part of a block has a point: `body.length ≤ partsSize body`. -/
theorem Block.length_le_partsSize (body : Block) : body.length ≤ partsSize body := by
  induction body with
  | nil => exact Nat.le_refl 0
  | cons e rest ih =>
    have hpoint : 1 ≤ e.size := by
      cases e with
      | block parts => exact Nat.le_add_right 1 _
      | _ => exact Nat.le_refl 1
    rw [List.length_cons, partsSize_cons]
    omega

/-- **Short blocks are kept** by the core instructions, from `caps.maxPoints` and three parts
upwards. -/
theorem Registry.KeepsCore.unrolled_short {registry : Registry} (keeps : registry.KeepsCore)
    {caps : SizeCaps} {bound : Nat} (points : caps.maxPoints ≤ bound) (three : 3 ≤ bound) :
    (registry.discipline (Expr.Short bound)).Unrolled caps := by
  refine keeps.unrolled_of_blocks (fun h => h) ?built ?rearranged ?short (fun _ _ _ => trivial)
    fun _ _ => trivial
  case built =>
    intro body hsize
    have hparts := body.length_le_partsSize
    rw [Block.size] at hsize
    show body.length ≤ bound
    omega
  case rearranged =>
    intro body new hshort hsubperm
    exact hsubperm.length_le.trans hshort
  case short =>
    intro body hlength
    exact hlength.trans three

/-! ## Counting items -/

namespace State

variable {state : State} {id : StackId} {items : List Value}

/-- **Number of items** on all stacks: the sum of their lengths. -/
def itemCount (state : State) : Nat := (state.slots.map fun slot => (slot.getD []).length).sum

/-- Replacing a stack with `setStack` changes the number by the difference. -/
theorem itemCount_setStack (found : state.stack? id = some items) (new : List Value) :
    (state.setStack id new).itemCount + items.length = state.itemCount + new.length := by
  obtain ⟨hlt, hget⟩ := List.getElem?_eq_some_iff.mp (slot_of_stack? found)
  -- The stack's slot lies between those before and those behind it, which stay.
  have hold : state.slots =
      state.slots.take id.index ++ some items :: state.slots.drop (id.index + 1) := by
    rw [← hget, List.cons_getElem_drop_succ, List.take_append_drop]
  have hnew : (state.setStack id new).slots =
      state.slots.take id.index ++ some new :: state.slots.drop (id.index + 1) := by
    rw [setStack, List.set_eq_take_append_cons_drop, if_pos hlt]
  have hcount := congrArg (fun slots => (slots.map fun slot => (slot.getD []).length).sum) hold
  simp only [List.map_append, List.map_cons, List.sum_append, List.sum_cons,
    Option.getD_some] at hcount
  rw [itemCount, itemCount, hnew, hcount]
  simp only [List.map_append, List.map_cons, List.sum_append, List.sum_cons, Option.getD_some]
  omega

/-- A note touches no stack. -/
@[simp] theorem itemCount_note (change : Change) :
    (state.note change).itemCount = state.itemCount := by
  rw [note]
  split <;> rfl

/-- A note is not counted as pushed. -/
@[simp] theorem pushed_note (change : Change) : (state.note change).pushed = state.pushed := by
  rw [note]
  split <;> rfl

/-- **The step**: an operation adds no more items than it counts as `pushed`. -/
theorem Did.itemCount_le {op : Op} {result : op.Result} {after : State}
    (did : state.Did op result after) :
    after.itemCount + state.pushed ≤ state.itemCount + after.pushed := by
  -- Only pushing and putting in add an item, and both count it as pushed.
  cases did with
  | @push id value items found =>
    have hset := itemCount_setStack found (value :: items)
    rw [List.length_cons] at hset
    rw [itemCount_note, pushed_note]
    show (state.setStack id (value :: items)).itemCount + state.pushed ≤ _
    simp only
    omega
  | @pop id value rest found =>
    have hset := itemCount_setStack found rest
    rw [List.length_cons] at hset
    rw [itemCount_note, pushed_note]
    show _ ≤ state.itemCount + state.pushed
    omega
  | peek found item => exact Nat.le_refl _
  | depth => exact Nat.le_refl _
  | @flush id items found =>
    have hset := itemCount_setStack found []
    rw [List.length_nil] at hset
    rw [itemCount_note, pushed_note]
    show _ ≤ state.itemCount + state.pushed
    omega
  | @yank id depth value items found item =>
    have hset := itemCount_setStack found (items.eraseIdx depth)
    have herase := List.length_eraseIdx_le items depth
    rw [itemCount_note, pushed_note]
    show _ ≤ state.itemCount + state.pushed
    omega
  | @shove id depth value items found =>
    have hset := itemCount_setStack found (items.insertIdx (min depth items.length) value)
    rw [List.length_insertIdx_of_le_length (Nat.min_le_right _ _)] at hset
    rw [itemCount_note, pushed_note]
    show (state.setStack id _).itemCount + state.pushed ≤ _
    simp only
    omega
  | print fits =>
    show (state.note _).itemCount + state.pushed ≤ state.itemCount + (state.note _).pushed
    rw [itemCount_note, pushed_note]

/-- Pushing adds one item to `itemCount`. -/
theorem itemCount_push {value : Value} {next : State} (h : state.push id value = .ok next) :
    next.itemCount = state.itemCount + 1 := by
  cases found : state.stack? id with
  | none =>
    rw [push, State.items, found] at h
    cases h
  | some items =>
    rw [push, State.items, found] at h
    cases h
    have hset := itemCount_setStack found (value :: items)
    rw [List.length_cons] at hset
    rw [itemCount_note]
    show (state.setStack id (value :: items)).itemCount = _
    omega

/-- The stacks that a program is loaded onto are empty: `state.reset` has no items. -/
theorem itemCount_reset (state : State) : state.reset.itemCount = 0 := by
  refine List.sum_eq_zero fun count hcount => ?_
  obtain ⟨slot, hslot, rfl⟩ := List.mem_map.mp hcount
  obtain ⟨old, -, rfl⟩ := List.mem_map.mp hslot
  cases old <;> rfl

end State

/-- **The run**: a script adds no more items than it counts as `pushed`. -/
theorem Script.itemCount_run_le {α : Type} (script : Script α) (state : State) :
    (script.run state).2.itemCount + state.pushed ≤
      state.itemCount + (script.run state).2.pushed := by
  refine script.run_invariant
    (fun after => after.itemCount + state.pushed ≤ state.itemCount + after.pushed) ?_
    (Nat.le_refl _)
  intro before op result after did hbefore
  have hstep := did.itemCount_le
  omega

/-- Taking an atom with `popAtom` takes one item. -/
theorem Script.itemCount_popAtom {id : StackId} {state popped : State} {atom : Atom}
    (taken : (popAtom id).run state = (.ok atom, popped)) :
    popped.itemCount + 1 = state.itemCount := by
  rcases state.apply_cases (.pop id) with ⟨value, after, happly, did⟩ | ⟨fault, happly, -⟩
  · have hrun : (popAtom id).run state = _ := run_act_of_apply happly
    rw [hrun] at taken
    obtain rfl : after = popped := by
      cases value with
      | code found => exact congrArg Prod.snd taken
      | _ => cases taken
    cases did with
    | @pop id value rest found =>
      have hset : (state.setStack id rest).itemCount + (rest.length + 1) =
          state.itemCount + rest.length := State.itemCount_setStack found rest
      rw [State.itemCount_note]
      omega
  · have hrun : (popAtom id).run state = (.error fault, state) := by
      show (Script.act (.pop id) _).run state = _
      rw [run, happly]
    rw [hrun] at taken
    cases taken

/-! ## One step -/

namespace Library

variable {library : Library} {limits : Limits} {state : State}

/-- Going on with a pushed item adds one. -/
theorem itemCount_ofOperation_push (state : State) (id : StackId) (value : Value) :
    (Effect.ofOperation state (state.push id value)).state.itemCount ≤ state.itemCount + 1 := by
  cases hpush : state.push id value with
  | ok next => exact (State.itemCount_push hpush).le
  | error fault => exact Nat.le_succ _

/-- Making the parts of a block pending, `splice body`, adds one item for each. -/
theorem itemCount_splice {body : Block} {next : State} (h : splice body state = .ok next) :
    next.itemCount = state.itemCount + body.length := by
  induction body generalizing next with
  | nil =>
    cases h
    rfl
  | cons e rest ih =>
    -- The parts are pushed from the last one on, so the first part comes last.
    rw [splice, List.foldrM_cons] at h
    cases hrest : splice rest state with
    | error fault =>
      rw [splice] at hrest
      rw [hrest] at h
      cases h
    | ok middle =>
      have hmiddle := ih hrest
      rw [splice] at hrest
      rw [hrest] at h
      have hpush : middle.push .exec (.code (.expr e)) = .ok next := h
      rw [State.itemCount_push hpush, hmiddle, List.length_cons, Nat.add_assoc]

/-- A call adds no more items than `limits.growthCap` allows. -/
theorem itemCount_call_le (library : Library) (limits : Limits) (name : String)
    (counted : state.Counted) :
    (library.call limits name state).state.itemCount ≤ state.itemCount + limits.growthCap := by
  rcases library.call_state_cases limits name counted with
    hsame | hback | ⟨instruction, after, -, heval, hpushed, hafter⟩
  · rw [hsame]
    exact Nat.le_add_right _ _
  · rw [hback]
    exact Nat.le_add_right _ _
  · -- The transaction starts to count at zero.
    have hrun : after.itemCount + 0 ≤ state.itemCount + after.pushed := by
      rw [Instruction.eval] at heval
      split at heval
      · have := Script.itemCount_run_le (instruction.body limits.toSizeCaps) state.openTransaction
        rw [heval] at this
        exact this
      · cases heval
    rw [hafter]
    show after.itemCount ≤ _
    omega

/-- **The step**: an atom adds no more items than `limits.growthCap` allows or than its longest
block has parts, or one. -/
theorem itemCount_perform_le (library : Library) (limits : Limits) (counted : state.Counted)
    {atom : Atom} {bound : Nat} (short : atom.width ≤ bound) (one : 1 ≤ bound) :
    (library.perform limits state atom).state.itemCount ≤
      state.itemCount + max limits.growthCap bound := by
  have hcap := Nat.le_max_left limits.growthCap bound
  have hbound := Nat.le_max_right limits.growthCap bound
  have hstays : state.itemCount ≤ state.itemCount + max limits.growthCap bound :=
    Nat.le_add_right _ _
  have hpush (id : StackId) (value : Value) :
      (Effect.ofOperation state (state.push id value)).state.itemCount ≤
        state.itemCount + max limits.growthCap bound := by
    have := itemCount_ofOperation_push state id value
    omega
  have hcall (name : String) : (library.call limits name state).state.itemCount ≤
      state.itemCount + max limits.growthCap bound := by
    have := library.itemCount_call_le limits name counted
    omega
  -- A call is bounded by the limit on growth, a block by its parts, the rest by one item.
  cases atom with
  | closer => exact hstays
  | expr e =>
    cases e with
    | literal value on =>
      rw [perform, placeLiteral]
      split
      · exact hstays
      · split
        · exact hpush _ _
        · exact hstays
    | input index =>
      rw [perform, fetchInput]
      split
      · exact hstays
      · exact hpush _ _
      · split
        · exact hpush _ _
        · exact hstays
    | instr name groups => exact hcall name
    | deferred name => exact hcall name
    | block body =>
      have hlength : body.length ≤ bound := (Nat.le_max_left _ _).trans short
      rw [perform]
      cases hsplice : splice body state with
      | error fault => exact hstays
      | ok next =>
        show next.itemCount ≤ _
        rw [itemCount_splice hsplice]
        omega

end Library

/-! ## Runs -/

namespace Discipline.Governs

variable {library : Library} {registry : Registry} {limits : Limits} {inputs : List Value}
  {state : State} {bound : Nat}

/-- Taking an atom and performing it adds at most `max limits.growthCap bound` items. -/
theorem itemCount_turn
    (governs : (registry.discipline (Expr.Short bound)).Governs library limits.toSizeCaps inputs)
    (one : 1 ≤ bound) (governed : state.Governed (registry.discipline (Expr.Short bound)) inputs)
    {atom : Atom} {popped : State}
    (taken : (Script.popAtom .exec).run state = (.ok atom, popped)) :
    (library.perform limits popped atom).state.itemCount ≤
      state.itemCount + max limits.growthCap bound := by
  obtain ⟨hpopped, hsound⟩ := governs.taken governed taken
  have hshort : atom.width ≤ bound := (Atom.every_short_iff atom).mp hsound
  have hstep := library.itemCount_perform_le limits hpopped.counted hshort one
  have htaken := Script.itemCount_popAtom taken
  omega

/-- **The run**: `itemCount` grows linearly with the steps. -/
theorem itemCount_steps
    (governs : (registry.discipline (Expr.Short bound)).Governs library limits.toSizeCaps inputs)
    (one : 1 ≤ bound) (governed : state.Governed (registry.discipline (Expr.Short bound)) inputs)
    {n : Nat} {last : State} (steps : library.Steps limits n state last) :
    last.itemCount ≤ state.itemCount + n * max limits.growthCap bound := by
  induction steps with
  | zero => exact Nat.le_add_right _ _
  | succ taken goes _ ih =>
    obtain ⟨hpopped, hsound⟩ := governs.taken governed taken
    have hrest := ih (governs.perform hpopped hsound).1
    have hstep := governs.itemCount_turn one governed taken
    rw [Nat.succ_mul]
    omega

/-- The last step of a run, which may end it, is counted like the others: the bound holds for
`proceed`. -/
theorem itemCount_proceed {σ : Type}
    (governs : (registry.discipline (Expr.Short bound)).Governs library limits.toSizeCaps inputs)
    (one : 1 ≤ bound) (governed : state.Governed (registry.discipline (Expr.Short bound)) inputs)
    (clock : Clock) (tracer : Tracer σ) (remaining steps : Nat) (data : σ) :
    let ending := library.proceed limits clock tracer remaining steps state data
    ending.state.itemCount + steps * max limits.growthCap bound ≤
      state.itemCount + ending.steps * max limits.growthCap bound := by
  induction remaining generalizing steps state data with
  | zero =>
    by_cases empty : state.depth .exec = 0
    · rw [Library.proceed_of_idle empty]
    · rw [Library.proceed_zero empty]
  | succ remaining ih =>
    cases library.turn limits clock steps state with
    | idle empty => rw [Library.proceed_of_idle empty]
    | spent pending spent => rw [Library.proceed_of_spent pending spent]
    | unpending pending unspent failed =>
      -- Pending work is code and can be taken.
      obtain ⟨atom, popped, taken⟩ := governs.exists_taken governed pending
      rw [failed] at taken
      cases taken
    | stopped pending unspent taken stops =>
      have hstep := governs.itemCount_turn one governed taken
      rw [Library.proceed_of_stopped pending unspent taken stops]
      simp only [Nat.succ_mul]
      omega
    | @going atom popped pending unspent taken goes =>
      obtain ⟨hpopped, hsound⟩ := governs.taken governed taken
      have hrest := ih (governs.perform hpopped hsound).1 (steps + 1)
        (tracer.emitCall (steps + 1) (library.perform limits popped atom).call
          (tracer.emit (.step (steps + 1) atom) data))
      have hstep := governs.itemCount_turn one governed taken
      rw [Library.proceed_of_going pending unspent taken goes]
      simp only [Nat.succ_mul] at hrest ⊢
      omega

end Discipline.Governs

/-- **A state with short blocks**: no block of more than `bound` parts occurs in a value on a stack,
at any depth. -/
def State.WidthWithin (bound : Nat) (state : State) : Prop :=
  ∀ id items, state.stack? id = some items → ∀ value ∈ items, value.width ≤ bound

/-- The blocks on the stacks of a governed state are short: their `width` is within `bound`. -/
theorem State.Governed.widthWithin {registry : Registry} {inputs : List Value} {state : State}
    {bound : Nat} (governed : state.Governed (registry.discipline (Expr.Short bound)) inputs) :
    state.WidthWithin bound := by
  intro id items hitems value hvalue
  exact (Value.every_short_iff value).mp (governed.meets.allowed id items hitems value hvalue).2

namespace Machine

/-- **The stacks grow linearly**: let no block of a program or its inputs be longer than
`longestBlock`, at any depth. After every number of steps of a run on the core machine, and when it
ends, there are at most as many items on all stacks as one and, for each step, the largest of the
limit on growth, the limit on points, the longest block and three; and no block on a stack is longer
than the largest of the last three. -/
theorem run_itemCount_le (code : Block) (inputs : List Value) (outputs : List String)
    (limits : Limits) (clock : Clock) :
    let widest := max limits.maxPoints (max (longestBlock code inputs) 3)
    let growth := max limits.growthCap widest
    (∀ n state, core.Reaches limits code inputs n state →
        state.itemCount ≤ 1 + n * growth ∧ state.WidthWithin widest) ∧
      (core.run code inputs outputs limits clock).2.state.itemCount ≤
        1 + (core.run code inputs outputs limits clock).1.steps * growth ∧
      (core.run code inputs outputs limits clock).2.state.WidthWithin widest := by
  intro widest growth
  have keeps : Registry.core.KeepsCore := Registry.Evolves.start.keepsCore
  have hlongest : longestBlock code inputs ≤ widest :=
    (Nat.le_max_left _ 3).trans (Nat.le_max_right _ _)
  have hthree : 3 ≤ widest := (Nat.le_max_right _ 3).trans (Nat.le_max_right _ _)
  have hone : 1 ≤ widest := Nat.le_of_succ_le (Nat.le_of_succ_le hthree)
  -- The blocks of the program and the inputs are short, so all blocks stay so.
  have hinputs : ∀ value ∈ inputs, value.Every (Expr.Short widest) := by
    intro value hvalue
    exact (Value.every_short_iff value).mpr ((width_le_longestBlock code hvalue).trans hlongest)
  have hcode : (Expr.block code).Every (Expr.Short widest) :=
    (Expr.every_short_iff _).mpr ((Nat.le_max_left _ _).trans hlongest)
  have unrolled : (Registry.core.discipline (Expr.Short widest)).Unrolled limits.toSizeCaps :=
    keeps.unrolled_short (Nat.le_max_left _ _) hthree
  have governs := keeps.governs unrolled (fun instruction hcore => hcore) hinputs
  obtain ⟨start, hload, hstart⟩ :=
    governs.load core (State.governed_ofRegistry .core _ inputs) hcode
  -- The run starts with the program as its only item.
  have hcount : start.itemCount = 1 := by
    have hpush : (core.state.reset.withInputs inputs).push .exec (.code (.expr (.block code))) =
        .ok start := congrArg Prod.snd hload
    rw [State.itemCount_push hpush]
    exact congrArg (· + 1) (State.itemCount_reset core.state)
  obtain ⟨hreached, hfinal, -⟩ :=
    governs.run core (State.governed_ofRegistry .core _ inputs) hcode outputs clock
  refine ⟨fun n state hreaches => ⟨?_, (hreached n state hreaches).widthWithin⟩, ?_,
    hfinal.widthWithin⟩
  · obtain ⟨loaded, hloaded, hsteps⟩ := hreaches
    rw [hload] at hloaded
    cases hloaded
    rw [← hcount]
    exact governs.itemCount_steps hone hstart hsteps
  · have hrun := governs.itemCount_proceed hone hstart clock .silent limits.stepLimit 0 ()
    simp only [Nat.zero_mul, Nat.add_zero] at hrun
    rw [run_eq_of_load hload, ← hcount]
    exact hrun

/-- A loop over two items leaves a block to do that is longer than those of the program and its
input and than the limit on points, and the bounds hold with that block. -/
theorem run_itemCount_le_of_loop :
    let code : Block := [.literal (.ints [1, 2]) .vectorInt, .input 0]
    let inputs : List Value :=
      [.code (.expr (.block [.instr "vector_int_iterate" 1, .instr "int_inc" 0]))]
    let limits : Limits := { maxPoints := 1, growthCap := 3 }
    longestBlock code inputs = 2 ∧
      (∃ state, core.Reaches limits code inputs 5 state ∧ state.itemCount = 3 ∧
        (∃ value ∈ (state.stack? .exec).getD [], value.width = 3) ∧
        state.itemCount ≤ 1 + 5 * 3 ∧ state.WidthWithin 3) ∧
      (core.run code inputs [] limits .still).2.state.itemCount ≤
        1 + (core.run code inputs [] limits .still).1.steps * 3 ∧
      (core.run code inputs [] limits .still).2.state.WidthWithin 3 := by
  intro code inputs limits
  have hcomputed : ((Machine.after? ⟨⟨.core, ⟨[Instruction.vectorLoop Int64]⟩⟩, .ofRegistry .core⟩
      limits code inputs 5).any fun state => state.itemCount == 3 &&
        ((state.stack? .exec).getD []).any fun value => value.width == 3) = true := by
    decide +kernel
  obtain ⟨state, hafter, hstate⟩ := (Option.any_eq_true _ _).mp hcomputed
  obtain ⟨hcount, hany⟩ := Bool.and_eq_true_iff.mp hstate
  obtain ⟨value, hvalue, hwidth⟩ := List.any_eq_true.mp hany
  have hreaches : core.Reaches limits code inputs 5 state := by
    refine reaches_of_part (fun instruction hmem => ?_) hafter
    rw [List.mem_singleton.mp hmem]
    exact InstructionSet.get?_core rfl rfl
  have hlongest : longestBlock code inputs = 2 := by decide +kernel
  obtain ⟨hreached, hfinal, hwithin⟩ := run_itemCount_le code inputs [] limits .still
  rw [hlongest] at hreached hfinal hwithin
  obtain ⟨hitems, hblocks⟩ := hreached 5 state hreaches
  exact ⟨hlongest, ⟨state, hreaches, eq_of_beq hcount, ⟨value, hvalue, eq_of_beq hwidth⟩, hitems,
    hblocks⟩, hfinal, hwithin⟩

end Machine

end PushMachine
