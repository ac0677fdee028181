import PushMachine.Proofs.Footprint
import PushMachine.Proofs.RunLimits

/-! # Blocks only group

Code that has nothing to do with the pending work does the same however it is divided into blocks. A
run of such code takes the points of the code in pre-order. Taking a block apart changes the pending
work only, and each leaf does what it does on its own, so the run is one through the leaves
(`Library.runLeaves`).

What a state is apart from its pending work is its settled form. Detached leaves act on the settled
form and leave the pending work alone (`Library.perform_of_detached`), so the two sides are compared
by their settled forms, step by step (`Library.proceed_of_detached`). -/

namespace PushMachine

/-! ## Points and leaves -/

mutual

/-- The points of an expression in pre-order, `e` itself first. -/
def Expr.points : Expr → List Expr
  | .block body => .block body :: Block.points body
  | e => [e]

/-- The points of the parts of a block in pre-order. -/
def Block.points : List Expr → List Expr
  | [] => []
  | e :: rest => Expr.points e ++ Block.points rest

end

/-- A leaf is what is no `.block`. -/
def Expr.isLeaf (e : Expr) : Bool := !(Atom.expr e).isBlock

namespace Block

@[simp] theorem points_cons (e : Expr) (rest : Block) :
    points (e :: rest) = e.points ++ points rest := rfl

/-- The points of two blocks one behind the other. -/
theorem points_append (body rest : Block) : points (body ++ rest) = points body ++ points rest := by
  induction body with
  | nil => rfl
  | cons e others ih => rw [List.cons_append, points_cons, points_cons, ih, List.append_assoc]

/-- A block comes before the points of its parts, whatever `rest` is behind it. -/
theorem points_block_cons (body rest : Block) :
    points (.block body :: rest) = .block body :: points (body ++ rest) := by
  rw [points_cons, Expr.points, List.cons_append, points_append]

/-- The leaves (`isLeaf`) of a block in pre-order. -/
def leaves (body : Block) : List Expr := (points body).filter Expr.isLeaf

end Block

/-- A leaf is its only point. -/
theorem Expr.points_of_isLeaf {e : Expr} (leaf : e.isLeaf = true) : e.points = [e] := by
  cases e with
  | block body => cases leaf
  | _ => rfl

mutual

/-- An expression has as many points as `e.size` says. -/
theorem Expr.length_points : (e : Expr) → e.points.length = e.size
  | .block body => by
    rw [Expr.points, List.length_cons, Block.length_points body, Expr.size, Nat.add_comm]
  | .literal _ _ | .input _ | .instr _ _ | .deferred _ => rfl

/-- The parts of a block have as many points as `partsSize body` says. -/
theorem Block.length_points : (body : List Expr) → (Block.points body).length = Block.partsSize body
  | [] => rfl
  | e :: rest => by
    rw [Block.points_cons, List.length_append, Expr.length_points e, Block.length_points rest,
      Block.partsSize_cons]

end

/-- And it has one. -/
theorem Expr.length_points_pos (e : Expr) : 0 < e.points.length := by
  cases e <;> exact Nat.succ_pos _

/-! ## Leaves on their own -/

namespace Instruction

/-- **What an instruction does on its own**, by `attempt`: one that gives up changes nothing. -/
def applied (instruction : Instruction) (caps : SizeCaps) (state : State) : State :=
  match instruction.attempt caps state with
  | (.ok _, after) => after
  | (.error _, _) => state

/-- Whether an instruction pushes more than `growthCap` items. -/
def overgrows (instruction : Instruction) (limits : Limits) (state : State) : Bool :=
  match instruction.attempt limits.toSizeCaps state with
  | (.ok pushed, _) => limits.growthCap < pushed
  | (.error _, _) => false

end Instruction

namespace Library

variable {library : Library} {limits : Limits} {state : State} {leaf : Expr}
  {instruction : Instruction}

/-- The instruction that a leaf calls. -/
def called? (library : Library) (leaf : Expr) : Option Instruction :=
  (Atom.expr leaf).called?.bind library.instructions.get?

/-- **What a leaf does on its own**: a literal goes to its stack, and an instruction is `applied`.
-/
def applyLeaf (library : Library) (caps : SizeCaps) (state : State) (leaf : Expr) : State :=
  match leaf with
  | .literal value on =>
    match state.push on value with
    | .ok next => next
    | .error _ => state
  | e =>
    match library.called? e with
    | some instruction => instruction.applied caps state
    | none => state

/-- Whether a leaf calls an instruction that `overgrows`. -/
def overgrows (library : Library) (limits : Limits) (state : State) (leaf : Expr) : Bool :=
  (library.called? leaf).any fun instruction => instruction.overgrows limits state

/-- **Leaves one after another** by `applyLeaf`: the state after all of them, or the first one that
pushes too much and the state before it. -/
def runLeaves (library : Library) (limits : Limits) :
    State → List Expr → Except (Expr × State) State :=
  List.foldlM fun state leaf =>
    if library.overgrows limits state leaf then .error (leaf, state)
    else .ok (library.applyLeaf limits.toSizeCaps state leaf)

/-- The first of some leaves does not push too much, and `runLeaves` goes on behind it. -/
theorem runLeaves_cons (tame : library.overgrows limits state leaf = false) (rest : List Expr) :
    library.runLeaves limits state (leaf :: rest) =
      library.runLeaves limits (library.applyLeaf limits.toSizeCaps state leaf) rest := by
  rw [runLeaves, List.foldlM_cons, tame]
  rfl

/-- The first of some leaves pushes too much, and `runLeaves` ends there. -/
theorem runLeaves_cons_overgrown (grows : library.overgrows limits state leaf = true)
    (rest : List Expr) :
    library.runLeaves limits state (leaf :: rest) = .error (leaf, state) := by
  rw [runLeaves, List.foldlM_cons, grows]
  rfl

/-- The first leaf that pushes too much, behind others. -/
theorem runLeaves_append_cons {before : List Expr} {final : State}
    (ran : library.runLeaves limits state before = .ok final)
    (grows : library.overgrows limits final leaf = true) (rest : List Expr) :
    library.runLeaves limits state (before ++ leaf :: rest) = .error (leaf, final) := by
  have hlast := runLeaves_cons_overgrown grows rest
  rw [runLeaves] at ran hlast ⊢
  rw [List.foldlM_append, ran]
  exact hlast

/-- What leaves do depends only on the instructions `called?` by them. -/
theorem runLeaves_congr {other : Library} {leaves : List Expr}
    (same : ∀ leaf ∈ leaves, library.called? leaf = other.called? leaf) (state : State) :
    library.runLeaves limits state leaves = other.runLeaves limits state leaves := by
  induction leaves generalizing state with
  | nil => rfl
  | cons leaf rest ih =>
    obtain ⟨hleaf, hrest⟩ := List.forall_mem_cons.mp same
    have happly : library.applyLeaf limits.toSizeCaps state leaf =
        other.applyLeaf limits.toSizeCaps state leaf := by
      -- A literal is the only leaf that does not call the library.
      cases leaf with
      | literal value on => rfl
      | _ => simp only [applyLeaf, hleaf]
    have hover : library.overgrows limits state leaf = other.overgrows limits state leaf := by
      rw [overgrows, hleaf, overgrows]
    cases hstops : other.overgrows limits state leaf with
    | false => rw [runLeaves_cons (hover.trans hstops), runLeaves_cons hstops, happly, ih hrest]
    | true => rw [runLeaves_cons_overgrown (hover.trans hstops), runLeaves_cons_overgrown hstops]

/-- What a leaf does that calls an instruction. -/
theorem applyLeaf_of_called (called : library.called? leaf = some instruction) (caps : SizeCaps)
    (state : State) : library.applyLeaf caps state leaf = instruction.applied caps state := by
  cases leaf with
  | literal value on => cases called
  | _ => simp only [applyLeaf, called]

/-- Whether it pushes too much. -/
theorem overgrows_of_called (called : library.called? leaf = some instruction) (limits : Limits)
    (state : State) : library.overgrows limits state leaf = instruction.overgrows limits state := by
  rw [overgrows, called, Option.any_some]

end Library

/-! ## States apart from their pending work -/

namespace State

variable {state other : State} {id : StackId} {value : Value} {items : List Value}

/-- **The settled form** of a state: without its pending work on `.exec`, and outside any
transaction. -/
def settled (state : State) : State := state.snapshot.setStack .exec []

/-- Two states with the same stacks, but for `.exec`, and the same printed text. -/
def SameData (state other : State) : Prop :=
  (∀ id, id ≠ .exec → state.stack? id = other.stack? id) ∧ state.stdout = other.stdout

/-- The settled form keeps the stacks for data. -/
theorem stack?_settled (state : State) (hne : id ≠ .exec) :
    state.settled.stack? id = state.stack? id :=
  stack?_setStack_of_ne hne []

/-- States of one `settled` form have the same data. -/
theorem SameData.of_settled (h : state.settled = other.settled) : state.SameData other := by
  refine ⟨fun id hne => ?_, ?_⟩
  · rw [← state.stack?_settled hne, h, other.stack?_settled hne]
  · show state.settled.stdout = other.settled.stdout
    rw [h]

theorem SameData.symm (same : state.SameData other) : other.SameData state :=
  ⟨fun id hne => (same.1 id hne).symm, same.2.symm⟩

theorem SameData.trans {third : State} (first : state.SameData other)
    (second : other.SameData third) : state.SameData third :=
  ⟨fun id hne => (first.1 id hne).trans (second.1 id hne), first.2.trans second.2⟩

/-- The pending work is not part of the `settled` form. -/
theorem settled_setStack (state : State) (items : List Value) :
    (state.setStack .exec items).settled = state.settled := by
  show (state.snapshot.setStack .exec items).setStack .exec [] = state.settled
  rw [setStack_setStack, settled]

/-- Nor are notes. -/
theorem settled_note (state : State) (change : Change) :
    (state.note change).settled = state.settled := by
  rw [note]
  split <;> rfl

/-- What a push leaves behind. -/
theorem push_eq (found : state.stack? id = some items) (value : Value) :
    state.push id value =
      .ok (({ state.setStack id (value :: items) with pushed := state.pushed + 1 }).note
        (.pushed id)) := by
  simp only [push, State.items, found]
  rfl

/-- What a push of data does to the `settled` form, and that it leaves the pending work alone. -/
theorem push_settled (found : state.stack? id = some items) (hne : id ≠ .exec) (value : Value) :
    ∃ next, state.push id value = .ok next ∧
      next.settled = state.settled.setStack id (value :: items) ∧
      next.stack? .exec = state.stack? .exec := by
  refine ⟨_, push_eq found value, ?_, ?_⟩
  · rw [settled_note]
    show (state.snapshot.setStack id (value :: items)).setStack .exec [] = _
    rw [setStack_comm hne.symm, settled]
  · rw [stack?_note]
    exact stack?_setStack_of_ne hne.symm _

/-! ### Pending work -/

/-- The pending work on `.exec` is the code `todo`, the first of it on top. -/
def Pending (state : State) (todo : Block) : Prop :=
  state.stack? .exec = some (todo.map fun e => .code (.expr e))

namespace Pending

variable {e : Expr} {todo : Block}

/-- With pending work the run is not over. -/
theorem depth_ne_zero (pending : state.Pending (e :: todo)) : state.depth .exec ≠ 0 := by
  rw [depth, pending]
  exact Nat.succ_ne_zero _

/-- Without pending work the run is over. -/
theorem depth_eq_zero (pending : state.Pending []) : state.depth .exec = 0 := by
  rw [depth, pending]
  rfl

/-- Pending work is taken from the front by `popAtom`, and nothing else changes. -/
theorem taken (pending : state.Pending (e :: todo)) :
    ∃ popped, (Script.popAtom .exec).run state = (.ok (.expr e), popped) ∧
      popped.Pending todo ∧ popped.settled = state.settled := by
  have hpop : state.apply (.pop .exec) = .ok (.code (.expr e),
      (state.setStack .exec (todo.map fun e => .code (.expr e))).note
        (.popped .exec (.code (.expr e)))) := by
    rw [State.apply, State.pop, itemsOrFault_of_found pending]
    rfl
  refine ⟨_, Script.run_act_of_apply hpop, ?_, ?_⟩
  · rw [Pending, stack?_note, stack?_setStack_self pending]
  · rw [settled_note, settled_setStack]

/-- Code is put in front of the pending work, and nothing else changes. -/
theorem push (pending : state.Pending todo) (e : Expr) :
    ∃ next, state.push .exec (.code (.expr e)) = .ok next ∧ next.Pending (e :: todo) ∧
      next.settled = state.settled := by
  refine ⟨_, push_eq pending _, ?_, ?_⟩
  · rw [Pending, stack?_note]
    exact stack?_setStack_self pending _
  · rw [settled_note]
    exact settled_setStack state _

/-- The parts of a block are put in front of the pending work by `splice`, and nothing else changes.
-/
theorem splice (pending : state.Pending todo) (body : Block) :
    ∃ next, Library.splice body state = .ok next ∧ next.Pending (body ++ todo) ∧
      next.settled = state.settled := by
  induction body with
  | nil => exact ⟨state, rfl, pending, rfl⟩
  | cons e rest ih =>
    -- The parts behind are pushed first.
    obtain ⟨middle, hmiddle, hpending, hsettled⟩ := ih
    obtain ⟨next, hpush, hnext, hsame⟩ := hpending.push e
    refine ⟨next, ?_, hnext, hsame.trans hsettled⟩
    rw [Library.splice] at hmiddle ⊢
    rw [List.foldrM_cons, hmiddle]
    exact hpush

end Pending

end State

/-! ## Detached instructions -/

/-- The instructions that use `.exec` without declaring it. -/
def quietExecNames : List String := ["exec_flush", "exec_stack_depth", "exec_is_empty"]

namespace Instruction

variable {instruction : Instruction} {limits : Limits} {caps : SizeCaps} {state other : State}

/-- An instruction that has nothing to do with the pending work: it does not declare `.exec` and is
not one of the `quietExecNames`. -/
def Detached (instruction : Instruction) : Prop :=
  .exec ∉ instruction.touched ∧ instruction.name ∉ quietExecNames

/-- A core instruction that is `Detached` uses the stacks other than `.exec` only. -/
theorem Detached.uses (detached : instruction.Detached)
    (hmem : instruction ∈ (InstructionSet.core .core).instructions) (caps : SizeCaps) :
    (instruction.body caps).Uses (· ≠ .exec) := by
  obtain ⟨undeclared, loud⟩ := detached
  have hdeclared : ∀ id ∈ instruction.touched, id ≠ .exec :=
    fun id hid heq => undeclared (heq ▸ hid)
  rcases InstructionSet.instructionsFor_confined instruction (InstructionSet.mem_core hmem).1 with
    confined | ⟨id, type, htype, ⟨verb, hverb, hname⟩, confined⟩ | ⟨-, hexec, -⟩
  · exact (confined caps).mono hdeclared
  · refine (confined caps).mono (List.forall_mem_cons.mpr ⟨?_, hdeclared⟩)
    -- On the stack for pending work itself, the name would be one of the three.
    rintro rfl
    cases htype
    simp only [quietVerbs, List.mem_cons, List.not_mem_nil, or_false] at hverb
    rcases hverb with rfl | rfl | rfl <;> exact loud (by rw [hname]; decide)
  · exact absurd hexec undeclared

section Attempt

variable (uses : (instruction.body caps).Uses (· ≠ .exec))
  (undeclared : .exec ∉ instruction.inputs)
include uses undeclared

/-- An instruction that does not use the pending work acts on the `settled` form of a state. -/
theorem attempt_settled (state : State) :
    (instruction.attempt caps state.settled).1 = (instruction.attempt caps state).1 ∧
      (instruction.applied caps state.settled).settled =
        (instruction.applied caps state).settled := by
  have hopen : state.settled.openTransaction = state.openTransaction.setStack .exec [] := rfl
  simp only [applied, attempt, hopen, eval_setStack uses undeclared]
  rcases instruction.eval caps state.openTransaction with ⟨fault | _, after⟩
  · exact ⟨rfl, state.snapshot.settled_setStack []⟩
  · exact ⟨rfl, after.commit.2.settled_setStack []⟩

/-- What it does to the settled form depends on the settled form only. -/
theorem applied_congr (same : state.settled = other.settled) :
    (instruction.applied caps state).settled = (instruction.applied caps other).settled := by
  rw [← (attempt_settled uses undeclared state).2, same,
    (attempt_settled uses undeclared other).2]

end Attempt

/-- Whether it pushes too much depends on the settled form only. -/
theorem overgrows_congr
    (uses : (instruction.body limits.toSizeCaps).Uses (· ≠ .exec))
    (undeclared : .exec ∉ instruction.inputs) (same : state.settled = other.settled) :
    instruction.overgrows limits state = instruction.overgrows limits other := by
  have hfirst (state : State) : instruction.overgrows limits state =
      match (instruction.attempt limits.toSizeCaps state).1 with
      | .ok pushed => decide (limits.growthCap < pushed)
      | .error _ => false := by
    rw [overgrows]
    rcases instruction.attempt limits.toSizeCaps state with ⟨fault | pushed, after⟩ <;> rfl
  rw [hfirst, hfirst, ← (attempt_settled uses undeclared state).1, same,
    (attempt_settled uses undeclared other).1]

end Instruction

/-! ## Detached leaves -/

/-- **A leaf that has nothing to do with the pending work**: a literal that another stack accepts,
or the call of a core instruction that is `Detached`. -/
def Expr.Detached : Expr → Prop
  | .literal value on => on ≠ .exec ∧ (Expr.literal value on).Typed .core
  | e => ∃ instruction, Library.core.called? e = some instruction ∧ instruction.Detached

/-- The two kinds of such leaves. -/
theorem Expr.Detached.literal_or_called {leaf : Expr} (detached : leaf.Detached) :
    (∃ value on, leaf = .literal value on ∧ on ≠ .exec ∧ (Expr.literal value on).Typed .core) ∨
      ∃ instruction, Library.core.called? leaf = some instruction ∧ instruction.Detached := by
  cases leaf with
  | literal value on => exact .inl ⟨value, on, rfl, detached⟩
  | _ => exact .inr detached

/-- **An effect that follows a leaf on its own**: if the leaf `grows` too much it ends the run and
nothing else, and otherwise the state becomes as the leaf leaves it (`applied`), with the pending
work as it was. -/
def Effect.Follows (effect : Effect) (state : State) (grows : Bool) (applied : State) : Prop :=
  (grows = true ∧ effect.stop = some .growthCapExceeded ∧ effect.state.settled = state.settled) ∨
    (grows = false ∧ effect.stop = none ∧ effect.state.settled = applied.settled ∧
      effect.state.stack? .exec = state.stack? .exec)

namespace Library

variable {library : Library} {limits : Limits} {state base : State} {leaf : Expr}
  {instruction : Instruction} {inputs : List Value}

/-- The free `discipline` of the core types governs the core library. -/
theorem governs_core (caps : SizeCaps) (inputs : List Value) :
    (Registry.core.discipline fun _ => True).Governs core caps inputs :=
  Registry.Evolves.start.keepsCore.governs_core caps inputs

/-- A call finds the instruction by its name. -/
theorem perform_of_called? (called : library.called? leaf = some instruction) (limits : Limits)
    (state : State) :
    library.instructions.get? instruction.name = some instruction ∧
      library.perform limits state (.expr leaf) = library.call limits instruction.name state := by
  obtain ⟨name, hname, hfound⟩ := Option.bind_eq_some_iff.mp called
  obtain rfl := InstructionSet.name_of_get? hfound
  exact ⟨hfound, perform_of_called hname⟩

/-- Calling an instruction that is `Detached` follows what it does on its own. -/
theorem call_of_detached
    (governed : state.Governed (Registry.core.discipline fun _ => True) inputs)
    (found : core.instructions.get? instruction.name = some instruction)
    (detached : instruction.Detached) (limits : Limits) :
    (core.call limits instruction.name state).Follows state (instruction.overgrows limits state)
      (instruction.applied limits.toSizeCaps state) := by
  have hmem := List.mem_of_find?_eq_some found
  have governs := governs_core limits.toSizeCaps inputs
  have uses := detached.uses hmem limits.toSizeCaps
  -- The body can only give up or succeed.
  have hmatches := (governs.eval governed hmem).2
  have hbounds := Instruction.eval_ne_outOfBounds uses state.openTransaction
  have hexec := Instruction.stack?_eval uses state.openTransaction
  have hrollback := instruction.eval_rollback limits.toSizeCaps governed.counted
  have hsettled : (instruction.eval limits.toSizeCaps state.openTransaction).2.rollback.settled =
      state.settled := by
    rw [hrollback]
    rfl
  have hpending : (instruction.eval limits.toSizeCaps state.openTransaction).2.rollback.stack?
      .exec = state.stack? .exec := by
    rw [hrollback]
    rfl
  simp only [call, found, Instruction.overgrows, Instruction.applied, Instruction.attempt]
  rcases heval : instruction.eval limits.toSizeCaps state.openTransaction with
    ⟨fault | done, after⟩
  · rw [heval] at hmatches hbounds hsettled hpending
    cases fault with
    | revert => exact .inr ⟨rfl, rfl, hsettled, hpending⟩
    | typeError mismatch => exact absurd rfl (hmatches mismatch)
    | outOfBounds => exact absurd rfl hbounds
  · rw [heval] at hexec hsettled
    by_cases hgrown : limits.growthCap < after.pushed
    · simp only [if_pos hgrown]
      exact .inl ⟨decide_eq_true hgrown, rfl, hsettled⟩
    · simp only [if_neg hgrown]
      exact .inr ⟨decide_eq_false hgrown, rfl, rfl, hexec⟩

/-- **The step**: in a run, a leaf that is `Detached` does what it does on its own to a state of the
same `settled` form. -/
theorem perform_of_detached
    (governed : state.Governed (Registry.core.discipline fun _ => True) inputs)
    (detached : leaf.Detached) (same : state.settled = base.settled) :
    (core.perform limits state (.expr leaf)).Follows state (core.overgrows limits base leaf)
      (core.applyLeaf limits.toSizeCaps base leaf) := by
  rcases detached.literal_or_called with
    ⟨value, on, rfl, hne, type, htype, haccepts⟩ | ⟨instruction, hcalled, hdetached⟩
  · -- Both states have the stack, with the same items.
    have governs := governs_core limits.toSizeCaps inputs
    have hpresent := (governs.literal htype haccepts (Registry.sound_of_free _ _)).1
    obtain ⟨items, hitems⟩ :=
      Option.isSome_iff_exists.mp ((governed.meets.present on).mp hpresent)
    have hbase : base.stack? on = some items := by
      rw [← base.stack?_settled hne, ← same, state.stack?_settled hne, hitems]
    obtain ⟨next, hpush, hnext, hexec⟩ := State.push_settled hitems hne value
    obtain ⟨after, hafter, hsettled, -⟩ := State.push_settled hbase hne value
    refine .inr ⟨rfl, ?_⟩
    have hplaced : core.perform limits state (.expr (.literal value on)) = { state := next } := by
      rw [perform, placeLiteral, show core.registry.get? on = some type from htype]
      simp only [haccepts, if_true, hpush]
      rfl
    have happlied : core.applyLeaf limits.toSizeCaps base (.literal value on) = after := by
      simp only [applyLeaf, hafter]
    rw [hplaced, happlied, hnext, hsettled, same]
    exact ⟨rfl, rfl, hexec⟩
  -- A call that does not use the pending work does the same in both states.
  · obtain ⟨hfound, hperform⟩ := perform_of_called? hcalled limits state
    have uses := hdetached.uses (List.mem_of_find?_eq_some hfound) limits.toSizeCaps
    have hundeclared : .exec ∉ instruction.inputs :=
      fun hin => hdetached.1 (List.mem_append_left _ hin)
    rw [hperform, overgrows_of_called hcalled, applyLeaf_of_called hcalled]
    rw [← Instruction.overgrows_congr uses hundeclared same]
    have hcall := call_of_detached governed hfound hdetached limits
    rw [Effect.Follows] at hcall ⊢
    rwa [Instruction.applied_congr uses hundeclared same] at hcall

/-- The parts of a block take its place in the pending work (`Pending`), and nothing else changes.
-/
theorem perform_block {todo : Block} (pending : state.Pending todo) (library : Library)
    (limits : Limits) (body : Block) :
    ∃ next, library.perform limits state (.expr (.block body)) = { state := next } ∧
      next.Pending (body ++ todo) ∧ next.settled = state.settled := by
  obtain ⟨next, hsplice, hnext, hsame⟩ := pending.splice body
  refine ⟨next, ?_, hnext, hsame⟩
  rw [perform, hsplice]
  rfl

/-! ## Runs through points -/

/-- **How a run through some points ends**: after all of them, or at the first leaf that
`overgrows`. The number of steps is `count`. -/
inductive Passes (library : Library) (limits : Limits) (start : State) :
    (points : List Expr) → StopReason → (count : Nat) → State → Prop where
  /-- No leaf pushed too much. -/
  | completed {points : List Expr} {final : State}
      (ran : library.runLeaves limits start (points.filter Expr.isLeaf) = .ok final) :
    Passes library limits start points .normal points.length final
  /-- The leaves before this one did not push too much, and this one does. -/
  | overgrown {before after : List Expr} {leaf : Expr} {final : State}
      (ran : library.runLeaves limits start (before.filter Expr.isLeaf) = .ok final)
      (grows : library.overgrows limits final leaf = true) :
    Passes library limits start (before ++ leaf :: after) .growthCapExceeded (before.length + 1)
      final

namespace Passes

variable {start final : State} {points : List Expr} {reason : StopReason} {count : Nat}

/-- A block in front does nothing but take a step: `count + 1`. -/
theorem cons_block (passes : library.Passes limits start points reason count final) (body : Block) :
    library.Passes limits start (.block body :: points) reason (count + 1) final := by
  cases passes with
  | completed ran => exact .completed ran
  | @overgrown before after leaf final ran grows =>
    rw [← List.cons_append]
    exact .overgrown ran grows

/-- A leaf in front does what it does on its own. -/
theorem cons_leaf (isLeaf : leaf.isLeaf = true)
    (tame : library.overgrows limits start leaf = false)
    (passes : library.Passes limits (library.applyLeaf limits.toSizeCaps start leaf) points reason
      count final) :
    library.Passes limits start (leaf :: points) reason (count + 1) final := by
  cases passes with
  | completed ran =>
    refine .completed ?_
    rw [List.filter_cons_of_pos isLeaf, runLeaves_cons tame, ran]
  | @overgrown before after last final ran grows =>
    rw [← List.cons_append]
    refine .overgrown ?_ grows
    rw [List.filter_cons_of_pos isLeaf, runLeaves_cons tame, ran]

/-- A leaf in front that pushes too much ends the run. -/
theorem cons_overgrown (grows : library.overgrows limits start leaf = true) :
    library.Passes limits start (leaf :: points) .growthCapExceeded 1 start := by
  rw [← List.nil_append (leaf :: points)]
  exact .overgrown rfl grows

/-- The two ends of `Passes`, with what each says. -/
theorem completed_or_overgrown
    (passes : library.Passes limits start points reason count final) :
    (library.runLeaves limits start (points.filter Expr.isLeaf) = .ok final ∧
        reason = .normal ∧ count = points.length) ∨
      ∃ before leaf after, points = before ++ leaf :: after ∧
        library.runLeaves limits start (before.filter Expr.isLeaf) = .ok final ∧
        library.overgrows limits final leaf = true ∧
        reason = .growthCapExceeded ∧ count = before.length + 1 := by
  cases passes with
  | completed ran => exact .inl ⟨ran, rfl, rfl⟩
  | overgrown ran grows => exact .inr ⟨_, _, _, rfl, ran, grows, rfl, rfl⟩

/-- What the leaves do one after another (`runLeaves`) tells how the run ends. -/
theorem runLeaves_eq (passes : library.Passes limits start points reason count final) :
    (reason = .normal ∧
        library.runLeaves limits start (points.filter Expr.isLeaf) = .ok final) ∨
      (reason = .growthCapExceeded ∧ ∃ leaf,
        library.runLeaves limits start (points.filter Expr.isLeaf) = .error (leaf, final)) := by
  cases passes with
  | completed ran => exact .inl ⟨rfl, ran⟩
  | @overgrown before after leaf final ran grows =>
    -- A leaf that calls an instruction is no block.
    have hleaf : leaf.isLeaf = true := by
      cases leaf with
      | block body => cases grows
      | _ => rfl
    refine .inr ⟨rfl, leaf, ?_⟩
    rw [List.filter_append, List.filter_cons_of_pos hleaf]
    exact runLeaves_append_cons ran grows _

/-- So points with the same leaves, those that are `isLeaf`, are passed to the same end. -/
theorem unique {others : List Expr} {reason' : StopReason} {count' : Nat} {final' : State}
    (one : library.Passes limits start points reason count final)
    (two : library.Passes limits start others reason' count' final')
    (same : others.filter Expr.isLeaf = points.filter Expr.isLeaf) :
    reason' = reason ∧ final' = final := by
  have htwo := two.runLeaves_eq
  rw [same] at htwo
  rcases one.runLeaves_eq with ⟨hreason, hone⟩ | ⟨hreason, leaf, hone⟩ <;> rw [hone] at htwo <;>
    rcases htwo with ⟨hreason', heq⟩ | ⟨hreason', leaf', heq⟩ <;> cases heq
  · exact ⟨hreason'.trans hreason.symm, rfl⟩
  · exact ⟨hreason'.trans hreason.symm, rfl⟩

end Passes

/-- The end of a run through some points (`Passes`) that counts on from `steps`. -/
def EndsThrough {σ : Type} (library : Library) (limits : Limits) (start : State)
    (points : List Expr) (steps : Nat) (ending : Ending σ) : Prop :=
  ∃ count final, library.Passes limits start points ending.reason count final ∧
    ending.steps = steps + count ∧ ending.state.settled = final.settled

namespace EndsThrough

variable {σ : Type} {start : State} {points : List Expr} {steps : Nat} {ending : Ending σ}

/-- There is nothing to pass. -/
theorem nil (same : state.settled = start.settled) (data : σ) :
    library.EndsThrough limits start [] steps ⟨.normal, steps, state, data⟩ :=
  ⟨0, start, .completed rfl, rfl, same⟩

/-- A block in front takes a step. -/
theorem cons_block (ends : library.EndsThrough limits start points (steps + 1) ending)
    (body : Block) : library.EndsThrough limits start (.block body :: points) steps ending := by
  obtain ⟨count, final, passes, hsteps, hsettled⟩ := ends
  exact ⟨count + 1, final, passes.cons_block body, by omega, hsettled⟩

/-- A leaf in front takes a step. -/
theorem cons_leaf (isLeaf : leaf.isLeaf = true)
    (tame : library.overgrows limits start leaf = false)
    (ends : library.EndsThrough limits (library.applyLeaf limits.toSizeCaps start leaf) points
      (steps + 1) ending) : library.EndsThrough limits start (leaf :: points) steps ending := by
  obtain ⟨count, final, passes, hsteps, hsettled⟩ := ends
  exact ⟨count + 1, final, passes.cons_leaf isLeaf tame, by omega, hsettled⟩

end EndsThrough

/-- **The run**: pending code whose leaves are `Detached` is a run through its points, if there are
the steps and the time (`Clock.Lasts`) for them. -/
theorem proceed_of_detached {σ : Type} (tracer : Tracer σ) {clock : Clock} {remaining steps : Nat}
    {data : σ} {todo : Block} (detached : ∀ leaf ∈ Block.leaves todo, leaf.Detached)
    (governed : state.Governed (Registry.core.discipline fun _ => True) inputs)
    (pending : state.Pending todo) (same : state.settled = base.settled)
    (enough : (Block.points todo).length ≤ remaining)
    (lasts : clock.Lasts limits steps (Block.points todo).length) :
    core.EndsThrough limits base (Block.points todo) steps
      (core.proceed limits clock tracer remaining steps state data) := by
  have governs := governs_core limits.toSizeCaps inputs
  -- The induction is on the steps left. What is pending is tracked by `todo`, and the rest of the
  -- state by `settled`.
  induction remaining generalizing state base steps data todo with
  | zero =>
    cases todo with
    | nil =>
      rw [proceed_of_idle pending.depth_eq_zero]
      exact .nil same data
    | cons e rest =>
      have := e.length_points_pos
      rw [Block.points_cons, List.length_append] at enough
      omega
  | succ remaining ih =>
    cases todo with
    | nil =>
      rw [proceed_of_idle pending.depth_eq_zero]
      exact .nil same data
    | cons e rest =>
      obtain ⟨popped, htaken, hrest, hpopped⟩ := pending.taken
      have hgoverned := (governs.taken governed htaken).1
      have hnext := (governs.perform hgoverned (Registry.sound_of_free _ (.code (.expr e)))).1
      by_cases hleaf : e.isLeaf = true
      · have hpoints : Block.points (e :: rest) = e :: Block.points rest := by
          rw [Block.points_cons, Expr.points_of_isLeaf hleaf, List.singleton_append]
        rw [Block.leaves, hpoints, List.filter_cons_of_pos hleaf] at detached
        obtain ⟨hdetached, hothers⟩ := List.forall_mem_cons.mp detached
        rw [hpoints] at enough lasts ⊢
        rcases perform_of_detached hgoverned hdetached (hpopped.trans same) with
          ⟨hover, hstop, hsettled⟩ | ⟨htame, hgoes, hsettled, hexec⟩
        · rw [proceed_of_stopped pending.depth_ne_zero lasts.now htaken hstop]
          exact ⟨1, base, .cons_overgrown hover, rfl, hsettled.trans (hpopped.trans same)⟩
        · rw [proceed_of_going pending.depth_ne_zero lasts.now htaken hgoes]
          refine .cons_leaf hleaf htame (ih hothers hnext ?_ hsettled ?_ lasts.next)
          · exact hexec.trans hrest
          · exact Nat.le_of_succ_le_succ enough
      · -- The parts of a block are pending instead of it.
        obtain ⟨body, rfl⟩ : ∃ body, e = .block body := by
          cases e with
          | block body => exact ⟨body, rfl⟩
          | _ => exact absurd rfl hleaf
        obtain ⟨next, hperform, hbody, hsame⟩ := perform_block hrest core limits body
        have hgoes : (core.perform limits popped (.expr (.block body))).stop = none := by
          rw [hperform]
        rw [Block.leaves, Block.points_block_cons] at detached
        rw [Block.points_block_cons] at enough lasts ⊢
        rw [proceed_of_going pending.depth_ne_zero lasts.now htaken hgoes]
        rw [hperform] at hnext ⊢
        refine .cons_block (ih detached hnext hbody ?_ ?_ lasts.next) body
        · exact hsame.trans (hpopped.trans same)
        · exact Nat.le_of_succ_le_succ enough

end Library

namespace Machine

/-- The run of code with detached leaves is one through its points (`Passes`), the code itself being
the first of them. -/
theorem passes_run {code : Block} (detached : ∀ leaf ∈ Block.leaves code, leaf.Detached)
    (inputs : List Value) (outputs : List String) {limits : Limits} {clock : Clock}
    (enough : Block.size code ≤ limits.stepLimit)
    (lasts : clock.Lasts limits 0 (Block.size code)) :
    let start := (State.ofRegistry .core).withInputs inputs
    let ran := core.run code inputs outputs limits clock
    ∃ final, Library.core.Passes limits start (Expr.block code).points ran.1.reason ran.1.steps
        final ∧ ran.2.state.SameData final := by
  intro start ran
  have hempty := State.governed_ofRegistry .core (fun _ => True) inputs
  obtain ⟨loaded, hload, hgoverned⟩ := (Library.governs_core limits.toSizeCaps inputs).load core
    hempty (Registry.sound_of_free _ (.code (.expr (.block code))))
  have hidle : start.Pending [] := rfl
  obtain ⟨next, hpush, hpending, hsettled⟩ := hidle.push (.block code)
  obtain rfl : next = loaded := by
    have hloaded : start.push .exec (.code (.expr (.block code))) = .ok loaded :=
      congrArg Prod.snd hload
    exact Except.ok.inj (hpush.symm.trans hloaded)
  have hpoints : Block.points [.block code] = (Expr.block code).points := List.append_nil _
  -- The program is pending as one block, the first of its points.
  have hends : Library.core.EndsThrough limits start (Expr.block code).points 0
      (Library.core.proceed limits clock .silent limits.stepLimit 0 next ()) := by
    rw [← hpoints]
    have hsize : (Block.points [.block code]).length = Block.size code := by
      rw [hpoints, Expr.length_points]
      rfl
    refine Library.proceed_of_detached .silent ?_ hgoverned hpending hsettled ?_ ?_
    · rw [Block.leaves, hpoints]
      exact detached
    · exact hsize.trans_le enough
    · exact lasts.mono hsize.le
  obtain ⟨count, final, passes, hsteps, hfinal⟩ := hends
  rw [Nat.zero_add] at hsteps
  subst hsteps
  have hran : ran = _ := run_eq_of_load hload outputs limits clock
  rw [hran]
  exact ⟨final, passes, .of_settled hfinal⟩

/-- **Blocks only group** code whose leaves have nothing to do with the pending work
(`Expr.Detached`), on the core machine with enough steps and a clock that lasts for them. Either all
leaves are applied one after another in pre-order (`Library.runLeaves`), and the run takes as many
steps as the code has points, or it ends at the first leaf that pushes too much, in the state before
that leaf. So code with the same leaves ends for the same reason with the same data. -/
theorem run_of_detached (code : Block) (detached : ∀ leaf ∈ Block.leaves code, leaf.Detached)
    (inputs : List Value) (outputs : List String) (limits : Limits) (clock : Clock)
    (enough : Block.size code ≤ limits.stepLimit)
    (lasts : clock.Lasts limits 0 (Block.size code)) :
    let start := (State.ofRegistry .core).withInputs inputs
    let ran := core.run code inputs outputs limits clock
    ((∃ final, Library.core.runLeaves limits start (Block.leaves code) = .ok final ∧
        ran.1.reason = .normal ∧ ran.1.steps = Block.size code ∧
        ran.2.state.SameData final ∧ ran.1.stdout = final.stdout) ∨
      ∃ before leaf after final, (Expr.block code).points = before ++ leaf :: after ∧
        Library.core.runLeaves limits start (before.filter Expr.isLeaf) = .ok final ∧
        Library.core.overgrows limits final leaf = true ∧
        ran.1.reason = .growthCapExceeded ∧ ran.1.steps = before.length + 1 ∧
        ran.2.state.SameData final ∧ ran.1.stdout = final.stdout) ∧
    ∀ (other : Block) (timer : Clock), Block.leaves other = Block.leaves code →
      Block.size other ≤ limits.stepLimit → timer.Lasts limits 0 (Block.size other) →
      let regrouped := core.run other inputs outputs limits timer
      regrouped.1.reason = ran.1.reason ∧ regrouped.2.state.SameData ran.2.state ∧
        regrouped.1.stdout = ran.1.stdout := by
  intro start ran
  obtain ⟨final, passes, hdata⟩ := passes_run detached inputs outputs enough lasts
  refine ⟨?_, fun other timer hleaves henough htime => ?_⟩
  · have hstdout : ran.1.stdout = final.stdout := hdata.2
    rcases passes.completed_or_overgrown with ⟨hran, hreason, hsteps⟩ |
      ⟨before, leaf, after, hpoints, hran, hover, hreason, hsteps⟩
    · refine .inl ⟨final, hran, hreason, ?_, hdata, hstdout⟩
      exact hsteps.trans (Expr.length_points (.block code))
    · exact .inr ⟨before, leaf, after, final, hpoints, hran, hover, hreason, hsteps, hdata, hstdout⟩
  · obtain ⟨final', passes', hdata'⟩ :=
      passes_run (hleaves ▸ detached) inputs outputs henough htime
    obtain ⟨hreason, rfl⟩ := passes.unique passes' hleaves
    have hsame := hdata'.trans hdata.symm
    exact ⟨hreason, hsame, hsame.2⟩

/-- Two numbers in blocks, between two calls that quote a number. -/
def quotingGroups : Block :=
  [.instr "code_from_int" 0,
    .block [.literal (.int 2) .int, .block [.block [.literal (.int 3) .int], .block []]],
    .deferred "code_from_int"]

/-- The same without blocks. -/
def quotingLeaves : Block :=
  [.instr "code_from_int" 0, .literal (.int 2) .int, .literal (.int 3) .int,
    .deferred "code_from_int"]

/-- The library with the one instruction that they call. -/
def quotingLibrary : Library := ⟨.core, ⟨[Instruction.quoting "int" .int]⟩⟩

/-- The core library has the same instruction for them. -/
theorem called?_quotingLeaves :
    ∀ leaf ∈ quotingLeaves, Library.core.called? leaf = quotingLibrary.called? leaf := by
  have hnames : ∀ leaf ∈ quotingLeaves, (Atom.expr leaf).called? = none ∨
      (Atom.expr leaf).called? = some "code_from_int" := by decide
  have hfound : Library.core.instructions.get? "code_from_int" =
      some (Instruction.quoting "int" .int) := InstructionSet.get?_core rfl rfl
  intro leaf hmem
  rw [Library.called?, Library.called?]
  rcases hnames leaf hmem with hnone | hname
  · rw [hnone, Option.bind_none, Option.bind_none]
  · rw [hname, Option.bind_some, Option.bind_some, hfound]
    rfl

/-- None of them has to do with the pending work: all are `Detached`. -/
theorem detached_quotingLeaves : ∀ leaf ∈ quotingLeaves, leaf.Detached := by
  have hquoting : (Instruction.quoting "int" .int).Detached := ⟨by decide, by decide⟩
  have hnumber (n : Int64) : (Expr.literal (.int n) .int).Detached := ⟨by decide, _, rfl, rfl⟩
  have hcalls := called?_quotingLeaves
  simp only [quotingLeaves, List.forall_mem_cons] at hcalls ⊢
  obtain ⟨hinstr, -, -, hdeferred, -⟩ := hcalls
  exact ⟨⟨_, hinstr, hquoting⟩, hnumber 2, hnumber 3, ⟨_, hdeferred, hquoting⟩, nofun⟩

/-- The first call finds no number and gives up, and the second one quotes the last number. -/
theorem exists_quoted :
    ∃ final, Library.core.runLeaves {} ((State.ofRegistry .core).withInputs []) quotingLeaves =
        .ok final ∧
      final.stack? .int = some [.int 2] ∧
      final.stack? .code = some [.code (.expr (.literal (.int 3) .int))] := by
  rw [Library.runLeaves_congr called?_quotingLeaves]
  exact ⟨_, rfl, rfl, rfl⟩

/-- The run of the blocks takes nine steps, and without them the same is left. -/
theorem run_of_detached_quotingGroups :
    let ran := core.run quotingGroups [] [] {} .still
    let regrouped := core.run quotingLeaves [] [] {} .still
    (∀ leaf ∈ Block.leaves quotingGroups, leaf.Detached) ∧
      Block.leaves quotingGroups = quotingLeaves ∧
      ran.1.reason = .normal ∧ ran.1.steps = 9 ∧ ran.2.state.stack? .int = some [.int 2] ∧
      ran.2.state.stack? .code = some [.code (.expr (.literal (.int 3) .int))] ∧
      regrouped.1.reason = .normal ∧ regrouped.2.state.SameData ran.2.state := by
  intro ran regrouped
  obtain ⟨final, hfinal, hint, hcode⟩ := exists_quoted
  obtain ⟨hends, hother⟩ :=
    run_of_detached quotingGroups detached_quotingLeaves [] [] {} .still (by decide)
      (Clock.lasts_still _ _ _)
  obtain ⟨hreason', hsame, -⟩ :=
    hother quotingLeaves .still rfl (by decide) (Clock.lasts_still _ _ _)
  refine ⟨detached_quotingLeaves, rfl, ?_⟩
  rcases hends with ⟨last, hlast, hreason, hsteps, hdata, -⟩ |
    ⟨before, leaf, after, last, hpoints, hlast, hover, -⟩
  · cases hlast.symm.trans hfinal
    refine ⟨hreason, hsteps, ?_, ?_, hreason'.trans hreason, hsame⟩
    · rw [hdata.1 .int (by decide), hint]
    · rw [hdata.1 .code (by decide), hcode]
  · -- No leaf pushes too much, as all of them have been run.
    have hpasses : Library.core.Passes {} ((State.ofRegistry .core).withInputs [])
        (Expr.block quotingGroups).points .growthCapExceeded (before.length + 1) last := by
      rw [hpoints]
      exact .overgrown hlast hover
    rcases hpasses.runLeaves_eq with ⟨hnormal, -⟩ | ⟨-, other, herror⟩
    · cases hnormal
    · cases herror.symm.trans hfinal

/-- **A run that is late** from the start (`Clock.isSpent`) takes no step of such code, whatever
steps it may take: it neither applies the leaves nor ends at one that pushes too much. -/
theorem run_late_of_detached :
    let limits : Limits := { runtimeLimitMs := 0 }
    let clock : Clock := ⟨fun _ => 1⟩
    let ran := core.run quotingLeaves [] [] limits clock
    (∀ leaf ∈ Block.leaves quotingLeaves, leaf.Detached) ∧
      Block.size quotingLeaves ≤ limits.stepLimit ∧
      ran.1.reason = .timeLimitExceeded ∧ ran.1.steps = 0 ∧
      ran.2.state.stack? .int = some [] :=
  ⟨detached_quotingLeaves, by decide, rfl, rfl, rfl⟩

end Machine

end PushMachine
