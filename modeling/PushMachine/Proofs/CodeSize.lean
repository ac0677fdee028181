import PushMachine.Proofs.Dispatches

/-! # The size of code

Every instruction that puts code together keeps within the limit on points, except the loops over
vectors: what a loop leaves to do has three points more than its body, and no limit is looked at. So
a run whose program and inputs are within the limit can leave it, and each call of such a loop adds
at most three points to the largest code.

For every bound from the limit upwards, code within it is a closed discipline
(`Registry.KeepsCore.closed_within`). One turn of a loop leads from the discipline of a bound to
that of a bound greater by three (`Instruction.iterateVector_within`), every other step stays in it,
and the run adds the turns up (`Library.Steps.within`). -/

namespace PushMachine

/-! ## Code within a bound -/

namespace Block

/-- The order of the parts does not count in `partsSize`. -/
theorem partsSize_eq_of_perm {new body : Block} (h : new.Perm body) :
    partsSize new = partsSize body := by
  induction h with
  | nil => rfl
  | cons e _ ih => rw [partsSize_cons, partsSize_cons, ih]
  | swap e other rest =>
    simp only [partsSize_cons]
    omega
  | trans _ _ first second => exact first.trans second

/-- Some parts of a block have no more points than all. -/
theorem partsSize_le_of_sublist {new body : Block} (h : new.Sublist body) :
    partsSize new ≤ partsSize body := by
  induction h with
  | slnil => exact Nat.le_refl _
  | cons e _ ih =>
    rw [partsSize_cons]
    omega
  | cons_cons e _ ih =>
    rw [partsSize_cons, partsSize_cons]
    omega

end Block

/-- Code of at most `bound` points, or a value that is no code. -/
def Value.AtMost (bound : Nat) : Value → Prop
  | .code atom => atom.size ≤ bound
  | _ => True

/-- A literal of code of at most `bound` points, or any other expression. -/
def Expr.HoldsAtMost (bound : Nat) : Expr → Prop
  | .literal value _ => value.AtMost bound
  | _ => True

/-- **A value with code within a bound**: the value itself is `AtMost bound`, and so is the code
that its literals hold. -/
def Value.CodeWithin (bound : Nat) (value : Value) : Prop :=
  value.AtMost bound ∧ value.Every (Expr.HoldsAtMost bound)

/-- **A state with code within a bound** (`Value.CodeWithin`) on the two stacks for code. -/
def State.CodeWithin (bound : Nat) (state : State) : Prop :=
  ∀ id items, id = .exec ∨ id = .code → state.stack? id = some items →
    ∀ atom, .code atom ∈ items → atom.size ≤ bound

namespace Value

variable {bound wider : Nat} {value : Value}

/-- Code of some points has at most a greater number. -/
theorem AtMost.mono (h : value.AtMost bound) (hle : bound ≤ wider) : value.AtMost wider := by
  cases value with
  | code atom => exact h.trans hle
  | _ => trivial

/-- Code within `bound` is within `wider`. -/
theorem CodeWithin.mono (h : value.CodeWithin bound) (hle : bound ≤ wider) :
    value.CodeWithin wider := by
  refine ⟨h.1.mono hle, h.2.mono fun e he => ?_⟩
  cases e with
  | literal held on => exact AtMost.mono he hle
  | _ => trivial

/-- There is no code in a value that has a `homeStack?`. -/
theorem codeWithin_of_homeStack? {id : StackId} (h : value.homeStack? = some id) :
    value.CodeWithin bound := by
  refine ⟨?_, Registry.every_of_homeStack? h⟩
  cases value with
  | code atom => cases h
  | _ => trivial

end Value

namespace Registry

variable {registry : Registry} {bound : Nat} {caps : SizeCaps}

/-- **Code within a bound** is closed for every bound from `maxPoints` upwards. -/
theorem KeepsCore.closed_within (keeps : registry.KeepsCore) (hpos : 1 ≤ caps.maxPoints)
    (hbound : caps.maxPoints ≤ bound) :
    (registry.typing (Value.CodeWithin bound)).Closed caps := by
  have hleaf : 1 ≤ bound := hpos.trans hbound
  refine keeps.closed_of_data Value.codeWithin_of_homeStack? (fun _ _ held => ⟨hleaf, held⟩)
    (fun _ => ⟨hleaf, trivial⟩) ?part ?built ?rearranged ⟨hleaf, trivial, trivial⟩
  case part =>
    intro body e within hmem
    have hsize : 1 + Block.partsSize body ≤ bound := within.1
    have hpart := Block.size_le_partsSize hmem
    refine ⟨?_, Block.every_iff.mp within.2.2 e hmem⟩
    show e.size ≤ bound
    omega
  -- Only here the limit on points matters: what is built has to fit it.
  case built =>
    intro body within hsize
    exact ⟨hsize.trans hbound, trivial, Block.every_iff.mpr fun e he => (within e he).2⟩
  case rearranged =>
    intro body new within hsubperm
    have hsize : 1 + Block.partsSize body ≤ bound := within.1
    have hsubset := hsubperm.subset
    refine ⟨?_, trivial, Block.every_iff.mpr fun e he =>
      Block.every_iff.mp within.2.2 e (hsubset he)⟩
    obtain ⟨parts, hperm, hsublist⟩ := hsubperm
    have hparts := Block.partsSize_le_of_sublist hsublist
    rw [Block.partsSize_eq_of_perm hperm] at hparts
    show 1 + Block.partsSize new ≤ bound
    omega

/-- The discipline of code within a bound `Governs` the types of a registry without instructions. -/
theorem KeepsCore.governs_within (keeps : registry.KeepsCore) (hpos : 1 ≤ caps.maxPoints)
    (hbound : caps.maxPoints ≤ bound) {inputs : List Value}
    (within : ∀ value ∈ inputs, value.CodeWithin caps.maxPoints) :
    (registry.typing (Value.CodeWithin bound)).Governs ⟨registry, .empty⟩ caps inputs :=
  keeps.governs_typing (keeps.closed_within hpos hbound) (fun hliteral => hliteral.2)
    (List.forall_mem_nil _) fun value hmem => (within value hmem).mono hbound

end Registry

namespace State.Governed

variable {registry : Registry} {inputs : List Value} {state : State} {bound wider : Nat}

/-- A state with code within a bound is one with code within a greater one. -/
theorem mono_within
    (governed : state.Governed (registry.typing (Value.CodeWithin bound)) inputs)
    (hle : bound ≤ wider) : state.Governed (registry.typing (Value.CodeWithin wider)) inputs where
  meets := ⟨governed.meets.present, fun id items hitems value hvalue => by
    obtain ⟨hbelongs, hwithin⟩ := governed.meets.allowed id items hitems value hvalue
    exact ⟨hbelongs, hwithin.mono hle⟩⟩
  counted := governed.counted
  inputs_eq := governed.inputs_eq

/-- The code on the stacks of a state that is `Governed` by the discipline is within the bound. -/
theorem codeWithin (governed : state.Governed (registry.typing (Value.CodeWithin bound)) inputs) :
    state.CodeWithin bound :=
  fun id items _ hitems _ hmem => (governed.meets.allowed id items hitems _ hmem).2.1

end State.Governed

/-! ## One turn of a loop -/

namespace Script

/-- A script in two parts runs the second where the first has led: `run` of a bind. -/
theorem run_bind {α β : Type} (script : Script α) (rest : α → Script β) (state : State) :
    (script >>= rest).run state = match script.run state with
      | (.ok result, after) => (rest result).run after
      | (.error fault, after) => (.error fault, after) := by
  induction script generalizing state with
  | done result => rfl
  | fail fault => rfl
  | act op next ih =>
    rw [act_bind, run, run]
    cases state.apply op with
    | error fault => rfl
    | ok done => exact ih done.1 done.2

end Script

/-- A script in two parts that obey different disciplines. -/
theorem State.Governed.run_bind {α β : Type} {first second : Discipline} {inputs : List Value}
    {state : State} {script : Script α} {rest : α → Script β} {post : α → Prop}
    (governed : state.Governed first inputs) (obeys : script.Obeys first post)
    (looser : ∀ {after : State}, after.Governed first inputs → after.Governed second inputs)
    (hrest : ∀ result after, post result → after.Governed first inputs →
      ((rest result).run after).2.Governed second inputs) :
    ((script >>= rest).run state).2.Governed second inputs := by
  have hafter := governed.run obeys
  have hpost := (obeys.run governed.meets).2.1
  rw [Script.run_bind]
  rcases hrun : script.run state with ⟨fault | result, after⟩
  · rw [hrun] at hafter
    exact looser hafter
  · rw [hrun] at hafter hpost
    exact hrest result after (hpost result rfl) hafter

namespace Instruction

variable {registry : Registry} {inputs : List Value} {state : State} {bound : Nat}
  {caps : SizeCaps} {α : Type} [BEq α] [Item α]

/-- **What a loop leaves to do** (`loopRest`) has at most three points more than its body. -/
theorem loopRest_within [LawfulItem α] {body : Atom}
    (hbody : (Value.code body).CodeWithin bound) (rest : List α) :
    (Value.code (loopRest rest body)).CodeWithin (bound + 3) := by
  have hsize : body.size ≤ bound := hbody.1
  refine ⟨?_, trivial, Block.every_iff.mpr fun e he => ?_⟩
  · show 1 + Block.partsSize (Block.ofAtoms _) ≤ bound + 3
    -- A closer is no part of the block and makes it one point smaller.
    cases body with
    | closer =>
      simp only [Block.ofAtoms, List.filterMap_cons, List.filterMap_nil, Block.partsSize_cons,
        Block.partsSize_nil, Expr.size]
      omega
    | expr e =>
      rw [Atom.size] at hsize
      simp only [Block.ofAtoms, List.filterMap_cons, List.filterMap_nil, Block.partsSize_cons,
        Block.partsSize_nil, Expr.size]
      omega
  · simp only [Block.mem_ofAtoms, List.mem_cons, List.not_mem_nil, or_false, Atom.expr.injEq] at he
    rcases he with rfl | rfl | rfl
    · exact Value.codeWithin_of_homeStack? (LawfulItem.homeStack?_toVector rest)
    · trivial
    · exact (hbody.mono (Nat.le_add_right bound 3)).2

/-- **One turn of a loop over a vector** leads from code within `bound` to code within `bound + 3`.
-/
theorem iterateVector_within [LawfulItem α] (keeps : registry.KeepsCore)
    (hpos : 1 ≤ caps.maxPoints) (hbound : caps.maxPoints ≤ bound)
    (touched : ∀ id ∈ (vectorLoop α).touched, registry.contains id = true)
    (governed : state.Governed (registry.typing (Value.CodeWithin bound)) inputs) :
    ((iterateVector α).run state).2.Governed (registry.typing (Value.CodeWithin (bound + 3)))
      inputs := by
  have closed := keeps.closed_within hpos hbound
  have closed' := keeps.closed_within hpos (hbound.trans (Nat.le_add_right bound 3))
  have vector : registry.contains (Item.vector α) = true := touched _ (.head _)
  have exec : registry.contains .exec = true := touched _ (.tail _ (.head _))
  have item : registry.contains (Item.stack α) = true := touched _ (.tail _ (.tail _ (.head _)))
  rw [iterateVector_eq]
  -- The vector and the body are taken under the first bound; what is pushed is under the second.
  refine governed.run_bind (closed.popVector vector fun _ _ => trivial)
    (fun h => h.mono_within (Nat.le_add_right bound 3)) fun items popped _ hpopped => ?_
  refine hpopped.run_bind (closed.popAtom (.inl rfl) exec fun _ hbody => hbody)
    (fun h => h.mono_within (Nat.le_add_right bound 3)) fun body taken hbody htaken => ?_
  refine (htaken.mono_within (Nat.le_add_right bound 3)).run
    (unrollVector_keeps closed' exec item (fun x _ => ?_) ?_ ?_)
  · exact Value.codeWithin_of_homeStack? (LawfulItem.homeStack?_toValue x)
  · exact hbody.mono (Nat.le_add_right bound 3)
  · exact loopRest_within hbody items.tail

/-- Trying one of the `vectorLoops` adds at most three points. -/
theorem eval_vectorLoop_within (keeps : registry.KeepsCore) (hpos : 1 ≤ caps.maxPoints)
    (hbound : caps.maxPoints ≤ bound) {instruction : Instruction}
    (hloop : instruction ∈ vectorLoops)
    (touched : ∀ id ∈ instruction.touched, registry.contains id = true)
    (governed : state.Governed (registry.typing (Value.CodeWithin bound)) inputs) :
    (instruction.eval caps state).2.Governed (registry.typing (Value.CodeWithin (bound + 3)))
      inputs := by
  rw [eval]
  split
  · simp only [vectorLoops, List.mem_cons, List.not_mem_nil, or_false] at hloop
    rcases hloop with rfl | rfl | rfl | rfl | rfl <;>
      exact iterateVector_within keeps hpos hbound touched governed
  · exact governed.mono_within (Nat.le_add_right bound 3)

end Instruction

/-! ## Steps -/

/-- Whether a name is that of one of the `vectorLoops`. -/
def Instruction.isLoopName (name : String) : Bool :=
  vectorLoops.any fun loop => loop.name == name

/-- Whether an atom calls a loop over vectors (`isLoopName`). -/
def Atom.callsLoop (atom : Atom) : Bool := atom.called?.any Instruction.isLoopName

namespace Library

variable {registry : Registry} {inputs : List Value} {state : State} {bound : Nat}
  {limits : Limits}

/-- A call adds at most three points, and none if its name is not `isLoopName`. -/
theorem call_within (keeps : registry.KeepsCore) (hpos : 1 ≤ limits.maxPoints)
    (hbound : limits.maxPoints ≤ bound) {name : String} {wider : Nat}
    (hwider : bound ≤ wider) (hloop : Instruction.isLoopName name = true → bound + 3 ≤ wider)
    (governed : state.Governed (registry.typing (Value.CodeWithin bound)) inputs) :
    (Library.call ⟨registry, .core registry⟩ limits name state).state.Governed
      (registry.typing (Value.CodeWithin wider)) inputs := by
  refine (governed.mono_within hwider).call fun instruction hfound => ?_
  have hmem := List.mem_of_find?_eq_some hfound
  have hopen := governed.openTransaction
  -- A loop over a vector is the only instruction that may leave code beyond the bound.
  rcases InstructionSet.core_keeps_or (keeps.closed_within hpos hbound) (fun _ h => h) instruction
    hmem with hvector | hkeeps
  · have hname : Instruction.isLoopName name = true := by
      refine List.any_eq_true.mpr ⟨instruction, hvector, ?_⟩
      exact beq_iff_eq.mpr (InstructionSet.name_of_get? hfound)
    exact (Instruction.eval_vectorLoop_within keeps hpos hbound hvector
      (InstructionSet.mem_core hmem).2 hopen).mono_within (hloop hname)
  · refine State.Governed.mono_within ?_ hwider
    rw [Instruction.eval]
    split
    · exact hopen.run hkeeps
    · exact hopen

/-- The points that an atom can add to the largest code: three if it `callsLoop`. -/
def growth (atom : Atom) : Nat := if atom.callsLoop then 3 else 0

/-- **The step**: an atom leads from code within `bound` to code within the bound and its `growth`.
-/
theorem perform_within (keeps : registry.KeepsCore) (hpos : 1 ≤ limits.maxPoints)
    (hbound : limits.maxPoints ≤ bound)
    (within : ∀ value ∈ inputs, value.CodeWithin limits.maxPoints) {atom : Atom}
    (hatom : (Value.code atom).CodeWithin bound)
    (governed : state.Governed (registry.typing (Value.CodeWithin bound)) inputs) :
    (Library.perform ⟨registry, .core registry⟩ limits state atom).state.Governed
      (registry.typing (Value.CodeWithin (bound + growth atom))) inputs := by
  cases hcalled : atom.called? with
  | some name =>
    rw [perform_of_called hcalled]
    refine call_within keeps hpos hbound (Nat.le_add_right _ _) (fun hloop => ?_) governed
    rw [growth, Atom.callsLoop, hcalled, Option.any_some, if_pos hloop]
  | none =>
    -- What calls no instruction does the same where there are none.
    have hother := (keeps.governs_within hpos hbound within).perform governed hatom
    rw [perform_of_not_called hcalled registry (.core registry) .empty limits]
    exact hother.1.mono_within (Nat.le_add_right _ _)

/-- **The run**: the dispatches of the steps add the `growth` of each of them. -/
theorem Steps.within (keeps : registry.KeepsCore) (hpos : 1 ≤ limits.maxPoints)
    (hbound : limits.maxPoints ≤ bound)
    (within : ∀ value ∈ inputs, value.CodeWithin limits.maxPoints) {n : Nat} {last : State}
    (steps : Library.Steps ⟨registry, .core registry⟩ limits n state last)
    (governed : state.Governed (registry.typing (Value.CodeWithin bound)) inputs) :
    let dispatches := Library.dispatches ⟨registry, .core registry⟩ limits n state
    last.Governed (registry.typing (Value.CodeWithin
      (bound + 3 * dispatches.countP fun dispatch => dispatch.atom.callsLoop))) inputs := by
  induction steps generalizing bound with
  | zero => exact governed
  | @succ n state popped last atom taken goes rest ih =>
    have governs := keeps.governs_within hpos hbound within
    obtain ⟨hpopped, hatom⟩ := governs.taken governed taken
    have hnext := ih (hbound.trans (Nat.le_add_right _ _))
      (perform_within keeps hpos hbound within hatom hpopped)
    refine hnext.mono_within (Nat.le_of_eq ?_)
    rw [dispatches_of_going taken goes, List.countP_cons, growth]
    split <;> omega

end Library

namespace Machine

/-- **Code grows by three points for each loop over a vector**: if the limit on points allows one
point, and a program and all code in its literals and inputs is within it, at any depth, then in
every state that the core machine reaches the code on the two stacks for code has at most three
points more than `Limits.maxPoints` for each call of such a loop among the dispatches so far. So
before the first one it is within the limit. -/
theorem size_le_of_reaches (code : Block) (inputs : List Value) (limits : Limits)
    (hpos : 1 ≤ limits.maxPoints) (program : code.size ≤ limits.maxPoints)
    (literals : Block.Every (Expr.HoldsAtMost limits.maxPoints) code)
    (within : ∀ value ∈ inputs, value.CodeWithin limits.maxPoints) (n : Nat) (state : State)
    (reaches : core.Reaches limits code inputs n state) :
    let dispatches := core.firstDispatches limits code inputs n
    dispatches.length = n ∧ state.CodeWithin
      (limits.maxPoints + 3 * dispatches.countP fun dispatch => dispatch.atom.callsLoop) := by
  have keeps : Registry.core.KeepsCore := Registry.Evolves.start.keepsCore
  obtain ⟨start, hstart, hsteps⟩ := reaches
  rw [firstDispatches_of_load hstart]
  refine ⟨hsteps.length_dispatches, ?_⟩
  have hloaded :
      start.Governed (Registry.core.typing (Value.CodeWithin limits.maxPoints)) inputs := by
    have governs := keeps.governs_within hpos (Nat.le_refl _) within
    obtain ⟨loaded, hload, hgoverned⟩ := governs.load ⟨⟨.core, .empty⟩, .ofRegistry .core⟩
      (State.governed_typing .core _ inputs) ⟨program, trivial, literals⟩
    -- Loading does not look at the instructions, so it is the load of the core machine.
    obtain rfl : loaded = start := by
      have hsame : (core.load code inputs).2 = .ok loaded := congrArg Prod.snd hload
      exact Except.ok.inj (hsame.symm.trans hstart)
    exact hgoverned
  exact (hsteps.within keeps hpos (Nat.le_refl _) within hloaded).codeWithin

/-! ## A run that leaves the limit -/

/-- Whether code of more than `bound` points is pending. -/
def overgrown (bound : Nat) (state : State) : Bool :=
  ((state.stack? .exec).getD []).any fun
    | .code atom => bound < atom.size
    | _ => false

/-- A state that is `overgrown` has code that is not within the bound. -/
theorem not_codeWithin_of_overgrown {bound : Nat} {state : State}
    (h : overgrown bound state = true) : ¬state.CodeWithin bound := by
  intro within
  obtain ⟨value, hvalue, hlarge⟩ := List.any_eq_true.mp h
  cases hstack : state.stack? .exec with
  | none =>
    rw [hstack] at hvalue
    cases hvalue
  | some items =>
    rw [hstack, Option.getD_some] at hvalue
    cases value with
    | code atom =>
      have hsmall := within .exec items (.inl rfl) hstack atom hvalue
      exact Nat.not_lt.mpr hsmall (of_decide_eq_true hlarge)
    | _ => cases hlarge

/-- A program of three points that loops over two items, with the loop and its body as an input. -/
def loopProgram : Block := [.literal (.ints [1, 2]) .vectorInt, .input 0]

/-- The input: a block of three points. -/
def loopInput : Value :=
  .code (.expr (.block [.instr "vector_int_iterate" 1, .instr "int_inc" 0]))

/-- Limits with three points of code. -/
def loopLimits : Limits := { maxPoints := 3 }

/-- The program, the code in its literals and its input are within `maxPoints`. -/
theorem loopProgram_within : loopProgram.size ≤ loopLimits.maxPoints ∧
    Block.Every (Expr.HoldsAtMost loopLimits.maxPoints) loopProgram ∧
    ∀ value ∈ [loopInput], value.CodeWithin loopLimits.maxPoints := by
  refine ⟨by decide, ⟨⟨trivial, trivial⟩, trivial, trivial⟩, ?_⟩
  refine List.forall_mem_singleton.mpr ⟨?_, trivial, trivial, trivial, trivial⟩
  show 3 ≤ 3
  exact Nat.le_refl 3

/-- The fifth step is the call of the loop. It leaves four points pending. -/
theorem exists_overgrown :
    ∃ state, core.Reaches loopLimits loopProgram [loopInput] 5 state ∧
      ¬state.CodeWithin loopLimits.maxPoints := by
  have hcomputed : ((Machine.after? ⟨⟨.core, ⟨[Instruction.vectorLoop Int64]⟩⟩, .ofRegistry .core⟩
      loopLimits loopProgram [loopInput] 5).any (overgrown loopLimits.maxPoints)) = true := by
    decide +kernel
  obtain ⟨state, hafter, hovergrown⟩ := (Option.any_eq_true _ _).mp hcomputed
  refine ⟨state, reaches_of_part (fun instruction hmem => ?_) hafter,
    not_codeWithin_of_overgrown hovergrown⟩
  rw [List.mem_singleton.mp hmem]
  exact InstructionSet.get?_core rfl rfl

/-- **Loops over vectors exceed the limit on points**: a program and its input are within
`maxPoints`, and a state is reached in which some code is not. -/
theorem vectorLoop_exceeds_maxPoints :
    1 ≤ loopLimits.maxPoints ∧ loopProgram.size ≤ loopLimits.maxPoints ∧
      Block.Every (Expr.HoldsAtMost loopLimits.maxPoints) loopProgram ∧
      (∀ value ∈ [loopInput], value.CodeWithin loopLimits.maxPoints) ∧
      ∃ state, core.Reaches loopLimits loopProgram [loopInput] 5 state ∧
        ¬state.CodeWithin loopLimits.maxPoints := by
  obtain ⟨hprogram, hliterals, hinput⟩ := loopProgram_within
  exact ⟨by decide, hprogram, hliterals, hinput, exists_overgrown⟩

/-- The bound on that state: it is exceeded without the points for the call, and not with them. -/
theorem size_le_of_reaches_loop :
    let dispatches := core.firstDispatches loopLimits loopProgram [loopInput] 5
    ∃ state, core.Reaches loopLimits loopProgram [loopInput] 5 state ∧ dispatches.length = 5 ∧
      ¬state.CodeWithin loopLimits.maxPoints ∧ state.CodeWithin
        (loopLimits.maxPoints + 3 * dispatches.countP fun dispatch => dispatch.atom.callsLoop) := by
  obtain ⟨hprogram, hliterals, hinput⟩ := loopProgram_within
  obtain ⟨state, hreaches, hovergrown⟩ := exists_overgrown
  obtain ⟨hlength, hwithin⟩ := size_le_of_reaches loopProgram [loopInput] loopLimits
    (by decide) hprogram hliterals hinput 5 state hreaches
  exact ⟨state, hreaches, hlength, hovergrown, hwithin⟩

end Machine

end PushMachine
