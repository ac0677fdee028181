import PushMachine.Proofs.Dispatches
import PushMachine.Proofs.InstructionNames
import PushMachine.Proofs.ScriptRules

/-! # The printed text

All instructions for a registry are quiet, apart from those that print an item and the one that
prints a line break (`InstructionSet.quiet_or_prints`).

What a run prints is put together from what its dispatches print. `Dispatch.text` says what that is,
by the name of the instruction that was called: a line break, or the text of the item on top of the
type's stack, and nothing if the call was not committed.

`State.Printed` is the invariant: the printed text, which is counted right and within the limit.
One dispatch adds its text (`State.Printed.perform`), and so a run adds the texts of its dispatches,
one after another (`Library.Steps.printed` and `Library.proceed_printed`). A call that is taken back
has cut the text off where it was, byte by byte, and counted it anew; that this leads back to the
same count is what `Instruction.eval_rollback` needs the count for. -/

namespace PushMachine

/-! ## Instructions that print nothing -/

/-- An operation that is `Quiet` leaves `stdout` as it is. -/
theorem State.Did.stdout_eq {state after : State} {op : Op} {result : op.Result}
    (did : state.Did op result after) (quiet : op.Quiet) :
    after.stdout = state.stdout ∧ after.stdoutLength = state.stdoutLength := by
  cases did with
  | push found | pop found | flush found | yank found item | shove found =>
    exact ⟨stdout_note _, stdoutLength_note _⟩
  | peek found item | depth => exact ⟨rfl, rfl⟩
  | print fits => exact quiet.elim

/-- **A script that follows `Op.Quiet` leaves the printed text as it is**, whether it is done or
fails. -/
theorem Script.stdout_run {α : Type} {post : α → List StackId → Prop} {owned : List StackId}
    {script : Script α} (quiet : script.Follows (fun op _ => op.Quiet) post owned) (state : State) :
    (script.run state).2.stdout = state.stdout ∧
      (script.run state).2.stdoutLength = state.stdoutLength := by
  induction script generalizing state owned with
  | done result => exact ⟨rfl, rfl⟩
  | fail fault => exact ⟨rfl, rfl⟩
  | act op next ih =>
    rw [run]
    rcases state.apply_cases op with ⟨result, after, happly, did⟩ | ⟨fault, happly, -⟩
    · rw [happly]
      obtain ⟨hstdout, hlength⟩ := did.stdout_eq quiet.1
      obtain ⟨hrest, hrestLength⟩ := ih result (quiet.2 result) after
      exact ⟨hrest.trans hstdout, hrestLength.trans hlength⟩
    · rw [happly]
      exact ⟨rfl, rfl⟩

namespace Instruction

variable {instruction : Instruction}

/-- **An instruction that prints nothing**: its body follows `Op.Quiet`. -/
def Quiet (instruction : Instruction) : Prop := instruction.Follows fun op _ => op.Quiet

/-- A `Plain` instruction prints nothing. -/
theorem Plain.quiet (plain : instruction.Plain) : instruction.Quiet :=
  plain.mono fun _ _ h => h.2.2

/-- Nor does a `Discreet` one. -/
theorem Discreet.quiet {others : List StackId} (discreet : instruction.Discreet others) :
    instruction.Quiet :=
  discreet.mono fun _ _ h => h.2

/-- Trying a quiet instruction, `eval`, leaves the printed text as it is. -/
theorem Quiet.stdout_eval (quiet : instruction.Quiet) (caps : SizeCaps) (state : State) :
    (instruction.eval caps state).2.stdout = state.stdout ∧
      (instruction.eval caps state).2.stdoutLength = state.stdoutLength := by
  rw [eval]
  split
  · exact Script.stdout_run (quiet caps) state
  · exact ⟨rfl, rfl⟩

end Instruction

/-- **The instructions for a registry print nothing**, apart from the `printing` ones of the types
and `printNewline`. -/
theorem InstructionSet.quiet_or_prints {registry : Registry} :
    ∀ instruction ∈ instructionsFor registry, instruction.Quiet ∨
      (∃ id type, registry.get? id = some type ∧
        instruction = Instruction.printing id type.name) ∨
      instruction = Instruction.printNewline := by
  intro instruction hmem
  cases instructionsFor_sorted instruction hmem with
  | plain plain => exact .inl plain.quiet
  | deep _ _ _ discreet =>
    rcases discreet with hdeclared | ⟨-, hown⟩
    · exact .inl hdeclared.quiet
    · exact .inl hown.quiet
  | @printing id type registered => exact .inr (.inl ⟨id, type, registered, rfl⟩)
  | printNewline => exact .inr (.inr rfl)
  | waiting _ _ discreet => exact .inl discreet.quiet

/-! ## What a dispatch prints -/

/-- **The text that an instruction prints** in a state, by its name: a line break for
`"print_newline"`, or the text of the top item of the type that the name tells. -/
def Registry.printedText (registry : Registry) (state : State) (name : String) : String :=
  if name = "print_newline" then "\n"
  else
    match registry.types.find? fun entry => "print_" ++ entry.2.name == name with
    | some (id, _) => ((state.top? id).map Value.display).getD ""
    | none => ""

/-- The text that was printed by an effect on a state: that of the call, if it was `.committed`. -/
def Effect.text (registry : Registry) (before : State) (effect : Effect) : String :=
  match effect.call with
  | some (name, .committed _) => registry.printedText before name
  | _ => ""

/-- **The text that a dispatch prints**: that of its `effect`. -/
def Dispatch.text (library : Library) (limits : Limits) (dispatch : Dispatch) : String :=
  (dispatch.effect library limits).text library.registry dispatch.state

/-! ## Who prints -/

/-- A type keeps its printing instruction, if `type.name` is not that of a line break and the
instruction is not called like a verb. -/
theorem Registry.Agrees.not_loses_print {registry : Registry} {id : StackId} {type : StackType}
    (agrees : registry.Agrees) (registered : registry.get? id = some type)
    (unbroken : type.name ≠ "newline")
    (unlike : ∀ verb ∈ Instruction.shufflingVerbs,
      ¬spelling ("_" ++ verb) <:+ spelling ("print_" ++ type.name)) :
    ¬registry.Loses id type ("print_" ++ type.name) := by
  -- The name would go to the line break, or to a later type that has it too.
  rintro (hname | ⟨later, other, hlt, hother, hmeet⟩)
  · have hspelled : "print_" ++ type.name = "print_" ++ "newline" := hname
    exact unbroken ((String.append_right_inj _).mp hspelled)
  · have hprinting := Instruction.printing_mem_ofType id type
    have hmem := (InstructionSet.name_mem_names_iff_shares agrees registered hprinting hlt
      hother).mpr hmeet
    rcases StackType.mem_names.mp hmem with ⟨verb, hverb, hspelled⟩ | hspelled
    · have hsuffix := other.suffix_of_verb verb
      rw [← hspelled] at hsuffix
      exact unlike verb (StackType.mem_shufflingVerbs hverb) hsuffix
    · have hname : type.name = other.name := (String.append_right_inj _).mp hspelled
      rw [agrees.eq_of_name_eq registered hother hname] at hlt
      exact Nat.lt_irrefl _ hlt

namespace Library

/-- **A library whose types print**: the line break and the items of every type are printed by their
own instructions, and no other instruction prints. -/
structure Prints (library : Library) : Prop where
  /-- The line break has its instruction, `Instruction.printNewline`. -/
  newline : library.instructions.get? "print_newline" = some Instruction.printNewline
  /-- Every type has its printing instruction, `Instruction.printing`. -/
  printing : ∀ id type, library.registry.get? id = some type →
    library.instructions.get? ("print_" ++ type.name) = some (Instruction.printing id type.name)
  /-- The other instructions are `Quiet`. -/
  quiet : ∀ instruction ∈ library.instructions.instructions, instruction.Quiet ∨
    (∃ id type, library.registry.get? id = some type ∧
      instruction = Instruction.printing id type.name) ∨
    instruction = Instruction.printNewline

/-- The core library, `Library.core`, is one. -/
theorem core_prints : Library.core.Prints where
  newline := by
    have hfixed : (Instruction.fixed.reverse.find? fun other => other.name == "print_newline") =
        some Instruction.printNewline := rfl
    refine InstructionSet.get?_core ?_ rfl
    rw [InstructionSet.instructionsFor_eq, List.reverse_append, List.find?_append, hfixed,
      Option.some_or]
  printing := by
    intro id type registered
    -- No core type is named like the line break, and no print ends with a verb.
    have hnames : ∀ entry ∈ Registry.core.types, entry.2.name ≠ "newline" ∧
        ∀ verb ∈ Instruction.shufflingVerbs,
          ¬spelling ("_" ++ verb) <:+ spelling ("print_" ++ entry.2.name) := by
      decide +kernel
    obtain ⟨unbroken, unlike⟩ := hnames _ (Registry.mem_types.mpr registered)
    have hprinting := InstructionSet.get?_core_ofType Registry.core_agrees rfl rfl registered
      (Instruction.printing_mem_ofType id type)
    exact hprinting.2.mpr (Registry.core_agrees.not_loses_print registered unbroken unlike)
  quiet := fun instruction h =>
    InstructionSet.quiet_or_prints instruction (InstructionSet.mem_core h).1

namespace Prints

variable {library : Library} {id : StackId} {type : StackType} {name : String}

/-- The printing instruction of a type prints the top item of its stack. -/
theorem printedText_printing (prints : library.Prints)
    (registered : library.registry.get? id = some type) (state : State) :
    library.registry.printedText state ("print_" ++ type.name) =
      ((state.top? id).map Value.display).getD "" := by
  have hown := prints.printing id type registered
  have hnewline : "print_" ++ type.name ≠ "print_newline" := by
    intro hname
    rw [hname, prints.newline] at hown
    exact absurd (congrArg Instruction.inputs (Option.some.inj hown)) (List.cons_ne_nil _ _).symm
  rw [Registry.printedText, if_neg hnewline]
  cases hfind : library.registry.types.find? fun entry =>
      "print_" ++ entry.2.name == "print_" ++ type.name with
  | none =>
    have hnone := List.find?_eq_none.mp hfind (id, type) (Registry.mem_types.mpr registered)
    exact absurd (beq_self_eq_true _) hnone
  | some entry =>
    -- Two types that print under one name would have one instruction.
    have hname : "print_" ++ entry.2.name = "print_" ++ type.name := by
      simpa using List.find?_some hfind
    have hentry := Registry.mem_types.mp (List.mem_of_find?_eq_some hfind)
    have hother := prints.printing entry.1 entry.2 hentry
    rw [hname, hown] at hother
    have hinputs := congrArg Instruction.inputs (Option.some.inj hother)
    obtain rfl : id = entry.1 := by simpa [Instruction.printing] using hinputs
    rfl

/-- A quiet instruction prints nothing: `printedText` is empty for its name. -/
theorem printedText_of_quiet (prints : library.Prints) {instruction : Instruction}
    (found : library.instructions.get? name = some instruction) (quiet : instruction.Quiet)
    (state : State) : library.registry.printedText state name = "" := by
  -- The name is none that prints, since the instructions of those are not quiet.
  have hnewline : name ≠ "print_newline" := by
    rintro rfl
    rw [prints.newline] at found
    cases found
    exact (quiet {}).1
  rw [Registry.printedText, if_neg hnewline]
  cases hfind : library.registry.types.find? fun entry => "print_" ++ entry.2.name == name with
  | none => rfl
  | some entry =>
    obtain rfl : "print_" ++ entry.2.name = name := by
      simpa using List.find?_some hfind
    have hentry := Registry.mem_types.mp (List.mem_of_find?_eq_some hfind)
    rw [prints.printing entry.1 entry.2 hentry] at found
    cases found
    exact ((quiet {}).2 (.bool true)).1.elim

end Prints

end Library

/-! ## What an instruction prints -/

namespace Instruction

variable {instruction : Instruction} {id : StackId} {caps : SizeCaps} {state after : State}

/-- An instruction whose `eval` succeeds has run its body. -/
theorem run_of_eval (done : instruction.eval caps state = (.ok (), after)) :
    (instruction.body caps).run state = (.ok (), after) := by
  rw [eval] at done
  split at done
  · exact done
  · cases done

/-- Printing an item, `printTop id`, takes it off its stack. -/
theorem run_printTop (done : (printTop id caps).run state = (.ok (), after)) :
    ∃ value rest middle, state.stack? id = some (value :: rest) ∧ after.stack? id = some rest ∧
      state.Did (.pop id) value middle ∧
      middle.Did (.print value.display caps.collectionSizeCap) () after := by
  obtain ⟨value, middle, did, hrest⟩ := Script.did_of_run done
  obtain ⟨_, last, hprint, hlast⟩ := Script.did_of_run hrest
  obtain rfl : last = after := (Prod.mk.inj hlast).2
  cases did with
  | @pop id value rest found =>
    refine ⟨value, rest, _, found, ?_, .pop found, hprint⟩
    cases hprint with
    | print fits =>
      calc (((state.setStack id rest).note (.popped id value)).note _).stack? id
          = ((state.setStack id rest).note (.popped id value)).stack? id := State.stack?_note _
        _ = (state.setStack id rest).stack? id := State.stack?_note _
        _ = some rest := State.stack?_setStack_self found rest

end Instruction

/-- **The printed text of a state**, counted right and within the limit `cap`. -/
structure State.Printed (state : State) (cap : Nat) (text : String) : Prop where
  /-- The printed text is `text`. -/
  stdout_eq : state.stdout = text
  /-- The characters are counted right: `stdoutLength` is the length. -/
  length_eq : state.stdoutLength = text.length
  /-- There are no more than allowed. -/
  within : text.length ≤ cap

namespace State.Printed

variable {state next : State} {cap : Nat} {text : String}

/-- The count is right, as `State.Counted` has it. -/
theorem counted (printed : state.Printed cap text) : state.Counted := by
  rw [Counted, printed.length_eq, printed.stdout_eq]

/-- Only `stdout` and `stdoutLength` matter. -/
theorem of_same (printed : state.Printed cap text)
    (same : next.stdout = state.stdout ∧ next.stdoutLength = state.stdoutLength) :
    next.Printed cap text :=
  ⟨same.1.trans printed.stdout_eq, same.2.trans printed.length_eq, printed.within⟩

/-- Adding nothing to the text. -/
theorem append_nothing (printed : state.Printed cap text) : state.Printed cap (text ++ "") := by
  rwa [String.append_empty]

/-- Printing `added` adds to the text. -/
theorem print {added : String} (printed : state.Printed cap text)
    (did : state.Did (.print added cap) () next) : next.Printed cap (text ++ added) := by
  cases did with
  | print fits =>
    refine ⟨congrArg (· ++ added) printed.stdout_eq, ?_, ?_⟩
    · rw [String.length_append, ← printed.length_eq]
    · rw [String.length_append, ← printed.length_eq]
      exact fits

/-- Pushing prints nothing. -/
theorem pushes (printed : state.Printed cap text) (pushes : state.Pushes next) :
    next.Printed cap text := by
  induction pushes with
  | none => exact printed
  | push _ pushed ih => exact ih.of_same ((did_of_push pushed).stdout_eq trivial)

/-- Taking a pending atom prints nothing. -/
theorem popAtom (printed : state.Printed cap text) :
    ((Script.popAtom .exec).run state).2.Printed cap text := by
  have hquiet : (Script.popAtom .exec).Follows (fun op _ => op.Quiet) (fun _ _ => True) [] := by
    simp
  exact printed.of_same (Script.stdout_run hquiet state)

variable {library : Library} {name : String} {instruction : Instruction} {caps : SizeCaps}

/-- **An instruction that succeeds prints the text of its name**: `printedText` in the state before.
-/
theorem eval (prints : library.Prints)
    (found : library.instructions.get? name = some instruction)
    (printed : state.Printed caps.collectionSizeCap text)
    (done : instruction.eval caps state = (.ok (), next)) :
    next.Printed caps.collectionSizeCap (text ++ library.registry.printedText state name) := by
  have hname := InstructionSet.name_of_get? found
  rcases prints.quiet instruction (List.mem_of_find?_eq_some found) with
    quiet | ⟨id, type, registered, rfl⟩ | rfl
  · have hsame := quiet.stdout_eval caps state
    rw [done] at hsame
    rw [prints.printedText_of_quiet found quiet, String.append_empty]
    exact printed.of_same hsame
  · obtain rfl : "print_" ++ type.name = name := hname
    obtain ⟨value, rest, middle, hfound, -, hpop, hprint⟩ :=
      Instruction.run_printTop (Instruction.run_of_eval done)
    rw [prints.printedText_printing registered, State.top?, hfound]
    exact (printed.of_same (hpop.stdout_eq trivial)).print hprint
  · obtain rfl : "print_newline" = name := hname
    obtain ⟨_, last, hprint, hlast⟩ := Script.did_of_run (Instruction.run_of_eval done)
    obtain rfl : last = next := (Prod.mk.inj hlast).2
    exact printed.print hprint

/-! ## What a dispatch prints -/

variable {limits : Limits} {effect : Effect}

/-- A call prints `effect.text`. A call that is taken back has printed nothing. -/
theorem calls (prints : library.Prints) (printed : state.Printed limits.collectionSizeCap text)
    (calls : library.Calls limits name state effect) :
    effect.state.Printed limits.collectionSizeCap
      (text ++ effect.text library.registry state) := by
  cases calls with
  | unknown missing => rwa [Effect.text, String.append_empty]
  | committed found done fits =>
    have hopen : state.openTransaction.Printed limits.collectionSizeCap text :=
      printed.of_same ⟨rfl, rfl⟩
    exact (hopen.eval prints found done).of_same ⟨rfl, rfl⟩
  -- What a failed call has printed is rolled back with the rest of it.
  | @reverted instruction after found failed =>
    have hback := instruction.eval_rollback limits.toSizeCaps printed.counted
    rw [failed] at hback
    rw [Effect.text, String.append_empty, hback]
    exact printed.of_same ⟨rfl, rfl⟩
  | @terminated instruction result after found tried reason =>
    have hback := instruction.eval_rollback limits.toSizeCaps printed.counted
    rw [tried] at hback
    rw [Effect.text, String.append_empty, hback]
    exact printed.of_same ⟨rfl, rfl⟩

end State.Printed

namespace Library.Calls

variable {library : Library} {limits : Limits} {name : String} {state : State} {effect : Effect}

/-- **A call that is not** `.committed` prints nothing and leaves every stack as it is. -/
theorem of_not_committed (calls : library.Calls limits name state effect)
    (counted : state.Counted)
    (uncommitted : ∀ pushed, effect.call.map Prod.snd ≠ some (.committed pushed)) :
    effect.text library.registry state = "" ∧ effect.state.stdout = state.stdout ∧
      ∀ id, effect.state.stack? id = state.stack? id := by
  cases calls with
  | unknown missing => exact ⟨rfl, rfl, fun _ => rfl⟩
  | committed found done fits => exact absurd rfl (uncommitted _)
  -- Rolling back restores the text and the stacks.
  | @reverted instruction after found failed =>
    have hback := instruction.eval_rollback limits.toSizeCaps counted
    rw [failed] at hback
    rw [hback]
    exact ⟨rfl, rfl, fun _ => rfl⟩
  | @terminated instruction result after found tried reason =>
    have hback := instruction.eval_rollback limits.toSizeCaps counted
    rw [tried] at hback
    rw [hback]
    exact ⟨rfl, rfl, fun _ => rfl⟩

/-- A `.committed` call prints the text of its name. -/
theorem text_of_committed (calls : library.Calls limits name state effect) {pushed : Nat}
    (committed : effect.call.map Prod.snd = some (.committed pushed)) :
    effect.text library.registry state = library.registry.printedText state name := by
  cases calls with
  | committed found done fits => rfl
  | unknown | reverted | terminated => cases committed

/-- **A committed call that prints an item** takes it off its stack. -/
theorem of_committed_printing (prints : library.Prints) {id : StackId} {type : StackType}
    (registered : library.registry.get? id = some type)
    (calls : library.Calls limits ("print_" ++ type.name) state effect) {pushed : Nat}
    (committed : effect.call.map Prod.snd = some (.committed pushed)) :
    ∃ value rest, state.stack? id = some (value :: rest) ∧ effect.state.stack? id = some rest ∧
      effect.text library.registry state = value.display := by
  rw [calls.text_of_committed committed, prints.printedText_printing registered]
  cases calls with
  | committed found done fits =>
    rw [prints.printing id type registered] at found
    cases found
    obtain ⟨value, rest, -, hfound, hrest, -⟩ :=
      Instruction.run_printTop (Instruction.run_of_eval done)
    have hstack : state.stack? id = some (value :: rest) := hfound
    refine ⟨value, rest, hstack, hrest, ?_⟩
    rw [State.top?, hstack]
    rfl
  | unknown | reverted | terminated => cases committed

end Library.Calls

namespace State.Printed

variable {library : Library} {limits : Limits} {text : String}

/-- **The step**: a dispatch adds `dispatch.text`. -/
theorem perform (prints : library.Prints) (dispatch : Dispatch)
    (printed : dispatch.state.Printed limits.collectionSizeCap text) :
    (dispatch.effect library limits).state.Printed limits.collectionSizeCap
      (text ++ dispatch.text library limits) := by
  rw [Dispatch.text]
  cases hcalled : dispatch.atom.called? with
  | none =>
    obtain ⟨hcall, hpushes⟩ := library.perform_pushes limits dispatch.state hcalled
    rw [Effect.text, Dispatch.effect, hcall, String.append_empty]
    exact printed.pushes hpushes
  | some name =>
    exact printed.calls prints (dispatch.calls library limits hcalled)

end State.Printed

/-! ## What a run prints -/

namespace Library

variable {library : Library} {limits : Limits} {state last : State} {text : String} {n : Nat}

/-- The texts of dispatches, `Dispatch.text`, one after another. -/
def printout (library : Library) (limits : Limits) (dispatches : List Dispatch) : String :=
  String.join (dispatches.map (Dispatch.text library limits))

/-- The text of one dispatch comes before those of the further ones. -/
theorem printout_cons (dispatch : Dispatch) (rest : List Dispatch) :
    library.printout limits (dispatch :: rest) =
      dispatch.text library limits ++ library.printout limits rest := by
  rw [printout, List.map_cons, String.join_cons, printout]

/-- The texts of two lists of dispatches, one after the other. -/
theorem printout_append (first second : List Dispatch) :
    library.printout limits (first ++ second) =
      library.printout limits first ++ library.printout limits second := by
  rw [printout, List.map_append, String.join_append, printout, printout]

/-- What the first steps print comes first: `printout` of `n` dispatches begins that of `allowed`.
-/
theorem Steps.printout_add (steps : library.Steps limits n state last) {allowed : Nat}
    (le : n ≤ allowed) :
    ∃ text, library.printout limits (library.dispatches limits allowed state) =
      library.printout limits (library.dispatches limits n state) ++ text := by
  obtain ⟨more, rfl⟩ := Nat.exists_eq_add_of_le le
  rw [steps.dispatches_add more, printout_append]
  exact ⟨_, rfl⟩

/-- **The run**: `n` steps add the `printout` of their dispatches. -/
theorem Steps.printed (prints : library.Prints) (steps : library.Steps limits n state last)
    (printed : state.Printed limits.collectionSizeCap text) :
    last.Printed limits.collectionSizeCap
      (text ++ library.printout limits (library.dispatches limits n state)) := by
  induction steps generalizing text with
  | zero => exact printed.append_nothing
  | @succ n state popped last atom taken goes rest ih =>
    have hpopped := printed.popAtom
    rw [taken] at hpopped
    rw [dispatches_of_going taken goes, printout_cons, ← String.append_assoc]
    exact ih (hpopped.perform prints ⟨popped, atom⟩)

/-- A whole run, `proceed`, adds the `printout` of its dispatches, whatever its ending. -/
theorem proceed_printed {σ : Type} (prints : library.Prints)
    (printed : state.Printed limits.collectionSizeCap text) (clock : Clock) (tracer : Tracer σ)
    (remaining steps : Nat) (data : σ) :
    (library.proceed limits clock tracer remaining steps state data).state.Printed
      limits.collectionSizeCap (text ++ library.printout limits
        (library.dispatches limits (clock.grants limits remaining steps) state)) := by
  -- The text printed so far grows from step to step, so that it is generalized.
  induction remaining generalizing steps state text data with
  | zero =>
    by_cases empty : state.depth .exec = 0
    · rw [proceed_of_idle empty]
      exact printed.append_nothing
    · rw [proceed_zero empty]
      exact printed.append_nothing
  | succ remaining ih =>
    have hpopped := printed.popAtom
    cases library.turn limits clock steps state with
    | idle empty =>
      rw [proceed_of_idle empty, dispatches_of_idle empty]
      exact printed.append_nothing
    | spent pending spent =>
      rw [proceed_of_spent pending spent, Clock.grants_of_spent spent]
      exact printed.append_nothing
    | unpending pending unspent failed =>
      rw [failed] at hpopped
      rw [proceed_of_unpending pending unspent failed, dispatches_of_failed failed]
      exact hpopped.append_nothing
    | @stopped atom popped reason pending unspent taken stops =>
      rw [taken] at hpopped
      rw [proceed_of_stopped pending unspent taken stops, Clock.grants_of_unspent unspent,
        dispatches_of_stopped taken stops, printout_cons, ← String.append_assoc]
      exact (hpopped.perform prints ⟨popped, atom⟩).append_nothing
    | @going atom popped pending unspent taken goes =>
      rw [taken] at hpopped
      rw [proceed_of_going pending unspent taken goes, Clock.grants_of_unspent unspent,
        dispatches_of_going taken goes, printout_cons, ← String.append_assoc]
      exact ih (hpopped.perform prints ⟨popped, atom⟩) _ _

/-- The printed text is counted right wherever an atom is performed. -/
theorem counted_of_mem_dispatches (prints : library.Prints)
    (printed : state.Printed limits.collectionSizeCap text) {remaining : Nat} {dispatch : Dispatch}
    (h : dispatch ∈ library.dispatches limits remaining state) : dispatch.state.Counted := by
  obtain ⟨_, hprinted⟩ := invariant_of_mem_dispatches
    (fun state => ∃ text, state.Printed limits.collectionSizeCap text)
    (fun ⟨_, hbefore⟩ => ⟨_, hbefore.popAtom⟩)
    (fun dispatch ⟨_, hbefore⟩ => ⟨_, hbefore.perform prints dispatch⟩) ⟨_, printed⟩ h
  exact hprinted.counted

end Library

namespace Machine

/-- A program that `load` has loaded has printed nothing yet. -/
theorem printed_of_load {machine : Machine} {code : Block} {inputs : List Value} {start : State}
    (h : (machine.load code inputs).2 = .ok start) (cap : Nat) : start.Printed cap "" := by
  have hempty : (machine.state.reset.withInputs inputs).Printed cap "" :=
    ⟨rfl, rfl, Nat.zero_le _⟩
  exact hempty.of_same ((State.did_of_push h).stdout_eq trivial)

variable {machine : Machine} {code : Block} {inputs : List Value} {limits : Limits}
  {empty start state : State} {n : Nat}

/-- A state that a program `Reaches` has the text of the steps taken. -/
theorem Reaches.printed (prints : machine.library.Prints)
    (loaded : machine.load code inputs = (empty, .ok start))
    (reached : machine.Reaches limits code inputs n state) :
    machine.library.Steps limits n start state ∧
      state.Printed limits.collectionSizeCap
        (machine.library.printout limits (machine.library.dispatches limits n start)) := by
  obtain ⟨first, hfirst, hsteps⟩ := reached
  have hstart := printed_of_load hfirst limits.collectionSizeCap
  rw [loaded] at hfirst
  cases hfirst
  have hprinted := hsteps.printed prints hstart
  rw [String.empty_append] at hprinted
  exact ⟨hsteps, hprinted⟩

/-- Its text begins that of any larger number of dispatches. -/
theorem Reaches.begins (prints : machine.library.Prints)
    (loaded : machine.load code inputs = (empty, .ok start))
    (reached : machine.Reaches limits code inputs n state) {allowed : Nat} (hle : n ≤ allowed) :
    ∃ text, machine.library.printout limits (machine.library.dispatches limits allowed start) =
      state.stdout ++ text := by
  obtain ⟨hsteps, hprinted⟩ := reached.printed prints loaded
  obtain ⟨text, htext⟩ := hsteps.printout_add hle
  exact ⟨text, by rw [htext, hprinted.stdout_eq]⟩

/-- The last state of a run has the `printout` of its dispatches. -/
theorem printed_run (prints : machine.library.Prints)
    (loaded : machine.load code inputs = (empty, .ok start)) (outputs : List String)
    (limits : Limits) (clock : Clock) :
    (machine.run code inputs outputs limits clock).2.state.Printed limits.collectionSizeCap
      (machine.library.printout limits
        (machine.library.dispatches limits (clock.grants limits limits.stepLimit 0) start)) := by
  have hstart : start.Printed limits.collectionSizeCap "" := printed_of_load (by rw [loaded]) _
  have hprinted := Library.proceed_printed prints hstart clock .silent limits.stepLimit 0 ()
  rw [String.empty_append] at hprinted
  rw [run_eq_of_load loaded]
  exact hprinted

/-- **The contract of the printed text**, for every program on the core machine. In every state that
a run `Reaches` and in its last one the characters are counted right and within the limit. Text that
was printed stays: it begins the text of every later state. In the end the text is the `printout` of
the dispatches, one after another. A committed call that prints an item has taken it off its stack
and adds its text; a call that is not committed adds nothing and leaves every stack as it is. -/
theorem run_stdout (code : Block) (inputs : List Value) (outputs : List String) (limits : Limits)
    (clock : Clock) :
    let ran := core.run code inputs outputs limits clock
    let dispatches := core.dispatches limits clock code inputs
    (∀ n state, core.Reaches limits code inputs n state ∨ state = ran.2.state →
      state.stdoutLength = state.stdout.length ∧
        state.stdoutLength ≤ limits.collectionSizeCap) ∧
    (∀ n m earlier later, n ≤ m → core.Reaches limits code inputs n earlier →
      core.Reaches limits code inputs m later → ∃ text, later.stdout = earlier.stdout ++ text) ∧
    (∀ n earlier, n ≤ limits.stepLimit → clock.Lasts limits 0 n →
      core.Reaches limits code inputs n earlier → ∃ text, ran.1.stdout = earlier.stdout ++ text) ∧
    ran.1.stdout = String.join (dispatches.map (Dispatch.text core.library limits)) ∧
    ∀ dispatch ∈ dispatches, ∀ name, dispatch.atom.called? = some name →
      let text := dispatch.text core.library limits
      let after := (dispatch.effect core.library limits).state
      let outcome? := dispatch.outcome? core.library limits
      ((∀ pushed, outcome? ≠ some (.committed pushed)) →
        text = "" ∧ after.stdout = dispatch.state.stdout ∧
          ∀ id, after.stack? id = dispatch.state.stack? id) ∧
      ∀ pushed, outcome? = some (.committed pushed) →
        (name = "print_newline" → text = "\n") ∧
        ∀ id type, Registry.core.get? id = some type → name = "print_" ++ type.name →
          ∃ value rest, dispatch.state.stack? id = some (value :: rest) ∧
            after.stack? id = some rest ∧ text = value.display := by
  intro ran dispatches
  have prints := Library.core_prints
  -- The program can be loaded, and its run starts from a state without text.
  obtain ⟨empty, start, hload, -⟩ :=
    core_madeOf.load Registry.Evolves.start.keepsCore limits code inputs
  have hdispatches : dispatches = core.library.dispatches limits
      (clock.grants limits limits.stepLimit 0) start := firstDispatches_of_load (by rw [hload]) _ _
  have hfinal := printed_run prints hload outputs limits clock
  have hstdout : ran.1.stdout = ran.2.state.stdout := by
    simp only [ran, run_eq_of_load hload]
  refine ⟨?counted, ?earlier, ?before, ?joined, ?calls⟩
  case counted =>
    intro n state hstate
    have hprinted : ∃ text, state.Printed limits.collectionSizeCap text := by
      rcases hstate with hreached | rfl
      · exact ⟨_, (hreached.printed prints hload).2⟩
      · exact ⟨_, hfinal⟩
    obtain ⟨text, hprinted⟩ := hprinted
    exact ⟨hprinted.counted, hprinted.length_eq.trans_le hprinted.within⟩
  case earlier =>
    intro n m earlier later hle hearlier hlater
    rw [(hlater.printed prints hload).2.stdout_eq]
    exact hearlier.begins prints hload hle
  case before =>
    intro n earlier hle hlasts hearlier
    rw [hstdout, hfinal.stdout_eq]
    exact hearlier.begins prints hload (hlasts.le_grants hle)
  case joined =>
    rw [hstdout, hfinal.stdout_eq, hdispatches]
    rfl
  case calls =>
    intro dispatch hmem name hcalled
    have hcalls := dispatch.calls core.library limits hcalled
    have hstart : start.Printed limits.collectionSizeCap "" := printed_of_load (by rw [hload]) _
    refine ⟨fun huncommitted => ?_, fun pushed hcommitted => ⟨?_, ?_⟩⟩
    · rw [hdispatches] at hmem
      exact hcalls.of_not_committed (Library.counted_of_mem_dispatches prints hstart hmem)
        huncommitted
    · rintro rfl
      exact hcalls.text_of_committed hcommitted
    · rintro id type hregistered rfl
      exact Library.Calls.of_committed_printing prints hregistered hcalls hcommitted

/-- A program that prints a text and then an integer with more digits than there is room for. -/
def overprintingCode : Block :=
  [.literal (.str "hé") .str, .instr "print_str" 0, .literal (.int 12345) .int,
    .instr "print_int" 0]

/-- After its five steps the text is printed, two characters of three bytes, and the integer is
still on its stack. -/
theorem run_stdout_overprinting :
    let limits : Limits := { collectionSizeCap := 5 }
    ∃ state, core.Reaches limits overprintingCode [] 5 state ∧ state.stdout = "hé" ∧
      state.depth .int = 1 ∧ state.stdoutLength = state.stdout.length ∧ state.stdoutLength ≤ 5 ∧
      ∃ text, (core.run overprintingCode [] [] limits .still).1.stdout = "hé" ++ text := by
  intro limits
  -- The steps are computed with the two instructions that the program calls.
  have hcomputed : ((Machine.after? ⟨⟨.core,
      ⟨[Instruction.printing .str "str", Instruction.printing .int "int"]⟩⟩, .ofRegistry .core⟩
      limits overprintingCode [] 5).any fun state =>
        state.stdout == "hé" && state.depth .int == 1) = true := by
    decide +kernel
  obtain ⟨state, hafter, hstate⟩ := (Option.any_eq_true _ _).mp hcomputed
  obtain ⟨hstdout, hdepth⟩ := Bool.and_eq_true_iff.mp hstate
  have hreached : core.Reaches limits overprintingCode [] 5 state := by
    have htexts := Library.core_prints.printing .str Registry.builtinTypes[6] rfl
    have hints := Library.core_prints.printing .int Registry.builtinTypes[3] rfl
    refine reaches_of_part (fun instruction hmem => ?_) hafter
    rcases List.mem_pair.mp hmem with rfl | rfl
    · exact htexts
    · exact hints
  obtain ⟨hcounted, -, hbefore, -⟩ := run_stdout overprintingCode [] [] limits .still
  obtain ⟨hlength, hwithin⟩ := hcounted 5 state (.inl hreached)
  obtain ⟨text, htext⟩ := hbefore 5 state (by decide) (Clock.lasts_still _ _ _) hreached
  rw [eq_of_beq hstdout] at htext
  exact ⟨state, hreached, eq_of_beq hstdout, eq_of_beq hdepth, hlength, hwithin, text, htext⟩

end Machine

end PushMachine
