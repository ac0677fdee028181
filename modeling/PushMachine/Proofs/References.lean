import PushMachine.Proofs.RunLimits

/-! # References between instructions

Loops and maps leave references to other instructions behind: the next turn of a loop, the drop of a
counter, the gathering of results. Such a reference is a name, and it is looked up only when it is
performed. Here is why the lookup succeeds.

`selfReferences` gives with each name the stacks that its instruction declares, and every
instruction that leaves a reference declares these stacks too. So a set that is cut down to the
instructions on some stacks keeps what its members refer to
(`InstructionSet.contains_of_reference`). That a name is not taken by an instruction on other stacks
rests on the spelling of names: no type, whatever its name, has a shuffling or printing instruction
of such a name, except the two whose items are dropped.

Then every name that occurs in code is one of the set, in the program and hence in every state of
its run (`Registry.KeepsCore.unrolled_known`). -/

namespace PushMachine

/-! ## The spelling of names -/

namespace Instruction

/-- The verbs of the instructions `shuffling`. -/
def shufflingVerbs : List String :=
  ["pop", "dup", "dup_times", "swap", "rot", "flush", "eq", "stack_depth", "yank", "yank_dup",
    "shove", "shove_dup", "is_empty", "empty"]

/-- A shuffling instruction is called by its type and a verb of `shufflingVerbs`, and a drop
declares its stack only. -/
theorem name_of_mem_shuffling {id : StackId} {type : StackType} {instruction : Instruction}
    (h : instruction ∈ shuffling id type) :
    ∃ verb ∈ shufflingVerbs, instruction.name = type.name ++ "_" ++ verb ∧
      (verb = "pop" → instruction.touched = [id]) := by
  revert instruction
  simp only [shuffling, ofVerb, List.forall_mem_append]
  constructor
  · simp [shufflingVerbs, touched]
  · split
    · simp [shufflingVerbs]
    · exact List.forall_mem_nil _

/-- The instructions that every registry has, as far as their stacks are registered. -/
def fixed : List Instruction :=
  arithmetic ++ logic ++ strings ++ vectors ++ [printNewline] ++ codeEditing ++ control

/-- The two stacks whose top item a reference drops, with the names of their types. -/
def droppedStacks : List (StackId × String) := [(.int, "int"), (.code, "code")]

/-- The reference that drops the top item of a stack, `"int_pop"` or `"code_pop"`. -/
def dropReference (owner : StackId × String) : String × List StackId :=
  (owner.2 ++ "_pop", [owner.1])

/-- A `fixed` instruction that has the name of a reference declares no stack that the reference does
not declare. -/
theorem touched_of_mem_fixed : ∀ instruction ∈ fixed, ∀ reference ∈ selfReferences,
    instruction.name = reference.1 → ∀ id ∈ instruction.touched, id ∈ reference.2 := by
  decide +kernel

/-- Every one of the `selfReferences` leads to such an instruction or drops an item. -/
theorem exists_fixed_or_drop : ∀ reference ∈ selfReferences,
    (∃ instruction ∈ fixed, instruction.name = reference.1) ∨
      ∃ owner ∈ droppedStacks, reference = dropReference owner := by
  decide +kernel

/-- No name of a reference ends like that of a shuffling instruction, except those of
`dropReference`. -/
theorem drop_of_suffix : ∀ verb ∈ shufflingVerbs, ∀ reference ∈ selfReferences,
    '_' :: verb.toList <:+ reference.1.toList →
      verb = "pop" ∧ ∃ owner ∈ droppedStacks, reference = dropReference owner := by
  decide +kernel

/-- No name of a reference begins with `"print_"`. -/
theorem not_printing_of_reference : ∀ reference ∈ selfReferences,
    ¬"print_".toList <+: reference.1.toList := by
  decide +kernel

end Instruction

/-! ## Finding what a reference names -/

namespace Registry

variable {registry : Registry} {id : StackId} {type : StackType}

/-- Where one of the `droppedStacks` is registered, its type has the core type's name. -/
theorem KeepsCore.name_of_dropped (keeps : registry.KeepsCore) {owner : StackId × String}
    (howner : owner ∈ Instruction.droppedStacks) (registered : registry.contains owner.1 = true) :
    ∃ type, registry.get? owner.1 = some type ∧ type.name = owner.2 := by
  obtain ⟨type, htype⟩ := exists_of_contains registered
  refine ⟨type, htype, ?_⟩
  -- Both dropped stacks are core stacks, whose slots hold the core type or nothing.
  have hcore : owner.1.index < StackId.coreSize ∧
      ∀ found, core.get? owner.1 = some found → found.name = owner.2 := by
    simp only [Instruction.droppedStacks, List.mem_cons, List.not_mem_nil, or_false] at howner
    rcases howner with rfl | rfl
    all_goals
      refine ⟨by decide, fun found hfound => ?_⟩
      cases hfound
      rfl
  rcases keeps.slot owner.1 hcore.1 with hsame | hnone
  · exact hcore.2 type (hsame.symm.trans htype)
  · rw [hnone] at htype
    cases htype

end Registry

namespace InstructionSet

variable {registry : Registry} {instruction : Instruction}

/-- The instructions for a registry: those for each of its types, and the `fixed` ones. -/
theorem mem_instructionsFor : instruction ∈ instructionsFor registry ↔
    (∃ id type, registry.get? id = some type ∧
      (instruction ∈ Instruction.shuffling id type ∨
        instruction = Instruction.printing id type.name)) ∨
      instruction ∈ Instruction.fixed := by
  simp only [instructionsFor, Instruction.fixed, List.append_assoc]
  rw [List.mem_append, List.mem_flatMap]
  refine or_congr_left ⟨?_, ?_⟩
  · rintro ⟨⟨id, type⟩, htype, hmem⟩
    refine ⟨id, type, Registry.mem_types.mp htype, ?_⟩
    simpa using hmem
  · rintro ⟨id, type, htype, hmem⟩
    refine ⟨(id, type), Registry.mem_types.mpr htype, ?_⟩
    simpa using hmem

variable {reference : String × List StackId}

/-- There is an instruction for every one of the `selfReferences` whose stacks are registered. -/
theorem exists_of_reference (keeps : registry.KeepsCore) (hreference : reference ∈ selfReferences)
    (registered : ∀ id ∈ reference.2, registry.contains id = true) :
    ∃ instruction ∈ instructionsFor registry, instruction.name = reference.1 := by
  rcases Instruction.exists_fixed_or_drop reference hreference with
    ⟨instruction, hmem, hname⟩ | ⟨owner, howner, rfl⟩
  · exact ⟨instruction, mem_instructionsFor.mpr (.inr hmem), hname⟩
  · have hregistered : registry.contains owner.1 = true :=
      registered owner.1 (List.mem_singleton.mpr rfl)
    obtain ⟨type, htype, hname⟩ := keeps.name_of_dropped howner hregistered
    refine ⟨_, mem_instructionsFor.mpr (.inl ⟨owner.1, type, htype, .inl (.head _)⟩), ?_⟩
    show type.name ++ "_" ++ "pop" = owner.2 ++ "_pop"
    rw [hname, String.append_assoc]
    rfl

/-- **Every instruction of a reference's name** declares (`touched`) only stacks that the reference
declares, whatever types are registered. -/
theorem touched_of_reference (keeps : registry.KeepsCore) (hreference : reference ∈ selfReferences)
    (registered : ∀ id ∈ reference.2, registry.contains id = true)
    (hmem : instruction ∈ instructionsFor registry) (hname : instruction.name = reference.1) :
    ∀ id ∈ instruction.touched, id ∈ reference.2 := by
  rcases mem_instructionsFor.mp hmem with ⟨id, type, htype, hshuffling | rfl⟩ | hfixed
  · obtain ⟨verb, hverb, hspelled, hpop⟩ := Instruction.name_of_mem_shuffling hshuffling
    have hspelling : type.name ++ "_" ++ verb = reference.1 := hspelled.symm.trans hname
    have hsuffix : '_' :: verb.toList <:+ reference.1.toList := by
      refine ⟨type.name.toList, ?_⟩
      rw [← hspelling, String.toList_append, String.toList_append, List.append_assoc]
      rfl
    obtain ⟨rfl, owner, howner, rfl⟩ :=
      Instruction.drop_of_suffix verb hverb reference hreference hsuffix
    -- The drop belongs to the one type of this name, and that type has the stack of the reference.
    obtain ⟨twin, htwin, htwinName⟩ :=
      keeps.name_of_dropped howner (registered owner.1 (List.mem_singleton.mpr rfl))
    have hsame : type.name = twin.name := by
      rw [htwinName]
      rw [String.append_assoc] at hspelling
      exact (String.append_left_inj "_pop").mp hspelling
    have hid : id = owner.1 := keeps.agrees.eq_of_name_eq htype htwin hsame
    rw [hpop rfl, hid]
    exact fun other hother => hother
  · refine absurd ?_ (Instruction.not_printing_of_reference reference hreference)
    refine ⟨type.name.toList, ?_⟩
    rw [← hname, ← String.toList_append]
    rfl
  · exact Instruction.touched_of_mem_fixed instruction hfixed reference hreference hname

/-- A name is kept when the core set is cut down by `restrict`, if some instruction has it and all
that have it declare only registered ones of these stacks. -/
theorem contains_restrict {name : String} {names : List String}
    (exists_named : ∃ instruction ∈ instructionsFor registry, instruction.name = name)
    (declared : ∀ instruction ∈ instructionsFor registry, instruction.name = name →
      ∀ id ∈ instruction.touched,
        registry.contains id = true ∧ id ∈ names.filterMap registry.find?) :
    ((core registry).restrict registry names).contains name = true := by
  have hsome :
      ((instructionsFor registry).reverse.find? fun other => other.name == name).isSome := by
    rw [List.find?_isSome]
    obtain ⟨instruction, hmem, hname⟩ := exists_named
    exact ⟨instruction, List.mem_reverse.mpr hmem, beq_iff_eq.mpr hname⟩
  -- The last of the instructions that have the name is the one in the set.
  obtain ⟨last, hlast⟩ := Option.isSome_iff_exists.mp hsome
  have hmem : last ∈ instructionsFor registry :=
    List.mem_reverse.mp (List.mem_of_find?_eq_some hlast)
  have hname : last.name = name := by simpa using List.find?_some hlast
  have hdeclared := declared last hmem hname
  have hregistered : last.touched.all registry.contains = true :=
    List.all_eq_true.mpr fun id hid => (hdeclared id hid).1
  have hallowed : last.touched.all (names.filterMap registry.find?).contains = true :=
    List.all_eq_true.mpr fun id hid => List.contains_iff_mem.mpr (hdeclared id hid).2
  rw [contains, restrict, get?_filter (get?_core hlast hregistered) hallowed, Option.isSome_some]

/-- **A set that is cut down to some stacks has what its instructions refer to**: the instruction of
every one of the `selfReferences` whose stacks are among them. -/
theorem contains_of_reference (keeps : registry.KeepsCore) (hreference : reference ∈ selfReferences)
    {names : List String}
    (declared : ∀ id ∈ reference.2,
      registry.contains id = true ∧ id ∈ names.filterMap registry.find?) :
    ((core registry).restrict registry names).contains reference.1 = true := by
  have hregistered : ∀ id ∈ reference.2, registry.contains id = true :=
    fun id hid => (declared id hid).1
  refine contains_restrict (exists_of_reference keeps hreference hregistered) ?_
  intro instruction hmem hname id hid
  exact declared id (touched_of_reference keeps hreference hregistered hmem hname id hid)

end InstructionSet

/-! ## Known names -/

/-- An expression that calls an instruction of `set`, or none. -/
def Expr.Known (set : InstructionSet) : Expr → Prop
  | .instr name _ => set.contains name = true
  | .deferred name => set.contains name = true
  | _ => True

/-- An atom in which only instructions of a set are called (`Expr.Known`) calls one of the set. -/
theorem Atom.contains_of_called {set : InstructionSet} {atom : Atom} {name : String}
    (known : atom.Every (Expr.Known set)) (called : atom.called? = some name) :
    set.contains name = true := by
  cases atom with
  | closer => cases called
  | expr e =>
    cases e with
    | instr callee groups =>
      cases called
      exact known
    | deferred callee =>
      cases called
      exact known
    | _ => cases called

namespace Registry

variable {registry : Registry} {names : List String}

/-- A stack with a type and with one of the given names. -/
def Permits (registry : Registry) (names : List String) (id : StackId) : Prop :=
  registry.contains id = true ∧ id ∈ names.filterMap registry.find?

/-- The instructions that `restrict` leaves declare permitted stacks only. -/
theorem permits_of_mem_restrict {instruction : Instruction}
    (h : instruction ∈ ((InstructionSet.core registry).restrict registry names).instructions) :
    ∀ id ∈ instruction.touched, registry.Permits names id := by
  obtain ⟨hcore, hallowed⟩ := InstructionSet.mem_restrict.mp h
  exact fun id hid => ⟨(InstructionSet.mem_core hcore).2 id hid, hallowed id hid⟩

/-- **Code with known names only** (`Expr.Known`) is kept by the core instructions on some stacks.
-/
theorem KeepsCore.unrolled_known (keeps : registry.KeepsCore) (names : List String)
    (caps : SizeCaps) :
    ((registry.discipline
      (Expr.Known ((InstructionSet.core registry).restrict registry names))).declaring
        (registry.Permits names)).Unrolled caps := by
  refine keeps.unrolled_declaring (fun permits => permits.1) (fun _ => trivial) ?_
    (fun _ _ => trivial) caps
  intro reference hreference hpermits
  exact InstructionSet.contains_of_reference keeps hreference hpermits

/-- The discipline of known names `Governs` the core instructions on some stacks. -/
theorem KeepsCore.governs_known (keeps : registry.KeepsCore) (names : List String)
    (caps : SizeCaps) {inputs : List Value}
    (known : ∀ value ∈ inputs,
      value.Every (Expr.Known ((InstructionSet.core registry).restrict registry names))) :
    ((registry.discipline
      (Expr.Known ((InstructionSet.core registry).restrict registry names))).declaring
        (registry.Permits names)).Governs
          ⟨registry, (InstructionSet.core registry).restrict registry names⟩ caps inputs := by
  have unrolled := keeps.unrolled_known names caps
  refine keeps.governs_declaring unrolled.toClosed (fun hliteral => hliteral.2) ?_ known
  intro instruction hmem
  have hobeys := InstructionSet.core_obeys unrolled (fun _ h => h) instruction
    (InstructionSet.mem_of_mem_restrict hmem)
  exact hobeys (permits_of_mem_restrict hmem)

end Registry

/-! ## Runs -/

/-- Which stacks instructions may declare makes no difference to a state. -/
theorem State.Governed.declaring {discipline : Discipline} {inputs : List Value} {state : State}
    (governed : state.Governed discipline inputs) (declared : StackId → Prop) :
    state.Governed (discipline.declaring declared) inputs :=
  ⟨⟨governed.meets.present, governed.meets.allowed⟩, governed.counted, governed.inputs_eq⟩

/-- A run in which only known instructions are pending does not end with `.unknownInstruction`. -/
theorem Discipline.Governs.ends_known {discipline : Discipline} {library : Library}
    {limits : Limits} {inputs : List Value} {last final : State} {reason : StopReason}
    (governs : discipline.Governs library limits.toSizeCaps inputs)
    (known : ∀ atom, discipline.sound (.code atom) → ∀ name, atom.called? = some name →
      library.instructions.contains name = true)
    (ends : library.Ends limits last reason final) (governed : last.Governed discipline inputs)
    (name : String) : reason ≠ .unknownInstruction name := by
  cases ends with
  | idle empty => nofun
  | exhausted => nofun
  | late => nofun
  | unpending pending failed => nofun
  | @stopped atom popped _ taken stops =>
    rintro rfl
    have hsound := (governs.taken governed taken).2
    -- Only an unknown callee stops the run for this reason.
    cases Library.stopsFor stops with
    | unknown called missing =>
      have hcontains := known atom hsound name called
      rw [InstructionSet.contains, missing] at hcontains
      cases hcontains

namespace Machine

/-- **Instructions on some stacks refer to one another only**: take the core instructions of a
registry that `Evolves` from the core one, as far as all their stacks have one of the given names
(`restrict`). If every instruction that is named in a program and in its inputs, at any depth, is
one of them, then no run of the program on a machine with these instructions ends for an unknown
instruction. -/
theorem run_reason_ne_unknownInstruction (registry : Registry)
    (history : Registry.core.Evolves registry) (names : List String) (machine : Machine)
    (madeOf : machine.MadeOf ⟨registry, (InstructionSet.core registry).restrict registry names⟩)
    (code : Block) (inputs : List Value)
    (knownCode : Block.Every
      (Expr.Known ((InstructionSet.core registry).restrict registry names)) code)
    (knownInputs : ∀ value ∈ inputs, value.Every
      (Expr.Known ((InstructionSet.core registry).restrict registry names)))
    (outputs : List String) (limits : Limits) (clock : Clock) (name : String) :
    (machine.run code inputs outputs limits clock).1.reason ≠ .unknownInstruction name := by
  have keeps := history.keepsCore
  obtain ⟨hlibrary, hstacks⟩ :=
    madeOf.prepared keeps fun _ h => InstructionSet.mem_of_mem_restrict h
  have governs := hlibrary ▸ keeps.governs_known names limits.toSizeCaps knownInputs
  obtain ⟨start, hload, hstart⟩ := governs.load machine
    ((State.governed_reset hstacks _ inputs).declaring _) ⟨trivial, knownCode⟩
  rw [run_eq_of_load hload]
  obtain ⟨n, last, -, hsteps, hends⟩ :=
    machine.library.proceed_ends limits clock .silent limits.stepLimit 0 start ()
  refine governs.ends_known (fun atom hknown callee hcalled => ?_) hends
    (governs.steps hsteps hstart) name
  rw [hlibrary]
  exact Atom.contains_of_called hknown hcalled

/-- The instructions of a registry without truth values, on the stacks for code and integers. -/
def countingSet : InstructionSet :=
  (InstructionSet.core oddRegistry).restrict oddRegistry ["exec", "code", "int"]

/-- A machine with these instructions, after a program that named another one. -/
def countingMachine : Machine :=
  (Machine.runTraced ⟨⟨oddRegistry, countingSet⟩, .ofRegistry oddRegistry⟩ [.instr "float_add" 0] []
    [] {} .still .silent ()).2.1

/-- It is a machine with these instructions. -/
theorem madeOf_countingMachine : countingMachine.MadeOf ⟨oddRegistry, countingSet⟩ := by
  have hfresh : MadeOf ⟨oddRegistry, countingSet⟩
      ⟨⟨oddRegistry, countingSet⟩, .ofRegistry oddRegistry⟩ := by
    refine .fresh (ofLibrary_of_touched fun instruction hmem => ?_)
    exact (InstructionSet.mem_core (InstructionSet.mem_of_mem_restrict hmem)).2
  exact hfresh.used [.instr "float_add" 0] [] [] {} .still .silent ()

/-- On that machine no loop, map or loop on truth values meets an unknown instruction: in a program,
in an input, or in quoted code. -/
theorem run_reason_ne_unknownInstruction_countingMachine :
    let code : Block := [.int 3, .instr "exec_do_times" 1, .input 0,
      .literal (.code (.expr (.block [.instr "code_map" 1, .deferred "exec_while"]))) .code]
    let inputs : List Value := [.code (.expr (.block [.int 1, .instr "code_do_count" 0]))]
    ∀ (outputs : List String) (limits : Limits) (clock : Clock) (name : String),
      (countingMachine.run code inputs outputs limits clock).1.reason ≠
        .unknownInstruction name := by
  intro code inputs
  have hnames : ∀ name ∈ ["exec_do_times", "code_map", "exec_while", "code_do_count"],
      countingSet.contains name = true := by decide +kernel
  simp only [List.forall_mem_cons, List.not_mem_nil, false_implies, implies_true, and_true]
    at hnames
  obtain ⟨htimes, hmap, hwhile, hcount⟩ := hnames
  have hcode : Block.Every (Expr.Known countingSet) code :=
    ⟨⟨trivial, trivial⟩, htimes, trivial, ⟨trivial, trivial, hmap, hwhile, trivial⟩, trivial⟩
  have hinputs : ∀ value ∈ inputs, value.Every (Expr.Known countingSet) :=
    List.forall_mem_singleton.mpr ⟨trivial, ⟨trivial, trivial⟩, hcount, trivial⟩
  exact run_reason_ne_unknownInstruction oddRegistry evolves_oddRegistry _ countingMachine
    madeOf_countingMachine code inputs hcode hinputs

end Machine

end PushMachine
