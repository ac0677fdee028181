import PushMachine.Proofs.CoreInstructions
import PushMachine.Proofs.Occurrence
import PushMachine.Proofs.Steps

/-! # Stacks and their types

Whatever a program does, a stack holds only values that its type accepts, and a program whose
literals fit their stacks never ends with a mismatch. Both are shown for every registry that evolved
from the core one, by the discipline that a registry imposes on the stacks. -/

namespace PushMachine

namespace Registry

variable {registry : Registry} {id : StackId} {type : StackType} {value : Value}

/-! ## What the core types accept -/

/-- The types for code, on `.exec` and `.code`, accept code and nothing else. -/
theorem KeepsCore.accepts_code (keeps : registry.KeepsCore) (hid : id = .exec ∨ id = .code)
    (htype : registry.get? id = some type) :
    type.accepts value = true ↔ ∃ atom, value = .code atom := by
  rw [keeps.own id hid] at htype
  constructor
  · intro haccepts
    rcases hid with rfl | rfl <;> cases htype <;> cases value <;> cases haccepts <;>
      exact ⟨_, rfl⟩
  · rintro ⟨atom, rfl⟩
    rcases hid with rfl | rfl <;> cases htype <;> rfl

/-- A core type for data accepts the values whose `homeStack?` is its stack and nothing else. -/
theorem KeepsCore.accepts_data (keeps : registry.KeepsCore) (hid : id.IsData)
    (htype : registry.get? id = some type) :
    type.accepts value = true ↔ value.homeStack? = some id := by
  have hcore : core.get? id = some type := by
    rcases keeps.slot id hid.2 with hsame | hnone
    · exact hsame.symm.trans htype
    · rw [hnone] at htype
      cases htype
  obtain ⟨index⟩ := id
  obtain ⟨hlower, hupper⟩ : 2 ≤ index ∧ index < 12 := hid
  -- In each of the ten slots the type is known, and each kind of value is accepted or not.
  interval_cases index <;> cases hcore <;> cases value <;>
    first
    | exact iff_of_true rfl rfl
    | exact iff_of_false nofun nofun

/-! ## The discipline of a registry -/

/-- The discipline of a registry with the given `sound` values: a stack for every type, with sound
values on it that the type accepts. -/
def typing (registry : Registry) (sound : Value → Prop) : Discipline where
  present id := registry.contains id = true
  declared id := registry.contains id = true
  belongs id value := ∃ type, registry.get? id = some type ∧ type.accepts value = true
  sound := sound

/-- **The discipline of a registry**: a stack for every type, with values on it that the type
accepts and in which only expressions with the property `p` occur. -/
def discipline (registry : Registry) (p : Expr → Prop) : Discipline :=
  registry.typing fun value => value.Every p

/-- A stack that has a type has one. -/
theorem exists_of_contains (h : registry.contains id = true) :
    ∃ type, registry.get? id = some type :=
  Option.isSome_iff_exists.mp h

variable {sound : Value → Prop}

/-- What belongs on a stack under `typing` is what its type accepts. -/
theorem belongs_iff (htype : registry.get? id = some type) :
    (registry.typing sound).belongs id value ↔ type.accepts value = true := by
  constructor
  · rintro ⟨found, hfound, haccepts⟩
    rw [htype] at hfound
    cases hfound
    exact haccepts
  · exact fun haccepts => ⟨type, htype, haccepts⟩

/-- The types for code are registered. -/
theorem KeepsCore.contains_own (keeps : registry.KeepsCore) (hid : id = .exec ∨ id = .code) :
    registry.contains id = true := by
  rw [contains, keeps.own id hid]
  rcases hid with rfl | rfl <;> rfl

/-- Code, and nothing else, belongs on the stacks for code. -/
theorem KeepsCore.belongs_code_iff (keeps : registry.KeepsCore) (hid : id = .exec ∨ id = .code) :
    (registry.typing sound).belongs id value ↔ ∃ atom, value = .code atom := by
  obtain ⟨type, htype⟩ := exists_of_contains (keeps.contains_own hid)
  rw [belongs_iff htype, keeps.accepts_code hid htype]

/-- The values of its type, and nothing else, belong on a core stack for data. -/
theorem KeepsCore.belongs_data_iff (keeps : registry.KeepsCore) (hid : id.IsData)
    (present : registry.contains id = true) :
    (registry.typing sound).belongs id value ↔ value.homeStack? = some id := by
  obtain ⟨type, htype⟩ := exists_of_contains present
  rw [belongs_iff htype, keeps.accepts_data hid htype]

/-- Vectors and their items are closed, if all values with a `homeStack?` are sound. -/
theorem closedItems_of_data {discipline : Discipline} {caps : SizeCaps} {α : Type} [BEq α] [Item α]
    [LawfulItem α] (data : ∀ {value id}, value.homeStack? = some id → discipline.sound value) :
    discipline.ClosedItems caps α where
  item _ _ x _ := data (LawfulItem.homeStack?_toValue x)
  capped items _ _ := data (LawfulItem.homeStack?_toVector items)
  shorter _ new _ _ _ := data (LawfulItem.homeStack?_toVector new)

/-- **A discipline of a registry that is about code only** is closed, if what instructions make of
code is `sound`. They leave references to instructions on `declared` stacks only. -/
theorem KeepsCore.closed_declaring (keeps : registry.KeepsCore) {caps : SizeCaps}
    {declared : StackId → Prop} (present : ∀ {id}, declared id → registry.contains id = true)
    (data : ∀ {value id}, value.homeStack? = some id → sound value)
    (literal : ∀ {value id type}, registry.get? id = some type → type.accepts value = true →
      sound value → sound (.code (.expr (.literal value id))))
    (deferred : ∀ reference ∈ selfReferences, (∀ id ∈ reference.2, declared id) →
      sound (.code (.expr (.deferred reference.1))))
    (part : ∀ {body e}, sound (.code (.expr (.block body))) → e ∈ body → sound (.code (.expr e)))
    (built : ∀ {body}, (∀ e ∈ body, sound (.code (.expr e))) → Block.size body ≤ caps.maxPoints →
      sound (.code (.expr (.block body))))
    (rearranged : ∀ {body new : Block}, sound (.code (.expr (.block body))) → new.Subperm body →
      sound (.code (.expr (.block new))))
    (nil : sound (.code (.expr (.block [])))) :
    ((registry.typing sound).declaring declared).Closed caps where
  declared_present := present
  code_iff hid := show (registry.typing sound).belongs _ _ ↔ _ from keeps.belongs_code_iff hid
  data_iff hid hpresent :=
    show (registry.typing sound).belongs _ _ ↔ _ from keeps.belongs_data_iff hid hpresent
  bool _ := data rfl
  int _ := data rfl
  float _ := data rfl
  char _ := data rfl
  str _ _ := data rfl
  piece _ _ _ _ := data rfl
  bools := closedItems_of_data data
  ints := closedItems_of_data data
  floats := closedItems_of_data data
  chars := closedItems_of_data data
  strs := closedItems_of_data data
  literal {id value} _ allowed := by
    obtain ⟨⟨type, htype, haccepts⟩, hsound⟩ := allowed
    exact literal htype haccepts hsound
  deferred := deferred
  part := part
  built := built
  rearranged := rearranged
  nil := nil

/-- The same where all registered stacks are declared and all references are sound. -/
theorem KeepsCore.closed_of_data (keeps : registry.KeepsCore) {caps : SizeCaps}
    (data : ∀ {value id}, value.homeStack? = some id → sound value)
    (literal : ∀ {value id type}, registry.get? id = some type → type.accepts value = true →
      sound value → sound (.code (.expr (.literal value id))))
    (deferred : ∀ name, sound (.code (.expr (.deferred name))))
    (part : ∀ {body e}, sound (.code (.expr (.block body))) → e ∈ body → sound (.code (.expr e)))
    (built : ∀ {body}, (∀ e ∈ body, sound (.code (.expr e))) → Block.size body ≤ caps.maxPoints →
      sound (.code (.expr (.block body))))
    (rearranged : ∀ {body new : Block}, sound (.code (.expr (.block body))) → new.Subperm body →
      sound (.code (.expr (.block new))))
    (nil : sound (.code (.expr (.block [])))) : (registry.typing sound).Closed caps :=
  keeps.closed_declaring (fun h => h) data literal (fun reference _ _ => deferred reference.1) part
    built rearranged nil

variable {p : Expr → Prop}

/-- No expression occurs in a value that has a `homeStack?`. -/
theorem every_of_homeStack? (h : value.homeStack? = some id) : value.Every p := by
  cases value with
  | code atom => cases h
  | _ => trivial

/-- **The discipline of a registry is closed**, if `p` holds of the blocks that instructions build,
rearrange and leave to do, of references that they leave behind, and of literals that the registry
takes. -/
theorem KeepsCore.unrolled_of_blocks (keeps : registry.KeepsCore) {declared : StackId → Prop}
    {caps : SizeCaps} (present : ∀ {id}, declared id → registry.contains id = true)
    (built : ∀ {body}, Block.size body ≤ caps.maxPoints → p (.block body))
    (rearranged : ∀ {body new : Block}, p (.block body) → new.Subperm body → p (.block new))
    (short : ∀ {body : Block}, body.length ≤ 3 → p (.block body))
    (deferred : ∀ reference ∈ selfReferences, (∀ id ∈ reference.2, declared id) →
      p (.deferred reference.1))
    (literal : ∀ {value id type}, registry.get? id = some type → type.accepts value = true →
      p (.literal value id)) :
    ((registry.discipline p).declaring declared).Unrolled caps where
  toClosed := by
    refine keeps.closed_declaring present every_of_homeStack?
      (fun htype haccepts hsound => ⟨literal htype haccepts, hsound⟩) deferred
      (fun sound hmem => Block.every_iff.mp sound.2 _ hmem)
      (fun sound hsize => ⟨built hsize, Block.every_iff.mpr sound⟩) ?_
      ⟨short (Nat.zero_le 3), trivial⟩
    intro body new sound hsubperm
    exact ⟨rearranged sound.1 hsubperm, Block.every_iff.mpr fun e he =>
      Block.every_iff.mp sound.2 e (hsubperm.subset he)⟩
  turn {vector reference body} hvector hreference hbody := by
    -- The block for the next turn has three parts at most.
    have hlength : (Block.ofAtoms [.expr vector, .expr reference, body]).length ≤ 3 :=
      List.length_filterMap_le _ _
    refine ⟨short hlength, Block.every_iff.mpr fun e he => ?_⟩
    simp only [Block.mem_ofAtoms, List.mem_cons, List.not_mem_nil, or_false, Atom.expr.injEq] at he
    rcases he with rfl | rfl | rfl
    · exact hvector
    · exact hreference
    · exact hbody

/-- The same where `p` holds of all blocks. -/
theorem KeepsCore.unrolled_declaring (keeps : registry.KeepsCore) {declared : StackId → Prop}
    (present : ∀ {id}, declared id → registry.contains id = true) (block : ∀ body, p (.block body))
    (deferred : ∀ reference ∈ selfReferences, (∀ id ∈ reference.2, declared id) →
      p (.deferred reference.1))
    (literal : ∀ {value id type}, registry.get? id = some type → type.accepts value = true →
      p (.literal value id)) (caps : SizeCaps) :
    ((registry.discipline p).declaring declared).Unrolled caps :=
  keeps.unrolled_of_blocks present (fun _ => block _) (fun _ _ => block _) (fun _ => block _)
    deferred literal

/-- The same where all registered stacks are declared and `p` holds of all references. -/
theorem KeepsCore.closed (keeps : registry.KeepsCore) (block : ∀ body, p (.block body))
    (deferred : ∀ name, p (.deferred name))
    (literal : ∀ {value id type}, registry.get? id = some type → type.accepts value = true →
      p (.literal value id)) (caps : SizeCaps) : (registry.discipline p).Unrolled caps :=
  keeps.unrolled_declaring (fun h => h) block (fun reference _ _ => deferred reference.1) literal
    caps

/-- A closed discipline of a registry `Governs` a set of instructions that keep it, if what a sound
literal holds is sound. -/
theorem KeepsCore.governs_declaring (keeps : registry.KeepsCore) {caps : SizeCaps}
    {declared : StackId → Prop}
    (closed : ((registry.typing sound).declaring declared).Closed caps)
    (held : ∀ {value id}, sound (.code (.expr (.literal value id))) → sound value)
    {set : InstructionSet}
    (kept : ∀ instruction ∈ set.instructions,
      (instruction.body caps).Keeps ((registry.typing sound).declaring declared))
    {inputs : List Value} (soundInputs : ∀ value ∈ inputs, sound value) :
    ((registry.typing sound).declaring declared).Governs ⟨registry, set⟩ caps inputs where
  closed := closed
  exec := keeps.contains_own (.inl rfl)
  keeps := kept
  literal {value id type} htype haccepts hsound := by
    refine ⟨?_, ⟨type, htype, haccepts⟩, held hsound⟩
    exact Option.isSome_iff_exists.mpr ⟨type, htype⟩
  codeInput atom hmem := soundInputs (.code atom) hmem
  literalInput value hmem e hliteral := by
    -- An input becomes a literal for the stack that its value is placed on.
    rw [Registry.literal] at hliteral
    cases hplace : registry.place value with
    | error refusal =>
      rw [hplace] at hliteral
      cases hliteral
    | ok id =>
      rw [hplace] at hliteral
      cases hliteral
      have belongs := accepts_of_place hplace
      refine closed.literal ?_ ⟨belongs, soundInputs value hmem⟩
      obtain ⟨type, htype, -⟩ := belongs
      exact Option.isSome_iff_exists.mpr ⟨type, htype⟩

/-- The same where all registered stacks are declared. -/
theorem KeepsCore.governs_typing (keeps : registry.KeepsCore) {caps : SizeCaps}
    (closed : (registry.typing sound).Closed caps)
    (held : ∀ {value id}, sound (.code (.expr (.literal value id))) → sound value)
    {set : InstructionSet}
    (kept : ∀ instruction ∈ set.instructions,
      (instruction.body caps).Keeps (registry.typing sound)) {inputs : List Value}
    (soundInputs : ∀ value ∈ inputs, sound value) :
    (registry.typing sound).Governs ⟨registry, set⟩ caps inputs :=
  have closed : ((registry.typing sound).declaring fun id => registry.contains id = true).Closed
      caps := closed
  keeps.governs_declaring closed held kept soundInputs

/-- The `discipline` of a registry governs every part of its core set. -/
theorem KeepsCore.governs (keeps : registry.KeepsCore) {caps : SizeCaps}
    (unrolled : (registry.discipline p).Unrolled caps) {set : InstructionSet}
    (core : ∀ instruction ∈ set.instructions,
      instruction ∈ (InstructionSet.core registry).instructions) {inputs : List Value}
    (sound : ∀ value ∈ inputs, value.Every p) :
    (registry.discipline p).Governs ⟨registry, set⟩ caps inputs := by
  refine keeps.governs_typing unrolled.toClosed (fun hliteral => hliteral.2) ?_ sound
  intro instruction hmem
  exact InstructionSet.core_keeps unrolled (fun _ h => h) instruction (core instruction hmem)

end Registry

/-! ## Fresh machines -/

namespace State

/-- The state `ofRegistry` has an empty stack for every type. -/
theorem stack?_ofRegistry (registry : Registry) (id : StackId) :
    (State.ofRegistry registry).stack? id = (registry.get? id).map fun _ => [] := by
  rw [stack?, ofRegistry, List.getElem?_map, Option.join_map_eq_map_join, Registry.get?]

/-- The `reset` of a state empties the stacks that there are. -/
theorem stack?_reset (state : State) (id : StackId) :
    state.reset.stack? id = (state.stack? id).map fun _ => [] := by
  rw [stack?, reset, List.getElem?_map, Option.join_map_eq_map_join, stack?]

/-- Emptied stacks are `Governed` by a discipline of a registry, if there is one for every type and
no other. -/
theorem governed_reset {registry : Registry} {state : State}
    (registered : ∀ id, (state.stack? id).isSome ↔ (registry.get? id).isSome)
    (sound : Value → Prop) (inputs : List Value) :
    (state.reset.withInputs inputs).Governed (registry.typing sound) inputs := by
  have hstack (id : StackId) :
      (state.reset.withInputs inputs).stack? id = (state.stack? id).map fun _ => [] :=
    stack?_reset state id
  refine ⟨⟨fun id => ?_, fun id items hitems value hvalue => ?_⟩, rfl, rfl⟩
  · rw [hstack, Option.isSome_map]
    exact (registered id).symm
  · rw [hstack] at hitems
    obtain ⟨old, -, rfl⟩ := Option.map_eq_some_iff.mp hitems
    cases hvalue

/-- Empty stacks are `Governed` by `typing`, whatever values are sound. -/
theorem governed_typing (registry : Registry) (sound : Value → Prop) (inputs : List Value) :
    ((State.ofRegistry registry).reset.withInputs inputs).Governed (registry.typing sound)
      inputs := by
  refine governed_reset (fun id => ?_) sound inputs
  rw [stack?_ofRegistry, Option.isSome_map]

/-- Empty stacks meet the discipline of a registry. -/
theorem governed_ofRegistry (registry : Registry) (p : Expr → Prop) (inputs : List Value) :
    ((State.ofRegistry registry).reset.withInputs inputs).Governed (registry.discipline p)
      inputs :=
  governed_typing registry _ inputs

/-- **A state that fits a registry**: there are its stacks, with values on them that its types
accept. -/
structure Fits (registry : Registry) (state : State) : Prop where
  /-- There is a stack for every registered type, and no other stack. -/
  stack_iff : ∀ id, (state.stack? id).isSome ↔ (registry.get? id).isSome
  /-- The values on a stack are accepted by its type. -/
  accepted : ∀ id items type, state.stack? id = some items → registry.get? id = some type →
    ∀ value ∈ items, type.accepts value = true
  /-- The stacks for code hold code only. -/
  code : ∀ id items, id = .exec ∨ id = .code → state.stack? id = some items →
    ∀ value ∈ items, ∃ atom, value = .code atom

/-- A state that is `Governed` by the discipline of a registry fits the registry. -/
theorem Governed.fits {registry : Registry} (keeps : registry.KeepsCore) {p : Expr → Prop}
    {inputs : List Value} {state : State}
    (governed : state.Governed (registry.discipline p) inputs) : state.Fits registry where
  stack_iff id := (governed.meets.present id).symm
  accepted id items type hitems htype value hvalue :=
    (Registry.belongs_iff htype).mp (governed.meets.allowed id items hitems value hvalue).1
  code id items hid hitems value hvalue := by
    obtain ⟨⟨type, htype, haccepts⟩, -⟩ := governed.meets.allowed id items hitems value hvalue
    exact (keeps.accepts_code hid htype).mp haccepts

end State

/-! ## Runs -/

/-- A literal that its stack's type `accepts`, or any other expression. -/
def Expr.Typed (registry : Registry) : Expr → Prop
  | .literal value on => ∃ type, registry.get? on = some type ∧ type.accepts value = true
  | _ => True

/-- An input that `Library.fetchInput` can make pending work of: code, or a value of a type that is
not one for code. -/
def Registry.Admits (registry : Registry) (value : Value) : Prop :=
  (∃ atom, value = .code atom) ∨ ∃ id type, registry.get? id = some type ∧
    isOwnName type.name = false ∧ type.accepts value = true

/-- A program of well-typed literals (`Expr.Typed`) with well-typed inputs is under a strict
discipline. -/
theorem Registry.strict_typed {registry : Registry} {set : InstructionSet} {inputs : List Value}
    (admitted : ∀ value ∈ inputs, registry.Admits value) :
    (registry.discipline (Expr.Typed registry)).Strict ⟨registry, set⟩ inputs where
  literal sound := sound.1
  input value hmem := by
    rcases admitted value hmem with hcode | ⟨id, type, htype, hown, haccepts⟩
    · exact .inl hcode
    · obtain ⟨place, hplace⟩ := exists_place htype hown haccepts
      refine .inr ⟨.literal value place, ?_⟩
      rw [Registry.literal, hplace]
      rfl

/-! A registry with its own history: a type that overlaps another one behind a witness that does not
show it, and a core type that is gone. -/

/-- A type of odd integers, whose witness does not show that it overlaps the integers. -/
def oddType : StackType where
  name := "odd"
  accepts := fun | .int n => n % 2 == 1 | .custom "odd" _ => true | _ => false
  coerce := fun _ => none
  witness := .custom "odd" .null

/-- The core registry with odd integers in a slot of their own and without truth values. -/
def oddRegistry : Registry :=
  ⟨(Registry.core.slots ++ [some oddType]).set 2 none,
    (("odd", ⟨12⟩) :: Registry.core.entries).filter fun entry => entry.1 != "bool"⟩

/-- Both requests are granted, so that `oddRegistry` has a history. -/
theorem evolves_oddRegistry : Registry.core.Evolves oddRegistry := by
  have registered : Registry.core.register oddType = .ok (⟨12⟩,
    ⟨Registry.core.slots ++ [some oddType], ("odd", ⟨12⟩) :: Registry.core.entries⟩) := rfl
  have removed : Registry.unregister
      ⟨Registry.core.slots ++ [some oddType], ("odd", ⟨12⟩) :: Registry.core.entries⟩ "bool" =
    .ok (Registry.builtinTypes[2], oddRegistry) := rfl
  exact (Registry.Evolves.start.register registered).unregister removed

namespace Machine

/-- **The stacks stay typed**: on a machine with the core instructions of a registry that `Evolves`
from the core one, a run of any program reaches only states that fit the registry (`State.Fits`),
and ends in one. -/
theorem run_fits (registry : Registry) (history : Registry.core.Evolves registry) :
    ∃ machine, Machine.ofLibrary ⟨registry, .core registry⟩ = .ok machine ∧
      ∀ (code : Block) (inputs : List Value) (outputs : List String) (limits : Limits)
        (clock : Clock),
        (∀ n state, machine.Reaches limits code inputs n state → state.Fits registry) ∧
          (machine.run code inputs outputs limits clock).2.state.Fits registry := by
  have keeps := history.keepsCore
  refine ⟨_, ofLibrary_of_touched fun _ h => (InstructionSet.mem_core h).2, ?_⟩
  intro code inputs outputs limits clock
  -- Nothing is asked of the expressions in the program or the inputs.
  have hfree (value : Value) : value.Every fun _ => True := value.every_of_forall fun _ => trivial
  have closed := keeps.closed (p := fun _ => True) (fun _ => trivial) (fun _ => trivial)
    (fun _ _ => trivial) limits.toSizeCaps
  have hinputs : ∀ value ∈ inputs, value.Every fun _ => True := fun value _ => hfree value
  have governs := keeps.governs closed (fun instruction hcore => hcore) hinputs
  obtain ⟨hreached, hfinal, -⟩ := governs.run ⟨⟨registry, .core registry⟩, .ofRegistry registry⟩
    (State.governed_ofRegistry registry _ inputs) (hfree (.code (.expr (.block code)))) outputs
    clock
  exact ⟨fun n state h => (hreached n state h).fits keeps, hfinal.fits keeps⟩

/-- The stacks stay typed where two types overlap and the truth values are gone. -/
theorem run_fits_oddRegistry :
    Registry.core.Evolves oddRegistry ∧ oddRegistry.get? .bool = none ∧
      ∃ machine, Machine.ofLibrary ⟨oddRegistry, .core oddRegistry⟩ = .ok machine ∧
        ∀ (code : Block) (inputs : List Value) (outputs : List String) (limits : Limits)
          (clock : Clock),
          (∀ n state, machine.Reaches limits code inputs n state → state.Fits oddRegistry) ∧
            (machine.run code inputs outputs limits clock).2.state.Fits oddRegistry :=
  ⟨evolves_oddRegistry, rfl, run_fits oddRegistry evolves_oddRegistry⟩

/-- **Well-typed programs never end with a mismatch**: if every literal in a program and its inputs
is `Typed`, at any depth, and every input is code or has a type (`Admits`), then a machine with the
core instructions or those on some stacks runs the program to another end than `.typeError`. -/
theorem run_reason_ne_typeError (registry : Registry) (history : Registry.core.Evolves registry)
    (set : InstructionSet)
    (part : set = .core registry ∨
      ∃ names, set = (InstructionSet.core registry).restrict registry names)
    (code : Block) (inputs : List Value) (typedCode : Block.Every (Expr.Typed registry) code)
    (typedInputs : ∀ value ∈ inputs, value.Every (Expr.Typed registry))
    (admitted : ∀ value ∈ inputs, registry.Admits value) :
    ∃ machine, Machine.ofLibrary ⟨registry, set⟩ = .ok machine ∧
      ∀ (outputs : List String) (limits : Limits) (clock : Clock) (mismatch : Mismatch),
        (machine.run code inputs outputs limits clock).1.reason ≠ .typeError mismatch := by
  have keeps := history.keepsCore
  have hcore : ∀ instruction ∈ set.instructions,
      instruction ∈ (InstructionSet.core registry).instructions := by
    rcases part with rfl | ⟨names, rfl⟩
    · exact fun _ h => h
    · exact fun _ h => InstructionSet.mem_of_mem_restrict h
  refine ⟨_, ofLibrary_of_touched fun _ h => (InstructionSet.mem_core (hcore _ h)).2, ?_⟩
  intro outputs limits clock
  have closed := keeps.closed (p := Expr.Typed registry) (fun _ => trivial) (fun _ => trivial)
    (fun htype haccepts => ⟨_, htype, haccepts⟩) limits.toSizeCaps
  have governs := keeps.governs closed hcore typedInputs
  have sound : (registry.discipline (Expr.Typed registry)).sound (.code (.expr (.block code))) :=
    ⟨trivial, typedCode⟩
  obtain ⟨-, -, hreason⟩ := governs.run ⟨⟨registry, set⟩, .ofRegistry registry⟩
    (State.governed_ofRegistry registry _ inputs) sound outputs clock
  exact hreason (Registry.strict_typed admitted)

/-- A loop on a truth value ends without a mismatch where the truth values are gone, and so do odd
integers in quoted code and among the inputs. -/
theorem run_reason_ne_typeError_oddRegistry :
    let code : Block :=
      [.literal (.code (.expr (.block [.literal (.int 3) ⟨12⟩, .literal (.int 4) .int]))) .code,
        .instr "exec_while" 1, .block [.input 0, .input 1]]
    let inputs : List Value := [.code (.expr (.literal (.int 5) ⟨12⟩)), .custom "odd" .null]
    let set := (InstructionSet.core oddRegistry).restrict oddRegistry ["exec", "code", "odd"]
    ∃ machine, Machine.ofLibrary ⟨oddRegistry, set⟩ = .ok machine ∧
      ∀ (outputs : List String) (limits : Limits) (clock : Clock) (mismatch : Mismatch),
        (machine.run code inputs outputs limits clock).1.reason ≠ .typeError mismatch := by
  have three : Expr.Typed oddRegistry (.literal (.int 3) ⟨12⟩) := ⟨oddType, rfl, rfl⟩
  have four : Expr.Typed oddRegistry (.literal (.int 4) .int) :=
    ⟨Registry.builtinTypes[3], rfl, rfl⟩
  have five : Expr.Typed oddRegistry (.literal (.int 5) ⟨12⟩) := ⟨oddType, rfl, rfl⟩
  have quoted : Value.Every (Expr.Typed oddRegistry)
      (.code (.expr (.block [.literal (.int 3) ⟨12⟩, .literal (.int 4) .int]))) :=
    ⟨trivial, ⟨three, trivial⟩, ⟨four, trivial⟩, trivial⟩
  refine run_reason_ne_typeError oddRegistry evolves_oddRegistry _ (.inr ⟨_, rfl⟩) _ _ ?_ ?_ ?_
  · have quoting : Expr.Typed oddRegistry (.literal (.code (.expr (.block
        [.literal (.int 3) ⟨12⟩, .literal (.int 4) .int]))) .code) :=
      ⟨Registry.builtinTypes[1], rfl, rfl⟩
    exact ⟨⟨quoting, quoted⟩, trivial, ⟨trivial, trivial, trivial, trivial⟩, trivial⟩
  · exact List.forall_mem_cons.mpr ⟨⟨five, trivial⟩, List.forall_mem_singleton.mpr trivial⟩
  · refine List.forall_mem_cons.mpr ⟨.inl ⟨_, rfl⟩, List.forall_mem_singleton.mpr (.inr ?_)⟩
    exact ⟨⟨12⟩, oddType, rfl, rfl, rfl⟩

end Machine

end PushMachine
