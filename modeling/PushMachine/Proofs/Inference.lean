import PushMachine.Proofs.Classification
import PushMachine.Proofs.PendingWork

/-! # The stack of a value, found fast

A value is first tried on the core stack of its kind, and the types are scanned only where that
fails. In a registry that comes from the core one this finds what the scan would find. The types
below a core stack are core types, which accept values of their own kind only, or the types for
code (`Registry.KeepsCore.home_first`). A literal of a value names the stack that was found, whose
type accepts the value, so an input becomes a literal and the literal goes to its stack. -/

namespace PushMachine

namespace Registry

variable {registry : Registry} {id home other : StackId} {value : Value}

/-! ## The first stack that takes a value -/

/-- **The first stack that takes a value**: it `Takes` it, and none before it does. -/
structure First (registry : Registry) (value : Value) (id : StackId) : Prop where
  /-- The stack takes the value. -/
  takes : registry.Takes id value
  /-- No stack with a smaller number does. -/
  least : ∀ other, registry.Takes other value → id.index ≤ other.index

/-- The core stack of a kind of values, `homeStack?`, is one for data. -/
theorem isData_of_homeStack? (h : value.homeStack? = some home) : home.IsData := by
  cases value <;> cases h <;> decide

/-- No stack for code `Takes` a value: its type has a name of the machine's own. -/
theorem KeepsCore.not_takes_code (keeps : registry.KeepsCore) (hid : id = .exec ∨ id = .code) :
    ¬registry.Takes id value := by
  rintro ⟨type, htype, hown, -⟩
  rw [keeps.own id hid] at htype
  rw [isOwnName_of_core hid htype] at hown
  cases hown

/-- **The core stack of a value's kind comes first**: `homeStack?` is not behind any stack that
takes the value. -/
theorem KeepsCore.home_first (keeps : registry.KeepsCore) (hhome : value.homeStack? = some home)
    (htakes : registry.Takes other value) : home.index ≤ other.index := by
  rcases Nat.lt_or_ge other.index StackId.coreSize with hcore | hlater
  · by_cases hcode : other = .exec ∨ other = .code
    · exact absurd htakes (keeps.not_takes_code hcode)
    · -- Another core type accepts the value only if this is the stack of its kind.
      obtain ⟨type, htype, -, haccepts⟩ := htakes
      have hdata := StackId.isData_of_not_own hcode hcore
      have hkind := (keeps.accepts_data hdata htype).mp haccepts
      rw [hhome] at hkind
      rw [Option.some.inj hkind]
  · exact Nat.le_of_lt (Nat.lt_of_lt_of_le (isData_of_homeStack? hhome).2 hlater)

/-- **The stack chosen for a value is the first that takes it**: `Chosen` is `First`. -/
theorem KeepsCore.chosen_iff_first (keeps : registry.KeepsCore) :
    registry.Chosen value id ↔ registry.First value id := by
  constructor
  · intro chosen
    refine ⟨chosen.takes, ?_⟩
    rcases chosen.preferred with hhome | ⟨-, hfirst⟩
    · exact fun other htakes => keeps.home_first hhome htakes
    · exact hfirst
  · intro first
    refine ⟨first.takes, ?_⟩
    by_cases hhome : value.homeStack? = some id
    · exact .inl hhome
    · refine .inr ⟨fun home hkind htakes => hhome ?_, first.least⟩
      -- Two stacks that both come first are one.
      have hindex := Nat.le_antisymm (keeps.home_first hkind first.takes) (first.least home htakes)
      rwa [show home = id from congrArg StackId.mk hindex] at hkind

/-- A value is refused with `.noTypeForValue` exactly if no stack `Takes` it. -/
theorem OwnOnCode.place_eq_error_iff (own : registry.OwnOnCode) :
    registry.place value = .error .noTypeForValue ↔ ∀ id, ¬registry.Takes id value := by
  refine ⟨?_, own.place_eq_error⟩
  rintro hrefused id ⟨type, htype, hown, haccepts⟩
  obtain ⟨place, hplace⟩ := exists_place htype hown haccepts
  rw [hrefused] at hplace
  cases hplace

/-- The literal of a value that `place` puts on `id` is `.literal value id`. -/
theorem literal_of_place (h : registry.place value = .ok id) :
    registry.literal value = .ok (.literal value id) := by
  rw [literal, h]
  rfl

end Registry

/-! ## Inputs and their literals -/

namespace Library

variable {library : Library} {limits : Limits} {id : StackId} {value : Value} {atom : Atom}
  {state : State} {pending items : List Value} {rest : State} {after : Config}

/-- The literal of a value passes the test of its stack: `perform` pushes it. -/
theorem perform_literal (h : library.registry.place value = .ok id) (limits : Limits)
    (state : State) :
    library.perform limits state (.expr (.literal value id)) =
      .ofOperation state (state.push id value) := by
  obtain ⟨type, htype, haccepts⟩ := Registry.accepts_of_place h
  rw [perform, placeLiteral, htype]
  exact if_pos haccepts

/-- An input that is no code becomes the literal that `place` tells. -/
theorem perform_input (h : library.registry.place value = .ok id)
    (notCode : ∀ atom, value ≠ .code atom) (limits : Limits) {index : Nat}
    (input : state.inputs[index]? = some value) :
    library.perform limits state (.expr (.input index)) =
      .ofOperation state (state.push .exec (.code (.expr (.literal value id)))) := by
  rw [perform, fetchInput, input]
  cases value with
  | code atom => exact absurd rfl (notCode atom)
  | _ =>
    simp only [Registry.literal_of_place h]

/-- One step takes the next atom and does what `State.push` does. -/
theorem exists_step_of_push (shown : state.Shows ⟨.code atom :: pending, rest⟩)
    (found : (Config.mk pending rest).stack? id = some items)
    (performs : ∀ popped : State, popped.Shows ⟨pending, rest⟩ →
      library.perform limits popped atom = .ofOperation popped (popped.push id value)) :
    ∃ last, library.Steps limits 1 state last ∧
      last.Shows ((Config.mk pending rest).setStack id (value :: items)) := by
  have hnext : (Config.mk (.code atom :: pending) rest).stack? .exec =
      some (.code atom :: pending) := rfl
  obtain ⟨popped, htaken, hpopped, -⟩ := Script.does_popAtom hnext state shown
  obtain ⟨last, hpush, hlast, -⟩ := State.Shows.push hpopped found value
  have hperform : library.perform limits popped atom = { state := last } := by
    rw [performs popped hpopped, hpush]
    rfl
  refine ⟨_, .succ htaken ?_ .zero, ?_⟩
  · rw [hperform]
  · rwa [hperform]

/-- **An input and its literal**: the first step makes the literal pending work, and the second
pushes the value. -/
theorem exists_steps_of_input (h : library.registry.place value = .ok id) (hid : id ≠ .exec)
    (notCode : ∀ atom, value ≠ .code atom) (limits : Limits) {index : Nat}
    (shown : state.Shows ⟨.code (.expr (.input index)) :: pending, rest⟩)
    (input : rest.inputs[index]? = some value) (found : rest.stack? id = some items) :
    ∃ middle last, library.Steps limits 1 state middle ∧
      middle.Shows ⟨.code (.expr (.literal value id)) :: pending, rest⟩ ∧
      library.Steps limits 1 middle last ∧
      last.Shows ⟨pending, rest.setStack id (value :: items)⟩ := by
  have hinput : ∀ popped : State, popped.Shows ⟨pending, rest⟩ →
      popped.inputs[index]? = some value := by
    intro popped hpopped
    have hsame : popped.settled.inputs = rest.inputs := congrArg State.inputs hpopped.rest
    rwa [← hsame] at input
  -- Both steps are one push: of the literal onto the pending work, and then of the value.
  obtain ⟨middle, hfirst, hmiddle⟩ := exists_step_of_push shown rfl fun popped hpopped =>
    perform_input h notCode limits (hinput popped hpopped)
  have hfound : (Config.mk pending rest).stack? id = some items :=
    (Config.stack?_of_ne hid).trans found
  obtain ⟨last, hsecond, hlast⟩ := exists_step_of_push hmiddle hfound fun popped _ =>
    perform_literal h limits popped
  rw [Config.setStack_of_ne hid] at hlast
  exact ⟨middle, last, hfirst, hmiddle, hsecond, hlast⟩

end Library

/-- **The fast way agrees with the scan.** In what the core registry becomes by any requests:

* a value goes to the first stack whose type takes it, and is refused where there is none;
* the literal of a value names that stack and passes its test;
* an input that is no code becomes this literal in one step of a machine, and the next step pushes
  the value on that stack. -/
theorem Registry.place_eq_first {registry : Registry} (becomes : core.Becomes registry)
    (value : Value) :
    (∀ id, registry.place value = .ok id ↔ registry.First value id) ∧
    (registry.place value = .error .noTypeForValue ↔ ∀ id, ¬registry.Takes id value) ∧
    ∀ id, registry.place value = .ok id →
      registry.literal value = .ok (.literal value id) ∧
      ∀ (library : Library) (limits : Limits), library.registry = registry →
        (∀ state, library.perform limits state (.expr (.literal value id)) =
          .ofOperation state (state.push id value)) ∧
        ((∀ atom, value ≠ .code atom) → ∀ (state : State) (index : Nat) (pending : List Value),
          state.From (.ofRegistry registry) → state.inputs[index]? = some value →
          state.stack? .exec = some (.code (.expr (.input index)) :: pending) →
          ∃ items middle last, state.stack? id = some items ∧
            library.Steps limits 1 state middle ∧
            middle.Shows ⟨.code (.expr (.literal value id)) :: pending, state.settled⟩ ∧
            library.Steps limits 1 middle last ∧
            last.Shows ⟨pending, state.settled.setStack id (value :: items)⟩) := by
  have keeps := (becomes.evolves core_agrees).keepsCore
  obtain ⟨-, -, own⟩ := becomes.inUse (.inr rfl)
  refine ⟨fun id => own.place_eq_ok_iff.trans keeps.chosen_iff_first, own.place_eq_error_iff, ?_⟩
  intro id hplace
  refine ⟨literal_of_place hplace, ?_⟩
  rintro library limits rfl
  refine ⟨Library.perform_literal hplace limits, ?_⟩
  intro notCode state index pending started input hpending
  have htakes := (own.chosen_of_place hplace).takes
  -- No stack for code takes a value, so that the value does not become pending work.
  have hid : id ≠ .exec := fun heq => keeps.not_takes_code (.inl heq) htakes
  obtain ⟨type, htype, -, -⟩ := htakes
  have hcontains : library.registry.contains id = true := by rw [contains, htype]; rfl
  obtain ⟨items, hitems⟩ := (library.realm_of_registry limits).housed started hcontains
  have hfound : state.settled.stack? id = some items :=
    (State.stack?_settled state hid).trans hitems
  have hshown : state.Shows ⟨.code (.expr (.input index)) :: pending, state.settled⟩ :=
    ⟨hpending, rfl⟩
  obtain ⟨middle, last, hsteps⟩ :=
    Library.exists_steps_of_input hplace hid notCode limits hshown input hfound
  exact ⟨items, middle, last, hitems, hsteps⟩

/-- The integers other than zero, with a witness of another kind. -/
def Registry.nonzeroType : StackType where
  name := "nonzero"
  accepts := fun
    | .int n => n != 0
    | .custom _ _ => true
    | _ => false
  coerce := fun _ => none
  witness := .custom "nonzero" .null

/-- Two stacks take a nonzero integer, and it goes to the first one, as its kind says. After the
type of integers is removed it goes to the other, also when it is an input. -/
theorem Registry.place_eq_first_nonzero :
    let both := (core.add nonzeroType).2
    let registry := (both.remove "int").2
    let library : Library := ⟨registry, ⟨[]⟩⟩
    let state : State :=
      { (State.ofRegistry registry).setStack .exec [.code (.expr (.input 0))] with
        inputs := [.int 5] }
    (both.Takes ⟨12⟩ (.int 5) ∧ both.First (.int 5) .int) ∧ registry.First (.int 5) ⟨12⟩ ∧
      (∀ id, ¬registry.Takes id (.int 0)) ∧
      ∃ middle last, library.Steps {} 1 state middle ∧ library.Steps {} 1 middle last ∧
        last.stack? .exec = some [] ∧ last.stack? ⟨12⟩ = some [.int 5] := by
  intro both registry library state
  have hboth : core.Becomes both := Becomes.start.add nonzeroType
  have hbecomes : core.Becomes registry := hboth.remove "int"
  obtain ⟨hfirst, -, hinput⟩ := place_eq_first hbecomes (.int 5)
  obtain ⟨-, hsteps⟩ := (hinput ⟨12⟩ rfl).2 library {} rfl
  obtain ⟨items, middle, last, hitems, hone, -, htwo, hlast⟩ :=
    hsteps nofun state 0 [] ⟨rfl, rfl⟩ rfl rfl
  cases hitems
  refine ⟨⟨⟨nonzeroType, rfl, rfl, rfl⟩, ((place_eq_first hboth (.int 5)).1 .int).mp rfl⟩,
    (hfirst ⟨12⟩).mp rfl, (place_eq_first hbecomes (.int 0)).2.1.mp rfl, middle, last, hone, htwo,
    hlast.pending, ?_⟩
  rw [hlast.stack?_eq]
  rfl

end PushMachine
