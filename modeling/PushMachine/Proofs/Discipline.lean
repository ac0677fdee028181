import PushMachine.Instruction
import PushMachine.Proofs.Operations

/-! # Disciplines

A discipline says which values may lie on which stack. A script obeys a discipline if it pushes only
what the discipline allows, on the assumption that it finds nothing else, and if it never complains
about a stack or a value itself. `Script.Obeys` follows the script's tree, so it is checked without
running the script, and `Script.Obeys.run` shows what it is worth: from a state that meets the
discipline, a script that obeys it ends in one, and never with a mismatch. -/

namespace PushMachine

/-- **A discipline** of the stacks: which there are, which instructions may declare, and which
values may lie on them (`Discipline.Allows`). -/
structure Discipline where
  /-- The stacks that there are. -/
  present : StackId → Prop
  /-- The stacks that instructions may declare. -/
  declared : StackId → Prop
  /-- The values that belong on a stack. -/
  belongs : StackId → Value → Prop
  /-- The values that may lie on any stack where they belong. Invariants of values and code are put
  here, as predicates `Value → Prop`. -/
  sound : Value → Prop

namespace Discipline

/-- A value that may lie on a stack: it `belongs` there and is `sound`. -/
def Allows (discipline : Discipline) (id : StackId) (value : Value) : Prop :=
  discipline.belongs id value ∧ discipline.sound value

/-- The same discipline, with other stacks `declared`. -/
def declaring (discipline : Discipline) (declared : StackId → Prop) : Discipline :=
  { discipline with declared := declared }

end Discipline

variable {discipline : Discipline}

/-- A state in which only the `present` stacks exist, with allowed values on them. -/
structure State.Meets (discipline : Discipline) (state : State) : Prop where
  /-- The present stacks are those that exist. -/
  present : ∀ id, discipline.present id ↔ (state.stack? id).isSome
  /-- The values on a stack are allowed there (`Discipline.Allows`). -/
  allowed : ∀ id items, state.stack? id = some items → ∀ value ∈ items, discipline.Allows id value

namespace Op

/-- The operations that a discipline permits: on `present` stacks, and pushing allowed values only.
Counting is permitted on every stack. -/
def Permitted (discipline : Discipline) : Op → Prop
  | .push id value => discipline.present id ∧ discipline.Allows id value
  | .pop id => discipline.present id
  | .peek id _ => discipline.present id
  | .depth _ => True
  | .flush id => discipline.present id
  | .yank id _ => discipline.present id
  | .shove id _ value => discipline.present id ∧ discipline.Allows id value
  | .print _ _ => True

/-- What a discipline promises of an operation's result: items are allowed on their stack, and a
stack with items is `present`. -/
def Promised (discipline : Discipline) : (op : Op) → op.Result → Prop
  | .push _ _, _ => True
  | .pop id, value => discipline.Allows id value
  | .peek id _, value => discipline.Allows id value
  | .depth id, count => count ≠ (0 : Nat) → discipline.present id
  | .flush _, _ => True
  | .yank id _, value => discipline.Allows id value
  | .shove _ _ _, _ => True
  | .print _ _, _ => True

end Op

namespace Script

variable {α β : Type}

/-- **A script obeys a discipline** if each of its operations is permitted, whatever promised
results the operations before it had, if it does not fail with a mismatch, and if its own result
satisfies `post`. -/
def Obeys (discipline : Discipline) (post : α → Prop) : Script α → Prop
  | .done result => post result
  | .fail fault => ∀ mismatch, fault ≠ .typeError mismatch
  | .act op next =>
    op.Permitted discipline ∧
      ∀ result, op.Promised discipline result → (next result).Obeys discipline post

/-- A script that obeys a discipline, whatever its result: `Obeys` without a postcondition. -/
def Keeps (discipline : Discipline) (script : Script α) : Prop :=
  script.Obeys discipline fun _ => True

/-! ## Composing scripts -/

/-- A sequence obeys if the first script does and leads to results from which `rest` does. -/
theorem Obeys.bind {script : Script α} {rest : α → Script β} {post : β → Prop}
    (h : script.Obeys discipline fun result => (rest result).Obeys discipline post) :
    (script >>= rest).Obeys discipline post := by
  induction script with
  | done result => exact h
  | fail fault => exact h
  | act op next ih => exact ⟨h.1, fun result promised => ih result (h.2 result promised)⟩

/-- Giving up obeys every discipline. -/
theorem revert_obeys {post : α → Prop} : (revert : Script α).Obeys discipline post := nofun

/-- Going on with an optional result: only the case that it is `some value` counts. -/
theorem ofOption_bind_obeys {result : Option α} {rest : α → Script β} {post : β → Prop}
    (h : ∀ value, result = some value → (rest value).Obeys discipline post) :
    (ofOption result >>= rest).Obeys discipline post := by
  cases result with
  | none => exact revert_obeys
  | some value => exact h value rfl

end Script

/-! ## What a script leaves behind -/

namespace State

variable {state after : State}

/-- Only the stacks of a state count for `Meets`. -/
theorem Meets.of_stacks (meets : state.Meets discipline)
    (same : ∀ id, after.stack? id = state.stack? id) : after.Meets discipline := by
  refine ⟨fun id => ?_, fun id items => ?_⟩
  · rw [same id]
    exact meets.present id
  · rw [same id]
    exact meets.allowed id items

/-- A note leaves the stacks as they are. -/
theorem Meets.note (meets : state.Meets discipline) (change : Change) :
    (state.note change).Meets discipline :=
  meets.of_stacks fun _ => stack?_note change

/-- Items that are all allowed on stack `id` may replace those of the stack. -/
theorem Meets.setStack (meets : state.Meets discipline) {id : StackId} {items new : List Value}
    (found : state.stack? id = some items) (allowed : ∀ value ∈ new, discipline.Allows id value) :
    (state.setStack id new).Meets discipline := by
  refine ⟨fun other => ?_, fun other others hother => ?_⟩
  · rw [meets.present other]
    by_cases heq : other = id
    · rw [heq, stack?_setStack_self found, found, Option.isSome_some, Option.isSome_some]
    · rw [stack?_setStack_of_ne heq]
  · by_cases heq : other = id
    · subst heq
      rw [stack?_setStack_self found] at hother
      cases hother
      exact allowed
    · rw [stack?_setStack_of_ne heq] at hother
      exact meets.allowed other others hother

/-- A stack with items exists. -/
theorem isSome_of_depth_ne_zero {id : StackId} (h : state.depth id ≠ 0) :
    (state.stack? id).isSome := by
  rw [depth] at h
  cases hstack : state.stack? id with
  | none =>
    rw [hstack] at h
    exact absurd rfl h
  | some items => rfl

/-- **The step**: a `Permitted` operation keeps the discipline and has a `Promised` result. -/
theorem Did.meets {op : Op} {result : op.Result} (did : state.Did op result after)
    (permitted : op.Permitted discipline) (meets : state.Meets discipline) :
    after.Meets discipline ∧ op.Promised discipline result := by
  -- Each case says what the stack holds afterwards; the note in the journal touches no stack.
  cases did with
  | @push id value items found =>
    have hitems : ∀ other ∈ value :: items, discipline.Allows id other :=
      List.forall_mem_cons.mpr ⟨permitted.2, meets.allowed id items found⟩
    exact ⟨(meets.setStack found hitems).of_stacks fun _ => stack?_note _, trivial⟩
  | @pop id value rest found =>
    obtain ⟨hvalue, hrest⟩ := List.forall_mem_cons.mp (meets.allowed id _ found)
    exact ⟨(meets.setStack found hrest).note _, hvalue⟩
  | @peek id depth value items found item =>
    exact ⟨meets, meets.allowed id items found value (List.mem_of_getElem? item)⟩
  | @depth id =>
    refine ⟨meets, fun hcount => ?_⟩
    rw [meets.present id]
    exact isSome_of_depth_ne_zero hcount
  | @flush id items found =>
    exact ⟨(meets.setStack found (List.forall_mem_nil _)).note _, trivial⟩
  | @yank id depth value items found item =>
    have hitems := meets.allowed id items found
    refine ⟨(meets.setStack found ?_).note _, hitems value (List.mem_of_getElem? item)⟩
    exact fun other hother => hitems other (List.mem_of_mem_eraseIdx hother)
  | @shove id depth value items found =>
    have hitems : ∀ other ∈ items.insertIdx (min depth items.length) value,
        discipline.Allows id other := by
      intro other hother
      rcases (List.mem_insertIdx (Nat.min_le_right _ _)).mp hother with rfl | hmem
      · exact permitted.2
      · exact meets.allowed id items found other hmem
    exact ⟨(meets.setStack found hitems).of_stacks fun _ => stack?_note _, trivial⟩
  | print fits => exact ⟨meets.of_stacks fun _ => stack?_note _, trivial⟩

end State

/-- A permitted operation has its stack: `op.stack?` is `present`. -/
theorem Op.Permitted.present {op : Op} (permitted : op.Permitted discipline) {id : StackId}
    (hop : op.stack? = some id) : discipline.present id := by
  cases op <;> cases hop
  case push.refl => exact permitted.1
  case pop.refl => exact permitted
  case peek.refl => exact permitted
  case flush.refl => exact permitted
  case yank.refl => exact permitted
  case shove.refl => exact permitted.1

/-- **The run**: from a state that `Meets` a discipline, a script that `Obeys` it ends in one, with
a result as promised, and never with a mismatch. -/
theorem Script.Obeys.run {α : Type} {script : Script α} {post : α → Prop} {state : State}
    (obeys : script.Obeys discipline post) (meets : state.Meets discipline) :
    (script.run state).2.Meets discipline ∧
      (∀ result, (script.run state).1 = .ok result → post result) ∧
      ∀ mismatch, (script.run state).1 ≠ .error (.typeError mismatch) := by
  induction script generalizing state with
  | done result =>
    refine ⟨meets, fun other hother => ?_, fun mismatch hfault => by cases hfault⟩
    cases hother
    exact obeys
  | fail fault =>
    refine ⟨meets, fun result hresult => (by cases hresult), fun mismatch hfault => ?_⟩
    cases hfault
    exact obeys mismatch rfl
  | act op next ih =>
    obtain ⟨permitted, hnext⟩ := obeys
    rw [Script.run]
    rcases state.apply_cases op with ⟨result, after, happly, did⟩ | ⟨fault, happly, hfault⟩
    · rw [happly]
      obtain ⟨hafter, promised⟩ := did.meets permitted meets
      exact ih result (hnext result promised) hafter
    · rw [happly]
      refine ⟨meets, fun result hresult => (by cases hresult), fun mismatch heq => ?_⟩
      cases heq
      -- A mismatch means a missing stack, and a permitted operation has its stack.
      obtain ⟨id, hop, hmissing⟩ := hfault mismatch rfl
      have hpresent := (meets.present id).mp (permitted.present hop)
      rw [hmissing] at hpresent
      cases hpresent

end PushMachine
