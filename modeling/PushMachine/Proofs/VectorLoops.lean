import PushMachine.Proofs.PendingWork

/-! # Loops over vectors are folds

A loop over a vector takes one turn for the first item and leaves a block behind that holds the
other items as a literal and calls the loop again. One turn is told by cases on the vector
(`does_unrollVector`), and a whole run by induction on it: the loop pushes every item in order and
runs the body after it (`Library.leads_firstItem` is the step). The vector is taken before the body
runs, so the body may use the stacks of the vectors and of the items as it likes. -/

namespace PushMachine

open Instruction Script

variable {α : Type} [BEq α] [Item α] [LawfulItem α]

/-- A stack for data is not `.exec`, that of the pending work. -/
theorem StackId.IsData.ne_exec {id : StackId} (h : id.IsData) : id ≠ .exec := by
  rintro rfl
  exact absurd h (by decide)

/-- Every core stack for data is registered. -/
theorem Registry.core_contains_data {id : StackId} (h : id.IsData) :
    core.contains id = true := by
  obtain ⟨index⟩ := id
  obtain ⟨hlower, hupper⟩ : 2 ≤ index ∧ index < 12 := h
  interval_cases index <;> rfl

/-! ## One turn -/

namespace Instruction

variable {body : Expr} {pending vectors singles : List Value} {rest : State} {config : Config}

/-- Taking a vector, with `popVector`, from the stack `Item.vector α`. -/
theorem does_popVector {items : List α}
    (found : config.stack? (Item.vector α) = some (Item.toVector items :: vectors)) :
    (popVector : Script (List α)).Does config items
      (config.setStack (Item.vector α) vectors) 0 := by
  rw [popVector]
  refine .bind (n := 0) (m := 0) (does_pop found) ?_
  rw [LawfulItem.ofVector?_toVector]
  exact does_done items

/-- A turn, `iterateVector`, takes the vector and the body, and then pushes. -/
theorem does_iterateVector {items : List α} {after : Config} {pushes : Nat}
    (found : rest.stack? (Item.vector α) = some (Item.toVector items :: vectors))
    (does : (unrollVector items (.expr body)).Does
      ⟨pending, rest.setStack (Item.vector α) vectors⟩ () after pushes) :
    (iterateVector α).Does ⟨.code (.expr body) :: pending, rest⟩ () after pushes := by
  have hne := LawfulItem.vector_isData (α := α).ne_exec
  have hfound : (Config.mk (.code (.expr body) :: pending) rest).stack? (Item.vector α) =
      some (Item.toVector items :: vectors) := (Config.stack?_of_ne hne).trans found
  have hvector := does_popVector hfound
  rw [Config.setStack_of_ne hne] at hvector
  have hbody : (popAtom .exec >>= unrollVector items).Does
      ⟨.code (.expr body) :: pending, rest.setStack (Item.vector α) vectors⟩ () after
      (0 + pushes) := .bind (does_popAtom rfl) does
  have hturn : (iterateVector α).Does ⟨.code (.expr body) :: pending, rest⟩ () after
      (0 + (0 + pushes)) := by
    rw [iterateVector_eq]
    exact .bind hvector hbody
  rwa [Nat.zero_add, Nat.zero_add] at hturn

/-- What waits behind the body during one turn: `loopRest` for the other items, if there are any. -/
def otherItems (others : List α) (body : Expr) : List Value :=
  if others.isEmpty then [] else [.code (loopRest others (.expr body))]

/-- **One turn** of a loop over a vector, `unrollVector`, pushes the first item and the body, and
has `otherItems` wait behind. -/
theorem does_unrollVector (first : α) (others : List α)
    (present : rest.stack? (Item.stack α) = some singles) :
    ∃ pushes ≤ 3, (unrollVector (first :: others) (.expr body)).Does ⟨pending, rest⟩ ()
      ⟨.code (.expr body) :: (otherItems others body ++ pending),
        rest.setStack (Item.stack α) (Item.toValue first :: singles)⟩ pushes := by
  have hne := LawfulItem.stack_isData (α := α).ne_exec
  -- The last two pushes are the same whether or not items are left for later turns.
  have hfinish (pending : List Value) : (do pushAtom .exec (.expr body); pushItem first).Does
      ⟨pending, rest⟩ () ⟨.code (.expr body) :: pending,
        rest.setStack (Item.stack α) (Item.toValue first :: singles)⟩ 2 := by
    have hfound : (Config.mk (.code (.expr body) :: pending) rest).stack? (Item.stack α) =
        some singles := (Config.stack?_of_ne hne).trans present
    have hitem := does_push hfound (Item.toValue first)
    rw [Config.setStack_of_ne hne] at hitem
    exact .bind (m := 1) (does_push rfl _) hitem
  rw [unrollVector, otherItems]
  cases others with
  | nil => exact ⟨2, by decide, hfinish pending⟩
  | cons second more => exact ⟨3, Nat.le_refl 3, .bind (m := 2) (does_push rfl _) (hfinish _)⟩

end Instruction

/-! ## Whole loops -/

namespace Library

variable {library : Library} {limits : Limits} {realm : State → Prop} {body : Expr}
  {f : State → State} {atom : Atom} {pending vectors : List Value} {rest : State}

/-- What a loop does for one item: push it onto `Item.stack α`, and then `f`. -/
def visitItem (f : State → State) (state : State) (item : α) : State :=
  f (state.modifyStack (Item.stack α) (Item.toValue item :: ·))

/-- The core has the loops over vectors. -/
theorem get?_core_vectorLoop {instruction : Instruction} (h : instruction ∈ vectorLoops) :
    (InstructionSet.core .core).get? instruction.name = some instruction := by
  simp only [vectorLoops, List.mem_cons, List.not_mem_nil, or_false] at h
  rcases h with rfl | rfl | rfl | rfl | rfl <;> exact InstructionSet.get?_core rfl rfl

section Loops

variable (loop : vectorLoop α ∈ vectorLoops)
  (offers : library.Offers [Item.vector α, Item.stack α] [iterateName α])
  (reigns : library.Realm limits realm) (cap : 3 ≤ limits.growthCap)
include loop offers reigns cap

/-- A call of the loop does what one turn, `iterateVector`, pushes. -/
theorem leads_vectorLoop {items : List α} {after : Config} {pushes : Nat}
    (called : atom.called? = some (iterateName α))
    (found : rest.stack? (Item.vector α) = some (Item.toVector items :: vectors))
    (does : (unrollVector items (.expr body)).Does
      ⟨pending, rest.setStack (Item.vector α) vectors⟩ () after pushes) (few : pushes ≤ 3) :
    library.Leads limits realm ⟨.code atom :: .code (.expr body) :: pending, rest⟩ after := by
  have hne := LawfulItem.vector_isData (α := α).ne_exec
  have hloop : library.instructions.get? (iterateName α) = some (vectorLoop α) :=
    (offers.instruction _ List.mem_cons_self).trans (get?_core_vectorLoop loop)
  have hready : (Config.mk (.code (.expr body) :: pending) rest).Readies (vectorLoop α) := by
    have hnodup : (vectorLoop α).inputs.Nodup := by simpa [vectorLoop] using hne
    refine Config.readies_of_nodup hnodup fun id hid => ?_
    rcases List.mem_pair.mp hid with rfl | rfl
    · exact ⟨_, _, (Config.stack?_of_ne hne).trans found⟩
    · exact ⟨_, _, rfl⟩
  exact leads_call reigns called hloop hready (does_iterateVector found does)
    (Nat.le_trans few cap)

omit loop cap in
/-- The block for the other items, `loopRest`, leads to a call of the loop. -/
theorem leads_loopRest (others : List α) (body : Expr) (pending : List Value) (rest : State) :
    library.Leads limits realm ⟨.code (loopRest others (.expr body)) :: pending, rest⟩
      ⟨.code (.expr (.deferred (iterateName α))) :: .code (.expr body) :: pending,
        rest.modifyStack (Item.vector α) (Item.toVector others :: ·)⟩ := by
  have hdata := LawfulItem.vector_isData (α := α)
  obtain ⟨type, htype⟩ := Registry.exists_of_contains (Registry.core_contains_data hdata)
  have haccepts : type.accepts (Item.toVector others) = true :=
    (Registry.Evolves.start.keepsCore.accepts_data hdata htype).mpr
      (LawfulItem.homeStack?_toVector others)
  have hvector := closedBody_literal reigns
    ((offers.type _ List.mem_cons_self).trans htype) hdata.ne_exec haccepts
  exact (leads_block reigns _ pending rest).trans reigns (hvector _ rest)

variable (closed : library.ClosedBody limits realm body f)
include closed

/-- **The step**: the `first` item is pushed and the body runs, without the vector. -/
theorem leads_firstItem (first : α) (others : List α)
    (called : atom.called? = some (iterateName α))
    (found : rest.stack? (Item.vector α) = some (Item.toVector (first :: others) :: vectors)) :
    library.Leads limits realm ⟨.code atom :: .code (.expr body) :: pending, rest⟩
      ⟨otherItems others body ++ pending,
        visitItem f (rest.setStack (Item.vector α) vectors) first⟩ := by
  have hdata := LawfulItem.stack_isData (α := α)
  have hregistered : library.registry.contains (Item.stack α) = true :=
    offers.contains (by simp) (Registry.core_contains_data hdata)
  refine .of_housed reigns hregistered fun singles hsingles => ?_
  rw [Config.stack?_of_ne hdata.ne_exec] at hsingles
  obtain ⟨kept, hkept⟩ := State.exists_stack?_setStack hsingles (Item.vector α) vectors
  obtain ⟨pushes, hfew, hdoes⟩ := does_unrollVector first others hkept
  refine (leads_vectorLoop loop offers reigns cap called found hdoes hfew).trans reigns ?_
  rw [visitItem, State.modifyStack_of_found hkept]
  exact closed _ _

end Loops

/-- **A loop over a vector is a fold from the left** of `visitItem`, for every type of items. From
every state of a realm in which such a loop is called next, with a vector and a closed body for it,
the run comes to a state with exactly the work that was pending behind: the vector is gone, and for
each of its items in order the item was pushed and the body ran. Without an item, only the vector
and the body are gone. -/
theorem iterate_fold (α : Type) [BEq α] [Item α] [LawfulItem α]
    (loop : vectorLoop α ∈ vectorLoops) (library : Library) (limits : Limits)
    (realm : State → Prop) (body : Expr) (f : State → State)
    (offers : library.Offers [Item.vector α, Item.stack α] [iterateName α])
    (reigns : library.Realm limits realm) (cap : 3 ≤ limits.growthCap)
    (closed : library.ClosedBody limits realm body f) (atom : Atom) (pending vectors : List Value)
    (rest : State) (items : List α) (called : atom.called? = some (iterateName α))
    (found : rest.stack? (Item.vector α) = some (Item.toVector items :: vectors)) :
    library.Leads limits realm ⟨.code atom :: .code (.expr body) :: pending, rest⟩
      ⟨pending, items.foldl (visitItem f) (rest.setStack (Item.vector α) vectors)⟩ := by
  have hdata := LawfulItem.vector_isData (α := α)
  have hregistered : library.registry.contains (Item.vector α) = true :=
    offers.contains List.mem_cons_self (Registry.core_contains_data hdata)
  induction items generalizing atom rest vectors with
  | nil => exact leads_vectorLoop loop offers reigns cap called found (does_done ()) (by decide)
  | cons first others ih =>
    refine (leads_firstItem loop offers reigns cap closed first others called found).trans reigns ?_
    rw [otherItems, List.foldl_cons]
    generalize visitItem f (rest.setStack (Item.vector α) vectors) first = visited
    cases others with
    | nil => exact .refl _
    | cons second more =>
      -- The other items come back onto the stack of vectors, whatever the body left there.
      refine .of_housed reigns hregistered fun left hleft => ?_
      rw [Config.stack?_of_ne hdata.ne_exec] at hleft
      have hothers := ih (.expr (.deferred (iterateName α))) left _ rfl
        (State.stack?_setStack_self hleft (Item.toVector (second :: more) :: left))
      rw [State.setStack_setStack, State.setStack_self hleft] at hothers
      refine (leads_loopRest offers reigns (second :: more) body pending visited).trans reigns ?_
      rwa [State.modifyStack_of_found hleft]

/-- A loop over three integers, in front of other work, with a body that pushes onto the stack of
the vectors. -/
theorem iterate_fold_vectors :
    let body : Expr := .literal (.ints [7]) .vectorInt
    let rest : State :=
      { slots := (List.replicate 12 (some [])).set 8 (some [.ints [1, 2, 3], .ints []]) }
    let state := rest.setStack .exec
      [.code (.expr (.deferred "vector_int_iterate")), .code (.expr body), .code .closer]
    ∃ n last, core.Steps {} n state last ∧ last.stack? .exec = some [.code .closer] ∧
      last.settled = (rest.setStack .int [.int 3, .int 2, .int 1]).setStack .vectorInt
        [.ints [7], .ints [7], .ints [7], .ints []] := by
  intro body rest state
  have reigns := core.realm_of_registry {}
  have closed : core.ClosedBody {} _ body _ := closedBody_literal reigns rfl (by decide) rfl
  have hfold := iterate_fold Int64 (by simp [vectorLoops]) core {} _ body _ (offers_core _ _) reigns
    (by decide) closed (.expr (.deferred "vector_int_iterate")) [.code .closer] [.ints []] rest
    [1, 2, 3] rfl rfl
  obtain ⟨n, last, hsteps, hlast⟩ := hfold state ⟨rfl, rfl⟩ ⟨rfl, rfl⟩
  refine ⟨n, last, hsteps, hlast.pending, hlast.rest.trans ?_⟩
  simp [rest, visitItem, Item.toValue, Item.stack, Item.vector, State.modifyStack, State.setStack,
    State.stack?, StackId.int, StackId.vectorInt]

end Library

end PushMachine
