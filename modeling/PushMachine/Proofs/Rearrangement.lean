import Mathlib.Data.List.InsertIdx
import PushMachine.Proofs.Arguments
import PushMachine.Proofs.InstructionNames

/-! # Rearranging a stack

Exchanging, rotating, bringing an item up and moving it down lose nothing and copy nothing: each is
a rearrangement of its stack (`Rearrangement.change`), and nothing else in the state is touched but
for the position that is taken from the integers. Positions are made to fit the stack as it is after
the items above were taken, so that bringing up and moving down undo each other for every position,
negative and too large ones included (`Rearrangement.shove_yank`, `Rearrangement.yank_shove`). -/

namespace PushMachine

/-! ## Moves -/

/-- **A move** of the items of one stack. -/
inductive Rearrangement where
  /-- Exchange the two top items. -/
  | swap
  /-- Bring the third item to the top. -/
  | rotate
  /-- Bring the item at position `n` to the top. -/
  | yank (n : Int64)
  /-- Move the top item to position `n`. -/
  | shove (n : Int64)

namespace Rearrangement

variable {items : List Value} {n : Int64}

/-- The verb of the move. -/
def verb : Rearrangement → String
  | swap => "swap"
  | rotate => "rot"
  | yank _ => "yank"
  | shove _ => "shove"

/-- What the move takes from other stacks: the position, from `.int`. -/
def arguments : Rearrangement → List (StackId × Value)
  | yank n | shove n => [(.int, .int n)]
  | _ => []

/-- Number of items that the move needs. -/
def least : Rearrangement → Nat
  | swap => 2
  | rotate => 3
  | _ => 1

/-- **What the move makes of the items**, top first. -/
def change : Rearrangement → List Value → List Value
  | swap, a :: b :: rest => b :: a :: rest
  | rotate, a :: b :: c :: rest => c :: a :: b :: rest
  | yank n, items =>
    let place := nearestPlace n (items.length - 1)
    items[place]?.toList ++ items.eraseIdx place
  | shove n, value :: rest => rest.insertIdx (nearestPlace n rest.length) value
  | _, items => items

/-- The place of an item that is brought up, `nearestPlace n`, is one of the items. -/
theorem nearestPlace_lt (n : Int64) (enough : 1 ≤ items.length) :
    nearestPlace n (items.length - 1) < items.length := by
  rw [nearestPlace]
  omega

/-- Bringing an item up: `yank n` takes it out and puts it on top. -/
theorem change_yank {value : Value}
    (item : items[nearestPlace n (items.length - 1)]? = some value) :
    (yank n).change items = value :: items.eraseIdx (nearestPlace n (items.length - 1)) := by
  simp only [change, item]
  rfl

/-- **A move only rearranges**: `move.change items` is a permutation of `items`. -/
theorem change_perm (move : Rearrangement) (enough : move.least ≤ items.length) :
    (move.change items).Perm items := by
  match move, items, enough with
  | swap, a :: b :: rest, _ => exact .swap a b rest
  | rotate, a :: b :: c :: rest, _ =>
    exact (List.Perm.swap a c (b :: rest)).trans ((List.Perm.swap b c rest).cons a)
  | yank n, items, enough =>
    have hlt := nearestPlace_lt n enough
    rw [change_yank (List.getElem?_eq_getElem hlt)]
    exact List.getElem_cons_eraseIdx_perm hlt
  | shove n, value :: rest, _ => exact List.perm_insertIdx value rest (Nat.min_le_right _ _)

theorem change_swap_swap (enough : 2 ≤ items.length) : swap.change (swap.change items) = items := by
  match items, enough with
  | a :: b :: rest, _ => rfl

theorem change_rotate_rotate_rotate (enough : 3 ≤ items.length) :
    rotate.change (rotate.change (rotate.change items)) = items := by
  match items, enough with
  | a :: b :: c :: rest, _ => rfl

/-- **Moving down what was brought up** puts it where it was: `shove n` undoes `yank n`. -/
theorem shove_yank (n : Int64) (enough : 1 ≤ items.length) :
    (shove n).change ((yank n).change items) = items := by
  have hlt := nearestPlace_lt n enough
  rw [change_yank (List.getElem?_eq_getElem hlt)]
  -- Without the item, the stack has as many places to move it to as there were to take it from.
  simp only [change, List.length_eraseIdx_of_lt hlt]
  exact List.insertIdx_eraseIdx_getElem hlt

/-- **Bringing up what was moved down** puts it back on top: `yank n` undoes `shove n`. -/
theorem yank_shove (n : Int64) (enough : 1 ≤ items.length) :
    (yank n).change ((shove n).change items) = items := by
  match items, enough with
  | value :: rest, _ =>
    have hle : nearestPlace n rest.length ≤ rest.length := Nat.min_le_right _ _
    rw [show (shove n).change (value :: rest) = rest.insertIdx (nearestPlace n rest.length) value
      from rfl]
    have hplace : (rest.insertIdx (nearestPlace n rest.length) value).length - 1 = rest.length := by
      rw [List.length_insertIdx_of_le_length hle, Nat.add_sub_cancel]
    have hitem : (rest.insertIdx (nearestPlace n rest.length) value)[nearestPlace n
        ((rest.insertIdx (nearestPlace n rest.length) value).length - 1)]? = some value := by
      rw [hplace, List.getElem?_insertIdx_self, if_pos hle]
    rw [change_yank hitem, hplace, List.eraseIdx_insertIdx_self]

end Rearrangement

/-! ## What the scripts do -/

namespace Script

variable {config : Config} {id : StackId} {items old : List Value} {value : Value}

/-- Taking the top item of a stack that `setStack` made `value :: items` leaves `items` there. -/
theorem does_pop_replaced (found : config.stack? id = some old) (value : Value)
    (items : List Value) :
    (Script.pop id).Does (config.setStack id (value :: items)) value (config.setStack id items) 0 :=
  (does_pop (Config.stack?_setStack_self found _)).to (Config.setStack_setStack _ _)

/-- Pushing onto a stack that `setStack` made `items` makes it `value :: items`. -/
theorem does_push_replaced (found : config.stack? id = some old) (value : Value)
    (items : List Value) :
    (Script.push id value).Does (config.setStack id items) () (config.setStack id (value :: items))
      1 :=
  (does_push (Config.stack?_setStack_self found _) value).to (Config.setStack_setStack _ _)

/-- Counting the items with `Script.depth` gives `items.length`. -/
theorem does_depth (found : config.stack? id = some items) :
    (Script.depth id).Does config items.length config 0 := by
  intro state shown
  have hdepth : state.depth id = items.length := by
    rw [State.depth, shown.stack?_eq, found]
    rfl
  refine ⟨state, ?_, shown, rfl⟩
  rw [← hdepth]
  rfl

/-- Looking at an item with `Script.peek` gives `items[place]?`. -/
theorem does_peek {place : Nat} (found : config.stack? id = some items)
    (item : items[place]? = some value) :
    (Script.peek id place).Does config value config 0 := by
  intro state shown
  have happly := State.apply_peek ((shown.stack?_eq id).trans found) item
  exact ⟨state, run_act_of_apply happly, shown, rfl⟩

/-- Taking an item out with `Script.yank` leaves `items.eraseIdx place`. -/
theorem does_yank {place : Nat} (found : config.stack? id = some items)
    (item : items[place]? = some value) :
    (Script.yank id place).Does config value (config.setStack id (items.eraseIdx place)) 0 := by
  intro state shown
  have happly := State.apply_yank ((shown.stack?_eq id).trans found) item
  exact ⟨_, run_act_of_apply happly, (shown.setStack id _).note _, State.pushed_note _⟩

/-- Putting an item in with `Script.shove` leaves `items.insertIdx place value`. -/
theorem does_shove {place : Nat} (found : config.stack? id = some items)
    (within : place ≤ items.length) (value : Value) :
    (Script.shove id place value).Does config () (config.setStack id (items.insertIdx place value))
      1 := by
  intro state shown
  have hshown := shown.setStack id (items.insertIdx place value)
  have hpushed : State.Shows { state.setStack id (items.insertIdx place value) with
      pushed := state.pushed + 1 } (config.setStack id (items.insertIdx place value)) :=
    ⟨hshown.pending, hshown.rest⟩
  have happly := State.apply_shove ((shown.stack?_eq id).trans found) place value
  rw [Nat.min_eq_left within] at happly
  exact ⟨_, run_act_of_apply happly, hpushed.note _, State.pushed_note _⟩

end Script

namespace Instruction

open Script

variable {config : Config} {id : StackId} {items rest : List Value} {a b c value : Value}
  {n : Int64}

/-- Exchanging the two top items, `swapTop`. -/
theorem does_swapTop (found : config.stack? id = some (a :: b :: rest)) :
    (swapTop id).Does config () (config.setStack id (b :: a :: rest)) 2 := by
  nth_rw 1 [← Config.setStack_self found]
  exact .bind (m := 2) (does_pop_replaced found _ _) (.bind (m := 2) (does_pop_replaced found _ _)
    (.bind (m := 1) (does_push_replaced found _ _) (does_push_replaced found _ _)))

/-- Bringing the third item to the top, `rotateTop`. -/
theorem does_rotateTop (found : config.stack? id = some (a :: b :: c :: rest)) :
    (rotateTop id).Does config () (config.setStack id (c :: a :: b :: rest)) 3 := by
  nth_rw 1 [← Config.setStack_self found]
  exact .bind (m := 3) (does_pop_replaced found _ _) (.bind (m := 3) (does_pop_replaced found _ _)
    (.bind (m := 3) (does_pop_replaced found _ _) (.bind (m := 2) (does_push_replaced found _ _)
      (.bind (m := 1) (does_push_replaced found _ _) (does_push_replaced found _ _)))))

/-- The position of the bottom item, `items.length - 1`. -/
theorem does_lastDepth (found : config.stack? id = some items) (enough : 1 ≤ items.length) :
    (lastDepth id).Does config (items.length - 1) config 0 := by
  refine .bind (m := 0) (does_depth found) ?_
  obtain ⟨last, hlast⟩ := Nat.exists_eq_add_of_le' enough
  rw [hlast]
  exact does_done last

/-- Bringing an item up with `yankItem`, from `nearestPlace n`. -/
theorem does_yankItem (has : config.Has .int) (found : config.stack? id = some items)
    (item : items[nearestPlace n (items.length - 1)]? = some value) :
    (yankItem id).Does (config.topped .int (.int n)) ()
      (config.setStack id (value :: items.eraseIdx (nearestPlace n (items.length - 1)))) 1 := by
  have enough : 1 ≤ items.length := Nat.one_le_of_lt (List.getElem?_eq_some_iff.mp item).1
  exact .bind (m := 1) (does_popInt_topped has n) (.bind (m := 1) (does_lastDepth found enough)
    (.bind (m := 1) (does_yank found item) (does_push_replaced found _ _)))

/-- Copying an item with `yankCopy`, from `nearestPlace n`. -/
theorem does_yankCopy (has : config.Has .int) (found : config.stack? id = some items)
    (item : items[nearestPlace n (items.length - 1)]? = some value) :
    (yankCopy id).Does (config.topped .int (.int n)) ()
      (config.setStack id (value :: items)) 1 := by
  have enough : 1 ≤ items.length := Nat.one_le_of_lt (List.getElem?_eq_some_iff.mp item).1
  exact .bind (m := 1) (does_popInt_topped has n) (.bind (m := 1) (does_lastDepth found enough)
    (.bind (m := 1) (does_peek found item) (does_push found value)))

/-- Moving the top item down with `shoveItem`, to `nearestPlace n`. -/
theorem does_shoveItem (has : config.Has .int) (found : config.stack? id = some (value :: rest)) :
    (shoveItem id).Does (config.topped .int (.int n)) ()
      (config.setStack id (rest.insertIdx (nearestPlace n rest.length) value)) 1 := by
  have hrest := Config.stack?_setStack_self found rest
  refine .bind (m := 1) (does_popInt_topped has n) (.bind (m := 1) (does_pop found)
    (.bind (m := 1) (does_depth hrest) ?_))
  exact (does_shove hrest (Nat.min_le_right _ _) value).to (Config.setStack_setStack _ _)

/-- The body of a move. -/
def ofMove (id : StackId) : Rearrangement → Script Unit
  | .swap => swapTop id
  | .rotate => rotateTop id
  | .yank _ => yankItem id
  | .shove _ => shoveItem id

/-- **The body of a move changes its stack** by `move.change`, and takes the position away. -/
theorem does_ofMove (move : Rearrangement) (has : config.Has .int)
    (found : config.stack? id = some items) (enough : move.least ≤ items.length) :
    ∃ pushes, (ofMove id move).Does (config.holding move.arguments) ()
      (config.setStack id (move.change items)) pushes := by
  match move, items, enough with
  | .swap, a :: b :: rest, _ => exact ⟨2, does_swapTop found⟩
  | .rotate, a :: b :: c :: rest, _ => exact ⟨3, does_rotateTop found⟩
  | .yank n, items, enough =>
    have hitem := List.getElem?_eq_getElem (Rearrangement.nearestPlace_lt n enough)
    rw [Rearrangement.change_yank hitem]
    exact ⟨1, does_yankItem has found hitem⟩
  | .shove n, value :: rest, _ => exact ⟨1, does_shoveItem has found⟩

/-- Every type has an instruction for the move, in `shuffling id type`. -/
theorem exists_moving (id : StackId) (type : StackType) (move : Rearrangement) :
    ∃ instruction ∈ shuffling id type, instruction.name = type.name ++ "_" ++ move.verb ∧
      instruction.inputs = move.arguments.map Prod.fst ++ List.replicate move.least id ∧
      ∀ caps, instruction.body caps = ofMove id move := by
  cases move with
  | swap =>
    exact ⟨ofVerb id type.name "swap" [id, id] [id] 2 fun _ => swapTop id, by simp [shuffling], rfl,
      rfl, fun _ => rfl⟩
  | rotate =>
    exact ⟨ofVerb id type.name "rot" [id, id, id] [id] 3 fun _ => rotateTop id, by simp [shuffling],
      rfl, rfl, fun _ => rfl⟩
  | yank n =>
    exact ⟨ofVerb id type.name "yank" [.int, id] [id] 0 fun _ => yankItem id, by simp [shuffling],
      rfl, rfl, fun _ => rfl⟩
  | shove n =>
    exact ⟨ofVerb id type.name "shove" [.int, id] [id] 1 fun _ => shoveItem id, by simp [shuffling],
      rfl, rfl, fun _ => rfl⟩

end Instruction

/-! ## The names of the core types -/

namespace Registry

variable {id : StackId} {type : StackType}

/-- The types of `Registry.core` are the built-in ones. -/
theorem mem_builtinTypes (registered : core.get? id = some type) : type ∈ builtinTypes := by
  rw [get?, core, List.getElem?_map, Option.join_eq_some_iff, Option.map_eq_some_iff] at registered
  obtain ⟨found, hfound, hsome⟩ := registered
  rw [← Option.some.inj hsome]
  exact List.mem_of_getElem? hfound

/-- No type in `builtinTypes` is named like a print, and none like another one with a stem. -/
theorem builtinTypes_names : ∀ first ∈ builtinTypes,
    ((spelling first.name).head?.isSome ∧ (spelling first.name).head? ≠ (spelling "print").head?) ∧
      ∀ second ∈ builtinTypes, ∀ compound ∈ StackType.compoundVerbs,
        second.name ≠ first.name ++ "_" ++ compound.1 := by
  decide +kernel

/-- No name of a core type's verb is one of a print. -/
theorem verbName_ne_printName (registered : core.get? id = some type) (verb printed : String) :
    type.name ++ "_" ++ verb ≠ "print_" ++ printed := by
  intro heq
  obtain ⟨⟨hsome, hne⟩, -⟩ := builtinTypes_names type (mem_builtinTypes registered)
  have hhead := congrArg (fun name => (spelling name).head?) heq
  simp only [spelling_append, List.head?_append] at hhead
  obtain ⟨byte, hbyte⟩ := Option.isSome_iff_exists.mp hsome
  rw [hbyte, Option.some_or, Option.some_or] at hhead
  rw [hbyte, hhead] at hne
  exact hne rfl

/-- **The core types share no names**: none `Loses` one with a verb. -/
theorem core_not_loses (registered : core.get? id = some type) (verb : String) :
    ¬core.Loses id type (type.name ++ "_" ++ verb) := by
  have hshares {first second : StackType} {name : String} {one other : StackId}
      (hfirst : core.get? one = some first) (hsecond : core.get? other = some second) :
      ¬first.Shares second name := by
    rintro (⟨mem, named, -⟩ | ⟨-, spelled⟩)
    · exact (builtinTypes_names first (mem_builtinTypes hfirst)).2 second
        (mem_builtinTypes hsecond) _ mem named
    · exact verbName_ne_printName hfirst _ _ spelled
  rintro (hnewline | ⟨later, other, -, hother, hmeet | hmeet⟩)
  · exact verbName_ne_printName registered verb "newline" hnewline
  · exact hshares registered hother hmeet
  · exact hshares hother registered hmeet

end Registry

/-- The core types have their own instructions of `shuffling`. -/
theorem InstructionSet.get?_core_shuffling {id : StackId} {type : StackType}
    {instruction : Instruction} (registered : Registry.core.get? id = some type)
    (h : instruction ∈ Instruction.shuffling id type) :
    (core .core).get? instruction.name = some instruction := by
  have history : Registry.core.Evolves .core := .start
  have hname : ∃ verb, instruction.name = type.name ++ "_" ++ verb := by
    have hmem := List.mem_map_of_mem (f := Instruction.name) h
    rw [Instruction.map_name_shuffling] at hmem
    obtain ⟨verb, -, hverb⟩ := List.mem_map.mp hmem
    exact ⟨verb, hverb.symm⟩
  refine (get?_core_ofType history.keepsCore.agrees rfl rfl registered
    (List.mem_append_left _ h)).2.mpr ?_
  obtain ⟨verb, hverb⟩ := hname
  rw [hverb]
  exact Registry.core_not_loses registered verb

/-! ## Moves one after another -/

/-- Replacing the items of a stack with `setStack` leads to another state of the run. -/
theorem State.From.setStack {state empty : State} {id : StackId} {items : List Value}
    (started : state.From empty) (found : state.stack? id = some items) (new : List Value) :
    (state.setStack id new).snapshot.From empty :=
  ⟨(reset_setStack found new).trans started.reset_eq, started.counted⟩

namespace Library

open Instruction

/-- **Calls the moves** of a type's stack one after another, each with its position. The result is
the state afterwards, if all of them succeed. -/
def rearrange? (library : Library) (caps : SizeCaps) (type : StackType)
    (moves : List Rearrangement) (state : State) : Option State :=
  moves.foldlM (fun state move =>
    library.callWith? caps (type.name ++ "_" ++ move.verb) move.arguments state) state

section Moves

variable (caps : SizeCaps) {id : StackId} {type : StackType} {state : State} {items : List Value}
  (registered : Registry.core.get? id = some type)
include registered

/-- An instruction in `shuffling id type` that takes integers and works on the type's stack. -/
theorem callWith?_shuffling (started : state.From (.ofRegistry .core))
    (found : state.stack? id = some items) {instruction : Instruction}
    (member : instruction ∈ shuffling id type) {arguments : List (StackId × Value)}
    (taken : ∀ entry ∈ arguments, entry.1 = .int) {least : Nat} (enough : least ≤ items.length)
    (reads : instruction.inputs = arguments.map Prod.fst ++ List.replicate least id)
    {new : List Value}
    (does : ∀ config : Config, config.Has .int → config.stack? id = some items →
      ∃ pushes, (instruction.body caps).Does (config.holding arguments) ()
        (config.setStack id new) pushes) :
    core.callWith? caps instruction.name arguments state =
      some (state.setStack id new).snapshot := by
  have hcontains : Registry.core.contains id = true := by
    rw [Registry.contains, registered]
    rfl
  have hregistered : ∀ stack ∈ [.exec, .int, id], Registry.core.contains stack = true :=
    List.forall_mem_cons.mpr ⟨rfl, List.forall_mem_cons.mpr ⟨rfl, by simpa using hcontains⟩⟩
  obtain ⟨config, shown, has⟩ := exists_shows core [.int, id] started hregistered
  have hint := has .int List.mem_cons_self
  have hitems : config.stack? id = some items := (shown.stack?_eq id).symm.trans found
  have hready : (config.holding arguments).Readies instruction := by
    refine Config.readies_holding fun stack hstack => ?_
    rw [reads, List.count_append, List.count_replicate]
    rw [reads, List.mem_append] at hstack
    by_cases hid : stack = id
    · subst hid
      refine ⟨items, hitems, ?_⟩
      simp only [beq_self_eq_true, if_true]
      omega
    · -- Only integers are read from other stacks.
      rcases hstack with hargument | hown
      · obtain ⟨entry, hentry, rfl⟩ := List.mem_map.mp hargument
        rw [taken entry hentry] at hid ⊢
        obtain ⟨ints, hints⟩ := hint
        refine ⟨ints, hints, ?_⟩
        rw [if_neg (by simpa using Ne.symm hid)]
        omega
      · exact absurd (List.eq_of_mem_replicate hown) hid
  obtain ⟨pushes, hdoes⟩ := does config hint hitems
  have hheld := shown.holding fun entry hentry => taken entry hentry ▸ hint
  exact callWith?_of_attempt (InstructionSet.get?_core_shuffling registered member)
    (attempt_of_does hheld hready hdoes (shown.setStack id new))

/-- **The step**: a call of a move leaves `move.change items` on the stack, and all else as it was.
-/
theorem callWith?_move (started : state.From (.ofRegistry .core))
    (found : state.stack? id = some items) (move : Rearrangement)
    (enough : move.least ≤ items.length) :
    core.callWith? caps (type.name ++ "_" ++ move.verb) move.arguments state =
      some (state.setStack id (move.change items)).snapshot := by
  obtain ⟨instruction, hmem, hname, hinputs, hbody⟩ := exists_moving id type move
  have htaken : ∀ entry ∈ move.arguments, entry.1 = .int := by
    cases move <;> simp [Rearrangement.arguments]
  rw [← hname]
  refine callWith?_shuffling caps registered started found hmem htaken enough hinputs
    fun config has hitems => ?_
  rw [hbody]
  exact does_ofMove move has hitems enough

/-- **The run**: so does `rearrange?`, with moves one after another. -/
theorem rearrange?_eq (started : state.From (.ofRegistry .core))
    (found : state.stack? id = some items) (move : Rearrangement) (moves : List Rearrangement)
    (enough : ∀ each ∈ move :: moves, each.least ≤ items.length) :
    core.rearrange? caps type (move :: moves) state =
      some (state.setStack id (moves.foldl (fun items move => move.change items)
        (move.change items))).snapshot := by
  obtain ⟨hfirst, hrest⟩ := List.forall_mem_cons.mp enough
  rw [rearrange?, List.foldlM_cons, callWith?_move caps registered started found move hfirst]
  -- A move leaves as many items as there were, so that the next one finds enough.
  induction moves generalizing state items move with
  | nil => rfl
  | cons next others ih =>
    have hfound : (state.setStack id (move.change items)).snapshot.stack? id =
        some (move.change items) := State.stack?_setStack_self found _
    rw [← (move.change_perm hfirst).length_eq] at hrest
    obtain ⟨hnext, hothers⟩ := List.forall_mem_cons.mp hrest
    have hagain := ih (started.setStack found _) hfound next hrest hnext hothers
    rw [Option.bind_eq_bind, Option.bind_some, List.foldlM_cons,
      callWith?_move caps registered (started.setStack found _) hfound next hnext, hagain]
    show some ((state.setStack id _).setStack id _).snapshot = _
    rw [State.setStack_setStack, List.foldl_cons]

/-- Copying an item from a position, `nearestPlace n`. -/
theorem callWith?_yankCopy (started : state.From (.ofRegistry .core))
    (found : state.stack? id = some items) {n : Int64} {value : Value}
    (item : items[nearestPlace n (items.length - 1)]? = some value) :
    core.callWith? caps (type.name ++ "_yank_dup") [(.int, .int n)] state =
      some (state.setStack id (value :: items)).snapshot := by
  have hname : type.name ++ "_yank_dup" = type.name ++ "_" ++ "yank_dup" := by
    rw [String.append_assoc]
    rfl
  have hmem : ofVerb id type.name "yank_dup" [.int, id] [id] 0 (fun _ => yankCopy id) ∈
      shuffling id type := by
    simp [shuffling]
  have enough : 1 ≤ items.length := Nat.one_le_of_lt (List.getElem?_eq_some_iff.mp item).1
  rw [hname]
  exact callWith?_shuffling caps registered started found hmem (by simp) enough rfl
    fun config has hitems => ⟨1, does_yankCopy has hitems item⟩

end Moves

/-- **Shuffling a stack loses and copies nothing.** On every core stack with enough items,
exchanging twice and rotating three times change nothing, and bringing an item up and moving one
down to the same position undo each other, whatever integer gives the position. Each of these moves
leaves the stack with a permutation of its items (`List.Perm`), and all else as it was. Copying an
item from a position pushes the one that would be brought up, which is the nearest one where the
position is outside the stack. -/
theorem shuffling_rearranges (caps : SizeCaps) (id : StackId) (type : StackType)
    (registered : Registry.core.get? id = some type) (state : State)
    (started : state.From (.ofRegistry .core)) (items : List Value)
    (found : state.stack? id = some items) (n : Int64) :
    (2 ≤ items.length →
      core.rearrange? caps type [.swap, .swap] state = some state.snapshot) ∧
    (3 ≤ items.length →
      core.rearrange? caps type [.rotate, .rotate, .rotate] state = some state.snapshot) ∧
    (1 ≤ items.length →
      core.rearrange? caps type [.yank n, .shove n] state = some state.snapshot ∧
      core.rearrange? caps type [.shove n, .yank n] state = some state.snapshot) ∧
    (∀ move : Rearrangement, move.least ≤ items.length → ∃ new : List Value, new.Perm items ∧
      core.rearrange? caps type [move] state = some (state.setStack id new).snapshot) ∧
    (1 ≤ items.length → ∃ value rest, items[nearestPlace n (items.length - 1)]? = some value ∧
      core.rearrange? caps type [.yank n] state =
        some (state.setStack id (value :: rest)).snapshot ∧
      core.callWith? caps (type.name ++ "_yank_dup") [(.int, .int n)] state =
        some (state.setStack id (value :: items)).snapshot) := by
  -- Moves that lead back to the items lead back to the state.
  have hback {move : Rearrangement} {moves : List Rearrangement}
      (enough : ∀ each ∈ move :: moves, each.least ≤ items.length)
      (same : moves.foldl (fun items move => move.change items) (move.change items) = items) :
      core.rearrange? caps type (move :: moves) state = some state.snapshot := by
    rw [rearrange?_eq caps registered started found move moves enough, same,
      State.setStack_self found]
  refine ⟨?swap, ?rotate, ?inverse, ?permutes, ?copy⟩
  case swap =>
    intro enough
    exact hback (by simpa [Rearrangement.least] using enough)
      (Rearrangement.change_swap_swap enough)
  case rotate =>
    intro enough
    exact hback (by simpa [Rearrangement.least] using enough)
      (Rearrangement.change_rotate_rotate_rotate enough)
  case inverse =>
    intro enough
    exact ⟨hback (by simpa [Rearrangement.least] using enough) (Rearrangement.shove_yank n enough),
      hback (by simpa [Rearrangement.least] using enough) (Rearrangement.yank_shove n enough)⟩
  case permutes =>
    intro move enough
    exact ⟨_, move.change_perm enough,
      rearrange?_eq caps registered started found move [] (List.forall_mem_singleton.mpr enough)⟩
  case copy =>
    intro enough
    have hitem := List.getElem?_eq_getElem (Rearrangement.nearestPlace_lt n enough)
    have hyank := rearrange?_eq caps registered started found (.yank n) []
      (List.forall_mem_singleton.mpr enough)
    rw [List.foldl_nil, Rearrangement.change_yank hitem] at hyank
    exact ⟨_, _, hitem, hyank, callWith?_yankCopy caps registered started found hitem⟩

/-- The integers are shuffled around the position that lies on the same stack, too large as it
is. -/
theorem shuffling_rearranges_integers :
    let state := (State.ofRegistry .core).setStack .int [.int 5, .int 6, .int 7]
    core.rearrange? {} Registry.builtinTypes[3] [.yank 9, .shove 9] state = some state.snapshot ∧
      core.callWith? {} "int_yank_dup" [(.int, .int 9)] state =
        some (state.setStack .int [.int 7, .int 5, .int 6, .int 7]).snapshot := by
  intro state
  obtain ⟨-, -, hinverse, -, hcopy⟩ := shuffling_rearranges {} .int Registry.builtinTypes[3] rfl
    state ⟨rfl, rfl⟩ [.int 5, .int 6, .int 7] rfl 9
  obtain ⟨value, rest, hvalue, -, hcopied⟩ := hcopy (by decide)
  refine ⟨(hinverse (by decide)).1, ?_⟩
  obtain rfl : Value.int 7 = value := Option.some.inj hvalue
  exact hcopied

end Library

end PushMachine
