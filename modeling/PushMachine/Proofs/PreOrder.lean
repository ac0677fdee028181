import PushMachine.Proofs.CodeSize
import PushMachine.Proofs.Grouping

/-! # Points are numbered in pre-order

The walk that finds the code at a point skips the parts before it by their sizes. It agrees with the
list of points in pre-order (`Expr.atPoint?_eq_getElem?`), so what is known of the list is known of
the walk: there are as many points as the size says, and the points of the code at some point are
those that follow it (`Expr.points_prefix_drop`). An instruction that takes the code at a point
reduces the point by the size first, so there always is one. -/

namespace PushMachine

/-! ## The walk and the list -/

mutual

/-- The walk through an expression, `atPoint?`, finds its points in pre-order. -/
theorem Expr.atPoint?_eq_getElem? : (e : Expr) → (n : Nat) → e.atPoint? n = e.points[n]?
  | .block body, 0 => rfl
  | .block body, n + 1 => by
    rw [Expr.atPoint?, if_neg (Nat.succ_ne_zero n), Expr.points, List.getElem?_cons_succ]
    exact Block.partAt?_eq_getElem? body n
  | .literal _ _, n | .input _, n | .instr _ _, n | .deferred _, n => by
    cases n with
    | zero => rfl
    | succ n => rfl

/-- The walk through some parts, `partAt?`, finds their points in pre-order. -/
theorem Block.partAt?_eq_getElem? : (parts : List Expr) → (n : Nat) →
    Block.partAt? parts n = (Block.points parts)[n]?
  | [], _ => rfl
  | e :: rest, n => by
    have hlength := e.length_points
    rw [Block.partAt?, Block.points_cons]
    split
    next hlt =>
      rw [List.getElem?_append_left (by omega)]
      exact Expr.atPoint?_eq_getElem? e n
    next hge =>
      rw [List.getElem?_append_right (by omega), hlength]
      exact Block.partAt?_eq_getElem? rest (n - e.size)

end

mutual

/-- The points of the code at point `n` are those that follow it: a prefix of `e.points.drop n`. -/
theorem Expr.points_prefix_drop {s : Expr} : (e : Expr) → (n : Nat) → e.points[n]? = some s →
    s.points <+: e.points.drop n
  | .block body, 0, h => by
    cases h
    exact List.prefix_rfl
  | .block body, n + 1, h => Block.points_prefix_drop body n h
  | .literal _ _, n, h | .input _, n, h | .instr _ _, n, h | .deferred _, n, h => by
    cases n with
    | zero =>
      cases h
      exact List.prefix_rfl
    | succ n => cases h

/-- The points of the code at a point among some parts are those that follow it. -/
theorem Block.points_prefix_drop {s : Expr} : (parts : List Expr) → (n : Nat) →
    (Block.points parts)[n]? = some s → s.points <+: (Block.points parts).drop n
  | e :: rest, n, h => by
    rw [Block.points_cons] at h ⊢
    rcases Nat.lt_or_ge n e.points.length with hlt | hge
    · rw [List.getElem?_append_left hlt] at h
      rw [List.drop_append_of_le_length (Nat.le_of_lt hlt)]
      exact (Expr.points_prefix_drop e n h).trans (List.prefix_append _ _)
    · rw [List.getElem?_append_right hge] at h
      rw [List.drop_append, List.drop_eq_nil_of_le hge, List.nil_append]
      exact Block.points_prefix_drop rest _ h

end

namespace Expr

variable {e s : Expr} {n m : Nat}

theorem atPoint?_zero (e : Expr) : e.atPoint? 0 = some e := by cases e <;> rfl

/-- There is code at a point exactly if `n < e.size`. -/
theorem isSome_atPoint?_iff : (e.atPoint? n).isSome ↔ n < e.size := by
  rw [atPoint?_eq_getElem?, Option.isSome_iff_ne_none, ne_eq, List.getElem?_eq_none_iff,
    length_points, Nat.not_le]

/-- The code at a point lies within the expression: `n + s.size ≤ e.size`. -/
theorem add_size_le (h : e.points[n]? = some s) : n + s.size ≤ e.size := by
  have hle := (points_prefix_drop e n h).length_le
  rw [List.length_drop, length_points, length_points] at hle
  have hlt := (List.getElem?_eq_some_iff.mp h).1
  rw [length_points] at hlt
  omega

/-- **Points of the code at a point**: they are numbered on from it, so that `n + m` is point `m` of
what is at `n`. -/
theorem atPoint?_add (h : e.atPoint? n = some s) (hm : m < s.size) :
    e.atPoint? (n + m) = s.atPoint? m := by
  rw [atPoint?_eq_getElem?] at h
  rw [← length_points] at hm
  have hprefix := List.prefix_iff_getElem?.mp (points_prefix_drop e n h) m hm
  rw [atPoint?_eq_getElem?, atPoint?_eq_getElem?, ← List.getElem?_drop, hprefix,
    List.getElem?_eq_getElem hm]

/-- **A part of a block** is behind the block and the parts on its left, at `1 + partsSize left`. -/
theorem atPoint?_part (left : Block) (part : Expr) (right : Block) :
    (Expr.block (left ++ part :: right)).atPoint? (1 + Block.partsSize left) = some part := by
  rw [atPoint?_eq_getElem?, points, Nat.add_comm, List.getElem?_cons_succ, Block.points_append,
    List.getElem?_append_right (Nat.le_of_eq (Block.length_points left)), Block.length_points,
    Nat.sub_self, Block.points_cons, List.getElem?_append_left part.length_points_pos,
    ← atPoint?_eq_getElem?, atPoint?_zero]

end Expr

/-! ## Taking the code at a point -/

/-- The atom at a point of an atom. The atom `.closer` has no other point than its own. -/
def Atom.atPoint? : Atom → Nat → Option Atom
  | .closer, n => if n = 0 then some .closer else none
  | .expr e, n => (e.atPoint? n).map .expr

theorem Atom.exists_of_isBlock {atom : Atom} (h : atom.isBlock = true) :
    ∃ body, atom = .expr (.block body) := by
  rcases atom with _ | e
  · cases h
  · cases e with
    | block body => exact ⟨body, rfl⟩
    | _ => cases h

theorem Atom.atPoint?_zero (atom : Atom) : atom.atPoint? 0 = some atom := by
  rcases atom with _ | e
  · rfl
  · rw [atPoint?, e.atPoint?_zero, Option.map_some]

/-- Every atom has a point. -/
theorem Atom.size_pos (atom : Atom) : 0 < atom.size := by
  cases atom with
  | closer => exact Nat.one_pos
  | expr e =>
    have hpos := e.length_points_pos
    rwa [e.length_points] at hpos

/-- There is an atom at every point below `atom.size`. -/
theorem Atom.exists_atPoint? {atom : Atom} {n : Nat} (h : n < atom.size) :
    ∃ found, atom.atPoint? n = some found := by
  cases atom with
  | closer => exact ⟨.closer, if_pos (Nat.lt_one_iff.mp h)⟩
  | expr e =>
    obtain ⟨found, hfound⟩ := Option.isSome_iff_exists.mp (Expr.isSome_atPoint?_iff.mpr h)
    exact ⟨.expr found, by rw [atPoint?, hfound, Option.map_some]⟩

/-- A point that runs around is the magnitude reduced by the size: `n.toInt.natAbs % atom.size`. -/
theorem cyclicPoint_size (n : Int64) (atom : Atom) :
    cyclicPoint n atom.size = n.toInt.natAbs % atom.size := by
  rw [cyclicPoint, if_neg (Nat.ne_of_gt atom.size_pos)]

namespace State

variable {state : State} {id : StackId}

/-- A stack that holds something has a top. -/
theorem exists_top_of_depth (h : 1 ≤ state.depth id) :
    ∃ value items, state.stack? id = some (value :: items) := by
  rw [depth] at h
  cases hstack : state.stack? id with
  | none =>
    rw [hstack] at h
    exact absurd h (Nat.not_succ_le_zero 0)
  | some found =>
    cases found with
    | nil =>
      rw [hstack] at h
      exact absurd h (Nat.not_succ_le_zero 0)
    | cons value items => exact ⟨value, items, rfl⟩

variable {value : Value} {items : List Value}

/-- The state after an item was taken: `items` are left on `id`, and `value` is noted. -/
def popped (state : State) (id : StackId) (value : Value) (items : List Value) : State :=
  (state.setStack id items).note (.popped id value)

theorem stack?_popped_self (found : state.stack? id = some (value :: items)) :
    (state.popped id value items).stack? id = some items :=
  (stack?_note _).trans (stack?_setStack_self found items)

theorem stack?_popped_of_ne {other : StackId} (h : other ≠ id) :
    (state.popped id value items).stack? other = state.stack? other :=
  (stack?_note _).trans (stack?_setStack_of_ne h items)

end State

namespace Script

variable {state : State} {id : StackId} {value : Value} {items : List Value}

theorem run_pop (found : state.stack? id = some (value :: items)) :
    (Script.pop id).run state = (.ok value, state.popped id value items) := by
  have happly : state.apply (.pop id) = .ok (value, state.popped id value items) := by
    rw [State.apply, State.pop, State.itemsOrFault_of_found found]
    rfl
  exact run_act_of_apply happly

/-- Taking an integer with `popInt` where there is an item fails only if the item is of another
kind. -/
theorem run_popInt (found : state.stack? .int = some (value :: items)) :
    popInt.run state =
      (match value with
        | .int n => .ok n
        | _ => .error (.typeError .elementMismatch),
      state.popped .int value items) := by
  have hpop : (Script.pop (Item.stack Int64)).run state = _ := run_pop found
  rw [popInt, popItem, run_bind, hpop]
  cases value <;> rfl

/-- Taking an atom with `popAtom` where there is an item fails only if the item is of another kind.
-/
theorem run_popAtom (found : state.stack? id = some (value :: items)) :
    (popAtom id).run state =
      (match value with
        | .code atom => .ok atom
        | other => .error (.typeError (.notCode id other.kind)),
      state.popped id value items) := by
  rw [popAtom, run_bind, run_pop found]
  cases value <;> rfl

/-- Pushing an atom onto a stack that is there. -/
theorem run_pushAtom (found : state.stack? id = some items) (atom : Atom) :
    ∃ after, (pushAtom id atom).run state = (.ok (), after) ∧
      after.stack? id = some (.code atom :: items) ∧
      ∀ other ≠ id, after.stack? other = state.stack? other := by
  refine ⟨_, run_act_of_apply (by rw [State.apply, State.push_eq found]), ?_, ?_⟩
  · exact (State.stack?_note _).trans (State.stack?_setStack_self found _)
  · exact fun other hne => (State.stack?_note _).trans (State.stack?_setStack_of_ne hne _)

end Script

namespace Instruction

open Script State

variable {state : State} {value : Value} {ints codes : List Value}

/-- An atom that is no block has one point, and `pushPoint` pushes it as it is. -/
theorem pushPoint_of_not_block {atom : Atom} (h : atom.isBlock = false) (n : Int64) :
    atom.size = 1 ∧ pushPoint n atom = pushAtom .code atom := by
  rcases atom with _ | e
  · exact ⟨rfl, rfl⟩
  · cases e with
    | block body => cases h
    | _ => exact ⟨rfl, rfl⟩

/-- **What is pushed is the atom at the point**, and there is one: `pushPoint` reduces the point by
the size. -/
theorem pushPoint_eq (n : Int64) (atom : Atom) :
    ∃ found, atom.atPoint? (n.toInt.natAbs % atom.size) = some found ∧
      pushPoint n atom = pushAtom .code found := by
  obtain ⟨found, hfound⟩ := Atom.exists_atPoint? (Nat.mod_lt n.toInt.natAbs atom.size_pos)
  refine ⟨found, hfound, ?_⟩
  -- Only a block is walked through; any other atom has the one point.
  cases hblock : atom.isBlock with
  | true =>
    obtain ⟨body, rfl⟩ := Atom.exists_of_isBlock hblock
    obtain ⟨s, hs, rfl⟩ := Option.map_eq_some_iff.mp hfound
    rw [pushPoint, cyclicPoint_size, Block.atPoint?, hs]
    rfl
  | false =>
    obtain ⟨hsize, hpush⟩ := pushPoint_of_not_block hblock n
    rw [hsize, Nat.mod_one, Atom.atPoint?_zero] at hfound
    cases hfound
    exact hpush

/-- An integer and an atom are all that `extractPoint` needs. -/
theorem run_extractPoint {n : Int64} {atom : Atom}
    (number : state.stack? .int = some (.int n :: ints))
    (code : state.stack? .code = some (.code atom :: codes)) :
    ∃ found after, atom.atPoint? (n.toInt.natAbs % atom.size) = some found ∧
      extractPoint.run state = (.ok (), after) ∧
      after.stack? .code = some (.code found :: codes) ∧ after.stack? .int = some ints := by
  obtain ⟨found, hfound, hpush⟩ := pushPoint_eq n atom
  have hcode : (state.popped .int (.int n) ints).stack? .code = some (.code atom :: codes) :=
    (stack?_popped_of_ne (by decide)).trans code
  obtain ⟨after, hrun, htop, hothers⟩ := run_pushAtom (stack?_popped_self hcode) found
  refine ⟨found, after, hfound, ?_, htop, ?_⟩
  · rw [extractPoint, run_bind, run_popInt number]
    simp only
    rw [run_bind, run_popAtom hcode]
    simp only
    rw [hpush, hrun]
  · rw [hothers .int (by decide), stack?_popped_of_ne (by decide), stack?_popped_self number]

/-- Where there are items, `extractPoint` does not give up. -/
theorem extractPoint_ne_revert {other : Value} (number : state.stack? .int = some (value :: ints))
    (code : state.stack? .code = some (other :: codes)) :
    (extractPoint.run state).1 ≠ .error .revert := by
  have hcode : (state.popped .int value ints).stack? .code = some (other :: codes) :=
    (stack?_popped_of_ne (by decide)).trans code
  have hrun : extractPoint.run state = _ := run_bind popInt _ state
  rw [run_popInt number] at hrun
  -- A value of another kind is a type error, which is not giving up.
  cases value with
  | int n =>
    cases other with
    | code atom =>
      obtain ⟨found, after, -, hok, -⟩ := run_extractPoint number code
      rw [hok]
      nofun
    | _ =>
      simp only [run_bind, run_popAtom hcode] at hrun
      rw [hrun]
      nofun
  | _ =>
    rw [hrun]
    nofun

end Instruction

/-! ## The numbering -/

/-- **Points are a numbering in pre-order**:

* a block has code at exactly the points below its size, and itself at the first;
* the points of the code at some point are numbered on from it;
* a part of a block at some point is behind the block and the parts on its left;
* so the instruction that takes the code at a point finds some for every integer. It does not
  revert where its inputs are present. -/
theorem Block.atPoint?_preorder (body : Block) :
    (∀ n, (body.atPoint? n).isSome ↔ n < body.size) ∧
    body.atPoint? 0 = some (.block body) ∧
    (∀ n s, body.atPoint? n = some s → ∀ m < s.size, s.atPoint? m = body.atPoint? (n + m)) ∧
    (∀ n left part right, body.atPoint? n = some (.block (left ++ part :: right)) →
      body.atPoint? (n + 1 + partsSize left) = some part) ∧
    ∃ instruction, (InstructionSet.core .core).get? "code_extract" = some instruction ∧
      instruction.inputs = [.code, .int] ∧
      ∀ caps state, instruction.ready state = true →
        (instruction.eval caps state).1 ≠ .error .revert ∧
        ∀ (n : Int64) atom ints codes, state.stack? .int = some (.int n :: ints) →
          state.stack? .code = some (.code atom :: codes) →
          ∃ found after, atom.atPoint? (n.toInt.natAbs % atom.size) = some found ∧
            instruction.eval caps state = (.ok (), after) ∧
            after.stack? .code = some (.code found :: codes) ∧ after.stack? .int = some ints := by
  refine ⟨fun n => Expr.isSome_atPoint?_iff, rfl, ?_, ?_, ?_⟩
  · intro n s hs m hm
    exact (Expr.atPoint?_add hs hm).symm
  -- The part is a point of the block, whose points are numbered on from `n`.
  · intro n left part right hblock
    have hpart := Expr.atPoint?_part left part right
    have hlt := Expr.isSome_atPoint?_iff.mp (Option.isSome_of_eq_some hpart)
    rw [Nat.add_assoc, ← hpart]
    exact Expr.atPoint?_add hblock hlt
  · refine ⟨_, InstructionSet.get?_core rfl rfl, rfl, fun caps state hready => ?_⟩
    rw [Instruction.eval, if_pos hready]
    -- A ready instruction finds an item on each of its two stacks.
    rw [Instruction.ready, List.all_eq_true] at hready
    have hcode := hready .code (by decide)
    have hint := hready .int (by decide)
    obtain ⟨value, ints, hints⟩ := State.exists_top_of_depth (of_decide_eq_true hint)
    obtain ⟨other, codes, hcodes⟩ := State.exists_top_of_depth (of_decide_eq_true hcode)
    refine ⟨Instruction.extractPoint_ne_revert hints hcodes, ?_⟩
    intro n atom ints codes hints hcodes
    exact Instruction.run_extractPoint hints hcodes

/-- Points of a block with a nested one, and the code that the smallest integer takes from it. -/
theorem Block.atPoint?_preorder_nested :
    let inner : Block := [.int 1, .block [], .noop]
    let body : Block := [.block inner, .int 2]
    let state : State :=
      { slots := ((List.replicate 12 (some [])).set 3 (some [.int Int64.minValue])).set 1
          (some [.code (.expr (.block body))]) }
    body.size = 6 ∧ ((body.atPoint? 5).isSome ∧ ¬(body.atPoint? 6).isSome) ∧
      body.atPoint? 1 = some (.block inner) ∧
      (Expr.block inner).atPoint? 3 = body.atPoint? (1 + 3) ∧
      body.atPoint? (1 + 1 + partsSize [.int 1]) = some (.block []) ∧
      ∃ instruction after, (InstructionSet.core .core).get? "code_extract" = some instruction ∧
        instruction.ready state = true ∧ instruction.eval {} state = (.ok (), after) ∧
        after.stack? .code = some [.code (.expr (.int 1))] := by
  intro inner body state
  obtain ⟨hsome, -, hadd, hpart, instruction, hget, hinputs, hextract⟩ := atPoint?_preorder body
  have hready : instruction.ready state = true := by
    rw [Instruction.ready, hinputs]
    decide
  obtain ⟨found, after, hfound, heval, hcode, -⟩ := (hextract {} state hready).2 Int64.minValue
    (.expr (.block body)) [] [] rfl rfl
  refine ⟨rfl, ⟨(hsome 5).mpr (by decide), fun h => absurd ((hsome 6).mp h) (by decide)⟩, rfl,
    hadd 1 _ rfl 3 (by decide), hpart 1 [.int 1] (.block []) [.noop] rfl, instruction, after, hget,
    hready, heval, ?_⟩
  -- The magnitude of the smallest integer, `2 ^ 63`, is `2` modulo the six points.
  have hpoint : Int64.minValue.toInt.natAbs % (Atom.expr (.block body)).size = 2 := by decide
  rw [hpoint] at hfound
  cases hfound
  exact hcode

end PushMachine
