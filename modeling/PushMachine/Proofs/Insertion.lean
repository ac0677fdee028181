import PushMachine.Proofs.PreOrder

/-! # Inserting at a point

In terms of the points in pre-order, inserting an expression puts its points in front of those from
the place on. The points before the place stay, but a block that has the place among its own points
takes the expression in (`Expr.taking`). One equation (`Block.points_insertBefore`) says so, and
with it where everything is afterwards. The walk to the place subtracts the sizes of the parts that
it passes; a second form of the walk that fails below zero never fails
(`Block.insertAtPoint?_eq_some`). -/

namespace PushMachine

/-! ## Inserting among points -/

namespace Expr

variable {x e : Expr} {place point : Nat} {points others : List Expr}

/-- What becomes of the expression at `point` before the `place` of an insertion. -/
def taking (x : Expr) (place point : Nat) (e : Expr) : Expr :=
  if place < point + e.size then e.insertInside (.expr x) (place - point) else e

/-- Points in pre-order, with `x.points` inserted at `place`. -/
def insertPoints (x : Expr) (place : Nat) (points : List Expr) : List Expr :=
  (points.take place).mapIdx (taking x place) ++ (x.points ++ points.drop place)

/-- Points may be counted from elsewhere: `taking` does not see a `shift` of both. -/
theorem taking_add (x : Expr) (place point shift : Nat) :
    taking x (place + shift) (point + shift) = taking x place point := by
  funext e
  rw [taking, taking, Nat.add_right_comm, Nat.add_sub_add_right]
  exact if_congr Nat.add_lt_add_iff_right rfl rfl

/-- Nothing changes in an expression that ends before the place, `e.size ≤ place`. -/
theorem mapIdx_taking_points (h : e.size ≤ place) :
    e.points.mapIdx (taking x place) = e.points := by
  rw [List.mapIdx_eq_iff]
  intro point
  cases hfound : e.points[point]? with
  | none => rfl
  | some s =>
    have hle := add_size_le hfound
    rw [Option.map_some, taking, if_neg (by omega)]

/-- Inserting behind the first point. -/
theorem insertPoints_cons (x e : Expr) (place : Nat) (points : List Expr) :
    insertPoints x (place + 1) (e :: points) =
      taking x (place + 1) 0 e :: insertPoints x place points := by
  rw [insertPoints, insertPoints, List.take_succ_cons, List.drop_succ_cons, List.mapIdx_cons,
    List.cons_append]
  simp only [taking_add]

/-- Inserting into the first of two lists, for `place ≤ points.length`. -/
theorem insertPoints_append_left (h : place ≤ points.length) :
    insertPoints x place (points ++ others) = insertPoints x place points ++ others := by
  rw [insertPoints, insertPoints, List.take_append_of_le_length h,
    List.drop_append_of_le_length h, List.append_assoc, List.append_assoc]

/-- Inserting behind an expression, at `place + e.size`. -/
theorem insertPoints_append_right (x e : Expr) (place : Nat) (others : List Expr) :
    insertPoints x (place + e.size) (e.points ++ others) =
      e.points ++ insertPoints x place others := by
  have hbefore : e.points.mapIdx (taking x (place + e.size)) = e.points :=
    mapIdx_taking_points (Nat.le_add_left _ _)
  have hplace : place + e.size = e.points.length + place := by
    rw [length_points, Nat.add_comm]
  rw [insertPoints, insertPoints, hplace, List.take_length_add_append,
    List.drop_length_add_append, ← hplace, List.mapIdx_append, hbefore, List.append_assoc]
  simp only [length_points, taking_add]

theorem length_insertPoints (x : Expr) (place : Nat) (points : List Expr) :
    (insertPoints x place points).length = points.length + x.size := by
  rw [insertPoints, List.length_append, List.length_mapIdx, List.length_append, length_points,
    List.length_take, List.length_drop]
  omega

section Places

variable (within : place ≤ points.length)
include within

theorem length_mapIdx_taking :
    ((points.take place).mapIdx (taking x place)).length = place := by
  rw [List.length_mapIdx, List.length_take, Nat.min_eq_left within]

/-- A point before the place stays where it was, with what `taking` makes of it. -/
theorem getElem?_insertPoints_of_lt (h : point < place) :
    (insertPoints x place points)[point]? = (points[point]?).map (taking x place point) := by
  rw [insertPoints, List.getElem?_append_left (by rwa [length_mapIdx_taking within]),
    List.getElem?_mapIdx, List.getElem?_take_of_lt h]

/-- The inserted points are at the place: `place + point` is point `point` of `x`. -/
theorem getElem?_insertPoints_add (h : point < x.size) :
    (insertPoints x place points)[place + point]? = x.points[point]? := by
  rw [← length_points] at h
  have hlength := length_mapIdx_taking (x := x) within
  rw [insertPoints, List.getElem?_append_right (by omega), hlength, Nat.add_sub_cancel_left,
    List.getElem?_append_left h]

/-- The points from the place on are behind the inserted ones, at `point + x.size`. -/
theorem getElem?_insertPoints_of_le (h : place ≤ point) :
    (insertPoints x place points)[point + x.size]? = points[point]? := by
  have hlength := length_mapIdx_taking (x := x) within
  have hsize := x.length_points
  rw [insertPoints, List.getElem?_append_right (by omega), hlength,
    List.getElem?_append_right (by omega), hsize, List.getElem?_drop]
  congr 1
  omega

end Places

end Expr

mutual

/-- **Inserting inside an expression**, with `insertInside`, inserts among its points. -/
theorem Expr.points_insertInside (x : Expr) : (e : Expr) → (place : Nat) → 0 < place →
    place < e.size → (e.insertInside (.expr x) place).points = x.insertPoints place e.points
  | .block body, place + 1, _, hlt => by
    have hbody : place ≤ Block.partsSize body := by
      rw [Expr.size] at hlt
      omega
    have htaking : x.taking (place + 1) 0 (.block body) =
        .block (Block.insertBefore (.expr x) body place) := by
      rw [Expr.taking, if_pos (by rwa [Nat.zero_add])]
      rfl
    have ih := Block.points_insertBefore x body place
    rw [Nat.min_eq_left hbody] at ih
    rw [Expr.insertInside, Nat.add_sub_cancel, Expr.points, Expr.points, ih,
      Expr.insertPoints_cons, htaking]
  | .literal _ _, place, hpos, hlt | .input _, place, hpos, hlt | .instr _ _, place, hpos, hlt
  | .deferred _, place, hpos, hlt => absurd hlt (Nat.not_lt_of_le hpos)

/-- **Inserting among some parts**, with `insertBefore`, inserts among their points; a place past
the end is the end. -/
theorem Block.points_insertBefore (x : Expr) : (parts : List Expr) → (place : Nat) →
    Block.points (Block.insertBefore (.expr x) parts place) =
      x.insertPoints (min place (Block.partsSize parts)) (Block.points parts)
  | [], place => by
    rw [Block.partsSize_nil, Nat.min_zero]
    rfl
  | e :: rest, place => by
    have hlength := e.length_points
    rw [Block.insertBefore, Block.partsSize_cons, Block.points_cons]
    split
    next hzero =>
      rw [hzero, Nat.zero_min]
      rfl
    next hpos =>
      split
      next hlt =>
        -- The place is inside this part.
        rw [Nat.min_eq_left (by omega), Block.points_cons, Expr.insertPoints_append_left (by omega),
          Expr.points_insertInside x e place (Nat.pos_of_ne_zero hpos) hlt]
      next hge =>
        -- The walk passes this part.
        have hmin : min place (e.size + Block.partsSize rest) =
            min (place - e.size) (Block.partsSize rest) + e.size := by omega
        rw [hmin, Block.points_cons, Expr.insertPoints_append_right,
          Block.points_insertBefore x rest (place - e.size)]

end

namespace Block

/-- The points of a block and those of its parts: `n + 1` is point `n` of the parts. -/
theorem atPoint?_succ (body : Block) (n : Nat) : body.atPoint? (n + 1) = (points body)[n]? :=
  Expr.atPoint?_eq_getElem? (.block body) (n + 1)

/-- A place past the end is the end: `min place (partsSize parts)` comes to the same. -/
theorem insertBefore_min (atom : Atom) (parts : Block) (place : Nat) :
    insertBefore atom parts (min place (partsSize parts)) = insertBefore atom parts place := by
  induction parts generalizing place with
  | nil => rfl
  | cons e rest ih =>
    have hpos := (Atom.expr e).size_pos
    have hsize : (Atom.expr e).size = e.size := rfl
    rw [insertBefore, insertBefore, partsSize_cons]
    rcases Nat.lt_or_ge place e.size with hlt | hge
    · rw [Nat.min_eq_left (by omega)]
    · have hrest : min place (e.size + partsSize rest) - e.size =
          min (place - e.size) (partsSize rest) := by omega
      rw [if_neg (by omega), if_neg (by omega), if_neg (by omega), if_neg (by omega), hrest, ih]

/-- Inserting at a point of a nested block: `insertInside` is `insertAtPoint` there. -/
theorem insertInside_block (inner : Block) (atom : Atom) {point : Nat} (h : 0 < point) :
    (Expr.block inner).insertInside atom point = .block (inner.insertAtPoint atom point) := by
  rw [Expr.insertInside, insertAtPoint, Nat.max_eq_left h]

end Block

/-! ## The walk without truncation

The walk as it is has differences of natural numbers, which are zero where they would be negative.
Here they are undefined instead, and the sizes of single expressions are not compared before they
are subtracted. -/

/-- The difference of two numbers, or `none` if it would be negative. -/
def difference? (a b : Nat) : Option Nat := if b ≤ a then some (a - b) else none

theorem difference?_eq_some {a b : Nat} (h : b ≤ a) : difference? a b = some (a - b) := if_pos h

mutual

/-- Inserts an atom at a point inside an expression, if no difference is undefined. -/
def Expr.insertInside? (atom : Atom) : Expr → Nat → Option Expr
  | .block body, point =>
    (difference? point 1).bind fun place => (Block.insertBefore? atom body place).map .block
  | e, _ => some e

/-- Inserts an atom among some parts, if no difference is undefined. -/
def Block.insertBefore? (atom : Atom) : List Expr → Nat → Option Block
  | [], _ => some (Block.consAtom atom [])
  | e :: rest, point =>
    if point = 0 then some (Block.consAtom atom (e :: rest))
    else if !e.isLeaf ∧ point < e.size then (Expr.insertInside? atom e point).map (· :: rest)
    else
      (difference? point e.size).bind fun place =>
        (Block.insertBefore? atom rest place).map (e :: ·)

end

/-- Inserts an atom at a point of a block, if no `difference?` is undefined. -/
def Block.insertAtPoint? (body : Block) (atom : Atom) (point : Nat) : Option Block :=
  (difference? (max point 1) 1).bind (Block.insertBefore? atom body)

theorem Expr.size_of_isLeaf {e : Expr} (leaf : e.isLeaf = true) : e.size = 1 := by
  rw [← e.length_points, e.points_of_isLeaf leaf, List.length_singleton]

mutual

/-- No `difference?` is undefined on the way to a point inside an expression. -/
theorem Expr.insertInside?_eq_some (atom : Atom) : (e : Expr) → (point : Nat) → 0 < point →
    e.insertInside? atom point = some (e.insertInside atom point)
  | .block body, point, hpos => by
    rw [Expr.insertInside?, difference?_eq_some hpos, Option.bind_some,
      Block.insertBefore?_eq_some atom body (point - 1)]
    rfl
  | .literal _ _, _, _ | .input _, _, _ | .instr _ _, _, _ | .deferred _, _, _ => rfl

/-- No `difference?` is undefined on the way to a place among some parts. -/
theorem Block.insertBefore?_eq_some (atom : Atom) : (parts : List Expr) → (place : Nat) →
    Block.insertBefore? atom parts place = some (Block.insertBefore atom parts place)
  | [], _ => rfl
  | e :: rest, place => by
    rw [Block.insertBefore?, Block.insertBefore]
    split
    next => rfl
    next hne =>
      split
      next hinside =>
        rw [if_pos hinside.2, Expr.insertInside?_eq_some atom e place (Nat.pos_of_ne_zero hne)]
        rfl
      next houtside =>
        -- A leaf has one point, and the place is behind it.
        have hge : e.size ≤ place := by
          cases hleaf : e.isLeaf with
          | true =>
            rw [e.size_of_isLeaf hleaf]
            exact Nat.pos_of_ne_zero hne
          | false => exact Nat.le_of_not_lt fun hlt => houtside ⟨by rw [hleaf]; rfl, hlt⟩
        rw [if_neg (Nat.not_lt_of_le hge), difference?_eq_some hge, Option.bind_some,
          Block.insertBefore?_eq_some atom rest (place - e.size)]
        rfl

end

/-- **No difference is undefined** when an atom is inserted: `insertAtPoint?` is `insertAtPoint`. -/
theorem Block.insertAtPoint?_eq_some (body : Block) (atom : Atom) (point : Nat) :
    body.insertAtPoint? atom point = some (body.insertAtPoint atom point) := by
  rw [insertAtPoint?, difference?_eq_some (Nat.le_max_right _ _), Option.bind_some,
    insertBefore?_eq_some]
  rfl

/-! ## Insertion at a point -/

namespace Block

/-- The point that an inserted expression gets, when it is inserted at `n`. -/
def insertionPoint (body : Block) (n : Nat) : Nat := min (max n 1) body.size

/-- The point is one more than the place among the parts, `min (max n 1 - 1) (partsSize body)`. -/
theorem insertionPoint_eq (body : Block) (n : Nat) :
    body.insertionPoint n = min (max n 1 - 1) (partsSize body) + 1 := by
  rw [insertionPoint, size]
  omega

/-- Inserting at `body.insertionPoint n` comes to the same as inserting at `n`. -/
theorem insertAtPoint_insertionPoint (body : Block) (atom : Atom) (n : Nat) :
    body.insertAtPoint atom (body.insertionPoint n) = body.insertAtPoint atom n := by
  rw [insertAtPoint, insertAtPoint, ← insertBefore_min atom body (max n 1 - 1), insertionPoint_eq,
    Nat.max_eq_left (Nat.le_add_left 1 _), Nat.add_sub_cancel]

/-- Where the insertion takes place among the points of the parts. -/
theorem exists_place (body : Block) (n : Nat) :
    ∃ place, body.insertionPoint n = place + 1 ∧ place ≤ (points body).length ∧
      ∀ x, points (body.insertAtPoint (.expr x) n) = x.insertPoints place (points body) := by
  refine ⟨min (max n 1 - 1) (partsSize body), body.insertionPoint_eq n, ?_, fun x => ?_⟩
  · rw [length_points]
    exact Nat.min_le_right _ _
  · exact points_insertBefore x body (max n 1 - 1)

/-- The size grows by `x.size`. -/
theorem size_insertAtPoint (body : Block) (x : Expr) (n : Nat) :
    (body.insertAtPoint (.expr x) n).size = body.size + x.size := by
  obtain ⟨place, -, -, hpoints⟩ := body.exists_place n
  rw [size, size, ← length_points, hpoints, Expr.length_insertPoints, length_points, Nat.add_assoc]

/-- The points of the expression are numbered on from `body.insertionPoint n`. -/
theorem atPoint?_insertAtPoint_add (body : Block) {x : Expr} (n : Nat) {j : Nat}
    (hj : j < x.size) :
    (body.insertAtPoint (.expr x) n).atPoint? (body.insertionPoint n + j) = x.atPoint? j := by
  obtain ⟨place, hplace, hwithin, hpoints⟩ := body.exists_place n
  rw [hplace, Nat.add_right_comm, atPoint?_succ, hpoints,
    Expr.getElem?_insertPoints_add hwithin hj, Expr.atPoint?_eq_getElem?]

/-- The points from there on are found behind those of the expression: `x.size` further. -/
theorem atPoint?_insertAtPoint_of_le (body : Block) (x : Expr) {n q : Nat}
    (hle : body.insertionPoint n ≤ q) :
    (body.insertAtPoint (.expr x) n).atPoint? (q + x.size) = body.atPoint? q := by
  obtain ⟨place, hplace, hwithin, hpoints⟩ := body.exists_place n
  obtain ⟨q, rfl⟩ := Nat.exists_eq_add_one_of_ne_zero (show q ≠ 0 by omega)
  rw [Nat.add_right_comm, atPoint?_succ, hpoints,
    Expr.getElem?_insertPoints_of_le hwithin (by omega), atPoint?_succ]

end Block

/-- **A block at a point encloses a place**: the whole block does, and a nested one does if the
place is one of its points behind the first. -/
def Expr.Encloses (point place : Nat) : Expr → Prop
  | .block inner => point = 0 ∨ place < point + Block.size inner
  | _ => False

/-- What `taking` makes of an expression before the place, by whether it `Encloses` it. -/
theorem Expr.taking_eq (x : Expr) {s : Expr} {place point : Nat} (hlt : point < place) :
    (¬s.Encloses (point + 1) (place + 1) → x.taking place point s = s) ∧
    ∀ inner : Block, s = .block inner → s.Encloses (point + 1) (place + 1) →
      x.taking place point s = .block (inner.insertAtPoint (.expr x) (place - point)) := by
  refine ⟨fun hnot => ?_, ?_⟩
  · refine if_neg fun hplace => ?_
    cases s with
    | block inner => exact hnot (.inr (by rw [Expr.size] at hplace; rw [Block.size]; omega))
    | _ => exact absurd hplace (Nat.not_lt_of_le hlt)
  · rintro inner rfl (hzero | hinside)
    · exact absurd hzero (Nat.succ_ne_zero point)
    · rw [taking, if_pos (by rw [Expr.size]; rw [Block.size] at hinside; omega)]
      exact Block.insertInside_block inner (.expr x) (Nat.sub_pos_of_lt hlt)

/-- The points before `body.insertionPoint n`, with what becomes of them. -/
theorem Block.atPoint?_insertAtPoint_of_lt (body : Block) (x : Expr) {n q : Nat} {s : Expr}
    (hlt : q < body.insertionPoint n) (hs : body.atPoint? q = some s) :
    (¬s.Encloses q (body.insertionPoint n) →
      (body.insertAtPoint (.expr x) n).atPoint? q = some s) ∧
    ∀ inner : Block, s = .block inner → s.Encloses q (body.insertionPoint n) →
      (body.insertAtPoint (.expr x) n).atPoint? q =
        some (.block (inner.insertAtPoint (.expr x) (body.insertionPoint n - q))) := by
  cases q with
  | zero =>
    -- The whole block has the expression inserted wherever the place is.
    cases hs
    refine ⟨fun hnot => absurd (.inl rfl) hnot, ?_⟩
    rintro inner hinner -
    cases hinner
    rw [Nat.sub_zero, insertAtPoint_insertionPoint]
    rfl
  | succ q =>
    obtain ⟨place, hplace, hwithin, hpoints⟩ := body.exists_place n
    have hq : q < place := by omega
    rw [atPoint?_succ] at hs
    rw [atPoint?_succ, hpoints, Expr.getElem?_insertPoints_of_lt hwithin hq, hs, Option.map_some,
      hplace, Nat.add_sub_add_right]
    obtain ⟨hsame, htaken⟩ := x.taking_eq (s := s) hq
    exact ⟨fun hnot => congrArg some (hsame hnot),
      fun inner hinner hencloses => congrArg some (htaken inner hinner hencloses)⟩

/-- **Inserting an expression at a point shifts exactly the later points**. The expression gets the
point `p` that was asked for, moved into the range from 1 to the size:

* the size grows by that of the expression;
* the expression is at `p`, and its points are numbered on from there;
* the points from `p` on are found behind them;
* the points before `p` are what they were, but a block that encloses the place has the expression
  inserted;
* no difference on the way is below zero. -/
theorem Block.insertAtPoint_shifts (body : Block) (x : Expr) (n : Nat) :
    let p := min (max n 1) body.size
    let result := body.insertAtPoint (.expr x) n
    result.size = body.size + x.size ∧
    result.atPoint? p = some x ∧
    (∀ j < x.size, result.atPoint? (p + j) = x.atPoint? j) ∧
    (∀ q, p ≤ q → q < body.size → result.atPoint? (q + x.size) = body.atPoint? q) ∧
    (∀ q < p, ∃ s, body.atPoint? q = some s ∧
      (¬s.Encloses q p → result.atPoint? q = some s) ∧
      ∀ inner : Block, s = .block inner → s.Encloses q p →
        result.atPoint? q = some (.block (inner.insertAtPoint (.expr x) (p - q)))) ∧
    body.insertAtPoint? (.expr x) n = some result := by
  intro p result
  refine ⟨body.size_insertAtPoint x n, ?_, fun j hj => body.atPoint?_insertAtPoint_add n hj,
    fun q hle _ => body.atPoint?_insertAtPoint_of_le x hle, fun q hlt => ?_,
    body.insertAtPoint?_eq_some _ n⟩
  · have hfirst := body.atPoint?_insertAtPoint_add n (Atom.expr x).size_pos
    exact hfirst.trans x.atPoint?_zero
  -- There is code at every point before the place.
  · have hsize : q < Expr.size (.block body) := Nat.lt_of_lt_of_le hlt (Nat.min_le_right _ _)
    obtain ⟨s, hs⟩ := Option.isSome_iff_exists.mp (Expr.isSome_atPoint?_iff.mpr hsize)
    exact ⟨s, hs, body.atPoint?_insertAtPoint_of_lt x hlt hs⟩

/-- A block inserted into a nested one: the points of the nested block and of what is behind it. -/
theorem Block.insertAtPoint_shifts_nested :
    let body : Block := [.block [.int 1, .int 2], .int 3]
    let x : Expr := .block [.noop]
    let result := body.insertAtPoint (.expr x) 3
    result.size = 7 ∧ result.atPoint? 3 = some x ∧ result.atPoint? (3 + 1) = x.atPoint? 1 ∧
      result.atPoint? (4 + 2) = body.atPoint? 4 ∧
      result.atPoint? 1 = some (.block [.int 1, x, .int 2]) ∧ result.atPoint? 2 = some (.int 1) ∧
      body.insertAtPoint? (.expr x) 3 = some result := by
  intro body x result
  obtain ⟨hsize, hplace, hpoints, hbehind, hbefore, hwalk⟩ := body.insertAtPoint_shifts x 3
  obtain ⟨_, hblock, -, hopened⟩ := hbefore 1 (by decide)
  obtain ⟨_, hleaf, hkept, -⟩ := hbefore 2 (by decide)
  cases hblock
  cases hleaf
  exact ⟨hsize, hplace, hpoints 1 (by decide), hbehind 4 (by decide) (by decide),
    hopened [.int 1, .int 2] rfl (.inr (by decide)), hkept id, hwalk⟩

end PushMachine
