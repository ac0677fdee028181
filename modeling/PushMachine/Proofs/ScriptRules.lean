import PushMachine.Proofs.CoreInstructions

/-! # Rules for scripts

What a script does to the state follows from what its operations are. `Script.Follows` walks along a
script's tree and asks a rule of each operation, whatever the results of the operations before it.
On the way it keeps account of the items that the script owns, which are those that it was given and
those that it pushed. There are three rules:

* `Op.Within p`: the operation is on a stack with the property `p`;
* `Op.Spends`: it takes and looks at owned items only;
* `Op.Quiet`: it does not print.

Most instructions follow all three with the stacks and the items that they declare
(`Instruction.Plain`). `Instruction.Sorted` lists the exceptions and the rules that they follow, and
`InstructionSet.instructionsFor_sorted` goes through all instructions once. -/

namespace PushMachine

/-! ## The rules -/

namespace Op

/-- An operation on stacks with the property `p`, counting included. It looks for no item so deep
that a machine word cannot count the items above it (`State.maxDepth`). -/
@[simp] def Within (p : StackId → Prop) : Op → Prop
  | .push id _ => p id
  | .pop id => p id
  | .peek id place => p id ∧ place < State.maxDepth
  | .depth id => p id
  | .flush id => p id
  | .yank id place => p id ∧ place < State.maxDepth
  | .shove id _ _ => p id
  | .print _ _ => True

/-- An operation that takes and looks at `owned` items only. The list holds the stack of each item.
-/
@[simp] def Spends : Op → List StackId → Prop
  | .push _ _, _ => True
  | .pop id, owned => id ∈ owned
  | .peek id place, owned => place < owned.count id
  | .print _ _, _ => True
  | _, _ => False

/-- An operation that prints nothing. -/
@[simp] def Quiet : Op → Prop
  | .print _ _ => False
  | _ => True

/-- **The items that are owned after an operation**: one more after `.push`, and one less after
`.pop`. -/
def leaves : Op → List StackId → List StackId
  | .push id _, owned => id :: owned
  | .pop id, owned => owned.erase id
  | _, owned => owned

/-- All three rules: `Within`, `Spends` and `Quiet`. -/
@[simp] def Plain (p : StackId → Prop) (op : Op) (owned : List StackId) : Prop :=
  op.Within p ∧ op.Spends owned ∧ op.Quiet

/-- An operation within `p` is within any wider range `q` of stacks. -/
theorem Within.mono {p q : StackId → Prop} (h : ∀ id, p id → q id) {op : Op}
    (within : op.Within p) : op.Within q := by
  cases op with
  | push id value => exact h id within
  | pop id => exact h id within
  | peek id depth => exact ⟨h id within.1, within.2⟩
  | depth id => exact h id within
  | flush id => exact h id within
  | yank id depth => exact ⟨h id within.1, within.2⟩
  | shove id depth value => exact h id within
  | print text cap => trivial

end Op

namespace Script

variable {α β : Type} {rule other : Op → List StackId → Prop} {owned : List StackId} {id : StackId}

/-- **A script follows a rule** if each of its operations does, whatever the results of the
operations before it, and if it does not itself fail with `.outOfBounds`. Its own result and the
items that it owns at the end satisfy `post`. -/
def Follows (rule : Op → List StackId → Prop) (post : α → List StackId → Prop) :
    Script α → List StackId → Prop
  | .done result, owned => post result owned
  | .fail fault, _ => fault ≠ .outOfBounds
  | .act op next, owned =>
    rule op owned ∧ ∀ result, (next result).Follows rule post (op.leaves owned)

/-- A script that follows `rule` follows every weaker one. -/
theorem Follows.mono (h : ∀ op owned, rule op owned → other op owned)
    {post : α → List StackId → Prop} {script : Script α}
    (follows : script.Follows rule post owned) :
    script.Follows other post owned := by
  induction script generalizing owned with
  | done result => exact follows
  | fail fault => exact follows
  | act op next ih => exact ⟨h op owned follows.1, fun result => ih result (follows.2 result)⟩

/-! ### Composing scripts -/

@[simp] theorem follows_pure {post : α → List StackId → Prop} (result : α) :
    (pure result : Script α).Follows rule post owned ↔ post result owned := Iff.rfl

@[simp] theorem follows_bind {script : Script α} {rest : α → Script β}
    {post : β → List StackId → Prop} :
    (script >>= rest).Follows rule post owned ↔
      script.Follows rule (fun result => (rest result).Follows rule post) owned := by
  induction script generalizing owned with
  | done result => exact Iff.rfl
  | fail fault => exact Iff.rfl
  | act op next ih => exact and_congr_right fun _ => forall_congr' fun result => ih result

@[simp] theorem follows_revert {post : α → List StackId → Prop} :
    (revert : Script α).Follows rule post owned ↔ True :=
  iff_of_true (nofun : Fault.revert ≠ .outOfBounds) trivial

@[simp] theorem follows_ofOption {result : Option α} {post : α → List StackId → Prop} :
    (ofOption result).Follows rule post owned ↔
      ∀ value, result = some value → post value owned := by
  cases result with
  | none => exact iff_of_true (follows_revert.mpr trivial) fun x hx => by cases hx
  | some value => exact ⟨fun h found heq => Option.some.inj heq ▸ h, fun h => h value rfl⟩

@[simp] theorem follows_ite {condition : Prop} [Decidable condition] {yes no : Script α}
    {post : α → List StackId → Prop} :
    (if condition then yes else no).Follows rule post owned ↔
      (condition → yes.Follows rule post owned) ∧ (¬condition → no.Follows rule post owned) := by
  split <;> simp [*]

/-! ### Single operations -/

@[simp] theorem follows_push {value : Value} {post : Unit → List StackId → Prop} :
    (push id value).Follows rule post owned ↔
      rule (.push id value) owned ∧ post () (id :: owned) :=
  and_congr_right fun _ => ⟨fun h => h (), fun h _ => h⟩

@[simp] theorem follows_pop {post : Value → List StackId → Prop} :
    (pop id).Follows rule post owned ↔
      rule (.pop id) owned ∧ ∀ value, post value (owned.erase id) := Iff.rfl

@[simp] theorem follows_peek {place : Nat} {post : Value → List StackId → Prop} :
    (peek id place).Follows rule post owned ↔
      rule (.peek id place) owned ∧ ∀ value, post value owned := Iff.rfl

@[simp] theorem follows_depth {post : Nat → List StackId → Prop} :
    (depth id).Follows rule post owned ↔
      rule (.depth id) owned ∧ ∀ count, post count owned := Iff.rfl

@[simp] theorem follows_flush {post : Unit → List StackId → Prop} :
    (flush id).Follows rule post owned ↔ rule (.flush id) owned ∧ post () owned :=
  and_congr_right fun _ => ⟨fun h => h (), fun h _ => h⟩

@[simp] theorem follows_yank {place : Nat} {post : Value → List StackId → Prop} :
    (yank id place).Follows rule post owned ↔
      rule (.yank id place) owned ∧ ∀ value, post value owned := Iff.rfl

@[simp] theorem follows_shove {place : Nat} {value : Value} {post : Unit → List StackId → Prop} :
    (shove id place value).Follows rule post owned ↔
      rule (.shove id place value) owned ∧ post () owned :=
  and_congr_right fun _ => ⟨fun h => h (), fun h _ => h⟩

@[simp] theorem follows_print {text : String} {cap : Nat} {post : Unit → List StackId → Prop} :
    (print text cap).Follows rule post owned ↔ rule (.print text cap) owned ∧ post () owned :=
  and_congr_right fun _ => ⟨fun h => h (), fun h _ => h⟩

/-- Any number of items can be pushed onto a stack with the property `p`. -/
@[simp] theorem follows_pushAll {p : StackId → Prop} (used : p id) {values : List Value} :
    (pushAll id values).Follows (Op.Plain p) (fun _ _ => True) owned := by
  induction values generalizing owned with
  | nil => trivial
  | cons value rest ih =>
    rw [pushAll, follows_bind, follows_push]
    exact ⟨⟨used, trivial, trivial⟩, ih⟩

/-! ### Typed operations -/

@[simp] theorem follows_popAtom {post : Atom → List StackId → Prop} :
    (popAtom id).Follows rule post owned ↔
      rule (.pop id) owned ∧ ∀ atom, post atom (owned.erase id) := by
  rw [popAtom, follows_bind, follows_pop]
  refine and_congr_right fun _ => ⟨fun h atom => h (.code atom), fun h value => ?_⟩
  cases value with
  | code atom => exact h atom
  | _ => exact fun hfault => by cases hfault

@[simp] theorem follows_peekAtom {post : Atom → List StackId → Prop} :
    (peekAtom id).Follows rule post owned ↔
      rule (.peek id 0) owned ∧ ∀ atom, post atom owned := by
  rw [peekAtom, follows_bind, follows_peek]
  refine and_congr_right fun _ => ⟨fun h atom => h (.code atom), fun h value => ?_⟩
  cases value with
  | code atom => exact h atom
  | _ => exact fun hfault => by cases hfault

@[simp] theorem follows_pushAtom {atom : Atom} {post : Unit → List StackId → Prop} :
    (pushAtom id atom).Follows rule post owned ↔
      rule (.push id (.code atom)) owned ∧ post () (id :: owned) := follows_push

section Items

variable [BEq α] [Item α]

@[simp] theorem follows_popItem {post : α → List StackId → Prop} :
    (popItem : Script α).Follows rule post owned ↔ rule (.pop (Item.stack α)) owned ∧
      ∀ value x, Item.ofValue? value = some x → post x (owned.erase (Item.stack α)) := by
  rw [popItem, follows_bind, follows_pop]
  refine and_congr_right fun _ => forall_congr' fun value => ?_
  cases (Item.ofValue? value : Option α) with
  | none => exact iff_of_true (fun hfault => by cases hfault) fun x hx => by cases hx
  | some x => exact ⟨fun h y heq => Option.some.inj heq ▸ h, fun h => h x rfl⟩

@[simp] theorem follows_pushItem {x : α} {post : Unit → List StackId → Prop} :
    (pushItem x).Follows rule post owned ↔
      rule (.push (Item.stack α) (Item.toValue x)) owned ∧ post () (Item.stack α :: owned) :=
  follows_push

@[simp] theorem follows_popVector {post : List α → List StackId → Prop} :
    (popVector : Script (List α)).Follows rule post owned ↔ rule (.pop (Item.vector α)) owned ∧
      ∀ value items, Item.ofVector? value = some items →
        post items (owned.erase (Item.vector α)) := by
  rw [popVector, follows_bind, follows_pop]
  refine and_congr_right fun _ => forall_congr' fun value => ?_
  cases (Item.ofVector? value : Option (List α)) with
  | none => exact iff_of_true (fun hfault => by cases hfault) fun x hx => by cases hx
  | some items => exact ⟨fun h other heq => Option.some.inj heq ▸ h, fun h => h items rfl⟩

@[simp] theorem follows_pushVector {items : List α} {post : Unit → List StackId → Prop} :
    (pushVector items).Follows rule post owned ↔
      rule (.push (Item.vector α) (Item.toVector items)) owned ∧
        post () (Item.vector α :: owned) := follows_push

end Items

@[simp] theorem follows_popBool {post : Bool → List StackId → Prop} :
    popBool.Follows rule post owned ↔ rule (.pop .bool) owned ∧
      ∀ value b, Item.ofValue? value = some b → post b (owned.erase .bool) := follows_popItem

@[simp] theorem follows_popInt {post : Int64 → List StackId → Prop} :
    popInt.Follows rule post owned ↔ rule (.pop .int) owned ∧
      ∀ value n, Item.ofValue? value = some n → post n (owned.erase .int) := follows_popItem

@[simp] theorem follows_popFloat {post : Float → List StackId → Prop} :
    popFloat.Follows rule post owned ↔ rule (.pop .float) owned ∧
      ∀ value x, Item.ofValue? value = some x → post x (owned.erase .float) := follows_popItem

@[simp] theorem follows_popChar {post : Char → List StackId → Prop} :
    popChar.Follows rule post owned ↔ rule (.pop .char) owned ∧
      ∀ value c, Item.ofValue? value = some c → post c (owned.erase .char) := follows_popItem

@[simp] theorem follows_popStr {post : String → List StackId → Prop} :
    popStr.Follows rule post owned ↔ rule (.pop .str) owned ∧
      ∀ value s, Item.ofValue? value = some s → post s (owned.erase .str) := follows_popItem

@[simp] theorem follows_pushBool {b : Bool} {post : Unit → List StackId → Prop} :
    (pushBool b).Follows rule post owned ↔
      rule (.push .bool (.bool b)) owned ∧ post () (.bool :: owned) := follows_push

@[simp] theorem follows_pushInt {n : Int64} {post : Unit → List StackId → Prop} :
    (pushInt n).Follows rule post owned ↔
      rule (.push .int (.int n)) owned ∧ post () (.int :: owned) := follows_push

@[simp] theorem follows_pushNat {n : Nat} {post : Unit → List StackId → Prop} :
    (pushNat n).Follows rule post owned ↔ ∀ value, countToInt? n = some value →
      rule (.push .int (.int value)) owned ∧ post () (.int :: owned) := by
  rw [pushNat, follows_bind, follows_ofOption]
  exact forall₂_congr fun _ _ => follows_pushInt

end Script

/-! ## Instructions -/

/-- The positions that `nearestPlace` finds for integers are machine words. -/
theorem nearestPlace_lt (n : Int64) (limit : Nat) : nearestPlace n limit < State.maxDepth := by
  have hbound : n.toInt < 2 ^ 63 := n.toInt_lt
  have hmin : nearestPlace n limit ≤ n.toInt.toNat := Nat.min_le_left _ _
  have hmax : 2 ^ 63 < State.maxDepth := by decide
  omega

namespace Instruction

open Script

/-- **An instruction follows a rule** if its body does with the items `inputs` that it declares. -/
def Follows (instruction : Instruction) (rule : Op → List StackId → Prop) : Prop :=
  ∀ caps, (instruction.body caps).Follows rule (fun _ _ => True) instruction.inputs

/-- An instruction follows every weaker rule. -/
theorem Follows.mono {instruction : Instruction} {rule other : Op → List StackId → Prop}
    (follows : instruction.Follows rule) (h : ∀ op owned, rule op owned → other op owned) :
    instruction.Follows other :=
  fun caps => (follows caps).mono h

/-- **A plain instruction** uses the stacks that it declares, takes and looks at no other items than
those that it declares or has pushed, and prints nothing (`Op.Plain`). -/
def Plain (instruction : Instruction) : Prop :=
  instruction.Follows (Op.Plain (· ∈ instruction.touched))

/-- **A discreet instruction** uses the stacks that it declares and some `others`, and prints
nothing. -/
def Discreet (instruction : Instruction) (others : List StackId) : Prop :=
  instruction.Follows fun op _ => op.Within (· ∈ others ++ instruction.touched) ∧ op.Quiet

variable {name : String} {inputs outputs others : List StackId} {groups : UInt8}
  {body : SizeCaps → Script Unit}

/-- For an instruction that is spelled out, `touched` is `inputs ++ outputs`. -/
theorem plain_mk : Plain ⟨name, inputs, outputs, groups, body⟩ ↔
    ∀ caps, (body caps).Follows (Op.Plain (· ∈ inputs ++ outputs)) (fun _ _ => True) inputs :=
  Iff.rfl

/-- For an instruction that is spelled out, `touched` is `inputs ++ outputs`. -/
theorem discreet_mk : Discreet ⟨name, inputs, outputs, groups, body⟩ others ↔
    ∀ caps, (body caps).Follows
      (fun op _ => op.Within (· ∈ others ++ (inputs ++ outputs)) ∧ op.Quiet) (fun _ _ => True)
      inputs := Iff.rfl

/-! ### Any stack -/

/-- The verbs of a stack that do not declare it. -/
def quietVerbs : List String := ["flush", "stack_depth", "is_empty"]

/-- The verbs of a stack whose instructions address a depth or count the items. -/
def depthVerbs : List String :=
  ["yank", "yank_dup", "shove", "shove_dup", "stack_depth", "is_empty", "flush"]

/-- The bottom item is found by counting: `lastDepth` is one operation `.depth`. -/
@[simp] theorem follows_lastDepth {rule : Op → List StackId → Prop} {owned : List StackId}
    {id : StackId} {post : Nat → List StackId → Prop} :
    (lastDepth id).Follows rule post owned ↔ rule (.depth id) owned ∧ ∀ n, post n owned := by
  rw [lastDepth, follows_bind, follows_depth]
  refine and_congr_right fun _ => ⟨fun h n => h (n + 1), fun h count => ?_⟩
  cases count with
  | zero => exact follows_revert.mpr trivial
  | succ n => exact h n

/-- **The shuffling instructions** of a stack are `Plain`, apart from those with a verb of
`depthVerbs`. These are `Discreet`, with the stack itself where they do not declare it. -/
theorem shuffling_sorted (id : StackId) (type : StackType) :
    ∀ instruction ∈ shuffling id type, instruction.Plain ∨
      ∃ verb ∈ depthVerbs, instruction.name = type.name ++ "_" ++ verb ∧
        (instruction.Discreet [] ∨ verb ∈ quietVerbs ∧ instruction.Discreet [id]) := by
  have hzero : 0 < State.maxDepth := by decide
  have hempty : (testEmptyItem id).Follows (Op.Plain (· ∈ [id, .bool])) (fun _ _ => True) [id] := by
    simp [testEmptyItem]
  simp only [shuffling, ofVerb, List.forall_mem_append, List.forall_mem_cons, plain_mk, discreet_mk]
  constructor
  · simp [quietVerbs, depthVerbs, dropTop, copyTop, copyTimes, swapTop, rotateTop, compareTop,
      countItems, yankItem, yankCopy, shoveItem, shoveCopy, testEmpty, nearestPlace_lt, hzero]
  · -- Only the stack of a collection has the last one.
    split
    · exact List.forall_mem_singleton.mpr (.inl fun _ => hempty)
    · exact List.forall_mem_nil _

/-! ### Numbers, truth values and texts -/

/-- **The instructions on numbers** are plain. -/
theorem arithmetic_plain : ∀ instruction ∈ arithmetic, instruction.Plain := by
  simp [arithmetic, plain_mk, intOperation, combineInts, intChange, changeInt, intCompare,
    compareInts, floatOperation, combineFloats, floatChange, changeFloat, floatCompare,
    compareFloats, intFromBool, intFromFloat, floatFromInt, floatFromBool]

/-- **The instructions on truth values** are plain. -/
theorem logic_plain : ∀ instruction ∈ logic, instruction.Plain := by
  simp [logic, plain_mk, boolOperation, combineBools, negateBool, boolFromInt, boolFromFloat]

/-- A position is pushed as an integer, onto `.int`. -/
theorem follows_pushPosition {p : StackId → Prop} (int : p .int) (place : Option Nat)
    (owned : List StackId) : (pushPosition place).Follows (Op.Plain p) (fun _ _ => True) owned := by
  cases place <;> simp [pushPosition, int]

/-- Searching takes the text and the pattern, and a number where the choice needs one. -/
theorem searching_plain (pattern : Needle) :
    ∀ instruction ∈ searching pattern, instruction.Plain := by
  cases pattern <;>
    simp +decide [searching, replacing, plain_mk, Needle.stack, Needle.pop, Choice.inputs,
      Choice.popNumber, popText, replaceText, removeText, pushTextWithin, pushTextsWithin,
      countMatches, testMatch, findMatch, follows_pushPosition, splitText]

/-- **The instructions on strings and characters** are plain. -/
theorem strings_plain : ∀ instruction ∈ strings, instruction.Plain := by
  simp only [strings, List.forall_mem_append]
  refine ⟨⟨⟨?_, searching_plain .str⟩, searching_plain .char⟩, ?_⟩
  · simp +decide [plain_mk, popText, pushTextWithin, concatText, insertText, insertChar, pickChar,
      nthChar, textLength, strChange, changeText, strChangeBy, changeTextBy, charTest, testChar]
  · simp [plain_mk, popText, pushTextWithin, pushTextsWithin, splitWords, strFromInt, strFromBool,
      strFromChar, strFromFloat, charFromInt, charFromFloat, charFromBool, intFromChar, intFromStr,
      floatFromChar, floatFromStr]

/-! ### Vectors -/

section Vectors

variable (α : Type) [BEq α] [Item α] {p : StackId → Prop}

/-- Finding an item takes it and the vector. -/
theorem follows_findItem (differ : Item.vector α ≠ Item.stack α) (item : p (Item.stack α))
    (vector : p (Item.vector α)) (int : p .int) :
    (findItem α).Follows (Op.Plain p) (fun _ _ => True) [Item.vector α, Item.stack α] := by
  simp only [findItem, follows_bind, follows_popItem, follows_popVector]
  refine ⟨by simp [item], fun _ x _ => ⟨by simp [vector, differ], fun _ items _ => ?_⟩⟩
  split <;> simp [int]

/-- Replacing an item takes the position, the item and the vector. The first two may be integers
both, if `Item.stack α` is `.int`. -/
theorem follows_setItem (differ : Item.vector α ≠ Item.stack α) (count : Item.vector α ≠ .int)
    (item : p (Item.stack α)) (vector : p (Item.vector α)) (int : p .int) :
    (setItem α).Follows (Op.Plain p) (fun _ _ => True) [Item.vector α, Item.stack α, .int] := by
  have herase : [Item.vector α, Item.stack α, .int].erase .int =
      [Item.vector α, Item.stack α] := by
    by_cases hint : Item.stack α = .int
    · simp [count, hint]
    · simp [count, hint]
  simp only [setItem, follows_bind, follows_popInt, herase]
  simp [differ, item, vector, int]

/-- A turn of a loop over a vector takes the vector and the body. -/
theorem follows_iterateVector (item : p (Item.stack α)) (vector : p (Item.vector α))
    (exec : p .exec) :
    (iterateVector α).Follows (Op.Plain p) (fun _ _ => True) [Item.vector α, .exec] := by
  simp only [iterateVector, follows_bind, follows_popVector, follows_popAtom, List.erase_cons_head]
  refine ⟨by simp [vector], fun _ items _ => ⟨by simp [exec], fun body => ?_⟩⟩
  split <;> simp [item, exec]

/-- The instructions of `vectorsOf α` are plain, if the stack of vectors is neither that of the
items nor that of integers. -/
theorem vectorsOf_plain (differ : Item.vector α ≠ Item.stack α) (count : Item.vector α ≠ .int) :
    ∀ instruction ∈ vectorsOf α, instruction.Plain := by
  simp [vectorsOf, ofVectorVerb, plain_mk, concatVectors, appendItem, pushVectorWithin, takeItems,
    sliceVector, pickItem, nthItem, changeVector, vectorLength, spreadItems, testItem,
    follows_findItem, countItem, follows_setItem, replaceItems, replaceFirstItem, removeItems,
    follows_iterateVector, differ, count]

end Vectors

/-- **The instructions on vectors** are plain, for all five types of items. -/
theorem vectors_plain : ∀ instruction ∈ vectors, instruction.Plain := by
  simp only [vectors, List.forall_mem_append]
  exact ⟨⟨⟨⟨vectorsOf_plain Bool (by decide) (by decide),
    vectorsOf_plain Int64 (by decide) (by decide)⟩,
    vectorsOf_plain Float (by decide) (by decide)⟩,
    vectorsOf_plain Char (by decide) (by decide)⟩,
    vectorsOf_plain String (by decide) (by decide)⟩

/-! ### Code -/

section Code

variable {p : StackId → Prop} (code : p .code)
include code

/-- Taking the first part of a block that has one. -/
theorem follows_requireFirst :
    requireFirst.Follows (Op.Plain p) (fun _ _ => True) [.code] := by
  simp only [requireFirst, follows_bind, follows_popAtom]
  refine ⟨by simp [code], fun atom => ?_⟩
  split <;> simp [code]

/-- Taking the other parts of a block that has a first one. -/
theorem follows_requireOthers :
    requireOthers.Follows (Op.Plain p) (fun _ _ => True) [.code] := by
  simp only [requireOthers, follows_bind, follows_popAtom]
  refine ⟨by simp [code], fun atom => ?_⟩
  split <;> simp [code]

/-- Pushing the code at a point. -/
theorem follows_pushPoint (n : Int64) (atom : Atom) (owned : List StackId) :
    (pushPoint n atom).Follows (Op.Plain p) (fun _ _ => True) owned := by
  unfold pushPoint
  split <;> simp [code]

/-- Finding a part of a block. -/
theorem follows_findPart (int : p .int) :
    findPart.Follows (Op.Plain p) (fun _ _ => True) [.code, .code] := by
  simp only [findPart, follows_bind, follows_popAtom, List.erase_cons_head]
  refine ⟨by simp [code], fun atom => ⟨by simp [code], fun item => ?_⟩⟩
  split <;> simp [int]

end Code

/-- **The instructions that edit code** are plain. -/
theorem codeEditing_plain : ∀ instruction ∈ codeEditing, instruction.Plain := by
  simp +decide [codeEditing, plain_mk, quoting, quoteValue, quotePending, pushCodeWithin,
    appendBlocks, pushBlockWithin, combineBlocks, consBlock, listAtoms, wrapAtom, takeFirst,
    takeOthers, follows_requireFirst, follows_requireOthers, nthPart, measureAtom, extractPoint,
    follows_pushPoint, insertPoint, testPart, follows_findPart, reverseBlock, testAtom]

/-- The loops are plain. -/
theorem loops_plain (source : BodySource) : ∀ instruction ∈ loops source, instruction.Plain := by
  cases source <;>
    simp +decide [loops, plain_mk, rangeTurn, repeatLoop, pushCodeWithin, BodySource.stack]

/-- **The instructions that control what runs next** are plain, apart from `"exec_while"`, which
waits for a false truth value. It is discreet and looks for one on `.bool`. -/
theorem control_sorted :
    ∀ instruction ∈ control, instruction.Plain ∨
      instruction.name = "exec_while" ∧ .exec ∈ instruction.touched ∧
        instruction.Discreet [.bool] := by
  simp only [control, List.forall_mem_append]
  refine ⟨⟨⟨?_, fun _ h => .inl (loops_plain .code _ h)⟩,
    fun _ h => .inl (loops_plain .exec _ h)⟩, ?_⟩
  · simp +decide [plain_mk, callCode, takeCode]
  · simp +decide [plain_mk, discreet_mk, touched, whileTurn, doWhileTurn, chooseCode, choosePending,
      callCodeWhen, keepPendingWhen, mapBlock, pushCodeWithin]

/-! ### All instructions -/

/-- **The sorts of instructions** for the types of a registry, by the rules that they follow. The
properties of all core instructions are read off these five cases. -/
inductive Sorted (registry : Registry) : Instruction → Prop where
  /-- Most instructions are plain. -/
  | plain {instruction : Instruction} (plain : instruction.Plain) : Sorted registry instruction
  /-- Some address a depth or count the items of a stack, which they need not declare; their verbs
  are the `depthVerbs`. -/
  | deep {instruction : Instruction} {id : StackId} {type : StackType} {verb : String}
      (registered : registry.get? id = some type) (addresses : verb ∈ depthVerbs)
      (named : instruction.name = type.name ++ "_" ++ verb)
      (discreet : instruction.Discreet [] ∨ verb ∈ quietVerbs ∧ instruction.Discreet [id]) :
    Sorted registry instruction
  /-- One for each type prints an item. -/
  | printing {id : StackId} {type : StackType} (registered : registry.get? id = some type) :
    Sorted registry (printing id type.name)
  /-- One prints a line break. -/
  | printNewline : Sorted registry printNewline
  /-- One loop waits for a false truth value. -/
  | waiting {instruction : Instruction} (named : instruction.name = "exec_while")
      (exec : .exec ∈ instruction.touched) (discreet : instruction.Discreet [.bool]) :
    Sorted registry instruction

end Instruction

/-- **Every instruction for a registry** is of one of the sorts: the families are gone through here,
and nowhere else for these rules (`forall_mem_instructionsFor`). -/
theorem InstructionSet.instructionsFor_sorted {registry : Registry} :
    ∀ instruction ∈ instructionsFor registry, instruction.Sorted registry := by
  refine forall_mem_instructionsFor ?shuffling ?printing ?arithmetic ?logic ?strings ?vectors
    .printNewline ?codeEditing ?control
  case shuffling =>
    intro id type htype instruction hmem
    rcases Instruction.shuffling_sorted id type instruction hmem with
      hplain | ⟨verb, hverb, hname, hdiscreet⟩
    · exact .plain hplain
    · exact .deep htype hverb hname hdiscreet
  case printing => exact fun id type htype => .printing htype
  case arithmetic => exact fun _ h => .plain (Instruction.arithmetic_plain _ h)
  case logic => exact fun _ h => .plain (Instruction.logic_plain _ h)
  case strings => exact fun _ h => .plain (Instruction.strings_plain _ h)
  case vectors => exact fun _ h => .plain (Instruction.vectors_plain _ h)
  case codeEditing => exact fun _ h => .plain (Instruction.codeEditing_plain _ h)
  case control =>
    intro instruction hmem
    rcases Instruction.control_sorted instruction hmem with hplain | ⟨hname, hexec, hdiscreet⟩
    · exact .plain hplain
    · exact .waiting hname hexec hdiscreet

end PushMachine
