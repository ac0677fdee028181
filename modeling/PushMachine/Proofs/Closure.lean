import Mathlib.Data.List.Perm.Subperm
import PushMachine.Instruction.Vectors
import PushMachine.Proofs.Discipline

/-! # Closed disciplines

What a discipline has to allow for the core instructions to obey it. `Discipline.Closed` lists the
ways in which instructions make new values out of old ones: single values are free, strings and
vectors are bounded or made of what was there, and code is put together from sound parts or taken
apart. The typed operations of scripts then find what they expect, and each has a rule here that the
bodies of instructions are checked with. -/

namespace PushMachine

/-! ## Items of vectors -/

/-- The stacks of the core types for data: all core stacks but `.exec` and `.code`. -/
def StackId.IsData (id : StackId) : Prop := 2 ≤ id.index ∧ id.index < StackId.coreSize

instance (id : StackId) : Decidable id.IsData := inferInstanceAs (Decidable (_ ∧ _))

/-- A core stack that is not for code is for data. -/
theorem StackId.isData_of_not_own {id : StackId} (other : ¬(id = .exec ∨ id = .code))
    (hlt : id.index < coreSize) : id.IsData := by
  refine ⟨?_, hlt⟩
  by_contra hsmall
  obtain ⟨index⟩ := id
  have hcases : index = 0 ∨ index = 1 := by
    have : ¬2 ≤ index := hsmall
    omega
  exact other (hcases.imp (congrArg StackId.mk) (congrArg StackId.mk))

/-- A type of items whose values are those of the two stacks that its `Item` instance names. -/
class LawfulItem (α : Type) [BEq α] [Item α] : Prop where
  /-- The stack of items is one for data. -/
  stack_isData : (Item.stack α).IsData := by decide
  /-- The stack of vectors is one for data. -/
  vector_isData : (Item.vector α).IsData := by decide
  /-- An item belongs on the stack of items. -/
  homeStack?_toValue : ∀ x : α, (Item.toValue x).homeStack? = some (Item.stack α) := by
    intro x
    rfl
  /-- A value that belongs on the stack of items is an item, and `ofValue?` reads it as one. -/
  exists_item : ∀ value : Value, value.homeStack? = some (Item.stack α) →
      ∃ x : α, value = Item.toValue x ∧ Item.ofValue? value = some x := by
    intro value h
    cases value <;> cases h
    exact ⟨_, rfl, rfl⟩
  /-- A vector belongs on the stack of vectors. -/
  homeStack?_toVector : ∀ items : List α,
      (Item.toVector items).homeStack? = some (Item.vector α) := by
    intro items
    rfl
  /-- A value that belongs on the stack of vectors is a vector, and `ofVector?` reads it as one. -/
  exists_vector : ∀ value : Value, value.homeStack? = some (Item.vector α) →
      ∃ items : List α, value = Item.toVector items ∧ Item.ofVector? value = some items := by
    intro value h
    cases value <;> cases h
    exact ⟨_, rfl, rfl⟩
  /-- A vector is read as what it was made of. -/
  ofVector?_toVector : ∀ items : List α, Item.ofVector? (Item.toVector items) = some items := by
    intro items
    rfl

instance : LawfulItem Bool where

instance : LawfulItem Int64 where

instance : LawfulItem Float where

instance : LawfulItem Char where

instance : LawfulItem String where

/-! ## What instructions make of values -/

/-- The instructions that other instructions leave references to (`.deferred`), each with the stacks
it declares. -/
def selfReferences : List (String × List StackId) :=
  [("code_from_exec", [.exec, .code]), ("code_do_range", [.code, .int, .exec]),
   ("exec_do_range", [.exec, .int]), ("int_pop", [.int]), ("exec_while", [.exec]),
   ("code_pop", [.code]), ("code_wrap", [.code]), ("code_cons", [.code]),
   (Instruction.iterateName Bool, [.vectorBool, .exec, .bool]),
   (Instruction.iterateName Int64, [.vectorInt, .exec, .int]),
   (Instruction.iterateName Float, [.vectorFloat, .exec, .float]),
   (Instruction.iterateName Char, [.vectorChar, .exec, .char]),
   (Instruction.iterateName String, [.vectorStr, .exec, .str])]

namespace Discipline

/-- The vectors of a type of items are `sound` as far as their items and their length are. -/
structure ClosedItems (discipline : Discipline) (caps : SizeCaps) (α : Type) [BEq α] [Item α] :
    Prop where
  /-- The items of a sound vector are sound. -/
  item : ∀ items : List α, discipline.sound (Item.toVector items) →
    ∀ x ∈ items, discipline.sound (Item.toValue x)
  /-- Sound items make a sound vector within `collectionSizeCap`. -/
  capped : ∀ items : List α, (∀ x ∈ items, discipline.sound (Item.toValue x)) →
    items.length ≤ caps.collectionSizeCap → discipline.sound (Item.toVector items)
  /-- Sound items make a sound vector that is not longer than another one. -/
  shorter : ∀ items new : List α, discipline.sound (Item.toVector items) →
    (∀ x ∈ new, discipline.sound (Item.toValue x)) → new.length ≤ items.length →
    discipline.sound (Item.toVector new)

/-- **A closed discipline**: what instructions make of `sound` values is sound, under limits on
sizes. -/
structure Closed (discipline : Discipline) (caps : SizeCaps) : Prop where
  /-- The `declared` stacks are `present`. -/
  declared_present : ∀ {id}, discipline.declared id → discipline.present id
  /-- Code, and nothing else, belongs on the stacks for code. -/
  code_iff : ∀ {id value}, id = .exec ∨ id = .code →
    (discipline.belongs id value ↔ ∃ atom, value = .code atom)
  /-- The values of its type by `homeStack?`, and nothing else, belong on a core stack for data. -/
  data_iff : ∀ {id value}, id.IsData → discipline.present id →
    (discipline.belongs id value ↔ value.homeStack? = some id)
  /-- Truth values are sound. -/
  bool : ∀ b, discipline.sound (.bool b)
  /-- Integers are sound. -/
  int : ∀ n, discipline.sound (.int n)
  /-- Doubles are sound. -/
  float : ∀ x, discipline.sound (.float x)
  /-- Characters are sound. -/
  char : ∀ c, discipline.sound (.char c)
  /-- Strings within `collectionSizeCap` are sound. -/
  str : ∀ s, s.length ≤ caps.collectionSizeCap → discipline.sound (.str s)
  /-- A string that is not longer than a sound one is sound. -/
  piece : ∀ s t, discipline.sound (.str s) → t.length ≤ s.length → discipline.sound (.str t)
  /-- Vectors of truth values. -/
  bools : discipline.ClosedItems caps Bool
  /-- Vectors of integers. -/
  ints : discipline.ClosedItems caps Int64
  /-- Vectors of doubles. -/
  floats : discipline.ClosedItems caps Float
  /-- Vectors of characters. -/
  chars : discipline.ClosedItems caps Char
  /-- Vectors of strings. -/
  strs : discipline.ClosedItems caps String
  /-- A literal of an allowed value (`Allows`) is sound. -/
  literal : ∀ {id value}, discipline.present id → discipline.Allows id value →
    discipline.sound (.code (.expr (.literal value id)))
  /-- A reference of `selfReferences` to an instruction on declared stacks is sound. -/
  deferred : ∀ reference ∈ selfReferences, (∀ id ∈ reference.2, discipline.declared id) →
    discipline.sound (.code (.expr (.deferred reference.1)))
  /-- The parts of a sound block are sound. -/
  part : ∀ {body e}, discipline.sound (.code (.expr (.block body))) → e ∈ body →
    discipline.sound (.code (.expr e))
  /-- A block of sound parts with at most `maxPoints` points is sound. -/
  built : ∀ {body}, (∀ e ∈ body, discipline.sound (.code (.expr e))) →
    Block.size body ≤ caps.maxPoints → discipline.sound (.code (.expr (.block body)))
  /-- A block of some parts of a sound block, in any order (`Subperm`), is sound. -/
  rearranged : ∀ {body new : Block}, discipline.sound (.code (.expr (.block body))) →
    new.Subperm body → discipline.sound (.code (.expr (.block new)))
  /-- The empty block is sound. -/
  nil : discipline.sound (.code (.expr (.block [])))

/-- **A closed discipline that loops over vectors keep**: they are the only instructions that put
code together without a test of `maxPoints`. -/
structure Unrolled (discipline : Discipline) (caps : SizeCaps) : Prop
    extends discipline.Closed caps where
  /-- The next turn of a loop over a vector, as `iterateVector` leaves it behind, is sound. -/
  turn : ∀ {vector reference body}, discipline.sound (.code (.expr vector)) →
    discipline.sound (.code (.expr reference)) → discipline.sound (.code body) →
    discipline.sound (.code (Atom.block [.expr vector, .expr reference, body]))

end Discipline

/-! ## Rules for single operations -/

namespace Script

variable {discipline : Discipline} {id : StackId}

/-- Taking the top item obeys: `post` may rely on its being allowed. -/
theorem pop_obeys {post : Value → Prop} (present : discipline.present id)
    (h : ∀ value, discipline.Allows id value → post value) :
    (pop id).Obeys discipline post :=
  ⟨present, h⟩

/-- Looking at an item. -/
theorem peek_obeys {post : Value → Prop} {depth : Nat} (present : discipline.present id)
    (h : ∀ value, discipline.Allows id value → post value) :
    (peek id depth).Obeys discipline post :=
  ⟨present, h⟩

/-- Taking out an item. -/
theorem yank_obeys {post : Value → Prop} {depth : Nat} (present : discipline.present id)
    (h : ∀ value, discipline.Allows id value → post value) :
    (yank id depth).Obeys discipline post :=
  ⟨present, h⟩

/-- Counting items obeys; a stack with a count that is not `0` is present. -/
theorem depth_obeys {post : Nat → Prop}
    (h : ∀ count : Nat, (count ≠ 0 → discipline.present id) → post count) :
    (depth id).Obeys discipline post :=
  ⟨trivial, h⟩

/-- Throwing all items away. -/
theorem flush_obeys {post : Unit → Prop} (present : discipline.present id) (h : post ()) :
    (flush id).Obeys discipline post :=
  ⟨present, fun _ _ => h⟩

/-- Pushing a value that is allowed on stack `id` obeys. -/
theorem push_obeys {post : Unit → Prop} {value : Value} (present : discipline.present id)
    (allowed : discipline.Allows id value) (h : post ()) :
    (push id value).Obeys discipline post :=
  ⟨⟨present, allowed⟩, fun _ _ => h⟩

/-- Inserting an allowed item. -/
theorem shove_obeys {post : Unit → Prop} {depth : Nat} {value : Value}
    (present : discipline.present id) (allowed : discipline.Allows id value) (h : post ()) :
    (shove id depth value).Obeys discipline post :=
  ⟨⟨present, allowed⟩, fun _ _ => h⟩

/-- Printing. -/
theorem print_obeys {post : Unit → Prop} {text : String} {cap : Nat} (h : post ()) :
    (print text cap).Obeys discipline post :=
  ⟨trivial, fun _ _ => h⟩

/-- Pushing values one after another obeys, if all are allowed on stack `id`. -/
theorem pushAll_obeys {post : Unit → Prop} {values : List Value} (present : discipline.present id)
    (allowed : ∀ value ∈ values, discipline.Allows id value) (h : post ()) :
    (pushAll id values).Obeys discipline post := by
  induction values with
  | nil => exact h
  | cons value rest ih =>
    obtain ⟨hvalue, hrest⟩ := List.forall_mem_cons.mp allowed
    rw [pushAll]
    exact .bind (push_obeys present hvalue (ih hrest))

end Script

/-! ## Rules for typed operations -/

namespace Discipline.Closed

open Script

variable {discipline : Discipline} {caps : SizeCaps} {id : StackId}

/-- Sound code may lie on `.exec` and on `.code`. -/
theorem allows_code (closed : discipline.Closed caps) (hid : id = .exec ∨ id = .code) {atom : Atom}
    (sound : discipline.sound (.code atom)) : discipline.Allows id (.code atom) :=
  ⟨(closed.code_iff hid).mpr ⟨atom, rfl⟩, sound⟩

/-- Taking an atom off a stack for code that is `present` gives sound code. -/
theorem popAtom_of_present (closed : discipline.Closed caps) (hid : id = .exec ∨ id = .code)
    (present : discipline.present id) {post : Atom → Prop}
    (h : ∀ atom, discipline.sound (.code atom) → post atom) :
    (Script.popAtom id).Obeys discipline post := by
  rw [Script.popAtom]
  refine .bind (pop_obeys present fun value allowed => ?_)
  obtain ⟨atom, rfl⟩ := (closed.code_iff hid).mp allowed.1
  exact h atom allowed.2

/-- Taking an atom off a stack for code that is `declared` gives sound code. -/
theorem popAtom (closed : discipline.Closed caps) (hid : id = .exec ∨ id = .code)
    (declared : discipline.declared id) {post : Atom → Prop}
    (h : ∀ atom, discipline.sound (.code atom) → post atom) :
    (Script.popAtom id).Obeys discipline post :=
  closed.popAtom_of_present hid (closed.declared_present declared) h

/-- Looking at the atom on top of a stack for code. -/
theorem peekAtom (closed : discipline.Closed caps) (hid : id = .exec ∨ id = .code)
    (declared : discipline.declared id) {post : Atom → Prop}
    (h : ∀ atom, discipline.sound (.code atom) → post atom) :
    (Script.peekAtom id).Obeys discipline post := by
  rw [Script.peekAtom]
  refine .bind (peek_obeys (closed.declared_present declared) fun value allowed => ?_)
  obtain ⟨atom, rfl⟩ := (closed.code_iff hid).mp allowed.1
  exact h atom allowed.2

/-- Pushing an atom onto a stack for code. -/
theorem pushAtom (closed : discipline.Closed caps) (hid : id = .exec ∨ id = .code)
    (declared : discipline.declared id) {post : Unit → Prop} {atom : Atom}
    (sound : discipline.sound (.code atom)) (h : post ()) :
    (Script.pushAtom id atom).Obeys discipline post :=
  push_obeys (closed.declared_present declared) (closed.allows_code hid sound) h

section Items

variable {α : Type} [BEq α] [Item α] [LawfulItem α]

/-- A sound item may lie on `Item.stack α`. -/
theorem allows_item (closed : discipline.Closed caps) (present : discipline.present (Item.stack α))
    {x : α} (sound : discipline.sound (Item.toValue x)) :
    discipline.Allows (Item.stack α) (Item.toValue x) :=
  ⟨(closed.data_iff LawfulItem.stack_isData present).mpr (LawfulItem.homeStack?_toValue x), sound⟩

/-- A sound vector may lie on `Item.vector α`. -/
theorem allows_vector (closed : discipline.Closed caps)
    (present : discipline.present (Item.vector α)) {items : List α}
    (sound : discipline.sound (Item.toVector items)) :
    discipline.Allows (Item.vector α) (Item.toVector items) :=
  ⟨(closed.data_iff LawfulItem.vector_isData present).mpr (LawfulItem.homeStack?_toVector items),
    sound⟩

/-- Taking an item off `Item.stack α`, if that is present, gives a sound one. -/
theorem popItem (closed : discipline.Closed caps) (present : discipline.present (Item.stack α))
    {post : α → Prop} (h : ∀ x, discipline.sound (Item.toValue x) → post x) :
    (Script.popItem : Script α).Obeys discipline post := by
  rw [Script.popItem]
  refine .bind (pop_obeys present fun value allowed => ?_)
  obtain ⟨x, rfl, hx⟩ := LawfulItem.exists_item (α := α) value
    ((closed.data_iff LawfulItem.stack_isData present).mp allowed.1)
  rw [hx]
  exact h x allowed.2

/-- Pushing an item. -/
theorem pushItem (closed : discipline.Closed caps) (declared : discipline.declared (Item.stack α))
    {post : Unit → Prop} {x : α} (sound : discipline.sound (Item.toValue x)) (h : post ()) :
    (Script.pushItem x).Obeys discipline post :=
  have present := closed.declared_present declared
  push_obeys present (closed.allows_item present sound) h

/-- Taking a vector off `Item.vector α` gives a sound one. -/
theorem popVector (closed : discipline.Closed caps) (declared : discipline.declared (Item.vector α))
    {post : List α → Prop} (h : ∀ items, discipline.sound (Item.toVector items) → post items) :
    (Script.popVector : Script (List α)).Obeys discipline post := by
  have present := closed.declared_present declared
  rw [Script.popVector]
  refine .bind (pop_obeys present fun value allowed => ?_)
  obtain ⟨items, rfl, hitems⟩ := LawfulItem.exists_vector (α := α) value
    ((closed.data_iff LawfulItem.vector_isData present).mp allowed.1)
  rw [hitems]
  exact h items allowed.2

/-- Pushing a vector. -/
theorem pushVector (closed : discipline.Closed caps)
    (declared : discipline.declared (Item.vector α)) {post : Unit → Prop} {items : List α}
    (sound : discipline.sound (Item.toVector items)) (h : post ()) :
    (Script.pushVector items).Obeys discipline post :=
  have present := closed.declared_present declared
  push_obeys present (closed.allows_vector present sound) h

end Items

/-- Taking a truth value obeys, if `.bool` is declared. So it is for the other types of data. -/
theorem popBool (closed : discipline.Closed caps) (declared : discipline.declared .bool)
    {post : Bool → Prop} (h : ∀ b, post b) : Script.popBool.Obeys discipline post :=
  closed.popItem (closed.declared_present declared) fun b _ => h b

/-- Taking an integer. -/
theorem popInt (closed : discipline.Closed caps) (declared : discipline.declared .int)
    {post : Int64 → Prop} (h : ∀ n, post n) : Script.popInt.Obeys discipline post :=
  closed.popItem (closed.declared_present declared) fun n _ => h n

/-- Taking a double. -/
theorem popFloat (closed : discipline.Closed caps) (declared : discipline.declared .float)
    {post : Float → Prop} (h : ∀ x, post x) : Script.popFloat.Obeys discipline post :=
  closed.popItem (closed.declared_present declared) fun x _ => h x

/-- Taking a character. -/
theorem popChar (closed : discipline.Closed caps) (declared : discipline.declared .char)
    {post : Char → Prop} (h : ∀ c, post c) : Script.popChar.Obeys discipline post :=
  closed.popItem (closed.declared_present declared) fun c _ => h c

/-- Taking a string off `.str` gives a sound one. -/
theorem popStr (closed : discipline.Closed caps) (declared : discipline.declared .str)
    {post : String → Prop} (h : ∀ s, discipline.sound (.str s) → post s) :
    Script.popStr.Obeys discipline post :=
  closed.popItem (closed.declared_present declared) h

/-- Pushing a truth value. -/
theorem pushBool (closed : discipline.Closed caps) (declared : discipline.declared .bool)
    {post : Unit → Prop} {b : Bool} (h : post ()) : (Script.pushBool b).Obeys discipline post :=
  closed.pushItem (α := Bool) declared (closed.bool b) h

/-- Pushing an integer. -/
theorem pushInt (closed : discipline.Closed caps) (declared : discipline.declared .int)
    {post : Unit → Prop} {n : Int64} (h : post ()) : (Script.pushInt n).Obeys discipline post :=
  closed.pushItem (α := Int64) declared (closed.int n) h

/-- Pushing a count obeys, whether `countToInt?` has an integer for it or not. -/
theorem pushNat (closed : discipline.Closed caps) (declared : discipline.declared .int)
    {post : Unit → Prop} {n : Nat} (h : post ()) : (Script.pushNat n).Obeys discipline post := by
  rw [Script.pushNat]
  exact ofOption_bind_obeys fun _ _ => closed.pushInt declared h

/-- Pushing a double. -/
theorem pushFloat (closed : discipline.Closed caps) (declared : discipline.declared .float)
    {post : Unit → Prop} {x : Float} (h : post ()) :
    (Script.push .float (.float x)).Obeys discipline post :=
  closed.pushItem (α := Float) declared (closed.float x) h

/-- Pushing a character. -/
theorem pushChar (closed : discipline.Closed caps) (declared : discipline.declared .char)
    {post : Unit → Prop} {c : Char} (h : post ()) :
    (Script.push .char (.char c)).Obeys discipline post :=
  closed.pushItem (α := Char) declared (closed.char c) h

end Discipline.Closed

/-! ## Instructions -/

namespace Instruction

/-- **An instruction obeys a discipline** if its body `Keeps` it, provided that the stacks it
declares are ones that instructions may declare. -/
def Obeys (discipline : Discipline) (caps : SizeCaps) (instruction : Instruction) : Prop :=
  (∀ id ∈ instruction.touched, discipline.declared id) → (instruction.body caps).Keeps discipline

/-- An instruction obeys if its body does under the assumption that its `inputs` and its `outputs`
are declared. -/
theorem obeys_mk {discipline : Discipline} {caps : SizeCaps} {name : String}
    {inputs outputs : List StackId} {groups : UInt8} {body : SizeCaps → Script Unit} :
    Obeys discipline caps ⟨name, inputs, outputs, groups, body⟩ ↔
      ((∀ id ∈ inputs, discipline.declared id) → (∀ id ∈ outputs, discipline.declared id) →
        (body caps).Keeps discipline) := by
  rw [Obeys, touched, List.forall_mem_append, and_imp]

end Instruction

end PushMachine
