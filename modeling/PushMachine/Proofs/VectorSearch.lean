import Mathlib.Data.List.Sort
import Mathlib.Logic.Function.Iterate
import PushMachine.Proofs.TextReplacement
import PushMachine.Proofs.VectorLoops

/-! # Searching vectors

The instructions that search a vector for an item count its places, find the first one, take the
items there out, or put another item there. All of them answer by one list of places
(`Instruction.Places`), and take items for equal where `==` says so. Nothing is asked of this test:
it need not be reflexive, and for doubles it is not.

Replacing at the first place over and over comes to replacing at all of them, as long as the new
item is not equal to the old one (`Instruction.iterate_replaceFirst`). -/

namespace PushMachine

/-- **The types of items** that have vectors. -/
inductive ItemType : (α : Type) → [BEq α] → [Item α] → Prop where
  /-- Truth values. -/
  | bool : ItemType Bool
  /-- Integers. -/
  | int : ItemType Int64
  /-- Doubles. -/
  | float : ItemType Float
  /-- Characters. -/
  | char : ItemType Char
  /-- Strings. -/
  | str : ItemType String

namespace ItemType

variable {α : Type} [BEq α] [Item α]

theorem lawfulItem (kind : ItemType α) : LawfulItem α := by
  cases kind <;> infer_instance

/-- An item is read as what it was made of: `ofValue?` undoes `toValue`. -/
theorem ofValue?_toValue (kind : ItemType α) (x : α) : Item.ofValue? (Item.toValue x) = some x := by
  cases kind <;> rfl

/-- The instructions of `vectorsOf α` are among those on vectors. -/
theorem vectorsOf_subset (kind : ItemType α) : Instruction.vectorsOf α ⊆ Instruction.vectors := by
  intro instruction member
  rw [Instruction.vectors]
  cases kind <;> simp only [List.mem_append, member, true_or, or_true]

end ItemType

namespace Instruction

/-! ## Places -/

section Places

variable {α : Type}

/-- **The places of a list** whose items satisfy `test`, in order. -/
structure Places (items : List α) (test : α → Bool) (places : List Nat) : Prop where
  /-- The items there, and no others, satisfy `test`. -/
  mem_iff : ∀ i, i ∈ places ↔ ∃ item, items[i]? = some item ∧ test item = true
  /-- They are in order. -/
  sorted : places.Pairwise (· < ·)

theorem places_findIdxs (items : List α) (test : α → Bool) :
    Places items test (items.findIdxs test) := by
  refine ⟨fun i => ?_, List.pairwise_findIdxs⟩
  simp only [List.mem_findIdxs_iff_exists_getElem_pos, List.getElem?_eq_some_iff]
  exact ⟨fun ⟨hlt, htest⟩ => ⟨_, ⟨hlt, rfl⟩, htest⟩,
    fun ⟨_, ⟨hlt, heq⟩, htest⟩ => ⟨hlt, heq ▸ htest⟩⟩

/-- There is one such list. -/
theorem Places.unique {items : List α} {test : α → Bool} {places others : List Nat}
    (one : Places items test places) (other : Places items test others) : places = others :=
  one.sorted.eq_of_mem_iff other.sorted fun i => (one.mem_iff i).trans (other.mem_iff i).symm

/-- A search stops at the first place: `findIdx?` is the first of `findIdxs`. -/
theorem findIdx?_eq_head?_findIdxs (test : α → Bool) (items : List α) :
    items.findIdx? test = (items.findIdxs test).head? := by
  induction items with
  | nil => rfl
  | cons item rest ih =>
    rw [List.findIdx?_cons, List.findIdxs_cons]
    by_cases hitem : test item = true
    · rw [if_pos hitem, if_pos hitem, List.head?_cons]
    · rw [if_neg hitem, if_neg hitem, ih, List.findIdxs_start (s := 0 + 1), List.head?_map]

/-- The items that `filter` keeps are those at the places of `findIdxs`. -/
theorem map_some_filter (test : α → Bool) (items : List α) :
    (items.filter test).map some = (items.findIdxs test).map (items[·]?) := by
  refine List.ext_getElem (by simp [List.countP_eq_length_filter]) fun i hi hi' => ?_
  rw [List.length_map] at hi hi'
  rw [List.getElem_map, List.getElem_map, List.getElem_filter_eq_getElem_getElem_findIdxs hi,
    List.getElem?_eq_getElem]

variable [BEq α]

/-- Replacing with `replaceFirst` puts the new item at the first place. -/
theorem replaceFirst_eq (x y : α) (items : List α) :
    replaceFirst x y items =
      match items.findIdx? (· == x) with
      | some place => items.set place y
      | none => items := by
  induction items with
  | nil => rfl
  | cons item rest ih =>
    rw [replaceFirst, List.findIdx?_cons]
    by_cases hitem : (item == x) = true
    · rw [if_pos hitem, if_pos hitem]
      rfl
    · rw [if_neg hitem, if_neg hitem, ih]
      cases rest.findIdx? (· == x) <;> rfl

/-- **Replacing the first** changes one place only, the first of `findIdxs`. -/
theorem getElem?_replaceFirst (x y : α) (items : List α) (i : Nat) :
    (replaceFirst x y items)[i]? =
      if (items.findIdxs (· == x)).head? = some i then some y else items[i]? := by
  rw [replaceFirst_eq, ← findIdx?_eq_head?_findIdxs]
  cases hplace : items.findIdx? (· == x) with
  | none => rw [if_neg (Option.some_ne_none i).symm]
  | some place =>
    obtain ⟨hlt, -⟩ := List.findIdx?_eq_some_iff_getElem.mp hplace
    rw [List.getElem?_set]
    by_cases hi : place = i
    · rw [if_pos hi, if_pos hlt, if_pos (congrArg some hi)]
    · rw [if_neg hi, if_neg fun heq => hi (Option.some.inj heq)]

/-- **Replacing all** changes the places of `x` only. -/
theorem getElem?_replaceAll (x y : α) (items : List α) (i : Nat) :
    (items.map fun item => if item == x then y else item)[i]? =
      if i ∈ items.findIdxs (· == x) then some y else items[i]? := by
  have hmem := (places_findIdxs items (· == x)).mem_iff i
  rw [List.getElem?_map]
  cases hitem : items[i]? with
  | none =>
    rw [if_neg fun hplace => ?_, Option.map_none]
    obtain ⟨item, hfound, -⟩ := hmem.mp hplace
    rw [hitem] at hfound
    cases hfound
  | some item =>
    simp only [hitem, Option.some.injEq, exists_eq_left'] at hmem
    rw [Option.map_some]
    by_cases heq : (item == x) = true
    · rw [if_pos heq, if_pos (hmem.mpr heq)]
    · rw [if_neg heq, if_neg fun hplace => heq (hmem.mp hplace)]

/-- **Replacing the first as often as the item is there** replaces all, if `y` is not equal to `x`.
-/
theorem iterate_replaceFirst {x y : α} (differ : (y == x) = false) (items : List α) :
    (replaceFirst x y)^[(items.findIdxs (· == x)).length] items =
      items.map fun item => if item == x then y else item := by
  -- An item that is not equal to the old one stays in front of what happens behind it.
  have hbehind {item : α} (other : (item == x) = false) (n : Nat) (rest : List α) :
      (replaceFirst x y)^[n] (item :: rest) = item :: (replaceFirst x y)^[n] rest := by
    have hstep : Function.Semiconj (item :: ·) (replaceFirst x y) (replaceFirst x y) := by
      intro rest
      rw [replaceFirst, other]
      rfl
    exact ((hstep.iterate_right n) rest).symm
  rw [List.length_findIdxs]
  induction items with
  | nil => rfl
  | cons item rest ih =>
    rw [List.countP_cons, List.map_cons]
    by_cases hitem : (item == x) = true
    · rw [if_pos hitem, if_pos hitem, Function.iterate_succ_apply, replaceFirst, if_pos hitem,
        hbehind differ, ih]
    · rw [if_neg hitem, if_neg hitem, Nat.add_zero, hbehind (Bool.not_eq_true _ ▸ hitem), ih]

end Places

/-! ## Scripts -/

section Scripts

open Script

variable {α : Type} [BEq α] [Item α] {config : Config} {x y : α} {items : List α}
  {answer : Option (StackId × Value)}

/-- The stacks of arguments and answers. -/
def vectorStacks (α : Type) [BEq α] [Item α] : List StackId :=
  [.bool, .int, Item.stack α, Item.vector α]

variable (kind : ItemType α) (has : ∀ id ∈ vectorStacks α, config.Has id)
include kind has

/-- Taking the vector, with `popVector`. -/
theorem answers_popVector {rest : List α → Script Unit}
    (answers : (rest items).Answers config config answer) :
    (popVector >>= rest).Answers (config.topped (Item.vector α) (Item.toVector items)) config
      answer := by
  have := kind.lawfulItem
  obtain ⟨vectors, found⟩ := has (Item.vector α) (by simp [vectorStacks])
  refine (does_popVector (Config.stack?_topped_self found _)).bind_answers ?_
  rwa [Config.topped_of_found found, Config.setStack_setStack, Config.setStack_self found]

/-- Taking an item `x` and then the vector. -/
theorem answers_popItem {rest : α → List α → Script Unit}
    (answers : (rest x items).Answers config config answer) :
    (do
      let sought ← popItem
      let items ← popVector
      rest sought items).Answers
      (config.holding [(Item.vector α, Item.toVector items), (Item.stack α, Item.toValue x)]) config
      answer := by
  have hitem := (has (Item.stack α) (by simp [vectorStacks])).topped (Item.vector α)
    (Item.toVector items)
  exact (does_popItem hitem (kind.ofValue?_toValue x)).bind_answers
    (answers_popVector kind has answers)

/-- Taking a new item `y`, an old one `x` and then the vector. -/
theorem answers_popItems {rest : α → α → List α → Script Unit}
    (answers : (rest y x items).Answers config config answer) :
    (do
      let new ← popItem
      let old ← popItem
      let items ← popVector
      rest new old items).Answers
      (config.holding [(Item.vector α, Item.toVector items), (Item.stack α, Item.toValue x),
        (Item.stack α, Item.toValue y)]) config answer := by
  have hitem := (has (Item.stack α) (by simp [vectorStacks])).holding
    [(Item.vector α, Item.toVector items), (Item.stack α, Item.toValue x)]
  exact (does_popItem hitem (kind.ofValue?_toValue y)).bind_answers
    (answers_popItem kind has answers)

omit kind in
/-- Pushing a vector, with `pushVector`. -/
theorem answers_pushVector (items : List α) :
    (pushVector items).Answers config config (some (Item.vector α, Item.toVector items)) :=
  does_push_topped (has (Item.vector α) (by simp [vectorStacks])) _

end Scripts

end Instruction

/-! ## The instructions -/

namespace Library

open Instruction

variable {α : Type} [BEq α] [Item α]

/-- The name of an instruction on the vectors of `α`. -/
def vectorName (α : Type) [BEq α] [Item α] (verb : String) : String :=
  Item.vectorsName α ++ "_" ++ verb

/-- The instructions that search a vector, without the name of the type. -/
def searchVerbs : List String :=
  ["occurrences_of", "contains", "index_of", "remove", "replace", "replace_first"]

/-- A vector and an item `x` as arguments. -/
def itemArguments (items : List α) (x : α) : List (StackId × Value) :=
  [(Item.vector α, Item.toVector items), (Item.stack α, Item.toValue x)]

/-- A vector, an `old` item and a `new` one as arguments. -/
def itemsArguments (items : List α) (old new : α) : List (StackId × Value) :=
  itemArguments items old ++ [(Item.stack α, Item.toValue new)]

section Searches

variable {library : Library} {caps : SizeCaps} (kind : ItemType α)
  (offers : library.Offers (.exec :: vectorStacks α) (searchVerbs.map (vectorName α)))
include kind offers

/-- The names in `searchVerbs` stand for the instructions on vectors. -/
theorem get?_vectorSearch {verb : String} {inputs outputs : List StackId} {body : Script Unit}
    (member : ofVectorVerb α verb inputs outputs (fun _ => body) ∈ vectorsOf α)
    (named : verb ∈ searchVerbs) :
    library.instructions.get? (vectorName α verb) =
      some (ofVectorVerb α verb inputs outputs fun _ => body) := by
  have hown : ∀ name ∈ searchVerbs.map (vectorName α),
      (fixed.map Instruction.name).count name = 1 := by
    cases kind <;> decide +kernel
  have hfixed : ofVectorVerb α verb inputs outputs (fun _ => body) ∈ fixed := by
    simp only [fixed, List.mem_append, kind.vectorsOf_subset member, true_or, or_true]
  have hall : (vectorsOf α).all (fun other => other.touched.all Registry.core.contains) = true := by
    cases kind <;> decide
  have hname := List.mem_map_of_mem (f := vectorName α) named
  rw [offers.instruction _ hname]
  exact InstructionSet.get?_core_fixed hfixed (hown _ hname) (List.all_eq_true.mp hall _ member)

/-- **The rule for a search**: what it answers if its script `Answers` it. -/
theorem answers_vectorSearch {verb : String} (outputs : List StackId) (body : Script Unit)
    {arguments : List (StackId × Value)} {answer : Option (StackId × Value)}
    (member : ofVectorVerb α verb (arguments.map Prod.fst) outputs (fun _ => body) ∈ vectorsOf α)
    (named : verb ∈ searchVerbs) (taken : ∀ entry ∈ arguments, entry.1 ∈ vectorStacks α)
    (given : ∀ entry ∈ answer, entry.1 ∈ vectorStacks α)
    (answers : ∀ config : Config, (∀ id ∈ vectorStacks α, config.Has id) →
      body.Answers (config.holding arguments) config answer) :
    library.Answers caps (vectorName α verb) arguments answer := by
  have hregistered : ∀ id ∈ .exec :: vectorStacks α, library.registry.contains id = true :=
    offers.registered (by cases kind <;> decide)
  exact answers_of_script (vectorStacks α) (get?_vectorSearch kind offers member named) hregistered
    taken given (.refl _) answers

variable (items : List α) (x y : α)

omit kind offers in
theorem itemArguments_mem : ∀ entry ∈ itemArguments items x, entry.1 ∈ vectorStacks α := by
  simp [itemArguments, vectorStacks]

omit kind offers in
theorem itemsArguments_mem : ∀ entry ∈ itemsArguments items x y, entry.1 ∈ vectorStacks α := by
  simp [itemsArguments, itemArguments, vectorStacks]

/-- **The places are counted**: the answer is how many `findIdxs` there are. -/
theorem answers_countItem :
    library.Answers caps (vectorName α "occurrences_of") (itemArguments items x)
      (answerCount (items.findIdxs (· == x)).length) := by
  refine answers_vectorSearch kind offers [.int] (countItem α)
    (by simp [vectorsOf, itemArguments]) (by decide) (itemArguments_mem items x)
    (fst_mem_of_mem_ite (by simp [vectorStacks])) fun config has => answers_popItem kind has ?_
  rw [List.length_findIdxs]
  exact answers_pushNat (has .int (by simp [vectorStacks])) _

/-- **The item is looked for**: the answer is whether `findIdxs` has a place. -/
theorem answers_testItem :
    library.Answers caps (vectorName α "contains") (itemArguments items x)
      (some (.bool, .bool (decide (0 < (items.findIdxs (· == x)).length)))) := by
  refine answers_vectorSearch kind offers [.bool] (testItem α)
    (by simp [vectorsOf, itemArguments]) (by decide) (itemArguments_mem items x)
    (by simp [vectorStacks]) fun config has => answers_popItem kind has ?_
  have hany : items.any (· == x) = decide (0 < (items.findIdxs (· == x)).length) := by
    rw [Bool.eq_iff_iff, decide_eq_true_iff, List.length_findIdxs, List.countP_pos_iff,
      List.any_eq_true]
  rw [hany]
  exact Script.does_push_topped (has .bool (by simp [vectorStacks])) _

/-- **The first place is found**: the answer is the first of `findIdxs`. -/
theorem answers_findItem :
    library.Answers caps (vectorName α "index_of") (itemArguments items x)
      (answerPosition (items.findIdxs (· == x)).head?) := by
  refine answers_vectorSearch kind offers [.int] (findItem α)
    (by simp [vectorsOf, itemArguments]) (by decide) (itemArguments_mem items x)
    (answerPosition_mem (by simp [vectorStacks]) _) fun config has => answers_popItem kind has ?_
  rw [findIdx?_eq_head?_findIdxs]
  exact answers_pushPosition (has .int (by simp [vectorStacks])) _

/-- **Removing** keeps the items that are not equal to `x`. -/
theorem answers_removeItems :
    library.Answers caps (vectorName α "remove") (itemArguments items x)
      (some (Item.vector α, Item.toVector (items.filter (· != x)))) :=
  answers_vectorSearch kind offers [Item.vector α] (removeItems α)
    (by simp [vectorsOf, itemArguments]) (by decide) (itemArguments_mem items x)
    (by simp [vectorStacks]) fun _ has => answers_popItem kind has (answers_pushVector has _)

/-- **Replacing** puts `y` at all places. -/
theorem answers_replaceItems :
    library.Answers caps (vectorName α "replace") (itemsArguments items x y)
      (some (Item.vector α,
        Item.toVector (items.map fun item => if item == x then y else item))) :=
  answers_vectorSearch kind offers [Item.vector α] (replaceItems α)
    (by simp [vectorsOf, itemsArguments, itemArguments]) (by decide) (itemsArguments_mem items x y)
    (by simp [vectorStacks]) fun _ has => answers_popItems kind has (answers_pushVector has _)

/-- **Replacing the first** puts `y` at the first place. -/
theorem answers_replaceFirstItem :
    library.Answers caps (vectorName α "replace_first") (itemsArguments items x y)
      (some (Item.vector α, Item.toVector (replaceFirst x y items))) :=
  answers_vectorSearch kind offers [Item.vector α] (replaceFirstItem α)
    (by simp [vectorsOf, itemsArguments, itemArguments]) (by decide) (itemsArguments_mem items x y)
    (by simp [vectorStacks]) fun _ has => answers_popItems kind has (answers_pushVector has _)

end Searches

/-! ## Agreement -/

/-- **An item is found** by its `places`. -/
structure FindsItem (library : Library) (caps : SizeCaps) (items : List α) (x : α)
    (places : List Nat) : Prop where
  /-- The places are counted. -/
  count : library.Answers caps (vectorName α "occurrences_of") (itemArguments items x)
    (answerCount places.length)
  /-- The item is there iff the count is positive: `0 < places.length`. -/
  contains : library.Answers caps (vectorName α "contains") (itemArguments items x)
    (some (.bool, .bool (decide (0 < places.length))))
  /-- Its position is the first place. -/
  index : library.Answers caps (vectorName α "index_of") (itemArguments items x)
    (answerPosition places.head?)
  /-- The position is not `-1` iff the count is positive. -/
  index_ne_iff : answerPosition places.head? ≠ some (.int, .int (-1)) ↔ 0 < places.length

/-- **An item is removed** from its `places`, and the `others` are kept. -/
structure RemovesItem (library : Library) (caps : SizeCaps) (items : List α) (x : α)
    (places others : List Nat) (removed : List α) : Prop where
  /-- The vector that is left. -/
  answers : library.Answers caps (vectorName α "remove") (itemArguments items x)
    (some (Item.vector α, Item.toVector removed))
  /-- It is a part of the vector, in the same order. -/
  sublist : removed.Sublist items
  /-- As many items are gone as there were places. -/
  length_eq : removed.length = items.length - places.length
  /-- No item is equal to `x`, which was removed. -/
  beq_eq_false : ∀ item ∈ removed, (item == x) = false
  /-- What is left are the items at the other places. -/
  kept : removed.map some = others.map (items[·]?)

/-- **An item is replaced** at its first place or at all of its `places`. -/
structure ReplacesItem (library : Library) (caps : SizeCaps) (items : List α) (x y : α)
    (places : List Nat) (replaced : List α) : Prop where
  /-- The vector with all places changed. -/
  all : library.Answers caps (vectorName α "replace") (itemsArguments items x y)
    (some (Item.vector α, Item.toVector replaced))
  /-- Its length. -/
  length_all : replaced.length = items.length
  /-- All places are changed, and nothing else. -/
  getElem?_all : ∀ i : Nat, replaced[i]? = if i ∈ places then some y else items[i]?
  /-- The vector with the first place changed, and so for every vector. -/
  first : ∀ other : List α,
    library.Answers caps (vectorName α "replace_first") (itemsArguments other x y)
      (some (Item.vector α, Item.toVector (replaceFirst x y other)))
  /-- Its length. -/
  length_first : (replaceFirst x y items).length = items.length
  /-- The first place is changed, and nothing else. -/
  getElem?_first : ∀ i : Nat,
    (replaceFirst x y items)[i]? = if places.head? = some i then some y else items[i]?
  /-- Changing the first place `places.length` times changes all of them. -/
  iterate : (y == x) = false → (replaceFirst x y)^[places.length] items = replaced

/-- A position that is found is not `-1`. -/
theorem answerPosition_ne_iff (places : List Nat) :
    answerPosition places.head? ≠ some (.int, .int (-1)) ↔ 0 < places.length := by
  cases places with
  | nil => exact iff_of_false (fun hne => hne rfl) (Nat.lt_irrefl 0)
  | cons place rest =>
    refine iff_of_true (fun heq => ?_) (Nat.succ_pos _)
    obtain ⟨hfits, hvalue⟩ := Option.ite_none_right_eq_some.mp heq
    have hnumber : Int64.ofNat place = -1 := by simpa using hvalue
    have hint := congrArg Int64.toInt hnumber
    rw [Int64.toInt_ofNat_of_lt hfits] at hint
    have hminus : (-1 : Int64).toInt = -1 := rfl
    omega

section Agreement

variable {library : Library} (kind : ItemType α)
  (offers : library.Offers (.exec :: vectorStacks α) (searchVerbs.map (vectorName α)))
  (caps : SizeCaps) (items : List α) (x y : α)
include kind offers

theorem findsItem : library.FindsItem caps items x (items.findIdxs (· == x)) where
  count := answers_countItem kind offers items x
  contains := answers_testItem kind offers items x
  index := answers_findItem kind offers items x
  index_ne_iff := answerPosition_ne_iff _

theorem removesItem :
    library.RemovesItem caps items x (items.findIdxs (· == x)) (items.findIdxs (· != x))
      (items.filter (· != x)) where
  answers := answers_removeItems kind offers items x
  sublist := List.filter_sublist
  length_eq := by
    have hlength := List.length_eq_countP_add_countP (l := items) (· == x)
    rw [List.length_findIdxs, ← List.countP_eq_length_filter]
    simp only [Bool.not_eq_true, Bool.decide_eq_false] at hlength
    exact Nat.eq_sub_of_add_eq' hlength.symm
  beq_eq_false := by
    intro item hitem
    exact (Bool.not_eq_true' _).mp (List.mem_filter.mp hitem).2
  kept := map_some_filter _ items

theorem replacesItem :
    library.ReplacesItem caps items x y (items.findIdxs (· == x))
      (items.map fun item => if item == x then y else item) where
  all := answers_replaceItems kind offers items x y
  length_all := List.length_map _
  getElem?_all := getElem?_replaceAll x y items
  first := fun other => answers_replaceFirstItem kind offers other x y
  length_first := length_replaceFirst x y items
  getElem?_first := getElem?_replaceFirst x y items
  iterate := fun differ => iterate_replaceFirst differ items

end Agreement

/-- **Searching and changing vectors agree** on the places of an item, for every type of items and
whatever its test of equality is. The places are counted, and the item is there iff the count is
positive, iff its position, which is the first place, is not `-1`. Removing leaves the items at the
other places in their order. Replacing changes all places or the first one and nothing else, and the
one is the other repeated, if the new item is not equal to the old one. -/
theorem vector_search_agrees (α : Type) [BEq α] [Item α] (kind : ItemType α) (library : Library)
    (offers : library.Offers (.exec :: vectorStacks α) (searchVerbs.map (vectorName α)))
    (caps : SizeCaps) (items : List α) (x y : α) :
    ∃ (places others : List Nat) (removed replaced : List α),
      Places items (· == x) places ∧ Places items (· != x) others ∧
      library.FindsItem caps items x places ∧
      library.RemovesItem caps items x places others removed ∧
      library.ReplacesItem caps items x y places replaced :=
  ⟨_, _, _, _, places_findIdxs items _, places_findIdxs items _,
    findsItem kind offers caps items x, removesItem kind offers caps items x,
    replacesItem kind offers caps items x y⟩

/-- Three of five integers are replaced, by an integer that is there already. -/
theorem vector_search_agrees_integers :
    ItemType Int64 ∧
      core.Offers (.exec :: vectorStacks Int64) (searchVerbs.map (vectorName Int64)) ∧
      core.Gives {} "vector_int_occurrences_of"
        [(.vectorInt, .ints [1, 3, 2, 3, 3]), (.int, .int 3)] .int (.int 3) ∧
      core.Gives {} "vector_int_index_of" [(.vectorInt, .ints [1, 3, 2, 3, 3]), (.int, .int 3)]
        .int (.int 1) ∧
      core.Gives {} "vector_int_remove" [(.vectorInt, .ints [1, 3, 2, 3, 3]), (.int, .int 3)]
        .vectorInt (.ints [1, 2]) ∧
      core.Gives {} "vector_int_replace"
        [(.vectorInt, .ints [1, 3, 2, 3, 3]), (.int, .int 3), (.int, .int 2)]
        .vectorInt (.ints [1, 2, 2, 2, 2]) := by
  have offers := offers_core (.exec :: vectorStacks Int64) (searchVerbs.map (vectorName Int64))
  obtain ⟨places, others, removed, replaced, hplaces, hothers, hfinds, hremoves, hreplaces⟩ :=
    vector_search_agrees Int64 .int core offers {} [1, 3, 2, 3, 3] 3 2
  obtain rfl := hplaces.unique (places_findIdxs _ _)
  obtain rfl := hothers.unique (places_findIdxs _ _)
  have hremoved : removed = [1, 2] :=
    List.map_injective_iff.mpr (Option.some_injective _) (hremoves.kept.trans (by decide))
  have hreplaced : replaced = [1, 2, 2, 2, 2] := (hreplaces.iterate rfl).symm.trans (by decide)
  subst hremoved hreplaced
  exact ⟨.int, offers, hfinds.count, hfinds.index, hremoves.answers, hreplaces.all⟩

end Library

end PushMachine
