import Mathlib.Data.String.Basic
import PushMachine.Instruction.Strings
import PushMachine.Proofs.Closure

/-! # Instructions on strings and vectors

The instructions on collections obey every closed discipline: what they push is within the limit, or
it is made of the items of a collection that is not shorter. The main statements are
`strings_obeys` and `vectors_obeys`. -/

namespace PushMachine

/-! ## Pieces of a text -/

namespace Text

/-- A character in front of the first piece (`consPiece`) makes it longer by one. -/
theorem length_le_of_mem_consPiece {c : Char} {pieces : List (List Char)} {bound : Nat}
    (h : ∀ piece ∈ pieces, piece.length ≤ bound) :
    ∀ piece ∈ consPiece c pieces, piece.length ≤ bound + 1 := by
  intro piece hpiece
  cases pieces with
  | nil =>
    rw [consPiece, List.mem_singleton] at hpiece
    rw [hpiece]
    exact Nat.succ_le_succ (Nat.zero_le bound)
  | cons first rest =>
    rw [consPiece] at hpiece
    rcases List.mem_cons.mp hpiece with rfl | hrest
    · exact Nat.succ_le_succ (h first List.mem_cons_self)
    · exact Nat.le_succ_of_le (h piece (List.mem_cons_of_mem first hrest))

/-- No piece of `piecesFrom` is longer than the text. -/
theorem length_le_of_mem_piecesFrom (pattern : List Char) (skip : Nat) (text : List Char) :
    ∀ piece ∈ piecesFrom pattern skip text, piece.length ≤ text.length := by
  -- The cases: the end of the text, inside a match, at the start of a match, and outside.
  fun_induction piecesFrom pattern skip text with
  | case1 skip => exact fun piece hpiece => by rw [List.mem_singleton.mp hpiece]
  | case2 skip c rest ih => exact fun piece hpiece => Nat.le_succ_of_le (ih piece hpiece)
  | case3 c rest hmatch ih =>
    refine List.forall_mem_cons.mpr ⟨Nat.zero_le _, fun piece hpiece => ?_⟩
    exact Nat.le_succ_of_le (ih piece hpiece)
  | case4 c rest hmatch ih => exact length_le_of_mem_consPiece ih

/-- No part that `split` makes of a text is longer than the text. -/
theorem length_le_of_mem_split {separator text piece : List Char}
    (h : piece ∈ split separator text) : piece.length ≤ text.length :=
  length_le_of_mem_piecesFrom separator 0 text piece (List.mem_of_mem_filter h)

/-- No word of `wordsFrom run text` is longer than `run` and the text together. -/
theorem length_le_of_mem_wordsFrom (run text : List Char) :
    ∀ word ∈ wordsFrom run text, word.length ≤ run.length + text.length := by
  -- The cases: the end of the text, a blank, and a character that continues the run.
  fun_induction wordsFrom run text with
  | case1 => exact List.forall_mem_nil _
  | case2 run hrun => exact List.forall_mem_singleton.mpr (Nat.le_refl _)
  | case3 c rest hblank ih =>
    intro word hword
    have := ih word hword
    simp only [List.length_nil, List.length_cons] at this ⊢
    omega
  | case4 run c rest hblank hrun ih =>
    refine List.forall_mem_cons.mpr ⟨Nat.le_add_right _ _, fun word hword => ?_⟩
    have := ih word hword
    simp only [List.length_nil, List.length_cons] at this ⊢
    omega
  | case5 run c rest hblank ih =>
    intro word hword
    have := ih word hword
    simp only [List.length_append, List.length_cons, List.length_nil] at this ⊢
    omega

/-- No word is longer than the text. -/
theorem length_le_of_mem_words {text word : List Char} (h : word ∈ words text) :
    word.length ≤ text.length := by
  have := length_le_of_mem_wordsFrom [] text word h
  rwa [List.length_nil, Nat.zero_add] at this

end Text

namespace Instruction

open Script

variable {discipline : Discipline} {caps : SizeCaps}

/-! ## Strings -/

/-- Taking the characters of a string (`popText`) gives those of a sound one. -/
theorem popText_obeys (closed : discipline.Closed caps) (str : discipline.declared .str)
    {post : List Char → Prop}
    (h : ∀ text, discipline.sound (.str (String.ofList text)) → post text) :
    popText.Obeys discipline post := by
  refine .bind (closed.popStr str fun s hs => ?_)
  rw [← String.ofList_toList (s := s)] at hs
  exact h s.toList hs

/-- Pushing a string by `pushTextWithin` obeys, whatever the string. -/
theorem pushTextWithin_obeys (closed : discipline.Closed caps) (str : discipline.declared .str)
    {post : Unit → Prop} {text : List Char} (h : post ()) :
    (pushTextWithin caps text).Obeys discipline post := by
  rw [pushTextWithin]
  split
  next => exact revert_obeys
  next hcap =>
    refine closed.pushItem (α := String) str (closed.str _ ?_) h
    rw [String.length_ofList]
    exact Nat.le_of_not_lt hcap

/-- Pushing pieces of a sound string by `pushTextsWithin` obeys. -/
theorem pushTextsWithin_obeys (closed : discipline.Closed caps)
    (strs : discipline.declared .vectorStr) {post : Unit → Prop} {text : List Char}
    {pieces : List (List Char)} (sound : discipline.sound (.str (String.ofList text)))
    (hpieces : ∀ piece ∈ pieces, piece.length ≤ text.length) (h : post ()) :
    (pushTextsWithin caps pieces).Obeys discipline post := by
  rw [pushTextsWithin]
  split
  next => exact revert_obeys
  next hcap =>
    refine closed.pushVector (α := String) strs (closed.strs.capped _ ?_ ?_) h
    · refine List.forall_mem_map.mpr fun piece hpiece => closed.piece _ _ sound ?_
      rw [String.length_ofList, String.length_ofList]
      exact hpieces piece hpiece
    · rw [List.length_map]
      exact Nat.le_of_not_lt hcap

/-- Taking a pattern. -/
theorem Needle.pop_obeys (closed : discipline.Closed caps) {pattern : Needle}
    (declared : discipline.declared pattern.stack) {post : List Char → Prop}
    (h : ∀ text, post text) : pattern.pop.Obeys discipline post := by
  cases pattern with
  | str => exact popText_obeys closed declared fun text _ => h text
  | char => exact .bind (closed.popChar declared fun c => h [c])

/-- Taking the number of a match obeys, if the `choice.inputs` are declared. -/
theorem Choice.popNumber_obeys (closed : discipline.Closed caps) {choice : Choice}
    (declared : ∀ id ∈ choice.inputs, discipline.declared id) {post : Int64 → Prop}
    (h : ∀ n, post n) : choice.popNumber.Obeys discipline post := by
  cases choice with
  | first => exact h 0
  | nth => exact closed.popInt (declared .int List.mem_cons_self) h
  | all => exact h 0

/-- **Replacing and removing** (`replacing`) obey a closed discipline. -/
theorem replacing_obeys (closed : discipline.Closed caps) (pattern : Needle) (choice : Choice) :
    ∀ instruction ∈ replacing pattern choice, instruction.Obeys discipline caps := by
  simp only [replacing, List.forall_mem_cons, List.forall_mem_append, List.not_mem_nil, obeys_mk,
    false_implies, implies_true, and_true, and_imp]
  -- Replacing, and then removing, which takes no new text.
  constructor
  · intro str needle _ number _
    refine .bind (Choice.popNumber_obeys closed number fun n => ?_)
    refine .bind (Needle.pop_obeys closed needle fun new => ?_)
    refine .bind (Needle.pop_obeys closed needle fun old => ?_)
    refine .bind (popText_obeys closed str fun text _ => ?_)
    exact ofOption_bind_obeys fun result _ => pushTextWithin_obeys closed str trivial
  · intro str needle number _
    refine .bind (Choice.popNumber_obeys closed number fun n => ?_)
    refine .bind (Needle.pop_obeys closed needle fun old => ?_)
    refine .bind (popText_obeys closed str fun text _ => ?_)
    exact ofOption_bind_obeys fun result _ => pushTextWithin_obeys closed str trivial

/-- Pushing a position. -/
theorem pushPosition_obeys (closed : discipline.Closed caps) (int : discipline.declared .int)
    {post : Unit → Prop} (place : Option Nat) (h : post ()) :
    (pushPosition place).Obeys discipline post := by
  cases place with
  | none => exact closed.pushInt int h
  | some place => exact closed.pushNat int h

/-- Splitting a string obeys a closed discipline. -/
theorem splitText_keeps (closed : discipline.Closed caps) {pattern : Needle}
    (str : discipline.declared .str) (needle : discipline.declared pattern.stack)
    (strs : discipline.declared .vectorStr) : (splitText pattern caps).Keeps discipline := by
  refine .bind (Needle.pop_obeys closed needle fun separator => ?_)
  refine .bind (popText_obeys closed str fun text sound => ?_)
  split
  · exact revert_obeys
  · exact pushTextsWithin_obeys closed strs sound
      (fun piece hpiece => Text.length_le_of_mem_split hpiece) trivial

/-- **Searching** (`searching`) obeys a closed discipline. -/
theorem searching_obeys (closed : discipline.Closed caps) (pattern : Needle) :
    ∀ instruction ∈ searching pattern, instruction.Obeys discipline caps := by
  rw [searching, List.forall_mem_append, List.forall_mem_append, List.forall_mem_append]
  refine ⟨⟨⟨replacing_obeys closed pattern .first, replacing_obeys closed pattern .nth⟩,
    replacing_obeys closed pattern .all⟩, ?_⟩
  -- What is left counts the matches, tests for one, finds the first, and splits.
  simp only [List.forall_mem_cons, List.not_mem_nil, obeys_mk, false_implies, implies_true,
    and_true, and_imp]
  refine ⟨fun str needle int => ?_, fun str needle bool => ?_, fun str needle int => ?_,
    fun str needle strs => splitText_keeps closed str needle strs⟩
  · refine .bind (Needle.pop_obeys closed needle fun sought => ?_)
    exact .bind (popText_obeys closed str fun text _ => closed.pushNat int trivial)
  · refine .bind (Needle.pop_obeys closed needle fun sought => ?_)
    exact .bind (popText_obeys closed str fun text _ => closed.pushBool bool trivial)
  · refine .bind (Needle.pop_obeys closed needle fun sought => ?_)
    exact .bind (popText_obeys closed str fun text _ => pushPosition_obeys closed int _ trivial)

/-- Changing a string by any `f` obeys, for the result is pushed within the limit. -/
theorem strChange_obeys (closed : discipline.Closed caps) (verb : String)
    (f : List Char → List Char) : (strChange verb f).Obeys discipline caps := by
  intro declared
  have str := declared .str (by simp [touched, strChange])
  exact .bind (popText_obeys closed str fun text _ => pushTextWithin_obeys closed str trivial)

/-- Changing a string by an integer. -/
theorem strChangeBy_obeys (closed : discipline.Closed caps) (verb : String)
    (f : Nat → List Char → List Char) : (strChangeBy verb f).Obeys discipline caps := by
  intro declared
  have str := declared .str (by simp [touched, strChangeBy])
  have int := declared .int (by simp [touched, strChangeBy])
  refine .bind (closed.popInt int fun n => ?_)
  exact .bind (popText_obeys closed str fun text _ => pushTextWithin_obeys closed str trivial)

/-- Testing a character. -/
theorem charTest_obeys (closed : discipline.Closed caps) (verb : String) (f : Char → Bool) :
    (charTest verb f).Obeys discipline caps := by
  intro declared
  have char := declared .char (by simp [touched, charTest])
  have bool := declared .bool (by simp [touched, charTest])
  exact .bind (closed.popChar char fun c => closed.pushBool bool trivial)

/-- Joining two strings. -/
theorem concatText_keeps (closed : discipline.Closed caps) (str : discipline.declared .str) :
    (concatText caps).Keeps discipline := by
  refine .bind (popText_obeys closed str fun b _ => .bind (popText_obeys closed str fun a _ => ?_))
  exact pushTextWithin_obeys closed str trivial

/-- Inserting a string. -/
theorem insertText_keeps (closed : discipline.Closed caps) (str : discipline.declared .str)
    (int : discipline.declared .int) : (insertText caps).Keeps discipline := by
  refine .bind (closed.popInt int fun n => .bind (popText_obeys closed str fun inserted _ => ?_))
  exact .bind (popText_obeys closed str fun text _ => pushTextWithin_obeys closed str trivial)

/-- Inserting a character. -/
theorem insertChar_keeps (closed : discipline.Closed caps) (str : discipline.declared .str)
    (char : discipline.declared .char) (int : discipline.declared .int) :
    (insertChar caps).Keeps discipline := by
  refine .bind (closed.popInt int fun n => .bind (closed.popChar char fun c => ?_))
  exact .bind (popText_obeys closed str fun text _ => pushTextWithin_obeys closed str trivial)

/-- Reading one character of a string by any `f`. -/
theorem pickChar_keeps (closed : discipline.Closed caps) (f : List Char → Option Char)
    (str : discipline.declared .str) (char : discipline.declared .char) :
    (pickChar f).Keeps discipline :=
  .bind (popText_obeys closed str fun _ _ =>
    ofOption_bind_obeys fun _ _ => closed.pushChar char trivial)

/-- Reading a character. -/
theorem nthChar_keeps (closed : discipline.Closed caps) (str : discipline.declared .str)
    (int : discipline.declared .int) (char : discipline.declared .char) :
    nthChar.Keeps discipline := by
  refine .bind (closed.popInt int fun n => .bind (popText_obeys closed str fun text _ => ?_))
  refine ofOption_bind_obeys fun place _ => ?_
  exact ofOption_bind_obeys fun c _ => closed.pushChar char trivial

/-- Cutting a string into words. -/
theorem splitWords_keeps (closed : discipline.Closed caps) (str : discipline.declared .str)
    (strs : discipline.declared .vectorStr) : (splitWords caps).Keeps discipline :=
  .bind (popText_obeys closed str fun _ sound =>
    pushTextsWithin_obeys closed strs sound (fun _ => Text.length_le_of_mem_words) trivial)

/-- **The instructions on strings and characters** (`strings`) obey a closed discipline. -/
theorem strings_obeys (closed : discipline.Closed caps) :
    ∀ instruction ∈ strings, instruction.Obeys discipline caps := by
  rw [strings, List.forall_mem_append, List.forall_mem_append, List.forall_mem_append]
  simp only [List.forall_mem_cons, List.not_mem_nil, strChange_obeys closed,
    strChangeBy_obeys closed, charTest_obeys closed, obeys_mk, false_implies, implies_true,
    and_true, and_imp]
  refine ⟨⟨⟨?_, searching_obeys closed .str⟩, searching_obeys closed .char⟩, ?_⟩
  · exact ⟨fun str _ _ => concatText_keeps closed str,
      fun str _ int _ => insertText_keeps closed str int,
      fun str char int _ => insertChar_keeps closed str char int,
      pickChar_keeps closed _, pickChar_keeps closed _, nthChar_keeps closed,
      fun str int => .bind (popText_obeys closed str fun _ _ => closed.pushNat int trivial)⟩
  · -- Conversions take one value and push another.
    have toStr {text : List Char} (str : discipline.declared .str) :
        (pushTextWithin caps text).Keeps discipline := pushTextWithin_obeys closed str trivial
    exact ⟨splitWords_keeps closed,
      fun int str => .bind (closed.popInt int fun _ => toStr str),
      fun bool str => .bind (closed.popBool bool fun _ => toStr str),
      fun char str => .bind (closed.popChar char fun _ => toStr str),
      fun float str => .bind (closed.popFloat float fun _ => toStr str),
      fun int char => .bind (closed.popInt int fun _ => closed.pushChar char trivial),
      fun float char => .bind (closed.popFloat float fun _ => closed.pushChar char trivial),
      fun bool char => .bind (closed.popBool bool fun _ => closed.pushChar char trivial),
      fun char int => .bind (closed.popChar char fun _ => closed.pushInt int trivial),
      fun str int => .bind (popText_obeys closed str fun _ _ =>
        ofOption_bind_obeys fun _ _ => closed.pushInt int trivial),
      fun char float => .bind (closed.popChar char fun _ => closed.pushFloat float trivial),
      fun str float => .bind (popText_obeys closed str fun _ _ =>
        ofOption_bind_obeys fun _ _ => closed.pushFloat float trivial)⟩

/-! ## Vectors -/

/-- The items of `replaceFirst old new items` are the new item and old ones. -/
theorem mem_replaceFirst {α : Type} [BEq α] {old new x : α} {items : List α}
    (h : x ∈ replaceFirst old new items) : x = new ∨ x ∈ items := by
  induction items with
  | nil => exact .inr h
  | cons item rest ih =>
    rw [replaceFirst] at h
    split at h
    · exact (List.mem_cons.mp h).imp_right (List.mem_cons_of_mem item)
    · rcases List.mem_cons.mp h with rfl | hrest
      · exact .inr List.mem_cons_self
      · exact (ih hrest).imp_right (List.mem_cons_of_mem item)

/-- Replacing the first match (`replaceFirst`) keeps the length. -/
theorem length_replaceFirst {α : Type} [BEq α] (old new : α) (items : List α) :
    (replaceFirst old new items).length = items.length := by
  induction items with
  | nil => rfl
  | cons item rest ih =>
    rw [replaceFirst]
    split
    · rfl
    · rw [List.length_cons, ih, List.length_cons]

section Vectors

variable {α : Type} [BEq α] [Item α]

/-- Some of a sound vector's items, `new ⊆ items` and no more of them, make a sound vector. -/
theorem sound_of_subset (vectors : discipline.ClosedItems caps α) {items new : List α}
    (sound : discipline.sound (Item.toVector items)) (hsubset : new ⊆ items)
    (hlength : new.length ≤ items.length) : discipline.sound (Item.toVector new) :=
  vectors.shorter items new sound (fun x hx => vectors.item items sound x (hsubset hx)) hlength

variable [LawfulItem α]

/-- Pushing a vector of sound items by `pushVectorWithin` obeys. -/
theorem pushVectorWithin_obeys (closed : discipline.Closed caps)
    (vectors : discipline.ClosedItems caps α) (vector : discipline.declared (Item.vector α))
    {post : Unit → Prop} {items : List α}
    (sound : ∀ x ∈ items, discipline.sound (Item.toValue x)) (h : post ()) :
    (pushVectorWithin caps items).Obeys discipline post := by
  rw [pushVectorWithin]
  split
  next => exact revert_obeys
  next hcap =>
    exact closed.pushVector vector (vectors.capped items sound (Nat.le_of_not_lt hcap)) h

/-- Joining two vectors. -/
theorem concatVectors_keeps (closed : discipline.Closed caps)
    (vectors : discipline.ClosedItems caps α) (vector : discipline.declared (Item.vector α)) :
    (concatVectors α caps).Keeps discipline := by
  refine .bind (closed.popVector vector fun b hb => .bind (closed.popVector vector fun a ha => ?_))
  refine pushVectorWithin_obeys closed vectors vector (List.forall_mem_append.mpr ?_) trivial
  exact ⟨vectors.item a ha, vectors.item b hb⟩

/-- Appending an item. -/
theorem appendItem_keeps (closed : discipline.Closed caps)
    (vectors : discipline.ClosedItems caps α) (vector : discipline.declared (Item.vector α))
    (item : discipline.declared (Item.stack α)) : (appendItem α caps).Keeps discipline := by
  refine .bind (closed.popItem (closed.declared_present item) fun x hx => ?_)
  refine .bind (closed.popVector vector fun items hitems => ?_)
  refine pushVectorWithin_obeys closed vectors vector (List.forall_mem_append.mpr ?_) trivial
  exact ⟨vectors.item items hitems, List.forall_mem_singleton.mpr hx⟩

/-- Keeping the first items. -/
theorem takeItems_keeps (closed : discipline.Closed caps)
    (vectors : discipline.ClosedItems caps α) (vector : discipline.declared (Item.vector α))
    (int : discipline.declared .int) : (takeItems α).Keeps discipline := by
  refine .bind (closed.popInt int fun n => .bind (closed.popVector vector fun items hitems => ?_))
  refine closed.pushVector vector (sound_of_subset vectors hitems ?_ ?_) trivial
  · exact List.take_subset _ items
  · exact List.length_take_le' _ items

/-- Cutting a part out. -/
theorem sliceVector_keeps (closed : discipline.Closed caps)
    (vectors : discipline.ClosedItems caps α) (vector : discipline.declared (Item.vector α))
    (int : discipline.declared .int) : (sliceVector α).Keeps discipline := by
  refine .bind (closed.popInt int fun stop => .bind (closed.popInt int fun start => ?_))
  refine .bind (closed.popVector vector fun items hitems => ?_)
  have hslice (a b : Nat) : (sliceBetween a b items).Sublist items :=
    (List.drop_sublist _ _).trans (List.take_sublist _ _)
  refine closed.pushVector vector (sound_of_subset vectors hitems ?_ ?_) trivial
  · exact (hslice _ _).subset
  · exact (hslice _ _).length_le

/-- Reading one item of a vector by an `f` that picks one of its items. -/
theorem pickItem_keeps (closed : discipline.Closed caps)
    (vectors : discipline.ClosedItems caps α) {f : List α → Option α}
    (hf : ∀ items x, f items = some x → x ∈ items) (vector : discipline.declared (Item.vector α))
    (item : discipline.declared (Item.stack α)) : (pickItem α f).Keeps discipline := by
  refine .bind (closed.popVector vector fun items hitems => ?_)
  refine ofOption_bind_obeys fun x hx => closed.pushItem item ?_ trivial
  exact vectors.item items hitems x (hf items x hx)

/-- Reading an item. -/
theorem nthItem_keeps (closed : discipline.Closed caps)
    (vectors : discipline.ClosedItems caps α) (vector : discipline.declared (Item.vector α))
    (int : discipline.declared .int) (item : discipline.declared (Item.stack α)) :
    (nthItem α).Keeps discipline := by
  refine .bind (closed.popInt int fun n => .bind (closed.popVector vector fun items hitems => ?_))
  refine ofOption_bind_obeys fun place _ => ofOption_bind_obeys fun x hx => ?_
  exact closed.pushItem item (vectors.item items hitems x (List.mem_of_getElem? hx)) trivial

/-- Dropping or reordering items by an `f` that adds none. -/
theorem changeVector_keeps (closed : discipline.Closed caps)
    (vectors : discipline.ClosedItems caps α) (vector : discipline.declared (Item.vector α))
    {f : List α → List α} (hf : ∀ items, f items ⊆ items ∧ (f items).length ≤ items.length) :
    (changeVector α f).Keeps discipline := by
  refine .bind (closed.popVector vector fun items hitems => ?_)
  exact closed.pushVector vector (sound_of_subset vectors hitems (hf items).1 (hf items).2) trivial

/-- Pushing every item. -/
theorem spreadItems_keeps (closed : discipline.Closed caps)
    (vectors : discipline.ClosedItems caps α) (vector : discipline.declared (Item.vector α))
    (item : discipline.declared (Item.stack α)) : (spreadItems α).Keeps discipline := by
  have present := closed.declared_present item
  refine .bind (closed.popVector vector fun items hitems => pushAll_obeys present ?_ trivial)
  refine List.forall_mem_map.mpr fun x hx => closed.allows_item present ?_
  exact vectors.item items hitems x (List.mem_reverse.mp hx)

/-- Finding an item. -/
theorem findItem_keeps (closed : discipline.Closed caps)
    (vector : discipline.declared (Item.vector α)) (item : discipline.declared (Item.stack α))
    (int : discipline.declared .int) : (findItem α).Keeps discipline := by
  refine .bind (closed.popItem (closed.declared_present item) fun x _ => ?_)
  refine .bind (closed.popVector vector fun items _ => ?_)
  cases items.findIdx? (· == x) with
  | some place => exact closed.pushNat int trivial
  | none => exact closed.pushInt int trivial

/-- Replacing the item at a position. -/
theorem setItem_keeps (closed : discipline.Closed caps)
    (vectors : discipline.ClosedItems caps α) (vector : discipline.declared (Item.vector α))
    (item : discipline.declared (Item.stack α)) (int : discipline.declared .int) :
    (setItem α).Keeps discipline := by
  refine .bind (closed.popInt int fun n => ?_)
  refine .bind (closed.popItem (closed.declared_present item) fun x hx => ?_)
  refine .bind (closed.popVector vector fun items hitems => ?_)
  refine ofOption_bind_obeys fun place _ => closed.pushVector vector ?_ trivial
  refine vectors.shorter items _ hitems (fun y hy => ?_) (Nat.le_of_eq List.length_set)
  rcases List.mem_or_eq_of_mem_set hy with hold | rfl
  · exact vectors.item items hitems y hold
  · exact hx

/-- Replacing an item wherever it occurs (`replaceItems`) keeps the length and the soundness. -/
theorem replaceItems_keeps (closed : discipline.Closed caps)
    (vectors : discipline.ClosedItems caps α) (vector : discipline.declared (Item.vector α))
    (item : discipline.declared (Item.stack α)) : (replaceItems α).Keeps discipline := by
  refine .bind (closed.popItem (closed.declared_present item) fun new hnew => ?_)
  refine .bind (closed.popItem (closed.declared_present item) fun old _ => ?_)
  refine .bind (closed.popVector vector fun items hitems => closed.pushVector vector ?_ trivial)
  refine vectors.shorter items _ hitems (List.forall_mem_map.mpr fun x hx => ?_)
    (Nat.le_of_eq (List.length_map _))
  split
  · exact hnew
  · exact vectors.item items hitems x hx

/-- Replacing an item where it occurs first (`replaceFirst`) does so, too. -/
theorem replaceFirstItem_keeps (closed : discipline.Closed caps)
    (vectors : discipline.ClosedItems caps α) (vector : discipline.declared (Item.vector α))
    (item : discipline.declared (Item.stack α)) : (replaceFirstItem α).Keeps discipline := by
  refine .bind (closed.popItem (closed.declared_present item) fun new hnew => ?_)
  refine .bind (closed.popItem (closed.declared_present item) fun old _ => ?_)
  refine .bind (closed.popVector vector fun items hitems => closed.pushVector vector ?_ trivial)
  refine vectors.shorter items _ hitems (fun x hx => ?_)
    (Nat.le_of_eq (length_replaceFirst old new items))
  rcases mem_replaceFirst hx with rfl | hold
  · exact hnew
  · exact vectors.item items hitems x hold

/-- Removing an item. -/
theorem removeItems_keeps (closed : discipline.Closed caps)
    (vectors : discipline.ClosedItems caps α) (vector : discipline.declared (Item.vector α))
    (item : discipline.declared (Item.stack α)) : (removeItems α).Keeps discipline := by
  refine .bind (closed.popItem (closed.declared_present item) fun x _ => ?_)
  refine .bind (closed.popVector vector fun items hitems => ?_)
  refine closed.pushVector vector (sound_of_subset vectors hitems ?_ ?_) trivial
  · exact List.filter_sublist.subset
  · exact List.length_filter_le _ items

/-- What `iterateVector` leaves to do behind its body: the other items, a reference to the loop, and
the body again. -/
def loopRest (rest : List α) (body : Atom) : Atom :=
  Atom.block [.expr (.literal (Item.toVector rest) (Item.vector α)),
    .expr (.deferred (iterateName α)), body]

/-- What a loop pushes in one turn, with `loopRest` behind the body. -/
def unrollVector (items : List α) (body : Atom) : Script Unit :=
  match items with
  | [] => return ()
  | first :: rest => do
    if !rest.isEmpty then pushAtom .exec (loopRest rest body)
    pushAtom .exec body
    pushItem first

omit [LawfulItem α] in
/-- One turn of a loop takes a vector and a body, and pushes: `iterateVector` in terms of
`unrollVector`. -/
theorem iterateVector_eq :
    iterateVector α =
      (popVector >>= fun items : List α => popAtom .exec >>= unrollVector items) := rfl

/-- What `unrollVector` pushes is sound, if the items, the body and what is left to do are. -/
theorem unrollVector_keeps (closed : discipline.Closed caps) (exec : discipline.declared .exec)
    (item : discipline.declared (Item.stack α)) {items : List α} {body : Atom}
    (hitems : ∀ x ∈ items, discipline.sound (Item.toValue x))
    (hbody : discipline.sound (.code body))
    (hrest : discipline.sound (.code (loopRest items.tail body))) :
    (unrollVector items body).Keeps discipline := by
  cases items with
  | nil => trivial
  | cons first rest =>
    have hfirst := hitems first List.mem_cons_self
    have finish : (do pushAtom .exec body; pushItem first : Script Unit).Keeps discipline :=
      .bind (closed.pushAtom (.inl rfl) exec hbody (closed.pushItem item hfirst trivial))
    cases rest with
    | nil => exact finish
    | cons second others => exact .bind (closed.pushAtom (.inl rfl) exec hrest finish)

/-- One turn of a loop over a vector, under a discipline that is `Unrolled`. -/
theorem iterateVector_keeps (unrolled : discipline.Unrolled caps)
    (vectors : discipline.ClosedItems caps α)
    (hself : (iterateName α, [Item.vector α, .exec, Item.stack α]) ∈ selfReferences)
    (vector : discipline.declared (Item.vector α)) (exec : discipline.declared .exec)
    (item : discipline.declared (Item.stack α)) : (iterateVector α).Keeps discipline := by
  have closed := unrolled.toClosed
  have present := closed.declared_present vector
  have hdeferred := closed.deferred _ hself (by simp [vector, exec, item])
  rw [iterateVector_eq]
  refine .bind (closed.popVector vector fun items hitems => ?_)
  refine .bind (closed.popAtom (.inl rfl) exec fun body hbody => ?_)
  have hothers := sound_of_subset vectors hitems (List.tail_sublist items).subset
    (List.tail_sublist items).length_le
  have hliteral := closed.literal present (closed.allows_vector present hothers)
  exact unrollVector_keeps closed exec item (vectors.item items hitems) hbody
    (unrolled.turn hliteral hdeferred hbody)

/-- The loop over the vectors of a type of items, the last of `vectorsOf α`. -/
def vectorLoop (α : Type) [BEq α] [Item α] : Instruction where
  name := iterateName α
  inputs := [Item.vector α, .exec]
  outputs := [Item.stack α, .exec]
  groups := 1
  body := fun _ => iterateVector α

/-- The loops over vectors. -/
def vectorLoops : List Instruction :=
  [vectorLoop Bool, vectorLoop Int64, vectorLoop Float, vectorLoop Char, vectorLoop String]

/-- The loop obeys a closed discipline that such loops keep (`Unrolled`). -/
theorem vectorLoop_obeys (unrolled : discipline.Unrolled caps)
    (vectors : discipline.ClosedItems caps α)
    (hself : (iterateName α, [Item.vector α, .exec, Item.stack α]) ∈ selfReferences) :
    (vectorLoop α).Obeys discipline caps := by
  simp only [vectorLoop, obeys_mk, List.forall_mem_cons, List.not_mem_nil, false_implies,
    implies_true, and_true, and_imp]
  exact fun vector exec item _ => iterateVector_keeps unrolled vectors hself vector exec item

/-- **The instructions on the vectors** of a type of items obey a closed discipline, except perhaps
those of `vectorLoops`. -/
theorem vectorsOf_obeys (closed : discipline.Closed caps)
    (vectors : discipline.ClosedItems caps α) (hloops : vectorLoop α ∈ vectorLoops) :
    ∀ instruction ∈ vectorsOf α,
      instruction ∈ vectorLoops ∨ instruction.Obeys discipline caps := by
  -- The loop comes last; all instructions before it keep to the discipline.
  have others : ∀ instruction ∈ (vectorsOf α).dropLast, instruction.Obeys discipline caps := by
    simp only [vectorsOf, ofVectorVerb, List.dropLast, List.forall_mem_cons, List.not_mem_nil,
      obeys_mk, false_implies, implies_true, forall_const, and_true, and_imp]
    exact ⟨fun vector _ _ => concatVectors_keeps closed vectors vector,
      fun vector item _ => appendItem_keeps closed vectors vector item,
      fun vector int _ => takeItems_keeps closed vectors vector int,
      fun vector int _ _ => sliceVector_keeps closed vectors vector int,
      pickItem_keeps closed vectors fun _ _ => List.mem_of_head?,
      pickItem_keeps closed vectors fun _ _ => List.mem_of_getLast?, nthItem_keeps closed vectors,
      fun vector _ => changeVector_keeps closed vectors vector fun items =>
        ⟨List.drop_subset 1 items, (List.drop_sublist 1 items).length_le⟩,
      fun vector _ => changeVector_keeps closed vectors vector fun items =>
        ⟨List.dropLast_subset items, (List.dropLast_sublist items).length_le⟩,
      fun vector _ => changeVector_keeps closed vectors vector fun items =>
        ⟨fun x hx => List.mem_reverse.mp hx, Nat.le_of_eq List.length_reverse⟩,
      fun vector int => .bind (closed.popVector vector fun _ _ => closed.pushNat int trivial),
      spreadItems_keeps closed vectors,
      fun vector => closed.pushVector vector
        (vectors.capped [] (List.forall_mem_nil _) (Nat.zero_le _)) trivial,
      fun vector item bool => .bind (closed.popItem (closed.declared_present item) fun _ _ =>
        .bind (closed.popVector vector fun _ _ => closed.pushBool bool trivial)),
      findItem_keeps closed,
      fun vector item int => .bind (closed.popItem (closed.declared_present item) fun _ _ =>
        .bind (closed.popVector vector fun _ _ => closed.pushNat int trivial)),
      fun vector item int _ => setItem_keeps closed vectors vector item int,
      fun vector item _ _ => replaceItems_keeps closed vectors vector item,
      fun vector item _ _ => replaceFirstItem_keeps closed vectors vector item,
      fun vector item _ => removeItems_keeps closed vectors vector item⟩
  intro instruction hmem
  have hlast : vectorsOf α = (vectorsOf α).dropLast ++ [vectorLoop α] := rfl
  rw [hlast] at hmem
  rcases List.mem_append.mp hmem with hother | hloop
  · exact .inr (others instruction hother)
  · exact .inl (List.mem_singleton.mp hloop ▸ hloops)

end Vectors

/-- The loops over vectors obey a closed discipline that such loops keep (`Unrolled`). -/
theorem vectorLoops_obeys (unrolled : discipline.Unrolled caps) :
    ∀ instruction ∈ vectorLoops, instruction.Obeys discipline caps := by
  simp only [vectorLoops, List.forall_mem_cons, List.not_mem_nil, false_implies, implies_true,
    and_true]
  exact ⟨vectorLoop_obeys unrolled unrolled.bools
      (by simp [selfReferences, Item.vector, Item.stack]),
    vectorLoop_obeys unrolled unrolled.ints (by simp [selfReferences, Item.vector, Item.stack]),
    vectorLoop_obeys unrolled unrolled.floats (by simp [selfReferences, Item.vector, Item.stack]),
    vectorLoop_obeys unrolled unrolled.chars (by simp [selfReferences, Item.vector, Item.stack]),
    vectorLoop_obeys unrolled unrolled.strs (by simp [selfReferences, Item.vector, Item.stack])⟩

/-- The instructions on all vectors obey a closed discipline, except perhaps those of `vectorLoops`.
-/
theorem vectors_obeys (closed : discipline.Closed caps) :
    ∀ instruction ∈ vectors,
      instruction ∈ vectorLoops ∨ instruction.Obeys discipline caps := by
  simp only [vectors, List.forall_mem_append]
  exact ⟨⟨⟨⟨vectorsOf_obeys closed closed.bools (by simp [vectorLoops]),
    vectorsOf_obeys closed closed.ints (by simp [vectorLoops])⟩,
    vectorsOf_obeys closed closed.floats (by simp [vectorLoops])⟩,
    vectorsOf_obeys closed closed.chars (by simp [vectorLoops])⟩,
    vectorsOf_obeys closed closed.strs (by simp [vectorLoops])⟩

end Instruction

end PushMachine
