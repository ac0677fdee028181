import Mathlib.Data.List.Nodup
import PushMachine.Proofs.References

/-! # The names of a type's instructions

Every registered type brings its shuffling instructions and a printing instruction along. Their
names are put together from the name of the type, and a set keeps one instruction for each name, the
last one. So a type can lose an instruction: to the instruction that prints a line break, or to a
type with a later stack that spells one of its own names alike.

`StackType.Shares` lists the spellings in which two types meet, and
`StackType.mem_names_and_mem_names_iff` shows that there are no others. The core set has some
instruction under every name of a type, and it is the type's own exactly if the type does not lose
the name (`InstructionSet.get?_core_ofType`). -/

namespace PushMachine

/-! ## The names that a type brings along -/

/-- The bytes of a name. Long lists of names are compared byte by byte, since letters have to be
decoded first. -/
def spelling (name : String) : List UInt8 := name.toByteArray.data.toList

/-- The bytes of two names one after the other: `spelling` distributes over `++`. -/
theorem spelling_append (a b : String) : spelling (a ++ b) = spelling a ++ spelling b := by
  simp [spelling]

namespace StackType

variable {type first second : StackType} {name : String}

/-- The verbs of a type. Only the items of a collection can be tested for being `"empty"`. -/
def verbs (type : StackType) : List String :=
  Instruction.shufflingVerbs.filter fun verb => verb != "empty" || type.isCollection

/-- The names of the instructions that a type brings along. -/
def names (type : StackType) : List String :=
  type.verbs.map (type.name ++ "_" ++ ·) ++ ["print_" ++ type.name]

/-- The names are `type.name ++ "_" ++ verb` for each verb, and `"print_" ++ type.name`. -/
theorem mem_names :
    name ∈ type.names ↔
      (∃ verb ∈ type.verbs, name = type.name ++ "_" ++ verb) ∨ name = "print_" ++ type.name := by
  simp only [names, List.mem_append, List.mem_map, List.mem_singleton, eq_comm]

/-- The verbs of a type are among `Instruction.shufflingVerbs`. -/
theorem mem_shufflingVerbs {verb : String} (h : verb ∈ type.verbs) :
    verb ∈ Instruction.shufflingVerbs :=
  List.mem_of_mem_filter h

/-- A name with a verb ends with `"_" ++ verb`. -/
theorem suffix_of_verb (type : StackType) (verb : String) :
    spelling ("_" ++ verb) <:+ spelling (type.name ++ "_" ++ verb) := by
  rw [String.append_assoc, spelling_append]
  exact List.suffix_append _ _

/-- Two names of one type with a verb have the same verb. -/
theorem verb_eq_of_name_eq {verb other : String}
    (h : type.name ++ "_" ++ verb = type.name ++ "_" ++ other) : verb = other :=
  (String.append_right_inj (type.name ++ "_")).mp h

/-- Printing, `"print_" ++ type.name`, is not spelled like one of the type's own verbs. -/
theorem printName_ne_verbName {verb : String} (h : verb ∈ Instruction.shufflingVerbs) :
    "print_" ++ type.name ≠ type.name ++ "_" ++ verb := by
  intro heq
  have hlists : "print_".toList ++ type.name.toList = type.name.toList ++ '_' :: verb.toList := by
    have := congrArg String.toList heq
    rw [String.toList_append, String.toList_append, String.toList_append, List.append_assoc] at this
    exact this
  -- The verb would have five letters, one of them an `r`.
  have hlength := congrArg List.length hlists
  have hcount := congrArg (List.count 'r') hlists
  simp only [List.length_append, List.length_cons, List.count_append] at hlength hcount
  have hnone : ∀ verb ∈ Instruction.shufflingVerbs,
      verb.toList.length = 5 → ('_' :: verb.toList).count 'r' ≠ 1 := by
    decide +kernel
  refine hnone verb h ?_ ?_
  · have : "print_".toList.length = 6 := by decide
    omega
  · have : "print_".toList.count 'r' = 1 := by decide
    omega

/-- The names of a type are distinct. -/
theorem nodup_names (type : StackType) : type.names.Nodup := by
  rw [names, List.nodup_append]
  refine ⟨?_, List.nodup_singleton _, ?_⟩
  · have hverbs : Instruction.shufflingVerbs.Nodup := by decide +kernel
    exact List.Nodup.map (fun _ _ => verb_eq_of_name_eq) (hverbs.filter _)
  · intro spelled hspelled printed hprinted
    obtain ⟨verb, hverb, rfl⟩ := List.mem_map.mp hspelled
    rw [List.mem_singleton.mp hprinted]
    exact (printName_ne_verbName (mem_shufflingVerbs hverb)).symm

/-! ## Names that two types spell alike -/

/-- The verbs that are put together from a stem and another verb, as `(stem, verb)`. -/
def compoundVerbs : List (String × String) := [("yank", "dup"), ("shove", "dup"), ("is", "empty")]

/-- **A name that two types share**: a compound verb of `first` is a verb of `second`, whose name
ends with the stem; or a verb of `first` spells how `second` is printed. -/
inductive Shares (first second : StackType) : String → Prop where
  /-- The second type is named like the first one and a stem: `first.name ++ "_" ++ stem`. -/
  | compound {stem verb : String} (mem : (stem, verb) ∈ compoundVerbs)
      (named : second.name = first.name ++ "_" ++ stem) (offered : verb ∈ second.verbs) :
    Shares first second (second.name ++ "_" ++ verb)
  /-- The first type is named like a print. -/
  | printed {verb : String} (offered : verb ∈ first.verbs)
      (spelled : first.name ++ "_" ++ verb = "print_" ++ second.name) :
    Shares first second ("print_" ++ second.name)

/-- A verb that ends another one is the same or makes it one of the `compoundVerbs`. -/
theorem compound_of_suffix : ∀ verb ∈ Instruction.shufflingVerbs,
    ∀ longer ∈ Instruction.shufflingVerbs, spelling ("_" ++ verb) <:+ spelling ("_" ++ longer) →
      verb = longer ∨
        ∃ compound ∈ compoundVerbs, compound.2 = verb ∧ longer = compound.1 ++ "_" ++ verb := by
  decide +kernel

/-- A compound is a verb of every type. -/
theorem compound_mem_verbs {stem verb : String} (h : (stem, verb) ∈ compoundVerbs)
    (type : StackType) : stem ++ "_" ++ verb ∈ type.verbs := by
  have hall : ∀ compound ∈ compoundVerbs,
      compound.1 ++ "_" ++ compound.2 ∈ Instruction.shufflingVerbs ∧
        compound.1 ++ "_" ++ compound.2 ≠ "empty" := by
    decide +kernel
  obtain ⟨hmem, hne⟩ := hall _ h
  refine List.mem_filter.mpr ⟨hmem, ?_⟩
  rw [Bool.or_eq_true]
  exact .inl (bne_iff_ne.mpr hne)

/-- Two types of different names that spell a verb alike share the name, if `verb` of the first ends
that of the second. -/
theorem shares_of_suffix (ne : first.name ≠ second.name) {verb longer : String}
    (hverb : verb ∈ first.verbs) (hlonger : longer ∈ second.verbs)
    (spelled : first.name ++ "_" ++ verb = second.name ++ "_" ++ longer)
    (suffix : spelling ("_" ++ verb) <:+ spelling ("_" ++ longer)) :
    second.Shares first (first.name ++ "_" ++ verb) := by
  rcases compound_of_suffix verb (mem_shufflingVerbs hverb) longer (mem_shufflingVerbs hlonger)
    suffix with rfl | ⟨⟨stem, verb⟩, hcompound, rfl, rfl⟩
  · rw [String.append_assoc, String.append_assoc] at spelled
    exact absurd ((String.append_left_inj _).mp spelled) ne
  · refine .compound hcompound ?_ hverb
    have hstem : first.name ++ ("_" ++ verb) = second.name ++ "_" ++ stem ++ ("_" ++ verb) := by
      simpa only [String.append_assoc] using spelled
    exact (String.append_left_inj _).mp hstem

/-- **There is no other name that two types share**: one in both `names` is one that they `Shares`.
-/
theorem mem_names_and_mem_names_iff (ne : first.name ≠ second.name) :
    name ∈ first.names ∧ name ∈ second.names ↔
      first.Shares second name ∨ second.Shares first name := by
  constructor
  · rintro ⟨hfirst, hsecond⟩
    rcases mem_names.mp hfirst with ⟨verb, hverb, rfl⟩ | rfl
    · rcases mem_names.mp hsecond with ⟨other, hother, hspelled⟩ | hspelled
      · -- The verb of one of them ends that of the other.
        have hsuffix := second.suffix_of_verb other
        rw [← hspelled] at hsuffix
        rcases List.suffix_or_suffix_of_suffix (first.suffix_of_verb verb) hsuffix with
          hends | hends
        · exact .inr (shares_of_suffix ne hverb hother hspelled hends)
        · rw [hspelled]
          exact .inl (shares_of_suffix ne.symm hother hverb hspelled.symm hends)
      · rw [hspelled]
        exact .inl (.printed hverb hspelled)
    · rcases mem_names.mp hsecond with ⟨other, hother, hspelled⟩ | hspelled
      · exact .inr (.printed hother hspelled.symm)
      · exact absurd ((String.append_right_inj _).mp hspelled) ne
  -- Sharing a name is not symmetric, but both types have it either way.
  · have hboth {one other : StackType} (h : one.Shares other name) :
        name ∈ one.names ∧ name ∈ other.names := by
      cases h with
      | @compound stem verb mem named offered =>
        refine ⟨mem_names.mpr (.inl ⟨_, compound_mem_verbs mem one, ?_⟩),
          mem_names.mpr (.inl ⟨verb, offered, rfl⟩)⟩
        rw [named]
        simp only [String.append_assoc]
      | printed offered spelled =>
        exact ⟨mem_names.mpr (.inl ⟨_, offered, spelled.symm⟩), mem_names.mpr (.inr rfl)⟩
    rintro (h | h)
    · exact hboth h
    · exact (hboth h).symm

end StackType

/-! ## The instructions of these names -/

namespace Instruction

variable {id : StackId} {type : StackType} {instruction other : Instruction} {name : String}

/-- **The instructions that a type brings along**: `shuffling`, and `printing` for its stack. -/
def ofType (id : StackId) (type : StackType) : List Instruction :=
  shuffling id type ++ [printing id type.name]

/-- There is one shuffling instruction for each of `type.verbs`. -/
theorem map_name_shuffling (id : StackId) (type : StackType) :
    (shuffling id type).map Instruction.name = type.verbs.map (type.name ++ "_" ++ ·) := by
  cases hcollection : type.isCollection <;>
    simp [shuffling, ofVerb, StackType.verbs, shufflingVerbs, hcollection]

/-- They have `type.names`, in this order. -/
theorem map_name_ofType (id : StackId) (type : StackType) :
    (ofType id type).map Instruction.name = type.names := by
  rw [ofType, List.map_append, map_name_shuffling]
  rfl

/-- Their names are names of the type. -/
theorem name_mem_names (h : instruction ∈ ofType id type) : instruction.name ∈ type.names := by
  rw [← map_name_ofType id type]
  exact List.mem_map_of_mem h

/-- A name in `type.names` has an instruction among them. -/
theorem exists_ofType_of_name (id : StackId) (h : name ∈ type.names) :
    ∃ instruction ∈ ofType id type, instruction.name = name := by
  rw [← map_name_ofType id type] at h
  exact List.mem_map.mp h

/-- A name of the type has one instruction only. -/
theorem eq_of_mem_ofType (h : instruction ∈ ofType id type) (hother : other ∈ ofType id type)
    (hname : instruction.name = other.name) : instruction = other := by
  have hnodup := type.nodup_names
  rw [← map_name_ofType id type] at hnodup
  exact List.inj_on_of_nodup_map hnodup h hother hname

/-- Beside their own stack they declare `.int` and `.bool` only. -/
theorem touched_of_mem_ofType (h : instruction ∈ ofType id type) :
    ∀ stack ∈ instruction.touched, stack = id ∨ stack = .int ∨ stack = .bool := by
  revert instruction
  cases hcollection : type.isCollection <;>
    simp [ofType, shuffling, ofVerb, printing, touched, hcollection]

/-- One that takes a single item, `inputs = [stack]`, takes it from its own stack. -/
theorem eq_of_inputs_eq (h : instruction ∈ ofType id type) {stack : StackId}
    (inputs : instruction.inputs = [stack]) : id = stack := by
  revert instruction
  cases hcollection : type.isCollection <;>
    simp [ofType, shuffling, ofVerb, printing, hcollection]

/-- Printing is one of them. -/
theorem printing_mem_ofType (id : StackId) (type : StackType) :
    printing id type.name ∈ ofType id type :=
  List.mem_append_right _ (List.mem_singleton_self _)

/-- Printing takes a single item from the own stack: `inputs = [id]`. -/
theorem inputs_of_printName (h : instruction ∈ ofType id type)
    (hname : instruction.name = "print_" ++ type.name) : instruction.inputs = [id] := by
  rw [eq_of_mem_ofType h (printing_mem_ofType id type) hname]
  rfl

/-- The second of two types that `Shares` a name has an instruction of the name that takes a single
item from its own stack. -/
theorem inputs_of_shares {first : StackType} (shares : first.Shares type name)
    (h : instruction ∈ ofType id type) (hname : instruction.name = name) :
    instruction.inputs = [id] := by
  cases shares with
  | @compound stem verb mem named offered =>
    -- Copying an item and testing it for being empty take just this item.
    have hmember : ∃ member ∈ ofType id type,
        member.name = type.name ++ "_" ++ verb ∧ member.inputs = [id] := by
      simp only [StackType.compoundVerbs, List.mem_cons, Prod.mk.injEq, List.not_mem_nil,
        or_false] at mem
      rcases mem with ⟨-, rfl⟩ | ⟨-, rfl⟩ | ⟨-, rfl⟩
      · simp [ofType, shuffling, ofVerb]
      · simp [ofType, shuffling, ofVerb]
      · have hcollection : type.isCollection = true := by
          simpa [StackType.verbs] using (List.mem_filter.mp offered).2
        simp [ofType, shuffling, ofVerb, hcollection]
    obtain ⟨member, hmem, hspelled, hinputs⟩ := hmember
    rw [eq_of_mem_ofType h hmem (hname.trans hspelled.symm), hinputs]
  | printed offered spelled => exact inputs_of_printName h hname

/-- No `fixed` instruction is called like a shuffling instruction, and `printNewline` is the only
one that is called like a printing instruction. -/
theorem fixed_names : ∀ instruction ∈ fixed,
    (∀ verb ∈ shufflingVerbs, ¬spelling ("_" ++ verb) <:+ spelling instruction.name) ∧
      (spelling "print_" <+: spelling instruction.name →
        instruction.name = "print_newline" ∧ instruction.touched = []) := by
  decide +kernel

/-- Only `"print_newline"` is a name of a type and of a `fixed` instruction. -/
theorem printNewline_of_mem_names (h : instruction ∈ fixed)
    (hname : instruction.name ∈ type.names) :
    instruction.name = "print_" ++ type.name ∧ instruction.name = "print_newline" ∧
      instruction.touched = [] := by
  obtain ⟨hverb, hprint⟩ := fixed_names instruction h
  rcases StackType.mem_names.mp hname with ⟨verb, hmem, hspelled⟩ | hspelled
  · refine absurd ?_ (hverb verb (StackType.mem_shufflingVerbs hmem))
    rw [hspelled]
    exact type.suffix_of_verb verb
  · refine ⟨hspelled, hprint ?_⟩
    rw [hspelled, spelling_append]
    exact List.prefix_append _ _

end Instruction

/-! ## Who has a name -/

/-- **A type loses a name** to `printNewline`, or to a type with a later stack that shares it. -/
def Registry.Loses (registry : Registry) (id : StackId) (type : StackType) (name : String) : Prop :=
  name = "print_newline" ∨
    ∃ later other, id.index < later.index ∧ registry.get? later = some other ∧
      (type.Shares other name ∨ other.Shares type name)

namespace InstructionSet

open Instruction (ofType fixed)

variable {registry : Registry} {id : StackId} {type : StackType} {instruction : Instruction}

/-- The instructions for a registry are `ofType` of its types, in order, and the `fixed` ones. -/
theorem instructionsFor_eq (registry : Registry) :
    instructionsFor registry =
      registry.types.flatMap (fun entry => ofType entry.1 entry.2) ++ fixed := by
  simp only [instructionsFor, fixed, ofType, List.append_assoc]

/-- **A fixed instruction whose name is its own** among the fixed ones is found under it, whatever
the types bring along. -/
theorem get?_core_fixed (h : instruction ∈ fixed)
    (own : (fixed.map Instruction.name).count instruction.name = 1)
    (registered : instruction.touched.all registry.contains = true) :
    (core registry).get? instruction.name = some instruction := by
  refine get?_core ?_ registered
  obtain ⟨before, after, hfixed⟩ := List.append_of_mem h
  -- The lookup starts from the end, and no instruction of the name follows.
  have hafter : after.reverse.find? (·.name == instruction.name) = none := by
    rw [List.find?_eq_none]
    intro other hother heq
    have hcount : 0 < (after.map Instruction.name).count instruction.name :=
      List.count_pos_iff.mpr (List.mem_map.mpr ⟨other, List.mem_reverse.mp hother, eq_of_beq heq⟩)
    rw [hfixed, List.map_append, List.map_cons, List.count_append, List.count_cons_self] at own
    omega
  rw [instructionsFor_eq, hfixed]
  simp [hafter]

/-- **What follows on the instructions of a type**: `ofType` of types with later stacks, and the
`fixed` ones. -/
def Follows (registry : Registry) (id : StackId) (instruction : Instruction) : Prop :=
  (∃ later type, id.index < later.index ∧ registry.get? later = some type ∧
    instruction ∈ ofType later type) ∨ instruction ∈ fixed

/-- After an instruction of a type stand others of the type, none of them of its name, and what
`Follows` on the type. -/
theorem instructionsFor_split (registered : registry.get? id = some type)
    (h : instruction ∈ ofType id type) :
    ∃ before after, instructionsFor registry = before ++ instruction :: after ∧
      ∀ other, other.name = instruction.name → (other ∈ after ↔ Follows registry id other) := by
  -- The list is cut at the type, and the instructions of the type at the instruction.
  obtain ⟨sooner, later, htypes⟩ := List.append_of_mem (Registry.mem_types.mpr registered)
  obtain ⟨own, rest, hown⟩ := List.append_of_mem h
  have hpairwise := registry.pairwise_types
  rw [htypes, List.pairwise_append, List.pairwise_cons] at hpairwise
  obtain ⟨-, ⟨hlater, -⟩, hsooner⟩ := hpairwise
  refine ⟨sooner.flatMap (fun entry => ofType entry.1 entry.2) ++ own,
    rest ++ (later.flatMap (fun entry => ofType entry.1 entry.2) ++ fixed), ?_, ?_⟩
  · rw [instructionsFor_eq, htypes, List.flatMap_append, List.flatMap_cons]
    simp only [hown, List.append_assoc, List.cons_append]
  intro other hname
  have hrest : other ∉ rest := by
    intro hmem
    have hnodup := type.nodup_names
    rw [← Instruction.map_name_ofType id type, hown, List.map_append, List.map_cons] at hnodup
    have hnot := (List.nodup_cons.mp (List.nodup_append.mp hnodup).2.1).1
    exact hnot (hname ▸ List.mem_map_of_mem hmem)
  rw [List.mem_append, or_iff_right hrest, List.mem_append, List.mem_flatMap]
  refine or_congr_left ⟨?_, ?_⟩
  · rintro ⟨⟨stack, found⟩, hmem, hother⟩
    refine ⟨stack, found, hlater _ hmem, Registry.mem_types.mp ?_, hother⟩
    rw [htypes]
    exact List.mem_append_right _ (List.mem_cons_of_mem _ hmem)
  · rintro ⟨stack, found, hlt, hfound, hother⟩
    refine ⟨(stack, found), ?_, hother⟩
    have hmem := Registry.mem_types.mpr hfound
    rw [htypes, List.mem_append, List.mem_cons] at hmem
    rcases hmem with hmem | heq | hmem
    · exact absurd (hsooner _ hmem _ List.mem_cons_self) (Nat.lt_asymm hlt)
    · rw [(Prod.mk.inj heq).1] at hlt
      exact absurd hlt (Nat.lt_irrefl _)
    · exact hmem

/-- The instructions of `ofType id type` are on registered stacks, where there are `.int` and
`.bool`. -/
theorem touched_registered (hint : registry.contains .int = true)
    (hbool : registry.contains .bool = true) (registered : registry.get? id = some type)
    (h : instruction ∈ ofType id type) : instruction.touched.all registry.contains = true := by
  rw [List.all_eq_true]
  intro stack hstack
  rcases Instruction.touched_of_mem_ofType h stack hstack with rfl | rfl | rfl
  · rw [Registry.contains, registered, Option.isSome_some]
  · exact hint
  · exact hbool

/-- A later type has one of the names exactly if it `Shares` it. -/
theorem name_mem_names_iff_shares (agrees : registry.Agrees)
    (registered : registry.get? id = some type) (h : instruction ∈ ofType id type)
    {later : StackId} {found : StackType} (hlt : id.index < later.index)
    (hfound : registry.get? later = some found) :
    instruction.name ∈ found.names ↔
      type.Shares found instruction.name ∨ found.Shares type instruction.name := by
  have hne : type.name ≠ found.name := by
    intro hname
    rw [agrees.eq_of_name_eq registered hfound hname] at hlt
    exact Nat.lt_irrefl _ hlt
  rw [← StackType.mem_names_and_mem_names_iff hne, and_iff_right (Instruction.name_mem_names h)]

/-- A type `Loses` a name only if some instruction of the name follows. -/
theorem exists_follows_of_loses (agrees : registry.Agrees)
    (registered : registry.get? id = some type) (h : instruction ∈ ofType id type)
    (loses : registry.Loses id type instruction.name) :
    ∃ other, other.name = instruction.name ∧ Follows registry id other := by
  rcases loses with hname | ⟨later, found, hlt, hfound, hmeet⟩
  · exact ⟨Instruction.printNewline, hname.symm, .inr (by simp [fixed])⟩
  · have hmem := (name_mem_names_iff_shares agrees registered h hlt hfound).mpr hmeet
    obtain ⟨other, hother, hname⟩ := Instruction.exists_ofType_of_name later hmem
    exact ⟨other, hname, .inl ⟨later, found, hlt, hfound, hother⟩⟩

/-- **An instruction that takes a name over** is another one and on registered stacks. -/
theorem loses_of_follows (agrees : registry.Agrees) (hint : registry.contains .int = true)
    (hbool : registry.contains .bool = true) (registered : registry.get? id = some type)
    (h : instruction ∈ ofType id type) {other : Instruction}
    (hname : other.name = instruction.name) (follows : Follows registry id other) :
    registry.Loses id type instruction.name ∧ other ≠ instruction ∧
      other.touched.all registry.contains = true := by
  rcases follows with ⟨later, found, hlt, hfound, hother⟩ | hother
  · have hmeet := (name_mem_names_iff_shares agrees registered h hlt hfound).mp
      (hname ▸ Instruction.name_mem_names hother)
    refine ⟨.inr ⟨later, found, hlt, hfound, hmeet⟩, ?_,
      touched_registered hint hbool hfound hother⟩
    -- The same instruction would take a single item from two stacks.
    rintro rfl
    have hsame : id = later := by
      rcases hmeet with hmeet | hmeet
      · exact Instruction.eq_of_inputs_eq h (Instruction.inputs_of_shares hmeet hother rfl)
      · exact (Instruction.eq_of_inputs_eq hother (Instruction.inputs_of_shares hmeet h rfl)).symm
    rw [hsame] at hlt
    exact Nat.lt_irrefl _ hlt
  · obtain ⟨hprint, hnewline, htouched⟩ := Instruction.printNewline_of_mem_names hother
      (hname ▸ Instruction.name_mem_names h)
    refine ⟨.inl (hname ▸ hnewline), ?_, ?_⟩
    · rintro rfl
      rw [Instruction.touched, Instruction.inputs_of_printName h hprint] at htouched
      cases htouched
    · rw [htouched]
      rfl

/-- **A type has an instruction or loses its name** to another one: what `get?` finds in the core
set. -/
theorem get?_core_ofType (agrees : registry.Agrees) (hint : registry.contains .int = true)
    (hbool : registry.contains .bool = true) (registered : registry.get? id = some type)
    (h : instruction ∈ ofType id type) :
    (core registry).contains instruction.name = true ∧
      ((core registry).get? instruction.name = some instruction ↔
        ¬registry.Loses id type instruction.name) := by
  obtain ⟨before, after, hsplit, hafter⟩ := instructionsFor_split registered h
  -- The lookup starts from the end, so what follows goes first.
  have hlookup : ((instructionsFor registry).reverse.find? (·.name == instruction.name)) =
      (after.reverse.find? (·.name == instruction.name)).or (some instruction) := by
    simp [hsplit]
  cases hlast : after.reverse.find? (·.name == instruction.name) with
  | none =>
    rw [hlast, Option.none_or] at hlookup
    have hfound := get?_core hlookup (touched_registered hint hbool registered h)
    rw [contains, hfound]
    refine ⟨rfl, iff_of_true rfl fun loses => ?_⟩
    obtain ⟨other, hname, follows⟩ := exists_follows_of_loses agrees registered h loses
    have hnone : ∀ other ∈ after, other.name ≠ instruction.name := by
      simpa using hlast
    exact hnone other ((hafter other hname).mpr follows) hname
  | some winner =>
    rw [hlast, Option.some_or] at hlookup
    have hname : winner.name = instruction.name := by
      simpa using List.find?_some hlast
    have hmem : winner ∈ after := List.mem_reverse.mp (List.mem_of_find?_eq_some hlast)
    obtain ⟨loses, hne, htouched⟩ := loses_of_follows agrees hint hbool registered h hname
      ((hafter winner hname).mp hmem)
    rw [contains, get?_core hlookup htouched]
    exact ⟨rfl, iff_of_false (fun heq => hne (Option.some.inj heq)) (not_not_intro loses)⟩

/-- **Every registered type has its own instructions**, except for the names that it `Loses`. On a
registry that evolved from the core one and still has integers and booleans, the core set has an
instruction for each verb of a type and for printing, and it is the one on the type's own stack
exactly if the type does not lose the name. -/
theorem core_get?_own_iff (registry : Registry) (history : Registry.core.Evolves registry)
    (hint : registry.contains .int = true) (hbool : registry.contains .bool = true)
    (id : StackId) (type : StackType) (registered : registry.get? id = some type) :
    (∀ verb ∈ type.verbs, ∃ instruction ∈ Instruction.shuffling id type,
      instruction.name = type.name ++ "_" ++ verb ∧
        (core registry).contains (type.name ++ "_" ++ verb) = true ∧
        ((core registry).get? (type.name ++ "_" ++ verb) = some instruction ↔
          ¬registry.Loses id type (type.name ++ "_" ++ verb))) ∧
      (core registry).contains ("print_" ++ type.name) = true ∧
      ((core registry).get? ("print_" ++ type.name) =
          some (Instruction.printing id type.name) ↔
        ¬registry.Loses id type ("print_" ++ type.name)) := by
  have agrees := history.keepsCore.agrees
  constructor
  · intro verb hverb
    have hmem : type.name ++ "_" ++ verb ∈
        (Instruction.shuffling id type).map Instruction.name := by
      rw [Instruction.map_name_shuffling]
      exact List.mem_map_of_mem hverb
    obtain ⟨instruction, hinstruction, hname⟩ := List.mem_map.mp hmem
    refine ⟨instruction, hinstruction, hname, ?_⟩
    rw [← hname]
    exact get?_core_ofType agrees hint hbool registered (List.mem_append_left _ hinstruction)
  · have hprinting := get?_core_ofType agrees hint hbool registered
      (Instruction.printing_mem_ofType id type)
    exact hprinting

/-! Two types that the registry takes on show the losses: one is called like a line break, the other
like a verb for integers. -/

/-- The core registry with these two types. -/
def crowdedRegistry : Registry :=
  ⟨Registry.core.slots ++ [some (.named "newline"), some (.named "int_yank")],
    ("int_yank", ⟨13⟩) :: ("newline", ⟨12⟩) :: Registry.core.entries⟩

/-- Both types are taken on. -/
theorem evolves_crowdedRegistry : Registry.core.Evolves crowdedRegistry := by
  have first : Registry.core.register (.named "newline") = .ok (⟨12⟩,
    ⟨Registry.core.slots ++ [some (.named "newline")],
      ("newline", ⟨12⟩) :: Registry.core.entries⟩) := rfl
  have second : Registry.register ⟨Registry.core.slots ++ [some (.named "newline")],
      ("newline", ⟨12⟩) :: Registry.core.entries⟩ (.named "int_yank") =
    .ok (⟨13⟩, crowdedRegistry) := rfl
  exact (Registry.Evolves.start.register first).register second

/-- The newer type has the copy of its top item under the name by which integers are copied from a
position, and the integers have lost it. -/
theorem core_get?_own_iff_crowded :
    Registry.core.Evolves crowdedRegistry ∧
      (∃ type, crowdedRegistry.get? .int = some type ∧
        ∃ instruction ∈ Instruction.shuffling .int type, instruction.name = "int_yank_dup" ∧
          (core crowdedRegistry).get? "int_yank_dup" ≠ some instruction) ∧
      ∃ instruction ∈ Instruction.shuffling ⟨13⟩ (.named "int_yank"),
        instruction.name = "int_yank_dup" ∧
          (core crowdedRegistry).get? "int_yank_dup" = some instruction := by
  refine ⟨evolves_crowdedRegistry, ⟨_, rfl, ?_⟩, ?_⟩
  · obtain ⟨hverbs, -⟩ :=
      core_get?_own_iff crowdedRegistry evolves_crowdedRegistry rfl rfl .int _ rfl
    obtain ⟨instruction, hmem, hname, -, hown⟩ := hverbs "yank_dup" (by decide +kernel)
    refine ⟨instruction, hmem, hname, fun hfound => hown.mp hfound ?_⟩
    -- Copying from a position is a compound of a stem and plain copying.
    have hcompound : ("yank", "dup") ∈ StackType.compoundVerbs := by decide
    exact .inr ⟨⟨13⟩, .named "int_yank", by decide, rfl,
      .inl (.compound hcompound rfl (by decide +kernel))⟩
  · obtain ⟨hverbs, -⟩ := core_get?_own_iff crowdedRegistry evolves_crowdedRegistry rfl rfl ⟨13⟩
      (.named "int_yank") rfl
    obtain ⟨instruction, hmem, hname, -, hown⟩ := hverbs "dup" (by decide +kernel)
    refine ⟨instruction, hmem, hname, hown.mpr ?_⟩
    -- The newer type has the last slot, so that no later one can take its name.
    rintro (hnewline | ⟨later, other, hlt, hfound, -⟩)
    · exact absurd hnewline (by decide)
    · have hlast : later.index < 14 := Registry.lt_of_get? hfound
      exact absurd hlt (Nat.not_lt.mpr (Nat.le_of_lt_succ hlast))

/-- **A registered type need not have its own instruction**: the name by which one type is printed
prints a line break and leaves the item where it is. -/
theorem core_get?_newline :
    ∃ registry id type, Registry.core.Evolves registry ∧ registry.contains .int = true ∧
      registry.contains .bool = true ∧ registry.get? id = some type ∧
      (core registry).get? ("print_" ++ type.name) = some Instruction.printNewline ∧
      Instruction.printNewline ≠ Instruction.printing id type.name := by
  refine ⟨crowdedRegistry, ⟨12⟩, .named "newline", evolves_crowdedRegistry, rfl, rfl, rfl,
    get?_core rfl rfl, fun heq => ?_⟩
  exact absurd (congrArg Instruction.inputs heq) (by decide)

end InstructionSet

end PushMachine
