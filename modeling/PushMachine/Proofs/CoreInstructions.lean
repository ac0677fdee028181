import PushMachine.Machine
import PushMachine.Proofs.CodeScripts
import PushMachine.Proofs.CollectionScripts
import PushMachine.Proofs.DataScripts
import PushMachine.Proofs.RegistryHistory

/-! # The core instructions

Every instruction of the core set of a registry obeys every closed discipline that lets instructions
declare the registered stacks (`InstructionSet.core_keeps_or`), the loops over vectors only if the
discipline is one that they keep (`InstructionSet.core_keeps`). A machine can be made of every part
of the core set (`Machine.ofLibrary_of_touched`). -/

namespace PushMachine

namespace InstructionSet

variable {set : InstructionSet} {registry : Registry} {instruction : Instruction}

/-! ## Members -/

/-- The members after `insert` are the new instruction and old ones. -/
theorem mem_of_mem_insert {new : Instruction}
    (h : instruction ∈ (set.insert new).instructions) :
    instruction = new ∨ instruction ∈ set.instructions :=
  (List.mem_cons.mp h).imp_right List.mem_of_mem_filter

/-- The members after many additions are old ones or added ones. -/
theorem mem_of_mem_foldl_insert {added : List Instruction}
    (h : instruction ∈ (added.foldl insert set).instructions) :
    instruction ∈ set.instructions ∨ instruction ∈ added := by
  induction added generalizing set with
  | nil => exact .inl h
  | cons new rest ih =>
    rcases ih h with hset | hrest
    · rcases mem_of_mem_insert hset with rfl | hold
      · exact .inr List.mem_cons_self
      · exact .inl hold
    · exact .inr (List.mem_cons_of_mem new hrest)

/-- The core set has instructions of `instructionsFor registry` only, and all on registered stacks.
-/
theorem mem_core (h : instruction ∈ (core registry).instructions) :
    instruction ∈ instructionsFor registry ∧
      ∀ id ∈ instruction.touched, registry.contains id = true := by
  obtain ⟨hmem, htouched⟩ := List.mem_filter.mp h
  refine ⟨?_, List.all_eq_true.mp htouched⟩
  exact (mem_of_mem_foldl_insert hmem).resolve_left List.not_mem_nil

/-- The members of `restrict` are those that declare (`touched`) stacks of the given names only. -/
theorem mem_restrict {names : List String} :
    instruction ∈ (set.restrict registry names).instructions ↔
      instruction ∈ set.instructions ∧
        ∀ id ∈ instruction.touched, id ∈ names.filterMap registry.find? := by
  simp only [restrict, filter, List.mem_filter, List.all_eq_true, List.contains_iff_mem]

/-- Restricting a set to some stacks leaves members only. -/
theorem mem_of_mem_restrict {names : List String}
    (h : instruction ∈ (set.restrict registry names).instructions) :
    instruction ∈ set.instructions :=
  (mem_restrict.mp h).1

/-! ## Looking an instruction up -/

/-- After an `insert` the new instruction has its name, and the other names are as before. -/
theorem get?_insert (set : InstructionSet) (new : Instruction) (name : String) :
    (set.insert new).get? name = if new.name = name then some new else set.get? name := by
  rw [get?, insert, List.find?_cons]
  by_cases hname : new.name = name
  · simp [hname]
  · have hbeq : (new.name == name) = false := beq_false_of_ne hname
    simp only [hbeq, if_neg hname, erase, List.find?_filter, get?]
    congr 1
    funext instruction
    by_cases hother : instruction.name = name
    · simp [hother, Ne.symm hname]
    · simp [hother]

/-- After many additions `get?` finds the last of the instructions that were added under a name. -/
theorem get?_foldl_insert (added : List Instruction) (set : InstructionSet) (name : String) :
    (added.foldl insert set).get? name =
      (added.reverse.find? fun instruction => instruction.name == name).or (set.get? name) := by
  induction added generalizing set with
  | nil => rfl
  | cons new rest ih =>
    rw [List.foldl_cons, ih, get?_insert, List.reverse_cons, List.find?_append, Option.or_assoc]
    congr 1
    by_cases hname : new.name = name
    · simp [hname]
    · simp [hname]

/-- A lookup in a `filter` of a set finds what the lookup in the set finds, if that is kept. -/
theorem get?_filter {name : String} {keep : Instruction → Bool}
    (found : set.get? name = some instruction) (kept : keep instruction = true) :
    (set.filter keep).get? name = some instruction := by
  rw [get?, List.find?_eq_some_iff_append] at found
  obtain ⟨hname, before, after, hlist, hbefore⟩ := found
  rw [get?, filter, hlist, List.filter_append, List.filter_cons, if_pos kept, List.find?_append,
    List.find?_cons, hname, List.find?_eq_none.mpr, Option.none_or]
  intro other hother
  simpa using hbefore other (List.mem_of_mem_filter hother)

/-- **A lookup in the core set** finds the last instruction of the name in `instructionsFor`, if its
stacks are registered. -/
theorem get?_core {name : String}
    (found : ((instructionsFor registry).reverse.find? fun other => other.name == name) =
      some instruction)
    (registered : instruction.touched.all registry.contains = true) :
    (core registry).get? name = some instruction := by
  have hlast : (ofList (instructionsFor registry)).get? name = some instruction := by
    rw [ofList, get?_foldl_insert, found, Option.some_or]
  exact get?_filter hlast registered

/-- **What holds of every family of instructions** holds of those for a registry,
`instructionsFor registry`. This is the one sweep over the families. -/
theorem forall_mem_instructionsFor {property : Instruction → Prop}
    (shuffling : ∀ id type, registry.get? id = some type →
      ∀ instruction ∈ Instruction.shuffling id type, property instruction)
    (printing : ∀ id type, registry.get? id = some type →
      property (Instruction.printing id type.name))
    (arithmetic : ∀ instruction ∈ Instruction.arithmetic, property instruction)
    (logic : ∀ instruction ∈ Instruction.logic, property instruction)
    (strings : ∀ instruction ∈ Instruction.strings, property instruction)
    (vectors : ∀ instruction ∈ Instruction.vectors, property instruction)
    (printNewline : property Instruction.printNewline)
    (codeEditing : ∀ instruction ∈ Instruction.codeEditing, property instruction)
    (control : ∀ instruction ∈ Instruction.control, property instruction) :
    ∀ instruction ∈ instructionsFor registry, property instruction := by
  simp only [instructionsFor, List.forall_mem_append, List.forall_mem_singleton]
  refine ⟨⟨⟨⟨⟨⟨⟨?_, arithmetic⟩, logic⟩, strings⟩, vectors⟩, printNewline⟩, codeEditing⟩, control⟩
  -- Only the first family depends on the registry.
  intro instruction hmem
  obtain ⟨⟨id, type⟩, htype, hinstruction⟩ := List.mem_flatMap.mp hmem
  rcases List.mem_append.mp hinstruction with hshuffling | hprinting
  · exact shuffling id type (Registry.mem_types.mp htype) instruction hshuffling
  · rw [List.mem_singleton.mp hprinting]
    exact printing id type (Registry.mem_types.mp htype)

/-! ## Obeying a discipline -/

variable {discipline : Discipline} {caps : SizeCaps}

/-- Every instruction for the types of a registry obeys a closed discipline, except perhaps the
`vectorLoops`. -/
theorem instructionsFor_obeys (closed : discipline.Closed caps)
    (present : ∀ id, registry.contains id = true → discipline.present id) :
    ∀ instruction ∈ instructionsFor registry,
      instruction ∈ Instruction.vectorLoops ∨ instruction.Obeys discipline caps := by
  have hid (id : StackId) (type : StackType) (htype : registry.get? id = some type) :
      discipline.present id := by
    refine present id ?_
    rw [Registry.contains, htype, Option.isSome_some]
  refine forall_mem_instructionsFor ?shuffling ?printing ?arithmetic ?logic ?strings
    (Instruction.vectors_obeys closed) (.inr Instruction.printNewline_obeys) ?codeEditing ?control
  case shuffling =>
    intro id type htype instruction hmem
    exact .inr (Instruction.shuffling_obeys closed (hid id type htype) type instruction hmem)
  case printing =>
    intro id type htype
    exact .inr (Instruction.printing_obeys (hid id type htype) type.name)
  case arithmetic => exact fun _ h => .inr (Instruction.arithmetic_obeys closed _ h)
  case logic => exact fun _ h => .inr (Instruction.logic_obeys closed _ h)
  case strings => exact fun _ h => .inr (Instruction.strings_obeys closed _ h)
  case codeEditing => exact fun _ h => .inr (Instruction.codeEditing_obeys closed _ h)
  case control => exact fun _ h => .inr (Instruction.control_obeys closed _ h)

/-- **The core instructions**, except perhaps the `vectorLoops`, keep every closed discipline that
lets them declare the registered stacks. -/
theorem core_keeps_or (closed : discipline.Closed caps)
    (declared : ∀ id, registry.contains id = true → discipline.declared id) :
    ∀ instruction ∈ (core registry).instructions,
      instruction ∈ Instruction.vectorLoops ∨ (instruction.body caps).Keeps discipline := by
  intro instruction hmem
  obtain ⟨hfor, htouched⟩ := mem_core hmem
  have hpresent (id : StackId) (hid : registry.contains id = true) : discipline.present id :=
    closed.declared_present (declared id hid)
  refine (instructionsFor_obeys closed hpresent instruction hfor).imp_right fun obeys => ?_
  exact obeys fun id hid => declared id (htouched id hid)

/-- **All core instructions obey** a closed discipline that loops over vectors keep (`Unrolled`), if
there is a stack for every type. -/
theorem core_obeys (unrolled : discipline.Unrolled caps)
    (present : ∀ id, registry.contains id = true → discipline.present id) :
    ∀ instruction ∈ (core registry).instructions, instruction.Obeys discipline caps := by
  intro instruction hmem
  rcases instructionsFor_obeys unrolled.toClosed present instruction (mem_core hmem).1 with
    hloop | hobeys
  · exact Instruction.vectorLoops_obeys unrolled instruction hloop
  · exact hobeys

/-- All core instructions keep an `Unrolled` discipline that lets them declare the registered
stacks. -/
theorem core_keeps (unrolled : discipline.Unrolled caps)
    (declared : ∀ id, registry.contains id = true → discipline.declared id) :
    ∀ instruction ∈ (core registry).instructions, (instruction.body caps).Keeps discipline := by
  intro instruction hmem
  have hpresent (id : StackId) (hid : registry.contains id = true) : discipline.present id :=
    unrolled.declared_present (declared id hid)
  refine core_obeys unrolled hpresent instruction hmem fun id hid => ?_
  exact declared id ((mem_core hmem).2 id hid)

end InstructionSet

/-- A machine can be made of instructions on registered stacks: `InstructionSet.check` finds
nothing. -/
theorem Machine.ofLibrary_of_touched {library : Library}
    (touched : ∀ instruction ∈ library.instructions.instructions, ∀ id ∈ instruction.touched,
      library.registry.contains id = true) :
    Machine.ofLibrary library = .ok ⟨library, .ofRegistry library.registry⟩ := by
  have hcheck : library.instructions.check library.registry = .ok () := by
    rw [InstructionSet.check, List.findSome?_eq_none_iff.mpr]
    intro instruction hmem
    rw [Option.map_eq_none_iff, List.find?_eq_none]
    intro id hid
    rw [touched instruction hmem id hid]
    exact Bool.false_ne_true
  rw [ofLibrary, hcheck]
  rfl

end PushMachine
