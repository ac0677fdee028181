import PushMachine.Proofs.RegistryHistory

/-! # Requests to a registry

Any requests may be made to a registry, in any order, and some of them are refused
(`Registry.Becomes`). A refused request changes nothing. This takes an argument for a removal, which
forgets the name before it looks for the type: a name that leads to an empty slot would be lost by a
refusal. But names and slots always agree, so a name that is found leads to a type.

A granted registration hands out the next stack number, and later requests never give the number to
another type: its slot holds the type or nothing (`Registry.Keeps`). The types with names of the
machine's own are never lost. -/

namespace PushMachine.Registry

variable {start registry later next : Registry} {type : StackType} {name : String} {id : StackId}

/-- **What a registry becomes** by requests (`add` and `remove`) made one after another, whether
they are granted or refused. -/
inductive Becomes (start : Registry) : Registry → Prop where
  /-- No request was made yet. -/
  | start : Becomes start start
  /-- A type was to be registered. -/
  | add {registry : Registry} (earlier : Becomes start registry) (type : StackType) :
    Becomes start (registry.add type).2
  /-- The type of a name was to be removed. -/
  | remove {registry : Registry} (earlier : Becomes start registry) (name : String) :
    Becomes start (registry.remove name).2

/-! ## Refusals -/

/-- A refused registration leaves the registry as it was: every check of `add` comes before the
first change. -/
theorem eq_of_add_error {refusal : Refusal} (h : registry.add type = (.error refusal, next)) :
    next = registry := by
  -- Every check answers with the registry it was given; only the insertion changes it.
  rw [add] at h
  split at h
  next => exact (Prod.mk.inj h).2.symm
  next =>
    split at h
    next => exact (Prod.mk.inj h).2.symm
    next =>
      split at h
      next => exact (Prod.mk.inj h).2.symm
      next =>
        split at h
        next => exact (Prod.mk.inj h).2.symm
        next =>
          rw [insert] at h
          split at h
          next => cases h
          next => exact (Prod.mk.inj h).2.symm

/-- Forgetting a name that `find?` does not find changes nothing. -/
theorem takeName_of_unknown (h : registry.find? name = none) :
    registry.takeName name = (none, registry) := by
  have hkeys : ∀ entry ∈ registry.entries, (entry.1 != name) = true := by
    intro entry hmem
    have hkey := List.lookup_eq_none_iff.mp h entry hmem
    exact bne_iff_ne.mpr (bne_iff_ne.mp hkey).symm
  rw [takeName, h, List.filter_eq_self.mpr hkeys]

/-- The removal of a name that is `isOwnName` is refused. -/
theorem remove_of_own (h : isOwnName name = true) :
    registry.remove name = (.error (.reservedName name), registry) := by
  rw [remove, if_pos h]

/-- The removal of a name that is not registered is refused. -/
theorem remove_of_unknown (hown : isOwnName name = false) (h : registry.find? name = none) :
    registry.remove name = (.error (.unknownType name), registry) := by
  rw [remove, if_neg (by rw [hown]; exact Bool.false_ne_true), takeName_of_unknown h]

/-- A name that is found leads to a type, also once `takeName` has forgotten the name. -/
theorem Agrees.exists_takeType (agrees : registry.Agrees) (h : registry.find? name = some id) :
    ∃ type, ((registry.takeName name).2.takeType id).1 = some type := by
  obtain ⟨type, htype, -⟩ := (agrees name id).mp h
  exact ⟨type, htype⟩

/-- The removal of any other name is granted, if names and slots agree (`Agrees`). -/
theorem Agrees.remove_of_known (agrees : registry.Agrees) (hown : isOwnName name = false)
    (h : registry.find? name = some id) :
    ∃ type next, registry.remove name = (.ok type, next) := by
  obtain ⟨type, htype⟩ := agrees.exists_takeType h
  refine ⟨type, ((registry.takeName name).2.takeType id).2, ?_⟩
  have hname : registry.takeName name = (some id, (registry.takeName name).2) :=
    Prod.ext h rfl
  have hslot : (registry.takeName name).2.takeType id =
      (some type, ((registry.takeName name).2.takeType id).2) := Prod.ext htype rfl
  rw [remove, if_neg (by rw [hown]; exact Bool.false_ne_true), hname]
  simp only
  rw [hslot]

/-- **A refused removal** leaves the registry as it was, if names and slots agree. Otherwise the
name could be gone and the slot empty. -/
theorem Agrees.eq_of_remove_error (agrees : registry.Agrees) {refusal : Refusal}
    (h : registry.remove name = (.error refusal, next)) : next = registry := by
  cases hown : isOwnName name with
  | true =>
    rw [remove_of_own hown] at h
    exact (Prod.mk.inj h).2.symm
  | false =>
    cases hfind : registry.find? name with
    | none =>
      rw [remove_of_unknown hown hfind] at h
      exact (Prod.mk.inj h).2.symm
    | some id =>
      -- The name leads to a type, so this removal was granted.
      obtain ⟨type, behind, hremove⟩ := agrees.remove_of_known hown hfind
      rw [hremove] at h
      cases h

/-! ## Histories with refusals -/

/-- One `add`, granted or not, is a step of a history of granted requests. -/
theorem Evolves.add (history : start.Evolves registry) (type : StackType) :
    start.Evolves (registry.add type).2 := by
  rcases hadd : registry.add type with ⟨answer, next⟩
  cases answer with
  | ok id => exact history.register (granted_eq_ok.mpr hadd)
  | error refusal =>
    obtain rfl := eq_of_add_error hadd
    exact history

/-- One `remove`, granted or not, is a step of a history of granted requests. -/
theorem Evolves.remove (history : start.Evolves registry) (agrees : registry.Agrees)
    (name : String) : start.Evolves (registry.remove name).2 := by
  rcases hremove : registry.remove name with ⟨answer, next⟩
  cases answer with
  | ok type => exact history.unregister (granted_eq_ok.mpr hremove)
  | error refusal =>
    obtain rfl := agrees.eq_of_remove_error hremove
    exact history

/-- Granted requests (`Evolves`) keep names and slots in agreement. -/
theorem Evolves.agrees (history : start.Evolves registry) (agrees : start.Agrees) :
    registry.Agrees := by
  induction history with
  | start => exact agrees
  | register _ granted ih => exact ih.register granted
  | unregister _ granted ih => exact ih.unregister granted

/-- **Refused requests leave no trace**: what a registry `Becomes` by any requests it becomes by the
granted ones alone (`Evolves`). -/
theorem Becomes.evolves (becomes : start.Becomes registry) (agrees : start.Agrees) :
    start.Evolves registry := by
  induction becomes with
  | start => exact .start
  | add _ type ih => exact ih.add type
  | remove _ name ih => exact ih.remove (ih.agrees agrees) name

/-- Any requests (`Becomes`) keep names and slots in agreement. -/
theorem Becomes.agrees (becomes : start.Becomes registry) (agrees : start.Agrees) :
    registry.Agrees :=
  (becomes.evolves agrees).agrees agrees

/-! ## Stack numbers -/

/-- **A later registry keeps the stacks** of an earlier one: their numbers stay taken, each by the
type that had it or by none, and the types with names of the machine's own stay. -/
structure Keeps (registry later : Registry) : Prop where
  /-- No stack number is given back: `size` does not decrease. -/
  size_le : registry.size ≤ later.size
  /-- A slot holds the type that it held, or nothing. -/
  slot : ∀ id : StackId, id.index < registry.size →
    later.get? id = registry.get? id ∨ later.get? id = none
  /-- The types with names of the machine's own are where they were. -/
  own : ∀ id type, registry.get? id = some type → isOwnName type.name = true →
    later.get? id = some type

/-- A registry keeps its own stacks. -/
theorem Keeps.refl (registry : Registry) : registry.Keeps registry :=
  ⟨Nat.le_refl _, fun _ _ => .inl rfl, fun _ _ htype _ => htype⟩

/-- Stacks that are kept time after time are kept. -/
theorem Keeps.trans (first : start.Keeps registry) (second : registry.Keeps later) :
    start.Keeps later := by
  refine ⟨Nat.le_trans first.size_le second.size_le, fun id hid => ?_, fun id type htype hown => ?_⟩
  · rcases second.slot id (Nat.lt_of_lt_of_le hid first.size_le) with hsame | hnone
    · rw [hsame]
      exact first.slot id hid
    · exact .inr hnone
  · exact second.own id type (first.own id type htype hown) hown

/-- What a granted registration leads to: the next stack number, `registry.size`, is that of the new
type. -/
theorem size_of_add (h : registry.add type = (.ok id, next)) :
    id.index = registry.size ∧ next.size = registry.size + 1 ∧ next.get? id = some type := by
  obtain ⟨-, -, -, -, rfl, rfl⟩ := add_ok h
  refine ⟨rfl, ?_, ?_⟩
  · rw [size, List.length_append, size]
    rfl
  · rw [get?_append, if_pos rfl]

/-- A granted registration keeps the stacks. -/
theorem keeps_of_register (granted : registry.register type = .ok (id, next)) :
    registry.Keeps next := by
  obtain ⟨-, hsize, -⟩ := size_of_add (granted_eq_ok.mp granted)
  obtain ⟨-, -, rfl, rfl⟩ := register_ok granted
  refine ⟨by omega, fun other hother => ?_, fun other found hfound _ => ?_⟩
  · have hne : other.index ≠ registry.slots.length := Nat.ne_of_lt hother
    rw [get?_append, if_neg hne]
    exact .inl rfl
  · rw [get?_append, if_neg (Nat.ne_of_lt (lt_of_get? hfound)), hfound]

/-- A granted removal keeps the stacks: the removed type has a name that is not `isOwnName`, and
only its slot is emptied. -/
theorem Agrees.keeps_of_unregister (agrees : registry.Agrees)
    (granted : registry.unregister name = .ok (type, next)) : registry.Keeps next := by
  obtain ⟨hown, id, hfind, hget, rfl⟩ := unregister_ok granted
  refine ⟨?_, fun other _ => ?_, fun other found hfound hfoundOwn => ?_⟩
  · rw [size, size, List.length_set]
  · rw [get?_set_none _ (lt_of_get? hget)]
    split
    · exact .inr rfl
    · exact .inl rfl
  · have hne : other ≠ id := by
      -- The removed name is not an own name, so the stack it names is none of the own stacks.
      rintro rfl
      obtain ⟨named, hnamed, rfl⟩ := (agrees name other).mp hfind
      rw [hfound] at hnamed
      cases hnamed
      rw [hfoundOwn] at hown
      cases hown
    rw [get?_set_none _ (lt_of_get? hget), if_neg hne, hfound]

/-- **Granted requests keep the stacks**: `Evolves` implies `Keeps`. -/
theorem Evolves.keeps (history : registry.Evolves later) (agrees : registry.Agrees) :
    registry.Keeps later := by
  induction history with
  | start => exact .refl registry
  | register _ granted ih => exact ih.trans (keeps_of_register granted)
  | unregister history granted ih =>
    exact ih.trans ((history.agrees agrees).keeps_of_unregister granted)

/-! ## Registries in use -/

/-- Names and slots of the registry without types agree. -/
theorem empty_agrees : empty.Agrees := by
  intro name id
  constructor
  · intro hfind
    cases hfind
  · rintro ⟨type, htype, -⟩
    cases htype

/-- **Every registry in use is consistent.** In what the core registry, or the one without types,
becomes by any requests:

* a name leads to a stack exactly if the type of that stack has the name;
* a granted registration hands out the number of stacks so far, and its type is found there;
* later requests keep the stacks: the slot of a number that was handed out holds the same type or
  nothing, and the types for code stay; and every number handed out later is a new one;
* a refused request, of either kind, leaves the registry exactly as it was;
* a name that is found never leads to an empty slot. -/
theorem consistent_of_becomes (hstart : start = empty ∨ start = core)
    (becomes : start.Becomes registry) :
    (∀ name id, registry.find? name = some id ↔ registry.nameAt? id = some name) ∧
      (∀ type id next, registry.add type = (.ok id, next) →
        id.index = registry.size ∧ next.size = registry.size + 1 ∧ next.get? id = some type) ∧
      (∀ later, registry.Becomes later → registry.Keeps later ∧
        ∀ type id next, later.add type = (.ok id, next) → registry.size ≤ id.index) ∧
      (∀ type refusal next, registry.add type = (.error refusal, next) → next = registry) ∧
      (∀ name refusal next, registry.remove name = (.error refusal, next) → next = registry) ∧
      ∀ name id, registry.find? name = some id →
        ((registry.takeName name).2.takeType id).1 ≠ none := by
  have hagrees : registry.Agrees := by
    rcases hstart with rfl | rfl
    · exact becomes.agrees empty_agrees
    · exact becomes.agrees core_agrees
  refine ⟨fun name id => ?_, fun _ _ _ => size_of_add, fun later hlater => ?_,
    fun _ _ _ => eq_of_add_error, fun _ _ _ => hagrees.eq_of_remove_error, fun name id hfind => ?_⟩
  · rw [hagrees name id, nameAt?, Option.map_eq_some_iff]
  · have hkeeps := (hlater.evolves hagrees).keeps hagrees
    refine ⟨hkeeps, fun type id next hadd => ?_⟩
    rw [(size_of_add hadd).1]
    exact hkeeps.size_le
  · obtain ⟨type, htype⟩ := hagrees.exists_takeType hfind
    rw [htype]
    exact Option.some_ne_none type

/-- Points are registered, then refused as there already, then removed and registered again; in
between, a type for code is to be removed in vain. The type has a new number then, and the old one
stays empty. -/
theorem consistent_of_becomes_twice :
    let once := (core.add (.named "point")).2
    let removed := (((once.add (.named "point")).2.remove "exec").2.remove "point").2
    let twice := (removed.add (.named "point")).2
    core.Becomes twice ∧ (once.add (.named "point")).2 = once ∧ twice.find? "point" = some ⟨13⟩ ∧
      twice.nameAt? ⟨13⟩ = some "point" ∧ twice.get? ⟨12⟩ = none ∧
      twice.get? .exec = core.get? .exec := by
  intro once removed twice
  have hremoved : core.Becomes removed := (((Becomes.start.add _).add _).remove _).remove _
  have htwice : core.Becomes twice := hremoved.add _
  obtain ⟨hnames, -, -, -, -, -⟩ := consistent_of_becomes (.inr rfl) htwice
  obtain ⟨-, -, -, hrefused, -, -⟩ :=
    consistent_of_becomes (.inr rfl) (Becomes.start.add (.named "point"))
  obtain ⟨-, -, hlater, -, -, -⟩ := consistent_of_becomes (.inr rfl) hremoved
  refine ⟨htwice, hrefused (.named "point") (.duplicateName "point") _ rfl, rfl,
    (hnames _ _).mp rfl, ?_, ?_⟩
  · rcases (hlater twice (.add .start _)).1.slot ⟨12⟩ (by decide) with hsame | hnone
    · exact hsame
    · exact hnone
  · exact (hlater twice (.add .start _)).1.own .exec _ rfl rfl

end PushMachine.Registry
