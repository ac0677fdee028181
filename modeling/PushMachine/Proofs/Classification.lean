import PushMachine.Proofs.RegistryRequests
import PushMachine.Proofs.StackTyping

/-! # The type of a value

A value goes to the core stack of its kind if the type there accepts it, and otherwise to the first
stack whose type does (`Registry.Chosen`). The types are meant to share no value, but registering
one compares witnesses only. So what is certain in every registry in use is that the witness of a
type belongs to that type alone (`Registry.Apart`). A value that at most one type accepts is given
to that type, whatever the order in which the types were registered. Types that overlap off their
witnesses are all registered, and then the order decides. -/

namespace PushMachine.Registry

variable {start registry next : Registry} {type : StackType} {name : String} {id : StackId}
  {value : Value}

/-! ## Stacks that take a value -/

/-- **A stack takes a value**: its type has no name of the machine's own and `accepts` the value. -/
def Takes (registry : Registry) (id : StackId) (value : Value) : Prop :=
  ∃ type, registry.get? id = some type ∧ isOwnName type.name = false ∧ type.accepts value = true

/-- **Types apart**: the witness of a type is taken by the stack of that type and by no other. -/
def Apart (registry : Registry) : Prop :=
  ∀ id type, registry.get? id = some type → isOwnName type.name = false →
    ∀ other, registry.Takes other type.witness ↔ other = id

/-- Types with names of the machine's own are on `.exec` and `.code` only. -/
def OwnOnCode (registry : Registry) : Prop :=
  ∀ id type, registry.get? id = some type → isOwnName type.name = true → id = .exec ∨ id = .code

/-- After a registration the new stack takes what `type` accepts, and the others take what they
took. -/
theorem takes_append (hown : isOwnName type.name = false) (entries : List (String × StackId))
    (other : StackId) :
    Takes ⟨registry.slots ++ [some type], entries⟩ other value ↔
      other.index = registry.slots.length ∧ type.accepts value = true ∨
        registry.Takes other value := by
  unfold Takes
  rw [get?_append]
  by_cases hnew : other.index = registry.slots.length
  · have hfree : registry.get? other = none := by
      rw [get?, List.getElem?_eq_none (Nat.le_of_eq hnew.symm), Option.join_none]
    simp [hnew, hfree, hown]
  · simp [hnew]

/-- After a removal the emptied stack `id` takes nothing, and the others take what they took. -/
theorem takes_set_none (hid : id.index < registry.slots.length)
    (entries : List (String × StackId)) (other : StackId) :
    Takes ⟨registry.slots.set id.index none, entries⟩ other value ↔
      other ≠ id ∧ registry.Takes other value := by
  unfold Takes
  rw [get?_set_none entries hid]
  by_cases hsame : other = id
  · simp [hsame]
  · simp [hsame]

/-! ## What registering checks -/

/-- A type with `conflict? type = none` and a registered one do not accept the witness of one
another. -/
theorem not_accepts_of_conflict? {existing : StackType} (h : registry.conflict? type = none)
    (hexisting : registry.get? id = some existing) (hown : isOwnName existing.name = false) :
    type.accepts existing.witness = false ∧ existing.accepts type.witness = false := by
  have hslot : some existing ∈ registry.slots := by
    rw [get?, Option.join_eq_some_iff] at hexisting
    exact List.mem_of_getElem? hexisting
  have hmem : existing ∈ registry.slots.filterMap fun slot => slot :=
    List.mem_filterMap.mpr ⟨some existing, hslot, rfl⟩
  have hoverlap := List.find?_eq_none.mp h existing hmem
  simpa [hown, overlap] using hoverlap

/-- Registering a type keeps the types `Apart`. -/
theorem Apart.register (apart : registry.Apart)
    (granted : registry.register type = .ok (id, next)) : next.Apart := by
  obtain ⟨hown, -, hwitness, hconflict, rfl, rfl⟩ := add_ok (granted_eq_ok.mp granted)
  intro other found hfound hfoundOwn third
  rw [takes_append hown]
  rw [get?_append] at hfound
  split at hfound
  next hnew =>
    -- The witness of the new type: it accepts the value, and no older type does.
    cases hfound
    have hold : ¬ registry.Takes third type.witness := by
      rintro ⟨existing, hexisting, hexistingOwn, haccepts⟩
      rw [(not_accepts_of_conflict? hconflict hexisting hexistingOwn).2] at haccepts
      cases haccepts
    constructor
    · rintro (⟨hthird, -⟩ | htakes)
      · exact congrArg StackId.mk (hthird.trans hnew.symm)
      · exact absurd htakes hold
    · rintro rfl
      exact .inl ⟨hnew, hwitness⟩
  next hnew =>
    -- The witness of an older type: the new one does not accept it.
    have hrefused := (not_accepts_of_conflict? hconflict hfound hfoundOwn).1
    rw [hrefused, ← apart other found hfound hfoundOwn third]
    simp

/-- Removing a type keeps the types `Apart`. -/
theorem Apart.unregister (apart : registry.Apart)
    (granted : registry.unregister name = .ok (type, next)) : next.Apart := by
  obtain ⟨-, id, -, hget, rfl⟩ := unregister_ok granted
  intro other found hfound hown third
  rw [get?_set_none _ (lt_of_get? hget)] at hfound
  split at hfound
  next => cases hfound
  next hkept =>
    rw [takes_set_none (lt_of_get? hget), apart other found hfound hown third]
    constructor
    · exact fun h => h.2
    · rintro rfl
      exact ⟨hkept, rfl⟩

/-- Registering a type keeps a registry `OwnOnCode`: it puts no name of the machine's own on another
stack. -/
theorem OwnOnCode.register (own : registry.OwnOnCode)
    (granted : registry.register type = .ok (id, next)) : next.OwnOnCode := by
  obtain ⟨hown, -, rfl, rfl⟩ := register_ok granted
  intro other found hfound hfoundOwn
  rw [get?_append] at hfound
  split at hfound
  next =>
    cases hfound
    rw [hown] at hfoundOwn
    cases hfoundOwn
  next => exact own other found hfound hfoundOwn

/-- Removing a type keeps a registry `OwnOnCode`. -/
theorem OwnOnCode.unregister (own : registry.OwnOnCode)
    (granted : registry.unregister name = .ok (type, next)) : next.OwnOnCode := by
  obtain ⟨-, id, -, hget, rfl⟩ := unregister_ok granted
  intro other found hfound hfoundOwn
  rw [get?_set_none _ (lt_of_get? hget)] at hfound
  split at hfound
  next => cases hfound
  next => exact own other found hfound hfoundOwn

/-- In `Registry.core` the machine's own names are on the stacks for code, and the other types
accept their witnesses. -/
theorem core_witness (htype : core.get? id = some type) :
    (isOwnName type.name = true ∧ (id = .exec ∨ id = .code)) ∨
      (id.IsData ∧ isOwnName type.name = false ∧ type.accepts type.witness = true) := by
  obtain ⟨index⟩ := id
  have hlt : index < 12 := lt_of_get? htype
  -- The first two slots hold the types for code, and the other ten a type for data each.
  interval_cases index <;> cases htype
  · exact .inl ⟨rfl, .inl rfl⟩
  · exact .inl ⟨rfl, .inr rfl⟩
  all_goals exact .inr ⟨by decide, rfl, rfl⟩

/-- The core types are apart: a type for data accepts the values of one kind. -/
theorem core_apart : core.Apart := by
  have hkeeps : core.KeepsCore := Evolves.start.keepsCore
  intro id type htype hown other
  rcases core_witness htype with ⟨hname, -⟩ | ⟨hdata, -, hwitness⟩
  · rw [hown] at hname
    cases hname
  -- Each type for data accepts the values of one kind, so two that accept a value are the same.
  have hhome := (hkeeps.accepts_data hdata htype).mp hwitness
  constructor
  · rintro ⟨rival, hrival, hrivalOwn, haccepts⟩
    rcases core_witness hrival with ⟨hname, -⟩ | ⟨hrivalData, -, -⟩
    · rw [hrivalOwn] at hname
      cases hname
    · have hother := (hkeeps.accepts_data hrivalData hrival).mp haccepts
      rw [hhome] at hother
      exact (Option.some.inj hother).symm
  · rintro rfl
    exact ⟨type, htype, hown, hwitness⟩

/-- The machine's own names are on the stacks for code in the core registry. -/
theorem core_ownOnCode : core.OwnOnCode := by
  intro id type htype hown
  rcases core_witness htype with ⟨-, hcode⟩ | ⟨-, hother, -⟩
  · exact hcode
  · rw [hown] at hother
    cases hother

/-- Granted requests keep the types `Apart`. -/
theorem Evolves.apart (history : start.Evolves registry) (apart : start.Apart) :
    registry.Apart := by
  induction history with
  | start => exact apart
  | register _ granted ih => exact ih.register granted
  | unregister _ granted ih => exact ih.unregister granted

/-- Granted requests keep a registry `OwnOnCode`. -/
theorem Evolves.ownOnCode (history : start.Evolves registry) (own : start.OwnOnCode) :
    registry.OwnOnCode := by
  induction history with
  | start => exact own
  | register _ granted ih => exact ih.register granted
  | unregister _ granted ih => exact ih.unregister granted

/-- **In every registry in use** names and slots agree, the types are `Apart`, and the machine's own
names are on the stacks for code. -/
theorem Becomes.inUse (becomes : start.Becomes registry) (hstart : start = empty ∨ start = core) :
    registry.Agrees ∧ registry.Apart ∧ registry.OwnOnCode := by
  rcases hstart with rfl | rfl
  · have hevolves := becomes.evolves empty_agrees
    have hapart : empty.Apart := fun _ _ htype => by cases htype
    have hown : empty.OwnOnCode := fun _ _ htype => by cases htype
    exact ⟨becomes.agrees empty_agrees, hevolves.apart hapart, hevolves.ownOnCode hown⟩
  · have hevolves := becomes.evolves core_agrees
    exact ⟨becomes.agrees core_agrees, hevolves.apart core_apart,
      hevolves.ownOnCode core_ownOnCode⟩

/-! ## The chosen stack -/

/-- **The stack chosen for a value**: one that `Takes` it, namely the core stack of its kind if that
one does, and otherwise the first one. -/
structure Chosen (registry : Registry) (value : Value) (id : StackId) : Prop where
  /-- The stack takes the value. -/
  takes : registry.Takes id value
  /-- The core stack, `value.homeStack?`, comes before all others, and these in the order of their
  numbers. -/
  preferred : value.homeStack? = some id ∨
    (∀ home, value.homeStack? = some home → ¬ registry.Takes home value) ∧
      ∀ other, registry.Takes other value → id.index ≤ other.index

/-- At most one stack is chosen. -/
theorem Chosen.unique {other : StackId} (chosen : registry.Chosen value id)
    (rival : registry.Chosen value other) : id = other := by
  rcases chosen.preferred with hhome | ⟨hnot, hfirst⟩
  · rcases rival.preferred with hrival | ⟨hrivalNot, -⟩
    · rw [hhome] at hrival
      exact Option.some.inj hrival
    · exact absurd chosen.takes (hrivalNot id hhome)
  · rcases rival.preferred with hrival | ⟨-, hrivalFirst⟩
    · exact absurd rival.takes (hnot other hrival)
    · -- Both are the first one.
      have hle := hfirst other rival.takes
      have hge := hrivalFirst id chosen.takes
      exact congrArg StackId.mk (Nat.le_antisymm hle hge)

/-- Scanning, `scan?`, finds the first stack that takes a value. -/
theorem first_of_scan? (h : registry.scan? value = some id) :
    registry.Takes id value ∧ ∀ other, registry.Takes other value → id.index ≤ other.index := by
  obtain ⟨⟨found, type⟩, hfind, rfl⟩ := Option.map_eq_some_iff.mp h
  obtain ⟨htakes, before, after, htypes, hbefore⟩ := List.find?_eq_some_iff_append.mp hfind
  have hget : registry.get? found = some type :=
    mem_types.mp (List.mem_of_find?_eq_some hfind)
  simp only [Bool.and_eq_true, Bool.not_eq_true'] at htakes
  refine ⟨⟨type, hget, htakes⟩, ?_⟩
  rintro other ⟨rival, hrival, hown, haccepts⟩
  -- The types stand in the order of their stacks, and none before the found one takes the value.
  have hmem := mem_types.mpr hrival
  have hsorted := registry.pairwise_types
  rw [htypes] at hmem hsorted
  rcases List.mem_append.mp hmem with hfront | hrest
  · have hnot := hbefore _ hfront
    simp [hown, haccepts] at hnot
  · rcases List.mem_cons.mp hrest with heq | hback
    · cases heq
      exact Nat.le_refl _
    · have hlater := (List.pairwise_cons.mp (List.pairwise_append.mp hsorted).2.1).1 _ hback
      exact Nat.le_of_lt hlater

/-- Where the machine's own names are on the stacks for code, a home stack is not among them. -/
theorem OwnOnCode.takes_home (own : registry.OwnOnCode) (hhome : value.homeStack? = some id)
    (htype : registry.get? id = some type) (haccepts : type.accepts value = true) :
    registry.Takes id value := by
  refine ⟨type, htype, Bool.eq_false_iff.mpr fun hname => ?_, haccepts⟩
  rcases own id type htype hname with rfl | rfl
  · cases value <;> cases hhome
  · cases value <;> cases hhome

/-- **A value goes to the stack chosen for it**: what `place` gives is `Chosen`. -/
theorem OwnOnCode.chosen_of_place (own : registry.OwnOnCode)
    (h : registry.place value = .ok id) : registry.Chosen value id := by
  rw [place] at h
  split at h
  next found hfound =>
    cases h
    rcases (Option.orElse_eq_some _ _ _).mp hfound with hdirect | ⟨hnone, hscan⟩
    · obtain ⟨home, hhome, hrest⟩ := Option.bind_eq_some_iff.mp hdirect
      obtain ⟨type, htype, hif⟩ := Option.bind_eq_some_iff.mp hrest
      obtain ⟨haccepts, heq⟩ := Option.ite_none_right_eq_some.mp hif
      cases heq
      exact ⟨own.takes_home hhome htype haccepts, .inl hhome⟩
    · obtain ⟨htakes, hfirst⟩ := first_of_scan? hscan
      refine ⟨htakes, .inr ⟨?_, hfirst⟩⟩
      -- Had the home stack taken the value, it would have been found at once.
      rintro home hhome ⟨type, htype, -, haccepts⟩
      simp [hhome, htype, haccepts] at hnone
  next => cases h

/-- Every value is placed where it is chosen to go: `place value = .ok id` says that `id` is
`Chosen`. -/
theorem OwnOnCode.place_eq_ok_iff (own : registry.OwnOnCode) :
    registry.place value = .ok id ↔ registry.Chosen value id := by
  constructor
  · exact own.chosen_of_place
  · intro chosen
    obtain ⟨type, htype, hown, haccepts⟩ := chosen.takes
    obtain ⟨found, hfound⟩ := exists_place htype hown haccepts
    rw [hfound, chosen.unique (own.chosen_of_place hfound)]

/-- A value that no stack takes is refused with `.noTypeForValue`. -/
theorem OwnOnCode.place_eq_error (own : registry.OwnOnCode)
    (h : ∀ id, ¬ registry.Takes id value) :
    registry.place value = .error .noTypeForValue := by
  rcases hplace : registry.place value with refusal | id
  · rw [place] at hplace
    split at hplace
    next => cases hplace
    next =>
      cases hplace
      rfl
  · exact absurd (own.chosen_of_place hplace).takes (h id)

/-! ## Values that at most one stack takes -/

/-- A value that only one stack `Takes` goes there. -/
theorem OwnOnCode.place_of_unshared (own : registry.OwnOnCode)
    (unshared : ∀ id other, registry.Takes id value → registry.Takes other value → id = other) :
    registry.place value = .ok id ↔ registry.Takes id value := by
  rw [own.place_eq_ok_iff]
  constructor
  · exact Chosen.takes
  · intro htakes
    refine ⟨htakes, ?_⟩
    by_cases hhome : value.homeStack? = some id
    · exact .inl hhome
    · refine .inr ⟨fun home hkind hother => ?_, fun other hother => ?_⟩
      · rw [unshared home id hother htakes] at hkind
        exact hhome hkind
      · rw [unshared id other htakes hother]

/-- The type of a placed value is that of its stack: `classify` looks up what `place` gives. -/
theorem classify_of_place (hplace : registry.place value = .ok id)
    (htype : registry.get? id = some type) : registry.classify value = .ok type := by
  rw [classify, hplace]
  simp only [bind, Except.bind]
  rw [htype]

/-- A value that is not placed has no type. -/
theorem classify_of_place_error {refusal : Refusal}
    (hplace : registry.place value = .error refusal) :
    registry.classify value = .error refusal := by
  rw [classify, hplace]
  rfl

/-- **The type of an unshared value does not depend on the order** of registration: `classify` gives
the same in every registry with the same types. -/
theorem classify_eq_of_unshared {other : Registry} (own : registry.OwnOnCode)
    (otherOwn : other.OwnOnCode) (otherAgrees : other.Agrees)
    (same : ∀ type, (∃ id, registry.get? id = some type) ↔ ∃ id, other.get? id = some type)
    (unshared : ∀ first second, registry.Takes first value → registry.Takes second value →
      first = second) :
    other.classify value = registry.classify value := by
  by_cases hany : ∃ id, registry.Takes id value
  · obtain ⟨id, htakes⟩ := hany
    obtain ⟨type, htype, hown, haccepts⟩ := htakes
    have hhere := (own.place_of_unshared unshared).mpr ⟨type, htype, hown, haccepts⟩
    obtain ⟨place, hplace⟩ := (same type).mp ⟨id, htype⟩
    -- Whatever takes the value there has a type that takes it here, and so the same type.
    have honly : ∀ slot, other.Takes slot value → slot = place := by
      rintro slot ⟨rival, hrival, hrivalOwn, hrivalAccepts⟩
      obtain ⟨back, hback⟩ := (same rival).mpr ⟨slot, hrival⟩
      have heq := unshared back id ⟨rival, hback, hrivalOwn, hrivalAccepts⟩
        ⟨type, htype, hown, haccepts⟩
      rw [heq, htype] at hback
      cases hback
      exact otherAgrees.eq_of_name_eq hrival hplace rfl
    have hthere : other.place value = .ok place :=
      (otherOwn.place_of_unshared fun first second hfirst hsecond =>
        (honly first hfirst).trans (honly second hsecond).symm).mpr ⟨type, hplace, hown, haccepts⟩
    rw [classify_of_place hthere hplace, classify_of_place hhere htype]
  · have hnone : ∀ id, ¬ registry.Takes id value := fun id htakes => hany ⟨id, htakes⟩
    have hotherNone : ∀ id, ¬ other.Takes id value := by
      rintro id ⟨type, htype, hown, haccepts⟩
      obtain ⟨back, hback⟩ := (same type).mpr ⟨id, htype⟩
      exact hnone back ⟨type, hback, hown, haccepts⟩
    rw [classify_of_place_error (otherOwn.place_eq_error hotherNone),
      classify_of_place_error (own.place_eq_error hnone)]

/-- **What the types of a registry in use share.** In what the core registry, or the one without
types, becomes by any requests:

* the witness of a type is taken by the stack of that type and by no other;
* a value goes to the core stack of its kind if that takes it, and else to the first that does;
* a value that at most one stack takes goes to that stack, and its type is the same in every
  registry in use with the same types, in whatever order they were registered. -/
theorem place_of_becomes (hstart : start = empty ∨ start = core)
    (becomes : start.Becomes registry) :
    registry.Apart ∧
      (∀ value id, registry.place value = .ok id ↔ registry.Chosen value id) ∧
      ∀ value, (∀ id other, registry.Takes id value → registry.Takes other value → id = other) →
        (∀ id, registry.place value = .ok id ↔ registry.Takes id value) ∧
        ∀ first other : Registry, first = empty ∨ first = core → first.Becomes other →
          (∀ type, (∃ id, registry.get? id = some type) ↔ ∃ id, other.get? id = some type) →
          other.classify value = registry.classify value := by
  obtain ⟨-, hapart, hown⟩ := becomes.inUse hstart
  refine ⟨hapart, fun value id => hown.place_eq_ok_iff, fun value unshared => ⟨?_, ?_⟩⟩
  · intro id
    exact hown.place_of_unshared unshared
  · intro first other hfirst hother same
    obtain ⟨hagrees, -, hotherOwn⟩ := hother.inUse hfirst
    exact classify_eq_of_unshared hown hotherOwn hagrees same unshared

/-- The user-defined values that hold an array, with a witness that is not a point. -/
def arrayType : StackType where
  name := "array"
  accepts := fun | .custom _ (.array _) => true | _ => false
  coerce := fun _ => none
  witness := .custom "list" (.array [])

/-- With points and arrays registered, a witness goes to its own type, and a point that holds an
array goes to the points, which came first. -/
theorem place_of_becomes_overlapping :
    let registry := ((core.add (.named "point")).2.add arrayType).2
    core.Becomes registry ∧
      (∀ id, registry.Takes id (.custom "list" (.array [])) ↔ id = ⟨13⟩) ∧
      registry.Chosen (.custom "point" (.array [])) ⟨12⟩ := by
  intro registry
  have hbecomes : core.Becomes registry := (Becomes.start.add _).add _
  obtain ⟨hapart, hplace, -⟩ := place_of_becomes (.inr rfl) hbecomes
  exact ⟨hbecomes, hapart ⟨13⟩ arrayType rfl rfl, (hplace _ _).mp rfl⟩

/-- **Types can overlap off their witnesses.** Points and arrays are both registered, although a
point may hold an array: two stacks take such a value, and its type is the one that was registered
first. -/
theorem overlapping_types :
    let value : Value := .custom "point" (.array [])
    let pointsFirst := ((core.add (.named "point")).2.add arrayType).2
    let arraysFirst := ((core.add arrayType).2.add (.named "point")).2
    core.Becomes pointsFirst ∧ core.Becomes arraysFirst ∧
      pointsFirst.Takes ⟨12⟩ value ∧ pointsFirst.Takes ⟨13⟩ value ∧
      pointsFirst.classify value = .ok (.named "point") ∧
      arraysFirst.classify value = .ok arrayType := by
  intro value pointsFirst arraysFirst
  refine ⟨(Becomes.start.add _).add _, (Becomes.start.add _).add _, ?_, ?_, rfl, rfl⟩
  · exact ⟨.named "point", rfl, rfl, rfl⟩
  · exact ⟨arrayType, rfl, rfl, rfl⟩

end PushMachine.Registry
