import Mathlib.Data.Option.Basic
import Mathlib.Tactic.IntervalCases
import PushMachine.Registry

/-! # The history of a registry

What registering and removing types, in any order and with any types, can make of a registry.
`Registry.Evolves` is the history. In a registry that evolved from the core one, names and slots
agree, a core slot holds its own type or nothing, and the two types for code are never lost
(`Registry.Evolves.keepsCore`). What the core types accept is then known wherever they are still
registered. -/

namespace PushMachine.Registry

variable {registry next : Registry} {type : StackType} {name : String} {id : StackId}

/-! ## Types and slots -/

/-- The listed `types` are those in the slots, as `get?` finds them. -/
theorem mem_types : (id, type) ∈ registry.types ↔ registry.get? id = some type := by
  rw [types, List.mem_filterMap, get?, Option.join_eq_some_iff]
  constructor
  · rintro ⟨⟨slot, index⟩, hmem, hslot⟩
    obtain ⟨found, rfl, heq⟩ := Option.map_eq_some_iff.mp hslot
    cases heq
    exact List.mem_zipIdx_iff_getElem?.mp hmem
  · exact fun h => ⟨(some type, id.index), List.mem_zipIdx_iff_getElem?.mpr h, rfl⟩

/-- The `types` of a registry stand in the order of their stacks. -/
theorem pairwise_types (registry : Registry) :
    registry.types.Pairwise fun before after => before.1.index < after.1.index := by
  have hindices : registry.slots.zipIdx.Pairwise fun before after => before.2 < after.2 := by
    rw [← List.pairwise_map (f := Prod.snd) (R := (· < ·)), List.zipIdx_map_snd]
    exact List.pairwise_lt_range'
  refine hindices.filterMap _ ?_
  rintro ⟨slot, index⟩ ⟨slot', index'⟩ hlt entry hentry entry' hentry'
  obtain ⟨_, -, rfl⟩ := Option.map_eq_some_iff.mp hentry
  obtain ⟨_, -, rfl⟩ := Option.map_eq_some_iff.mp hentry'
  exact hlt

/-- A value found by `scan?` is accepted by the type there. -/
theorem accepts_of_scan? {value : Value} (h : registry.scan? value = some id) :
    ∃ type, registry.get? id = some type ∧ type.accepts value = true := by
  obtain ⟨⟨found, type⟩, hfind, rfl⟩ := Option.map_eq_some_iff.mp h
  have haccepts := List.find?_some hfind
  rw [Bool.and_eq_true] at haccepts
  exact ⟨type, mem_types.mp (List.mem_of_find?_eq_some hfind), haccepts.2⟩

/-- A value goes by `place` to a stack whose type accepts it. -/
theorem accepts_of_place {value : Value} (h : registry.place value = .ok id) :
    ∃ type, registry.get? id = some type ∧ type.accepts value = true := by
  rw [place] at h
  split at h
  next found hfound =>
    cases h
    rcases (Option.orElse_eq_some _ _ _).mp hfound with hdirect | ⟨-, hscan⟩
    · obtain ⟨home, hhome, hrest⟩ := Option.bind_eq_some_iff.mp hdirect
      obtain ⟨type, htype, hif⟩ := Option.bind_eq_some_iff.mp hrest
      obtain ⟨haccepts, heq⟩ := Option.ite_none_right_eq_some.mp hif
      cases heq
      exact ⟨type, htype, haccepts⟩
    · exact accepts_of_scan? hscan
  next => cases h

/-- A value that some type other than those for code accepts has a `place`. -/
theorem exists_place {value : Value} (htype : registry.get? id = some type)
    (hown : isOwnName type.name = false) (haccepts : type.accepts value = true) :
    ∃ place, registry.place value = .ok place := by
  have hscan : (registry.scan? value).isSome := by
    rw [scan?, Option.isSome_map, List.find?_isSome]
    refine ⟨(id, type), mem_types.mpr htype, ?_⟩
    simp only [hown, haccepts, Bool.not_false, Bool.and_self]
  rw [place]
  split
  next place _ => exact ⟨place, rfl⟩
  next hnone =>
    rw [((Option.orElse_eq_none _ _).mp hnone).2] at hscan
    cases hscan

/-! ## Single requests -/

/-- A granted request has an answer. -/
theorem granted_eq_ok {α : Type} {request : Except Refusal α × Registry} {answer : α} :
    granted request = .ok (answer, next) ↔ request = (.ok answer, next) := by
  obtain ⟨result, behind⟩ := request
  cases result with
  | ok found => simp [granted]
  | error refusal => simp [granted]

/-- All that `add` checks before a registration is granted, and what it does then. -/
theorem add_ok (h : registry.add type = (.ok id, next)) :
    isOwnName type.name = false ∧ registry.find? type.name = none ∧
      type.accepts type.witness = true ∧ registry.conflict? type = none ∧
      id = ⟨registry.slots.length⟩ ∧
      next = ⟨registry.slots ++ [some type], (type.name, id) :: registry.entries⟩ := by
  -- The checks come one after another, and all but the last branch refuse.
  rw [add] at h
  split at h
  next => cases h
  next hown =>
    split at h
    next => cases h
    next hnew =>
      split at h
      next => cases h
      next hwitness =>
        split at h
        next => cases h
        next hconflict =>
          rw [insert] at h
          split at h
          next =>
            cases h
            exact ⟨by simpa using hown, by simpa using hnew, by simpa using hwitness, hconflict,
              rfl, rfl⟩
          next => cases h

/-- What a granted registration checked and did. -/
theorem register_ok (h : registry.register type = .ok (id, next)) :
    isOwnName type.name = false ∧ registry.find? type.name = none ∧
      id = ⟨registry.slots.length⟩ ∧
      next = ⟨registry.slots ++ [some type], (type.name, id) :: registry.entries⟩ := by
  obtain ⟨hown, hnew, -, -, hid, hnext⟩ := add_ok (granted_eq_ok.mp h)
  exact ⟨hown, hnew, hid, hnext⟩

/-- What a granted removal checked and did. -/
theorem unregister_ok (h : registry.unregister name = .ok (type, next)) :
    isOwnName name = false ∧ ∃ id, registry.find? name = some id ∧ registry.get? id = some type ∧
      next = ⟨registry.slots.set id.index none,
        registry.entries.filter fun entry => entry.1 != name⟩ := by
  rw [unregister, granted_eq_ok, remove] at h
  split at h
  next => cases h
  next hown =>
    split at h
    next => cases h
    next id rest hname =>
      obtain ⟨hfind, rfl⟩ := Prod.mk.inj hname
      split at h
      next => cases h
      next found rest htype =>
        obtain ⟨hget, rfl⟩ := Prod.mk.inj htype
        cases h
        exact ⟨by simpa using hown, id, hfind, hget, rfl⟩

/-- A slot that holds a type has a number below `slots.length`. -/
theorem lt_of_get? (h : registry.get? id = some type) : id.index < registry.slots.length := by
  rw [get?, Option.join_eq_some_iff] at h
  exact (List.getElem?_eq_some_iff.mp h).1

/-- The slots after a registration: `type` is in the new slot, and the others keep theirs. -/
theorem get?_append (entries : List (String × StackId)) (other : StackId) :
    Registry.get? ⟨registry.slots ++ [some type], entries⟩ other =
      if other.index = registry.slots.length then some type else registry.get? other := by
  rw [get?, get?]
  split
  next heq => rw [heq, List.getElem?_concat_length, Option.join_some]
  next hne =>
    rcases Nat.lt_or_ge other.index registry.slots.length with hlt | hge
    · rw [List.getElem?_append_left hlt]
    · have hlong : (registry.slots ++ [some type]).length ≤ other.index := by
        rw [List.length_append, List.length_singleton]
        omega
      rw [List.getElem?_eq_none hlong, List.getElem?_eq_none hge]

/-- The slots after a removal: slot `id` is empty, and the others keep their types. -/
theorem get?_set_none (entries : List (String × StackId)) (hid : id.index < registry.slots.length)
    (other : StackId) :
    Registry.get? ⟨registry.slots.set id.index none, entries⟩ other =
      if other = id then none else registry.get? other := by
  rw [get?, get?]
  split
  next heq => rw [heq, List.getElem?_set_self hid, Option.join_some]
  next hne =>
    have hindex : id.index ≠ other.index := by
      intro heq
      exact hne (congrArg StackId.mk heq.symm)
    rw [List.getElem?_set_ne hindex]

/-- Dropping the entry of one name leaves `lookup` of the other names alone. -/
theorem lookup_filter_ne {other : String} (hne : other ≠ name) (entries : List (String × StackId)) :
    (entries.filter fun entry => entry.1 != name).lookup other = entries.lookup other := by
  induction entries with
  | nil => rfl
  | cons entry rest ih =>
    obtain ⟨key, slot⟩ := entry
    by_cases hkey : key = name
    · have hother : (other == key) = false := by
        rw [hkey]
        exact beq_eq_false_iff_ne.mpr hne
      rw [List.filter_cons_of_neg (by simp [hkey]), ih, List.lookup_cons, hother]
    · rw [List.filter_cons_of_pos (by simp [hkey]), List.lookup_cons, List.lookup_cons, ih]

/-- A dropped name is gone. -/
theorem lookup_filter_self (entries : List (String × StackId)) :
    (entries.filter fun entry => entry.1 != name).lookup name = none := by
  rw [List.lookup_eq_none_iff]
  intro entry hmem
  have hkey : entry.1 ≠ name := by simpa using (List.mem_filter.mp hmem).2
  exact bne_iff_ne.mpr hkey.symm

/-! ## Histories -/

/-- **The history of a registry**: what a registry becomes by granted requests, `register` and
`unregister`. A refused request changes nothing. -/
inductive Evolves (start : Registry) : Registry → Prop where
  /-- No request was granted yet. -/
  | start : Evolves start start
  /-- A type was registered. -/
  | register {registry next : Registry} {type : StackType} {id : StackId}
      (history : Evolves start registry) (granted : registry.register type = .ok (id, next)) :
    Evolves start next
  /-- A type was removed. -/
  | unregister {registry next : Registry} {type : StackType} {name : String}
      (history : Evolves start registry) (granted : registry.unregister name = .ok (type, next)) :
    Evolves start next

/-- Names and slots agree: `find?` leads from a name to a slot exactly if the slot holds a type of
that name. -/
def Agrees (registry : Registry) : Prop :=
  ∀ name id, registry.find? name = some id ↔
    ∃ type, registry.get? id = some type ∧ type.name = name

/-- Two types of one name lie on one stack. -/
theorem Agrees.eq_of_name_eq (agrees : registry.Agrees) {other : StackId} {twin : StackType}
    (htype : registry.get? id = some type) (htwin : registry.get? other = some twin)
    (hname : type.name = twin.name) : id = other := by
  have hid := (agrees type.name id).mpr ⟨type, htype, rfl⟩
  have hother := (agrees type.name other).mpr ⟨twin, htwin, hname.symm⟩
  rw [hid] at hother
  exact Option.some.inj hother

/-- Registering a type keeps names and slots in agreement (`Agrees`). -/
theorem Agrees.register (agrees : registry.Agrees)
    (granted : registry.register type = .ok (id, next)) : next.Agrees := by
  obtain ⟨-, hnew, rfl, rfl⟩ := register_ok granted
  intro name other
  rw [get?_append, find?, List.lookup_cons]
  by_cases hname : name = type.name
  · subst hname
    rw [beq_self_eq_true]
    constructor
    · intro hid
      cases hid
      exact ⟨type, if_pos rfl, rfl⟩
    · rintro ⟨found, hfound, hsame⟩
      split at hfound
      next hindex => exact congrArg some (congrArg StackId.mk hindex.symm)
      next =>
        -- The name was free, so no older slot has a type of this name.
        have hold := (agrees type.name other).mpr ⟨found, hfound, hsame⟩
        rw [hnew] at hold
        cases hold
  · rw [beq_eq_false_iff_ne.mpr hname]
    refine (agrees name other).trans ?_
    constructor
    · rintro ⟨found, hfound, hsame⟩
      have hlt := lt_of_get? hfound
      exact ⟨found, by rw [if_neg (Nat.ne_of_lt hlt), hfound], hsame⟩
    · rintro ⟨found, hfound, hsame⟩
      split at hfound
      · cases hfound
        exact absurd hsame.symm hname
      · exact ⟨found, hfound, hsame⟩

/-- Removing a type keeps names and slots in agreement (`Agrees`). -/
theorem Agrees.unregister (agrees : registry.Agrees)
    (granted : registry.unregister name = .ok (type, next)) : next.Agrees := by
  obtain ⟨-, id, hfind, hget, rfl⟩ := unregister_ok granted
  have htype : type.name = name := by
    obtain ⟨found, hfound, hsame⟩ := (agrees name id).mp hfind
    rw [hget] at hfound
    cases hfound
    exact hsame
  intro other slot
  rw [get?_set_none _ (lt_of_get? hget)]
  by_cases hother : other = name
  · subst hother
    constructor
    · intro hlookup
      rw [find?, lookup_filter_self] at hlookup
      cases hlookup
    · rintro ⟨found, hfound, hsame⟩
      split at hfound
      next => cases hfound
      next hne =>
        -- Another slot with a type of this name would be where the name led.
        have hslot := (agrees _ slot).mpr ⟨found, hfound, hsame⟩
        rw [hfind] at hslot
        exact absurd (Option.some.inj hslot).symm hne
  · rw [find?, lookup_filter_ne hother]
    refine (agrees other slot).trans ?_
    constructor
    · rintro ⟨found, hfound, hsame⟩
      have hne : slot ≠ id := by
        intro heq
        rw [heq, hget] at hfound
        cases hfound
        exact hother (hsame.symm.trans htype)
      exact ⟨found, by rw [if_neg hne, hfound], hsame⟩
    · rintro ⟨found, hfound, hsame⟩
      split at hfound
      · cases hfound
      · exact ⟨found, hfound, hsame⟩

/-! ## From the core registry -/

/-- Names and slots of the core registry agree. -/
theorem core_agrees : core.Agrees := by
  intro name id
  constructor
  · intro hfind
    obtain ⟨before, after, hentries, -⟩ := List.lookup_eq_some_iff.mp hfind
    have hmem : (name, id) ∈ core.entries := by
      rw [hentries]
      exact List.mem_append_right _ List.mem_cons_self
    simp only [core, builtinTypes, List.zipIdx_cons, List.zipIdx_nil, List.map_cons, List.map_nil,
      List.mem_cons, List.not_mem_nil, Prod.mk.injEq, or_false] at hmem
    rcases hmem with ⟨rfl, rfl⟩ | ⟨rfl, rfl⟩ | ⟨rfl, rfl⟩ | ⟨rfl, rfl⟩ | ⟨rfl, rfl⟩ | ⟨rfl, rfl⟩ |
      ⟨rfl, rfl⟩ | ⟨rfl, rfl⟩ | ⟨rfl, rfl⟩ | ⟨rfl, rfl⟩ | ⟨rfl, rfl⟩ | ⟨rfl, rfl⟩ <;>
      exact ⟨_, rfl, rfl⟩
  · rintro ⟨type, htype, rfl⟩
    obtain ⟨index⟩ := id
    have hlt : index < 12 := lt_of_get? htype
    interval_cases index <;> cases htype <;> rfl

/-- What a history that starts from `Registry.core` never changes: the core slots stay, each with
its own type or empty, and the types for code stay where they are. -/
structure KeepsCore (registry : Registry) : Prop where
  /-- Names and slots agree. -/
  agrees : registry.Agrees
  /-- The first `coreSize` slots are there. -/
  coreSize_le : StackId.coreSize ≤ registry.slots.length
  /-- A slot of `Registry.core` holds its own type or nothing. -/
  slot : ∀ id : StackId, id.index < StackId.coreSize →
    registry.get? id = core.get? id ∨ registry.get? id = none
  /-- The types for code are there. -/
  own : ∀ id : StackId, id = .exec ∨ id = .code → registry.get? id = core.get? id

/-- The types for code have names that are `isOwnName`. -/
theorem isOwnName_of_core {id : StackId} (hid : id = .exec ∨ id = .code) {type : StackType}
    (h : core.get? id = some type) : isOwnName type.name = true := by
  rcases hid with rfl | rfl <;> cases h <;> decide

/-- Registering a type keeps the core. -/
theorem KeepsCore.register (keeps : registry.KeepsCore)
    (granted : registry.register type = .ok (id, next)) : next.KeepsCore := by
  have hagrees := keeps.agrees.register granted
  obtain ⟨-, -, rfl, rfl⟩ := register_ok granted
  -- The new slot lies past the core slots, which stay as they were.
  have hsame : ∀ other : StackId, other.index < StackId.coreSize →
      Registry.get? ⟨registry.slots ++ [some type],
        (type.name, ⟨registry.slots.length⟩) :: registry.entries⟩ other = registry.get? other := by
    intro other hother
    rw [get?_append, if_neg (Nat.ne_of_lt (Nat.lt_of_lt_of_le hother keeps.coreSize_le))]
  refine ⟨hagrees, ?_, ?_, ?_⟩
  · rw [List.length_append]
    exact Nat.le_add_right_of_le keeps.coreSize_le
  · intro other hother
    rw [hsame other hother]
    exact keeps.slot other hother
  · intro other hother
    rw [hsame other (by rcases hother with rfl | rfl <;> decide)]
    exact keeps.own other hother

/-- Removing a type keeps the core: the types for code have names that `unregister` refuses. -/
theorem KeepsCore.unregister (keeps : registry.KeepsCore)
    (granted : registry.unregister name = .ok (type, next)) : next.KeepsCore := by
  have hagrees := keeps.agrees.unregister granted
  obtain ⟨hown, id, hfind, hget, rfl⟩ := unregister_ok granted
  refine ⟨hagrees, ?_, ?_, ?_⟩
  · rw [List.length_set]
    exact keeps.coreSize_le
  · intro other hother
    rw [get?_set_none _ (lt_of_get? hget)]
    split
    · exact .inr rfl
    · exact keeps.slot other hother
  · intro other hother
    rw [get?_set_none _ (lt_of_get? hget)]
    split
    next heq =>
      -- The removed type would be one for code, whose name was not refused.
      subst heq
      obtain ⟨found, hfound, rfl⟩ := (keeps.agrees name other).mp hfind
      rw [isOwnName_of_core hother (by rw [← keeps.own other hother, hfound])] at hown
      cases hown
    next => exact keeps.own other hother

/-- **Every history from the core registry keeps the core**: `Evolves` implies `KeepsCore`. -/
theorem Evolves.keepsCore (history : core.Evolves registry) : registry.KeepsCore := by
  induction history with
  | start => exact ⟨core_agrees, Nat.le_refl _, fun _ _ => .inl rfl, fun _ _ => rfl⟩
  | register _ granted ih => exact ih.register granted
  | unregister _ granted ih => exact ih.unregister granted

end PushMachine.Registry

namespace PushMachine

/-- The type of the user-defined values `.custom name _`. Sample histories register such types. -/
def StackType.named (name : String) : StackType where
  name := name
  accepts := fun | .custom tag _ => tag == name | _ => false
  coerce := fun _ => none
  witness := .custom name .null

end PushMachine
