import Mathlib.Data.List.Forall2
import PushMachine.Proofs.StackTyping
import PushMachine.Storage

/-! # What stored code reads as

Trees come from outside, so whatever is read has to be checked by the reader. `Storage.Reads` says
how a tree reads as code, rule by rule, and the reader keeps to the rules
(`Storage.reads_of_readCode`). The rest follows by induction over the rules: code that is read with
the core types can be stored (`Storage.Reads.storable`), and its blocks are nested as the arrays of
the tree are (`Storage.Reads.nesting_eq`). -/

namespace PushMachine

/-! ## Code that can be stored -/

/-- Number of groups that a set records for `name`; a name that it lacks has none. -/
def InstructionSet.groupsOf (set : InstructionSet) (name : String) : UInt8 :=
  ((set.get? name).map Instruction.groups).getD 0

/-- The expression of a name, `set.toExpr name`, has the groups that the set records. -/
theorem InstructionSet.toExpr_eq (set : InstructionSet) (name : String) :
    set.toExpr name = .instr name (set.groupsOf name) := by
  rw [toExpr, groupsOf]
  cases hfound : set.get? name with
  | none => rfl
  | some instruction =>
    have hname : instruction.name = name := name_of_get? hfound
    show Expr.instr instruction.name instruction.groups = .instr name instruction.groups
    rw [hname]

namespace Expr

/-- An instruction with the groups that a set records for it (`set.groupsOf`), or any other
expression. -/
def Grouped (set : InstructionSet) : Expr → Prop
  | .instr name groups => groups = set.groupsOf name
  | _ => True

/-- **An expression that its tree tells everything about**: a literal fits its stack and, on a stack
of a later type, carries the name of the type; the index of an input is a machine word; and an
instruction has the groups that the set records. -/
def Storable (library : Library) : Expr → Prop
  | .literal value on => ∃ type, library.registry.get? on = some type ∧
      type.accepts value = true ∧
      (StackId.coreSize ≤ on.index → ∃ data, value = .custom type.name data)
  | .input index => index ≤ Json.wordMax
  | .instr name groups => groups = library.instructions.groupsOf name
  | _ => True

/-- The literals of storable code fit their stacks: it is `Typed`. -/
theorem Storable.typed {library : Library} {e : Expr} (storable : e.Storable library) :
    e.Typed library.registry := by
  cases e with
  | literal value on =>
    obtain ⟨type, htype, haccepts, -⟩ := storable
    exact ⟨type, htype, haccepts⟩
  | _ => trivial

/-- The instructions of storable code have the groups that the set records: it is `Grouped`. -/
theorem Storable.grouped {library : Library} {e : Expr} (storable : e.Storable library) :
    e.Grouped library.instructions := by
  cases e with
  | instr name groups => exact storable
  | _ => trivial

end Expr

/-! ## How code is nested -/

/-- **The nesting of code**, without what its expressions are. -/
inductive Nesting where
  /-- An expression that holds no code. -/
  | leaf
  /-- A closer. -/
  | closer
  /-- A literal that holds `code`. -/
  | quote (code : Nesting)
  /-- A block of `parts`. -/
  | group (parts : List Nesting)

mutual

/-- The nesting of a literal by its value: a `.quote` if it holds code. -/
def Value.nesting : Value → Nesting
  | .code atom => .quote (Atom.nesting atom)
  | _ => .leaf
termination_by structural value => value

/-- The nesting of an atom. -/
def Atom.nesting : Atom → Nesting
  | .closer => .closer
  | .expr e => Expr.nesting e
termination_by structural atom => atom

/-- The nesting of an expression. -/
def Expr.nesting : Expr → Nesting
  | .literal value _ => Value.nesting value
  | .block body => .group (Block.nestings body)
  | _ => .leaf
termination_by structural e => e

/-- The nestings of the parts of a block: `Expr.nesting` of each. -/
def Block.nestings : List Expr → List Nesting
  | [] => []
  | e :: rest => Expr.nesting e :: Block.nestings rest
termination_by structural body => body

end

namespace Json

/-- Whether the fields of an object are those of a literal of code: `"a"` is `"lit"` and `"t"` one
of the two types for code. -/
def isQuote (fields : List (String × Json)) : Bool :=
  (field? "a" fields).bind toString? == some "lit" &&
    ((field? "t" fields).bind toString? == some "exec" ||
      (field? "t" fields).bind toString? == some "code")

/-- Whether the fields of an object are those of a closer: `"a"` is `"close"`. -/
def isCloser (fields : List (String × Json)) : Bool :=
  (field? "a" fields).bind toString? == some "close"

mutual

/-- **The nesting of a tree of code**: arrays are blocks, and an object is a literal of code, a
closer or something that holds no code. -/
def nesting : Json → Nesting
  | .array items => .group (nestings items)
  | .object fields =>
    if isQuote fields then quotedNesting fields else if isCloser fields then .closer else .leaf
  | _ => .leaf

/-- The nestings of the items of an array: `nesting` of each. -/
def nestings : List Json → List Nesting
  | [] => []
  | item :: rest => nesting item :: nestings rest

/-- The nesting of a literal by its field `v`. -/
def quotedNesting : List (String × Json) → Nesting
  | [] => .leaf
  | (key, value) :: rest => if key = "v" then .quote (nesting value) else quotedNesting rest

end

/-- The field `v` decides the nesting of a literal. -/
theorem quotedNesting_eq {fields : List (String × Json)} {value : Json}
    (h : field? "v" fields = some value) : quotedNesting fields = .quote value.nesting := by
  induction fields with
  | nil => cases h
  | cons entry rest ih =>
    obtain ⟨key, held⟩ := entry
    rw [field?_cons] at h
    rw [quotedNesting]
    split at h
    next hkey =>
      cases h
      rw [if_pos hkey]
    next hkey => rw [if_neg hkey, ih h]

/-- The nesting of an object whose `"a"` is not `"lit"`. -/
theorem nesting_of_tag {fields : List (String × Json)} {tag : String}
    (htag : field? "a" fields = some (.string tag)) (hne : tag ≠ "lit") :
    (object fields).nesting = if tag = "close" then .closer else .leaf := by
  simp [nesting, isQuote, isCloser, htag, toString?, hne]

/-- The nesting of a literal, by the `name` of its type. -/
theorem nesting_of_literal {fields : List (String × Json)} {name : String}
    (htag : field? "a" fields = some (.string "lit"))
    (hname : field? "t" fields = some (.string name)) :
    (object fields).nesting =
      if name = "exec" ∨ name = "code" then quotedNesting fields else .leaf := by
  simp [nesting, isQuote, isCloser, htag, hname, toString?]

/-- A field that `field?` finds is smaller than its object. -/
theorem sizeOf_lt_of_field? {key : String} {fields : List (String × Json)} {value : Json}
    (h : field? key fields = some value) : sizeOf value < sizeOf (Json.object fields) := by
  suffices hlt : sizeOf value < sizeOf fields by
    rw [Json.object.sizeOf_spec]
    omega
  induction fields with
  | nil => cases h
  | cons entry rest ih =>
    obtain ⟨k, held⟩ := entry
    rw [field?_cons] at h
    rw [List.cons.sizeOf_spec, Prod.mk.sizeOf_spec]
    split at h
    next =>
      cases h
      omega
    next =>
      have := ih h
      omega

end Json

/-! ## What the reader finds -/

namespace Registry

/-- A core type `accepts` whatever its `coerce` makes of a value. -/
theorem accepts_of_coerce {id : StackId} {type : StackType} {value fitted : Value}
    (htype : core.get? id = some type) (h : type.coerce value = some fitted) :
    type.accepts fitted = true := by
  obtain ⟨index⟩ := id
  have hlt : index < 12 := lt_of_get? htype
  -- Each slot has its own coercion, which refuses a kind of value, takes it, or reads it in part.
  interval_cases index <;> cases htype <;> cases value <;>
    first
    | cases h; done
    | cases h; rfl
    | simp only [Value.toInt?, Value.toFloat?, Value.toChar?, Value.toChars?,
        Option.map_eq_some_iff, Option.ite_none_right_eq_some] at h
      obtain ⟨_, _, rfl⟩ := h
      rfl

end Registry

namespace Storage

variable {library : Library}

mutual

/-- **How a tree reads as code**: an array is a block, and an object is an atom, with one case for
each tag in `"a"`; a literal is of code if its type is `.exec` or `.code`, and plain otherwise. -/
inductive Reads (library : Library) : Json → Atom → Prop where
  /-- A block. -/
  | block {items : List Json} {body : Block} (parts : ReadsAll library items body) :
    Reads library (.array items) (.expr (.block body))
  /-- A literal of code. -/
  | quote {fields : List (String × Json)} {name : String} {value : Json} {id : StackId}
      {type : StackType} {code : Atom} {fitted : Value}
      (tag : Json.field? "a" fields = some (.string "lit"))
      (named : Json.field? "t" fields = some (.string name))
      (held : Json.field? "v" fields = some value)
      (found : library.registry.find? name = some id) (own : id = .exec ∨ id = .code)
      (registered : library.registry.get? id = some type) (inner : Reads library value code)
      (fits : fit? type (.code code) = some fitted) :
    Reads library (.object fields) (.expr (.literal fitted id))
  /-- A literal of data. -/
  | plain {fields : List (String × Json)} {name : String} {value : Json} {id : StackId}
      {type : StackType} {natural fitted : Value}
      (tag : Json.field? "a" fields = some (.string "lit"))
      (named : Json.field? "t" fields = some (.string name))
      (held : Json.field? "v" fields = some value)
      (found : library.registry.find? name = some id) (other : ¬(id = .exec ∨ id = .code))
      (registered : library.registry.get? id = some type)
      (inner : plainValue? id type.name value = some natural)
      (fits : fit? type natural = some fitted) :
    Reads library (.object fields) (.expr (.literal fitted id))
  /-- An input. -/
  | input {fields : List (String × Json)} {index : UInt64}
      (tag : Json.field? "a" fields = some (.string "input")) :
    Reads library (.object fields) (.expr (.input index.toNat))
  /-- An instruction. -/
  | instr {fields : List (String × Json)} {name : String}
      (tag : Json.field? "a" fields = some (.string "instr")) :
    Reads library (.object fields) (.expr (.instr name (library.instructions.groupsOf name)))
  /-- A reference to an instruction, tagged `"jit-instr"`. -/
  | deferred {fields : List (String × Json)} {name : String}
      (tag : Json.field? "a" fields = some (.string "jit-instr")) :
    Reads library (.object fields) (.expr (.deferred name))
  /-- A closer. -/
  | closer {fields : List (String × Json)}
      (tag : Json.field? "a" fields = some (.string "close")) :
    Reads library (.object fields) .closer

/-- How the items of an array read as the parts of a block: each as some `.expr e`, so none of them
is a closer. -/
inductive ReadsAll (library : Library) : List Json → Block → Prop where
  /-- No items. -/
  | nil : ReadsAll library [] []
  /-- An item and the ones behind it. -/
  | cons {item : Json} {items : List Json} {e : Expr} {body : Block}
      (first : Reads library item (.expr e)) (rest : ReadsAll library items body) :
    ReadsAll library (item :: items) (e :: body)

end

/-! ### The reader keeps to it -/

/-- Two steps succeed together if the first does and then the second. -/
theorem bind_eq_ok {α β : Type} {first : Except StorageError α}
    {second : α → Except StorageError β} {result : β} :
    (first >>= second) = .ok result ↔ ∃ x, first = .ok x ∧ second x = .ok result := by
  cases first with
  | error error => exact iff_of_false nofun nofun
  | ok x => exact ⟨fun h => ⟨x, rfl, h⟩, fun ⟨_, heq, h⟩ => Except.ok.inj heq ▸ h⟩

variable {fields : List (String × Json)}

/-- A field that `stringField` read is a string. -/
theorem stringField_ok {key text : String} (h : stringField key fields = .ok text) :
    Json.field? key fields = some (.string text) := by
  rw [stringField] at h
  split at h
  next found hfound =>
    cases h
    obtain ⟨held, hheld, htext⟩ := Option.bind_eq_some_iff.mp hfound
    cases held with
    | string text =>
      cases htext
      exact hheld
    | _ => cases htext
  next => cases h

/-- A literal that `fitLiteral` gave was fitted from a value. -/
theorem fitLiteral_ok {name : String} {id : StackId} {type : StackType} {json : Json}
    {value : Option Value} {e : Expr} (h : fitLiteral name id type json value = .ok e) :
    ∃ natural fitted, value = some natural ∧ fit? type natural = some fitted ∧
      e = .literal fitted id := by
  rw [fitLiteral] at h
  split at h
  next fitted hbind =>
    cases h
    obtain ⟨natural, hnatural, hfits⟩ := Option.bind_eq_some_iff.mp hbind
    exact ⟨natural, fitted, hnatural, hfits, rfl⟩
  next => cases h

/-- A literal is read from the field `v`. -/
theorem readLiteral_eq (library : Library) (name : String) (fields : List (String × Json)) :
    readLiteral library name fields =
      match Json.field? "v" fields with
      | none => .error (.missingField "v")
      | some value => literalOf library name value := by
  induction fields with
  | nil => rw [readLiteral, Json.field?_nil]
  | cons entry rest ih =>
    obtain ⟨key, held⟩ := entry
    rw [readLiteral, Json.field?_cons]
    split
    next => rfl
    next => exact ih

/-- A literal reads as what `literalOf` makes of it, if the code that it may hold reads so. -/
theorem reads_of_literalOf {name : String} {value : Json} {atom : Atom}
    (inner : ∀ {code}, readCode library value = .ok code → Reads library value code)
    (tag : Json.field? "a" fields = some (.string "lit"))
    (named : Json.field? "t" fields = some (.string name))
    (held : Json.field? "v" fields = some value)
    (h : literalOf library name value = .ok atom) : Reads library (.object fields) atom := by
  rw [literalOf] at h
  split at h
  next => cases h
  next id found =>
    split at h
    next => cases h
    next type registered =>
      split at h
      next own =>
        obtain ⟨code, hcode, h⟩ := bind_eq_ok.mp h
        obtain ⟨e, hfit, h⟩ := bind_eq_ok.mp h
        obtain ⟨natural, fitted, hnatural, fits, rfl⟩ := fitLiteral_ok hfit
        cases hnatural
        cases h
        exact .quote tag named held found own registered (inner hcode) fits
      next other =>
        obtain ⟨e, hfit, h⟩ := bind_eq_ok.mp h
        obtain ⟨natural, fitted, hnatural, fits, rfl⟩ := fitLiteral_ok hfit
        cases h
        exact .plain tag named held found other registered hnatural fits

/-- An object reads as an atom, if its field `v` reads as the code that it may hold. -/
theorem reads_of_readAtom {atom : Atom}
    (inner : ∀ {value code}, Json.field? "v" fields = some value →
      readCode library value = .ok code → Reads library value code)
    (h : readAtom library (.object fields) = .ok atom) : Reads library (.object fields) atom := by
  rw [readAtom] at h
  obtain ⟨tag, htag, h⟩ := bind_eq_ok.mp h
  have ha := stringField_ok htag
  -- The tags are tried one after another.
  by_cases hlit : tag = "lit"
  · subst hlit
    rw [if_pos rfl] at h
    obtain ⟨name, hname, h⟩ := bind_eq_ok.mp h
    rw [readLiteral_eq] at h
    split at h
    next => cases h
    next value held => exact reads_of_literalOf (inner held) ha (stringField_ok hname) held h
  rw [if_neg hlit] at h
  by_cases hinput : tag = "input"
  · subst hinput
    rw [if_pos rfl] at h
    split at h
    next index _ =>
      cases h
      exact .input ha
    next => cases h
  rw [if_neg hinput] at h
  by_cases hinstr : tag = "instr"
  · subst hinstr
    rw [if_pos rfl] at h
    obtain ⟨name, -, h⟩ := bind_eq_ok.mp h
    cases h
    rw [InstructionSet.toExpr_eq]
    exact .instr ha
  rw [if_neg hinstr] at h
  by_cases hdeferred : tag = "jit-instr"
  · subst hdeferred
    rw [if_pos rfl] at h
    obtain ⟨name, -, h⟩ := bind_eq_ok.mp h
    cases h
    exact .deferred ha
  rw [if_neg hdeferred] at h
  by_cases hcloser : tag = "close"
  · subst hcloser
    rw [if_pos rfl] at h
    cases h
    exact .closer ha
  · rw [if_neg hcloser] at h
    cases h

/-- The items of an array read as the parts of a block, if each of them reads as what `readCode`
makes of it. -/
theorem readsAll_of_readItems {items : List Json} {body : Block}
    (inner : ∀ item ∈ items, ∀ {atom}, readCode library item = .ok atom →
      Reads library item atom)
    (h : readItems library items = .ok body) : ReadsAll library items body := by
  induction items generalizing body with
  | nil =>
    rw [readItems] at h
    cases h
    exact .nil
  | cons item rest ih =>
    rw [readItems] at h
    obtain ⟨atom, hatom, h⟩ := bind_eq_ok.mp h
    obtain ⟨e, he, h⟩ := bind_eq_ok.mp h
    obtain ⟨parts, hparts, h⟩ := bind_eq_ok.mp h
    cases h
    -- A closing mark is no expression, so it cannot stand in a block.
    cases atom with
    | closer => cases he
    | expr found =>
      cases he
      have first := inner item List.mem_cons_self hatom
      exact .cons first (ih (fun item hmem => inner item (List.mem_cons_of_mem _ hmem)) hparts)

/-- **The reader keeps to the rules**: a tree `Reads` as what `readCode` makes of it. -/
theorem reads_of_readCode (json : Json) {atom : Atom} (h : readCode library json = .ok atom) :
    Reads library json atom := by
  cases json with
  | array items =>
    rw [readCode] at h
    obtain ⟨body, hbody, h⟩ := bind_eq_ok.mp h
    cases h
    -- The recursion is on the size of the JSON, which its items and fields are smaller than.
    refine .block (readsAll_of_readItems (fun item hmem => ?_) hbody)
    have hlt := List.sizeOf_lt_of_mem hmem
    exact fun {_} hatom => reads_of_readCode item hatom
  | object fields =>
    rw [readCode] at h
    · refine reads_of_readAtom (fun {value _} held => ?_) h
      have hlt := Json.sizeOf_lt_of_field? held
      exact fun hcode => reads_of_readCode value hcode
    · intro items hitems
      cases hitems
  | _ =>
    rw [readCode, readAtom] at h
    · cases h
    · intro fields hfields
      cases hfields
    · intro items hitems
      cases hitems
termination_by sizeOf json

/-! ### With the core types -/

section Core

variable {id : StackId} {type : StackType} {value fitted : Value}

/-- A core type accepts what `fit?` fitted to it. -/
theorem accepts_of_fit? (htype : Registry.core.get? id = some type)
    (h : fit? type value = some fitted) : type.accepts fitted = true := by
  rw [fit?] at h
  split at h
  next haccepts =>
    cases h
    exact haccepts
  next => exact Registry.accepts_of_coerce htype h

/-- The types of `Registry.core` have the core slots. -/
theorem index_lt_of_core (htype : Registry.core.get? id = some type) :
    id.index < StackId.coreSize :=
  Registry.lt_of_get? htype

/-- What was fitted to a type for code (`.exec` or `.code`) is the code. -/
theorem fit?_code_eq {code : Atom} (own : id = .exec ∨ id = .code)
    (htype : Registry.core.get? id = some type) : fit? type (.code code) = some (.code code) := by
  have haccepts := (Registry.Evolves.start.keepsCore.accepts_code own htype).mpr ⟨code, rfl⟩
  rw [fit?, if_pos haccepts]

/-- What was fitted to a type for data belongs on its stack: its `homeStack?` is `id`. -/
theorem homeStack?_of_fit? (other : ¬(id = .exec ∨ id = .code))
    (htype : Registry.core.get? id = some type) (h : fit? type value = some fitted) :
    fitted.homeStack? = some id :=
  (Registry.Evolves.start.keepsCore.accepts_data
    (StackId.isData_of_not_own other (index_lt_of_core htype)) htype).mp (accepts_of_fit? htype h)

variable {set : InstructionSet}

/-- A literal that `fit?` fitted is storable. -/
theorem storable_of_fit? (htype : Registry.core.get? id = some type)
    (h : fit? type value = some fitted) :
    (Expr.literal fitted id).Storable ⟨.core, set⟩ := by
  refine ⟨type, htype, accepts_of_fit? htype h, fun hle => ?_⟩
  have hlt := index_lt_of_core htype
  omega

mutual

/-- Code read with the core types is `Storable`, at every depth. -/
theorem Reads.storable {json : Json} {atom : Atom} :
    Reads ⟨.core, set⟩ json atom → atom.Every (Expr.Storable ⟨.core, set⟩)
  | .block parts => ⟨trivial, parts.storable⟩
  | .quote _ _ _ _ own registered inner fits => by
    refine ⟨storable_of_fit? registered fits, ?_⟩
    rw [fit?_code_eq own registered] at fits
    cases fits
    exact inner.storable
  | .plain _ _ _ _ other registered _ fits =>
    ⟨storable_of_fit? registered fits,
      Registry.every_of_homeStack? (homeStack?_of_fit? other registered fits)⟩
  | .input _ => Nat.le_of_lt_succ (UInt64.toNat_lt _)
  | .instr _ => rfl
  | .deferred _ => trivial
  | .closer _ => trivial

/-- The parts of a block read with the core types are storable, at every depth. -/
theorem ReadsAll.storable {items : List Json} {body : Block} :
    ReadsAll ⟨.core, set⟩ items body → Block.Every (Expr.Storable ⟨.core, set⟩) body
  | .nil => trivial
  | .cons first rest => ⟨first.storable, rest.storable⟩

end

/-- A core name leads to a stack for code exactly if it is `"exec"` or `"code"`. -/
theorem own_iff {name : String} (found : Registry.core.find? name = some id) :
    id = .exec ∨ id = .code ↔ name = "exec" ∨ name = "code" := by
  obtain ⟨type, htype, rfl⟩ := (Registry.core_agrees name id).mp found
  constructor
  · rintro (rfl | rfl) <;> cases htype
    · exact .inl rfl
    · exact .inr rfl
  · rintro (hname | hname) <;> rw [hname] at found <;> cases found
    · exact .inl rfl
    · exact .inr rfl

/-- A value with a `homeStack?` holds no code. -/
theorem nesting_of_homeStack? (h : value.homeStack? = some id) : value.nesting = .leaf := by
  cases value with
  | code atom => cases h
  | _ => rfl

mutual

/-- Code read with the core types is nested as its tree is: `json.nesting = atom.nesting`. -/
theorem Reads.nesting_eq {json : Json} {atom : Atom} :
    Reads ⟨.core, set⟩ json atom → json.nesting = atom.nesting
  | .block parts => by
    rw [Json.nesting, parts.nestings_eq]
    rfl
  | .quote tag named held found own registered inner fits => by
    rw [fit?_code_eq own registered] at fits
    cases fits
    rw [Json.nesting_of_literal tag named, if_pos ((own_iff found).mp own),
      Json.quotedNesting_eq held, inner.nesting_eq]
    rfl
  | .plain tag named _ found other registered _ fits => by
    rw [Json.nesting_of_literal tag named, if_neg ((own_iff found).not.mp other)]
    exact (nesting_of_homeStack? (homeStack?_of_fit? other registered fits)).symm
  | .input tag => Json.nesting_of_tag tag (by decide)
  | .instr tag => Json.nesting_of_tag tag (by decide)
  | .deferred tag => Json.nesting_of_tag tag (by decide)
  | .closer tag => Json.nesting_of_tag tag (by decide)

/-- The parts of a block read with the core types are nested as the items of its array are. -/
theorem ReadsAll.nestings_eq {items : List Json} {body : Block} :
    ReadsAll ⟨.core, set⟩ items body → Json.nestings items = Block.nestings body
  | .nil => rfl
  | .cons first rest => by
    rw [Json.nestings, first.nesting_eq, rest.nestings_eq]
    rfl

end

end Core

/-! ## Programs and genomes -/

/-- The reader of code takes an object for an atom: there `readCode` is `readAtom`. -/
theorem readCode_object (library : Library) (fields : List (String × Json)) :
    readCode library (.object fields) = readAtom library (.object fields) := by
  rw [readCode]
  intro items hitems
  cases hitems

/-- A program that `readProgram` gave was read from an array. -/
theorem readProgram_ok {json : Json} {code : Block} (h : readProgram library json = .ok code) :
    ∃ items, json = .array items ∧ ReadsAll library items code := by
  cases json with
  | array items =>
    refine ⟨items, rfl, readsAll_of_readItems (fun item _ {_} hatom => ?_) h⟩
    exact reads_of_readCode item hatom
  | _ => cases h

/-- A gene that `readGene` gave was read from an object, which reads as its atom. -/
theorem readGene_ok {json : Json} {gene : Gene} (h : readGene library json = .ok gene) :
    ∃ fields, json = .object fields ∧ Reads library (.object fields) gene.atom := by
  cases json with
  | object fields =>
    obtain ⟨atom, hatom, h⟩ := bind_eq_ok.mp h
    obtain ⟨closes, -, h⟩ := bind_eq_ok.mp h
    cases h
    rw [← readCode_object] at hatom
    exact ⟨fields, rfl, reads_of_readCode _ hatom⟩
  | _ => cases h

/-- What succeeds on every item succeeded on each of them. -/
theorem mapM_ok {α β : Type} {f : α → Except StorageError β} {items : List α} {results : List β}
    (h : items.mapM f = .ok results) : List.Forall₂ (fun x y => f x = .ok y) items results := by
  induction items generalizing results with
  | nil =>
    cases h
    exact .nil
  | cons x rest ih =>
    rw [List.mapM_cons] at h
    obtain ⟨y, hy, h⟩ := bind_eq_ok.mp h
    obtain ⟨ys, hys, h⟩ := bind_eq_ok.mp h
    cases h
    exact .cons hy (ih hys)

/-- A genome that `readGenome` gave was read from an array, gene by gene. -/
theorem readGenome_ok {json : Json} {genome : Genome} (h : readGenome library json = .ok genome) :
    ∃ items, json = .array items ∧
      List.Forall₂ (fun item gene => readGene library item = .ok gene) items genome := by
  cases json with
  | array items => exact ⟨items, rfl, mapM_ok h⟩
  | _ => cases h

/-- An object never reads as a block. -/
theorem Reads.ne_block {fields : List (String × Json)} {atom : Atom}
    (reads : Reads library (.object fields) atom) (body : Block) : atom ≠ .expr (.block body) := by
  rintro rfl
  cases reads

/-- **Whatever is read with the core types is well formed**. At every depth, code inside literals
included, the literals of a program are `Typed` and its instructions `Grouped`, with the groups that
the set records; and its blocks are nested as the arrays of the tree are. Blocks have no closers by
their type, so the last also says that no item of such an array is one. The atoms of a genome are of
the same kind and are no blocks. -/
theorem read_wellFormed (set : InstructionSet) (json : Json) :
    (∀ code, readProgram ⟨.core, set⟩ json = .ok code →
      Block.Every (fun e => e.Typed .core ∧ e.Grouped set) code ∧
        json.nesting = .group (Block.nestings code)) ∧
    ∀ genome, readGenome ⟨.core, set⟩ json = .ok genome → ∃ items, json = .array items ∧
      List.Forall₂ (fun item gene =>
        gene.atom.Every (fun e => e.Typed .core ∧ e.Grouped set) ∧
          (∀ body, gene.atom ≠ .expr (.block body)) ∧ item.nesting = gene.atom.nesting)
        items genome := by
  have hstorable (e : Expr) (h : e.Storable ⟨.core, set⟩) : e.Typed .core ∧ e.Grouped set :=
    ⟨h.typed, h.grouped⟩
  constructor
  · intro code hread
    obtain ⟨items, rfl, reads⟩ := readProgram_ok hread
    refine ⟨reads.storable.mono hstorable, ?_⟩
    rw [Json.nesting, reads.nestings_eq]
  · intro genome hread
    obtain ⟨items, rfl, genes⟩ := readGenome_ok hread
    refine ⟨items, rfl, genes.imp fun item gene hgene => ?_⟩
    obtain ⟨fields, rfl, reads⟩ := readGene_ok hgene
    exact ⟨reads.storable.mono hstorable, reads.ne_block, reads.nesting_eq⟩

/-- A tree with a block in a block, code in a literal, a closer as code, and a coerced literal. -/
def mixedTree : Json :=
  .array [
    .object [("a", .string "lit"), ("t", .string "code"), ("v", .array [.array [
      .object [("a", .string "lit"), ("t", .string "bool"), ("v", .number (.natural 3))]],
      .object [("a", .string "instr"), ("n", .string "exec_if")]])],
    .array [.array [], .object [("a", .string "lit"), ("t", .string "char"), ("v", .string "x")]],
    .object [("a", .string "lit"), ("t", .string "exec"), ("v", .object [("a", .string "close")])]]

/-- The program that `mixedTree` is of. -/
def mixedTreeCode : Block :=
  [.literal
      (.code (.expr (.block [.block [.literal (.bool true) .bool], .instr "exec_if" 2]))) .code,
    .block [.block [], .literal (.char 'x') .char], .literal (.code .closer) .exec]

/-- The reader is unfolded along the tree; the rest is evaluated. -/
theorem readProgram_mixedTree :
    readProgram ⟨.core, ⟨Instruction.control⟩⟩ mixedTree = .ok mixedTreeCode := by
  simp only [mixedTree, readProgram, readItems, readCode, readAtom, readLiteral, literalOf]
  rfl

/-- The items of an array that are no arrays are genes too, and a gene may be a closer. -/
def mixedGenes : Json :=
  .array [
    .object [("a", .string "instr"), ("close", .number (.natural 2)), ("n", .string "exec_if")],
    .object [("a", .string "lit"), ("t", .string "code"), ("v", mixedTree)],
    .object [("a", .string "close"), ("silent", .bool true)]]

/-- Both trees are read. -/
theorem read_wellFormed_mixed :
    (readProgram ⟨.core, ⟨Instruction.control⟩⟩ mixedTree = .ok mixedTreeCode ∧
      Block.Every (fun e => e.Typed .core ∧ e.Grouped ⟨Instruction.control⟩) mixedTreeCode ∧
        mixedTree.nesting = .group (Block.nestings mixedTreeCode)) ∧
    ∃ genome, readGenome ⟨.core, ⟨Instruction.control⟩⟩ mixedGenes = .ok genome ∧
      ∃ items, mixedGenes = .array items ∧ List.Forall₂ (fun item gene =>
        gene.atom.Every (fun e => e.Typed .core ∧ e.Grouped ⟨Instruction.control⟩) ∧
          (∀ body, gene.atom ≠ .expr (.block body)) ∧ item.nesting = gene.atom.nesting)
        items genome := by
  obtain ⟨genome, hgenome⟩ :
      ∃ genome, readGenome ⟨.core, ⟨Instruction.control⟩⟩ mixedGenes = .ok genome := by
    simp only [mixedGenes, mixedTree, readGenome, List.mapM_cons, readGene, readItems, readCode,
      readAtom, readLiteral, literalOf]
    exact ⟨_, rfl⟩
  exact ⟨⟨readProgram_mixedTree, (read_wellFormed _ mixedTree).1 _ readProgram_mixedTree⟩,
    genome, hgenome, (read_wellFormed _ mixedGenes).2 genome hgenome⟩

end Storage

end PushMachine
