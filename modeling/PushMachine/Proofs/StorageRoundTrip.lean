import PushMachine.Proofs.StoredCode

/-! # Stored code reads back

A tree of code forgets what kind a value is of, and how many groups an instruction opens; the reader
recovers both from the name of the type and from the instruction set. `Storage.ReadsBack` says that
what is written reads back as itself under a condition, and as nothing else. Storable code reads
back exactly if all doubles in it are finite (`Storage.readsBack_atom`), since a tree has no other
doubles. -/

namespace PushMachine

/-! ## Doubles that a tree can hold -/

/-- Whether all doubles of a value for data are finite, `Float.isFinite`. -/
def Value.isFinite : Value → Bool
  | .float x => x.isFinite
  | .floats items => items.all Float.isFinite
  | _ => true

/-- A literal with `value.isFinite`, or any other expression. -/
def Expr.Finite : Expr → Prop
  | .literal value _ => value.isFinite = true
  | _ => True

/-! ## Fields -/

namespace Json

/-- What `insertField` changes: its own name leads to the value, and other names to what they did.
-/
theorem field?_insertField (key other : String) (value : Json) (fields : List (String × Json)) :
    field? key (insertField other value fields) =
      if other = key then some value else field? key fields := by
  induction fields with
  | nil => rw [insertField, field?_cons]
  | cons entry rest ih =>
    obtain ⟨k, held⟩ := entry
    rw [insertField]
    -- Keys are kept in order: the new field goes before the first larger key, or replaces its own.
    by_cases hlt : other < k
    · rw [if_pos hlt, field?_cons]
    rw [if_neg hlt]
    by_cases heq : k = other
    · subst heq
      rw [if_pos rfl, field?_cons, field?_cons]
      by_cases hkey : k = key
      · rw [if_pos hkey, if_pos hkey]
      · rw [if_neg hkey, if_neg hkey, if_neg hkey]
    · rw [if_neg heq, field?_cons, field?_cons, ih]
      by_cases hkey : k = key
      · have hother : other ≠ key := fun h => heq (hkey.trans h.symm)
        rw [if_pos hkey, if_neg hother, if_pos hkey]
      · rw [if_neg hkey, if_neg hkey]

/-- A signed word reads back: `toInt64?` of `ofInt64 n` is `n`. -/
theorem toInt64?_ofInt64 (n : Int64) : (ofInt64 n).toInt64? = some n := by
  have hrange : n.toInt < 2 ^ 63 := n.toInt_lt
  show (JsonNumber.ofInt64 n).toInt64? = some n
  rw [JsonNumber.ofInt64]
  split
  next hnonneg =>
    have hnat : n.toInt.toNat < 2 ^ 63 := by omega
    have hword : (UInt64.ofNat n.toInt.toNat).toNat = n.toInt.toNat :=
      UInt64.toNat_ofNat_of_lt' (Nat.lt_trans hnat (by decide))
    have hle : UInt64.ofNat n.toInt.toNat ≤ 9223372036854775807 := by
      rw [UInt64.le_iff_toNat_le, hword]
      exact Nat.le_of_lt_succ hnat
    have hback : Int64.ofNat n.toInt.toNat = n :=
      Int64.ofNat_toNatClampNeg n (Int64.le_iff_toInt_le.mpr hnonneg)
    rw [JsonNumber.toInt64?, if_pos hle, hword, hback]
  next => rfl

/-- A truth value reads back. -/
@[simp] theorem toBool?_bool (b : Bool) : (bool b).toBool? = some b := rfl

/-- A string reads back. -/
@[simp] theorem toString?_string (s : String) : (string s).toString? = some s := rfl

/-- A character reads back from its string of one: `toChar?` finds `c`. -/
theorem toChar?_toString (c : Char) : (string c.toString).toChar? = some c := by
  simp [toChar?]

/-- A double reads back if `x.isFinite`; else it is gone. -/
theorem toFloat?_ofFloat (x : Float) :
    (ofFloat x).toFloat? = if x.isFinite then some x else none := by
  rw [ofFloat]
  split <;> rfl

end Json

namespace Storage

/-! ## Reading back -/

/-- **What is written reads back**, as itself and if `condition` holds: it can be written, and what
is then read can only be what was written. -/
def ReadsBack {α γ : Type} (write : α → Except StorageError γ)
    (read : γ → Except StorageError α) (x : α) (condition : Prop) : Prop :=
  ∃ stored, write x = .ok stored ∧ ∀ found, read stored = .ok found ↔ found = x ∧ condition

/-- What can be read back under `condition` is read back if it holds. -/
theorem ReadsBack.read_eq {α γ : Type} {write : α → Except StorageError γ}
    {read : γ → Except StorageError α} {x : α} {condition : Prop}
    (back : ReadsBack write read x condition) (holds : condition) :
    ∃ stored, write x = .ok stored ∧ read stored = .ok x := by
  obtain ⟨stored, hwrite, hread⟩ := back
  exact ⟨stored, hwrite, (hread x).mpr ⟨rfl, holds⟩⟩

/-- What is found again in any case reads back under every condition that holds. -/
theorem ReadsBack.of_eq {α γ : Type} {write : α → Except StorageError γ}
    {read : γ → Except StorageError α} {x : α} {stored : γ} {condition : Prop}
    (hwrite : write x = .ok stored) (hread : read stored = .ok x) (holds : condition) :
    ReadsBack write read x condition := by
  refine ⟨stored, hwrite, fun found => ?_⟩
  rw [hread, Except.ok.injEq]
  exact ⟨fun h => ⟨h.symm, holds⟩, fun h => h.1.symm⟩

/-- The `condition` may be put in other words. -/
theorem ReadsBack.congr {α γ : Type} {write : α → Except StorageError γ}
    {read : γ → Except StorageError α} {x : α} {condition other : Prop}
    (back : ReadsBack write read x condition) (same : condition ↔ other) :
    ReadsBack write read x other :=
  propext same ▸ back

/-- A list reads back item by item, through `mapM`. -/
theorem ReadsBack.mapM {α γ : Type} {write : α → Except StorageError γ}
    {read : γ → Except StorageError α} {condition : α → Prop} {items : List α}
    (back : ∀ x ∈ items, ReadsBack write read x (condition x)) :
    ReadsBack (List.mapM write) (List.mapM read) items (∀ x ∈ items, condition x) := by
  induction items with
  | nil =>
    refine ⟨[], rfl, fun found => ?_⟩
    constructor
    · intro hread
      cases hread
      exact ⟨rfl, List.forall_mem_nil _⟩
    · rintro ⟨rfl, -⟩
      rfl
  | cons x rest ih =>
    obtain ⟨stored, hwrite, hread⟩ := back x List.mem_cons_self
    obtain ⟨storedRest, hwriteRest, hreadRest⟩ := ih fun y hy => back y (List.mem_cons_of_mem x hy)
    refine ⟨stored :: storedRest, ?_, fun found => ?_⟩
    · rw [List.mapM_cons, hwrite, hwriteRest]
      rfl
    · rw [List.mapM_cons, List.forall_mem_cons]
      constructor
      · intro h
        -- What is read back is the list itself, item by item, or nothing is read.
        obtain ⟨y, hy, h⟩ := bind_eq_ok.mp h
        obtain ⟨ys, hys, h⟩ := bind_eq_ok.mp h
        cases h
        obtain ⟨rfl, holds⟩ := (hread y).mp hy
        obtain ⟨rfl, holdsRest⟩ := (hreadRest ys).mp hys
        exact ⟨rfl, holds, holdsRest⟩
      · rintro ⟨rfl, holds, holdsRest⟩
        rw [(hread x).mpr ⟨rfl, holds⟩, (hreadRest rest).mpr ⟨rfl, holdsRest⟩]
        rfl

/-! ## Literals of data -/

/-- Items that read back one by one read back from their array by `itemsWith?`. -/
theorem itemsWith?_map {α : Type} {write : α → Json} {read? : Json → Option α}
    (back : ∀ x, read? (write x) = some x) (items : List α) :
    itemsWith? (.array (items.map write)) read? = some items := by
  show (items.map write).mapM read? = some items
  induction items with
  | nil => rfl
  | cons x rest ih => rw [List.map_cons, List.mapM_cons, back, ih]; rfl

/-- Doubles read back from their array if `items.all Float.isFinite`. -/
theorem itemsWith?_ofFloat (items : List Float) :
    itemsWith? (.array (items.map .ofFloat)) Json.toFloat? =
      if items.all Float.isFinite then some items else none := by
  show (items.map Json.ofFloat).mapM Json.toFloat? = _
  induction items with
  | nil => rfl
  | cons x rest ih =>
    rw [List.map_cons, List.mapM_cons, Json.toFloat?_ofFloat, ih, List.all_cons]
    cases x.isFinite
    · rfl
    · cases rest.all Float.isFinite <;> rfl

variable {library : Library} {registry : Registry} {id : StackId} {type : StackType}
  {value : Value}

/-- A signed word is read as `.int n`. -/
theorem singleValue?_ofInt64 (n : Int64) : singleValue? (.ofInt64 n) = some (.int n) := by
  have hback : (JsonNumber.ofInt64 n).toInt64? = some n := Json.toInt64?_ofInt64 n
  rw [Json.ofInt64, singleValue?, hback]

/-- A finite double is read as `.float x`, and any other as nothing. -/
theorem singleValue?_ofFloat (x : Float) :
    singleValue? (.ofFloat x) = if x.isFinite then some (.float x) else none := by
  rw [Json.ofFloat]
  split <;> rfl

/-- **The tree of a value for data** reads back, by `plainValue?`, if the doubles of the value are
finite. -/
theorem plainValue?_writeValue (home : value.homeStack? = some id)
    (htype : Registry.core.get? id = some type) :
    ∃ stored, writeValue registry value = .ok stored ∧
      (plainValue? id type.name stored).bind (fit? type) =
        if value.isFinite then some value else none := by
  cases value with
  | code atom => cases home
  | custom name data => cases home
  | bool b =>
    cases home; cases htype
    exact ⟨.bool b, by rw [writeValue], rfl⟩
  | int n =>
    cases home; cases htype
    refine ⟨.ofInt64 n, by rw [writeValue], ?_⟩
    show (singleValue? (.ofInt64 n)).bind (fit? _) = _
    rw [singleValue?_ofInt64]
    rfl
  | float x =>
    cases home; cases htype
    refine ⟨.ofFloat x, by rw [writeValue], ?_⟩
    show (singleValue? (.ofFloat x)).bind (fit? _) = if x.isFinite then _ else _
    rw [singleValue?_ofFloat]
    split <;> rfl
  | char c =>
    cases home; cases htype
    refine ⟨.string c.toString, by rw [writeValue], ?_⟩
    -- The tree does not tell a character from a string: the coercion of the type does.
    show (Value.singleChar? c.toString).map Value.char = some (.char c)
    simp [Value.singleChar?]
  | str s =>
    cases home; cases htype
    exact ⟨.string s, by rw [writeValue], rfl⟩
  | bools items =>
    cases home; cases htype
    refine ⟨.array (items.map .bool), by rw [writeValue], ?_⟩
    show ((itemsWith? _ Json.toBool?).map Value.bools).bind (fit? _) = _
    rw [itemsWith?_map Json.toBool?_bool]
    rfl
  | ints items =>
    cases home; cases htype
    refine ⟨.array (items.map .ofInt64), by rw [writeValue], ?_⟩
    show ((itemsWith? _ Json.toInt64?).map Value.ints).bind (fit? _) = _
    rw [itemsWith?_map Json.toInt64?_ofInt64]
    rfl
  | floats items =>
    cases home; cases htype
    refine ⟨.array (items.map .ofFloat), by rw [writeValue], ?_⟩
    show ((itemsWith? _ Json.toFloat?).map Value.floats).bind (fit? _) =
      if items.all Float.isFinite then _ else _
    rw [itemsWith?_ofFloat]
    split <;> rfl
  | chars items =>
    cases home; cases htype
    refine ⟨.array (items.map fun c => .string c.toString), by rw [writeValue], ?_⟩
    show ((itemsWith? _ Json.toChar?).map Value.chars).bind (fit? _) = _
    rw [itemsWith?_map Json.toChar?_toString]
    rfl
  | strs items =>
    cases home; cases htype
    refine ⟨.array (items.map .string), by rw [writeValue], ?_⟩
    show ((itemsWith? _ Json.toString?).map Value.strs).bind (fit? _) = _
    rw [itemsWith?_map Json.toString?_string]
    rfl

/-! ## Code -/

/-- The tree of a literal, tagged `"lit"`, is read by its type. -/
theorem readCode_literal (library : Library) (name : String) (stored : Json) :
    readCode library (.object [("a", .string "lit"), ("t", .string name), ("v", stored)]) =
      literalOf library name stored := by
  rw [readCode_object, readAtom]
  show readLiteral library name _ = _
  rw [readLiteral_eq]
  rfl

/-- What `literalOf` reads from the tree of a literal, with its type at hand. -/
theorem literalOf_eq (found : library.registry.find? type.name = some id)
    (htype : library.registry.get? id = some type) (stored : Json) :
    literalOf library type.name stored =
      if id = .exec ∨ id = .code then do
        let atom ← readCode library stored
        return .expr (← fitLiteral type.name id type stored (some (.code atom)))
      else do
        return .expr (← fitLiteral type.name id type stored (plainValue? id type.name stored)) := by
  simp only [literalOf, found, htype]

/-- A literal reads back, if `literalOf` finds it again in the tree of its value. -/
theorem readsBack_literal (htype : library.registry.get? id = some type) {condition : Prop}
    (back : ∃ stored, writeValue library.registry value = .ok stored ∧
      ∀ found, literalOf library type.name stored = .ok found ↔
        found = .expr (.literal value id) ∧ condition) :
    ReadsBack (writeAtom library.registry) (readCode library) (.expr (.literal value id))
      condition := by
  obtain ⟨stored, hwrite, hread⟩ := back
  refine ⟨.object [("a", .string "lit"), ("t", .string type.name), ("v", stored)], ?_, ?_⟩
  · have hname : library.registry.nameAt? id = some type.name := by
      rw [Registry.nameAt?, htype]
      rfl
    rw [writeAtom, writeExpr, hname]
    show (writeValue library.registry value >>= _) = _
    rw [hwrite]
    rfl
  · intro found
    rw [readCode_literal]
    exact hread found

/-- A literal of code (on `.exec` or `.code`) reads back if the code does. -/
theorem readsBack_ownLiteral (found : library.registry.find? type.name = some id)
    (htype : library.registry.get? id = some type) (own : id = .exec ∨ id = .code)
    (accepts : ∀ atom, type.accepts (.code atom) = true) {atom : Atom} {condition : Prop}
    (inner : ReadsBack (writeAtom library.registry) (readCode library) atom condition) :
    ReadsBack (writeAtom library.registry) (readCode library) (.expr (.literal (.code atom) id))
      condition := by
  obtain ⟨stored, hwrite, hread⟩ := inner
  refine readsBack_literal htype ⟨stored, by rw [writeValue, hwrite], fun result => ?_⟩
  have hfit (code : Atom) :
      fitLiteral type.name id type stored (some (.code code)) = .ok (.literal (.code code) id) := by
    rw [fitLiteral, Option.bind_some, fit?, if_pos (accepts code)]
  rw [literalOf_eq found htype, if_pos own, bind_eq_ok]
  constructor
  · rintro ⟨code, hcode, hresult⟩
    obtain ⟨rfl, holds⟩ := (hread code).mp hcode
    rw [hfit] at hresult
    cases hresult
    exact ⟨rfl, holds⟩
  · rintro ⟨rfl, holds⟩
    refine ⟨atom, (hread atom).mpr ⟨rfl, holds⟩, ?_⟩
    rw [hfit]
    rfl

/-- A plain literal reads back if `value.isFinite`. -/
theorem readsBack_plainLiteral (found : library.registry.find? type.name = some id)
    (htype : library.registry.get? id = some type) (other : ¬(id = .exec ∨ id = .code))
    (back : ∃ stored, writeValue library.registry value = .ok stored ∧
      (plainValue? id type.name stored).bind (fit? type) =
        if value.isFinite then some value else none) :
    ReadsBack (writeAtom library.registry) (readCode library) (.expr (.literal value id))
      (value.isFinite = true) := by
  obtain ⟨stored, hwrite, hplain⟩ := back
  refine readsBack_literal htype ⟨stored, hwrite, fun result => ?_⟩
  rw [literalOf_eq found htype, if_neg other, fitLiteral, hplain]
  cases value.isFinite with
  | true =>
    constructor
    · intro hresult
      cases hresult
      exact ⟨rfl, rfl⟩
    · rintro ⟨rfl, -⟩
      rfl
  | false =>
    refine iff_of_false (fun hresult => ?_) (fun hboth => ?_)
    · cases hresult
    · cases hboth.2

/-- A tree is taken as it is, as `.custom name stored`, for a stack that is not a core one. -/
theorem plainValue?_of_later (hge : StackId.coreSize ≤ id.index) (name : String) (stored : Json) :
    plainValue? id name stored = some (.custom name stored) := by
  have hne (other : StackId) (hlt : other.index < StackId.coreSize) : id ≠ other := by
    rintro rfl
    omega
  rw [plainValue?, if_neg (hne .vectorBool (by decide)), if_neg (hne .vectorInt (by decide)),
    if_neg (hne .vectorFloat (by decide)), if_neg (hne .vectorChar (by decide)),
    if_neg (hne .vectorStr (by decide)), if_neg (Nat.not_lt.mpr hge)]

/-- A `Storable` literal reads back exactly if its doubles are finite, those in the code that it
holds included. -/
theorem readsBack_of_storable (keeps : library.registry.KeepsCore)
    (storable : (Expr.literal value id).Storable library)
    (held : ∀ atom, value = .code atom →
      ReadsBack (writeAtom library.registry) (readCode library) atom (atom.Every Expr.Finite)) :
    ReadsBack (writeAtom library.registry) (readCode library) (.expr (.literal value id))
      ((Expr.literal value id).Every Expr.Finite) := by
  obtain ⟨type, htype, haccepts, later⟩ := storable
  have found := (keeps.agrees type.name id).mpr ⟨type, htype, rfl⟩
  -- Code is stored as code, values of the other core types in their own forms, and values of later
  -- types as their data.
  by_cases own : id = .exec ∨ id = .code
  · obtain ⟨atom, rfl⟩ := (keeps.accepts_code own htype).mp haccepts
    refine (readsBack_ownLiteral found htype own
      (fun atom => (keeps.accepts_code own htype).mpr ⟨atom, rfl⟩) (held atom rfl)).congr ?_
    exact ⟨fun holds => ⟨rfl, holds⟩, And.right⟩
  rcases Nat.lt_or_ge id.index StackId.coreSize with hlt | hge
  · have home := (keeps.accepts_data (StackId.isData_of_not_own own hlt) htype).mp haccepts
    have hcore : Registry.core.get? id = some type := by
      rcases keeps.slot id hlt with hsame | hnone
      · rw [← hsame, htype]
      · rw [hnone] at htype
        cases htype
    refine (readsBack_plainLiteral found htype own (plainValue?_writeValue home hcore)).congr ?_
    exact ⟨fun holds => ⟨holds, Registry.every_of_homeStack? home⟩, And.left⟩
  · obtain ⟨data, rfl⟩ := later hge
    have hplain : (plainValue? id type.name data).bind (fit? type) =
        if (Value.custom type.name data).isFinite then some (.custom type.name data) else none := by
      rw [plainValue?_of_later hge, Option.bind_some, fit?, if_pos haccepts]
      rfl
    refine (readsBack_plainLiteral found htype own ⟨data, by rw [writeValue], hplain⟩).congr ?_
    exact ⟨fun _ => ⟨rfl, trivial⟩, fun _ => rfl⟩

/-! ### Blocks -/

/-- The parts of a block are written one by one: `writeItems` is `writeAtom` on each. -/
theorem writeItems_eq_mapM (registry : Registry) (body : Block) :
    writeItems registry body = body.mapM fun e => writeAtom registry (.expr e) := by
  induction body with
  | nil =>
    rw [writeItems]
    rfl
  | cons e rest ih => rw [writeItems, List.mapM_cons, ih, writeAtom]

/-- The parts of a block are read one by one, `readCode` on each, and a closer is refused. -/
theorem readItems_eq_mapM (library : Library) (items : List Json) :
    readItems library items = items.mapM fun item => readCode library item >>= requireExpr := by
  induction items with
  | nil =>
    rw [readItems]
    rfl
  | cons item rest ih =>
    rw [readItems, List.mapM_cons, ih, bind_assoc]

/-- A part of a block reads back if it does as an atom. -/
theorem ReadsBack.part {e : Expr} {condition : Prop}
    (back : ReadsBack (writeAtom library.registry) (readCode library) (.expr e) condition) :
    ReadsBack (fun e => writeAtom library.registry (.expr e))
      (fun item => readCode library item >>= requireExpr) e condition := by
  obtain ⟨stored, hwrite, hread⟩ := back
  refine ⟨stored, hwrite, fun found => ?_⟩
  rw [bind_eq_ok]
  constructor
  · rintro ⟨atom, hatom, hfound⟩
    obtain ⟨rfl, holds⟩ := (hread atom).mp hatom
    cases hfound
    exact ⟨rfl, holds⟩
  · rintro ⟨rfl, holds⟩
    exact ⟨.expr found, (hread _).mpr ⟨rfl, holds⟩, rfl⟩

/-- The parts of a block read back together if each of them does, exactly if they are `Finite` at
every depth. -/
theorem readsBack_items {body : Block}
    (back : ∀ e ∈ body, ReadsBack (writeAtom library.registry) (readCode library) (.expr e)
      (e.Every Expr.Finite)) :
    ReadsBack (writeItems library.registry) (readItems library) body
      (Block.Every Expr.Finite body) := by
  have hparts := (ReadsBack.mapM fun e hmem => (back e hmem).part).congr Block.every_iff.symm
  obtain ⟨items, hwrite, hread⟩ := hparts
  refine ⟨items, ?_, fun found => ?_⟩
  · rw [writeItems_eq_mapM, hwrite]
  · rw [readItems_eq_mapM, hread]

/-- A block reads back if its parts do. -/
theorem readsBack_block {body : Block} {condition : Prop}
    (parts : ReadsBack (writeItems library.registry) (readItems library) body condition) :
    ReadsBack (writeAtom library.registry) (readCode library) (.expr (.block body)) condition := by
  obtain ⟨items, hwrite, hread⟩ := parts
  refine ⟨.array items, ?_, fun found => ?_⟩
  · rw [writeAtom, writeExpr, hwrite]
    rfl
  · rw [readCode, bind_eq_ok]
    constructor
    · rintro ⟨parts, hparts, hfound⟩
      obtain ⟨rfl, holds⟩ := (hread parts).mp hparts
      cases hfound
      exact ⟨rfl, holds⟩
    · rintro ⟨rfl, holds⟩
      exact ⟨body, (hread body).mpr ⟨rfl, holds⟩, rfl⟩

/-! ### Atoms -/

/-- An input reads back, if `index ≤ Json.wordMax`. -/
theorem readsBack_input {index : Nat} (hword : index ≤ Json.wordMax) {condition : Prop}
    (holds : condition) :
    ReadsBack (writeAtom library.registry) (readCode library) (.expr (.input index))
      condition := by
  refine .of_eq (by rw [writeAtom, writeExpr]) ?_ holds
  have hindex : (UInt64.ofNat index).toNat = index :=
    UInt64.toNat_ofNat_of_lt' (Nat.lt_succ_of_le hword)
  rw [readCode_object, readAtom]
  show Except.ok (Atom.expr (.input (UInt64.ofNat index).toNat)) = _
  rw [hindex]

/-- An instruction reads back, if it has the groups that the set records:
`library.instructions.groupsOf name`. -/
theorem readsBack_instr (name : String) {condition : Prop} (holds : condition) :
    ReadsBack (writeAtom library.registry) (readCode library)
      (.expr (.instr name (library.instructions.groupsOf name))) condition := by
  refine .of_eq (by rw [writeAtom, writeExpr]) ?_ holds
  rw [readCode_object, readAtom, ← InstructionSet.toExpr_eq]
  rfl

/-- A reference to an instruction reads back. -/
theorem readsBack_deferred (name : String) {condition : Prop} (holds : condition) :
    ReadsBack (writeAtom library.registry) (readCode library) (.expr (.deferred name))
      condition := by
  refine .of_eq (by rw [writeAtom, writeExpr]) ?_ holds
  rw [readCode_object, readAtom]
  rfl

/-- A closer reads back. -/
theorem readsBack_closer {condition : Prop} (holds : condition) :
    ReadsBack (writeAtom library.registry) (readCode library) .closer condition := by
  refine .of_eq (by rw [writeAtom]) ?_ holds
  rw [readCode_object, readAtom]
  rfl

mutual

/-- The code that a value holds reads back. -/
theorem readsBack_held (keeps : library.registry.KeepsCore) :
    (value : Value) → value.Every (Expr.Storable library) → ∀ atom, value = .code atom →
      ReadsBack (writeAtom library.registry) (readCode library) atom (atom.Every Expr.Finite)
  | .code atom, storable, _, rfl => readsBack_atom keeps atom storable

/-- **A storable atom reads back**, exactly if it is `Finite` at every depth. -/
theorem readsBack_atom (keeps : library.registry.KeepsCore) :
    (atom : Atom) → atom.Every (Expr.Storable library) →
      ReadsBack (writeAtom library.registry) (readCode library) atom (atom.Every Expr.Finite)
  | .closer, _ => readsBack_closer trivial
  | .expr e, storable => readsBack_expr keeps e storable

/-- A storable expression reads back, exactly if it is `Finite` at every depth. -/
theorem readsBack_expr (keeps : library.registry.KeepsCore) :
    (e : Expr) → e.Every (Expr.Storable library) →
      ReadsBack (writeAtom library.registry) (readCode library) (.expr e) (e.Every Expr.Finite)
  | .literal value _, storable =>
    readsBack_of_storable keeps storable.1 (readsBack_held keeps value storable.2)
  | .input _, storable => readsBack_input storable trivial
  | .instr name groups, storable => by
    obtain rfl : groups = library.instructions.groupsOf name := storable
    exact readsBack_instr name trivial
  | .deferred name, _ => readsBack_deferred name trivial
  | .block body, storable =>
    (readsBack_block (readsBack_items (readsBack_parts keeps body storable.2))).congr
      ⟨fun holds => ⟨trivial, holds⟩, And.right⟩

/-- The parts of a storable block read back. -/
theorem readsBack_parts (keeps : library.registry.KeepsCore) :
    (body : List Expr) → Block.Every (Expr.Storable library) body → ∀ e ∈ body,
      ReadsBack (writeAtom library.registry) (readCode library) (.expr e) (e.Every Expr.Finite)
  | e :: _, storable, _, .head _ => readsBack_expr keeps e storable.1
  | _ :: rest, storable, found, .tail _ hmem => readsBack_parts keeps rest storable.2 found hmem

end

/-! ## Genes -/

/-- The fields of a gene: those of its atom, with the marks `"close"` and `"silent"` for what
differs from the defaults. -/
def markFields (gene : Gene) (fields : List (String × Json)) : List (String × Json) :=
  let fields := if gene.silent then Json.insertField "silent" (.bool true) fields else fields
  if 0 < gene.closes then Json.insertField "close" (.ofNat gene.closes.toNat) fields else fields

/-- The marks of a gene are about its own two fields: other fields are as `field?` finds them in
`fields`. -/
theorem field?_markFields (gene : Gene) (key : String) (fields : List (String × Json)) :
    Json.field? key (markFields gene fields) =
      if "close" = key ∧ 0 < gene.closes then some (.ofNat gene.closes.toNat)
      else if "silent" = key ∧ gene.silent = true then some (.bool true)
      else Json.field? key fields := by
  rw [markFields]
  by_cases hcloses : 0 < gene.closes <;> by_cases hsilent : gene.silent = true <;>
    simp [hcloses, hsilent, Json.field?_insertField]

/-- An atom is read from the fields `"a"`, `"t"`, `"v"`, `"i"` and `"n"`; others do not matter. -/
theorem readAtom_congr {fields others : List (String × Json)}
    (same : ∀ key ∈ ["a", "t", "v", "i", "n"], Json.field? key others = Json.field? key fields) :
    readAtom library (.object others) = readAtom library (.object fields) := by
  have hstring (key : String) (hkey : key ∈ ["a", "t", "v", "i", "n"]) :
      stringField key others = stringField key fields := by
    rw [stringField, same key hkey, stringField]
  rw [readAtom, readAtom, hstring "a" (by decide), hstring "t" (by decide), hstring "n" (by decide),
    same "i" (by decide)]
  simp only [readLiteral_eq, same "v" (by decide)]

/-- The tree of an atom that is no block is an object without marks. -/
theorem writeAtom_object {atom : Atom} {json : Json} (hwrite : writeAtom registry atom = .ok json)
    (leaf : ∀ body, atom ≠ .expr (.block body)) :
    ∃ fields, json = .object fields ∧ Json.field? "silent" fields = none ∧
      Json.field? "close" fields = none := by
  cases atom with
  | closer =>
    rw [writeAtom] at hwrite
    cases hwrite
    exact ⟨_, rfl, rfl, rfl⟩
  | expr e =>
    rw [writeAtom] at hwrite
    cases e with
    | literal value on =>
      rw [writeExpr] at hwrite
      split at hwrite
      next => cases hwrite
      next name _ =>
        obtain ⟨stored, -, hwrite⟩ := bind_eq_ok.mp hwrite
        cases hwrite
        exact ⟨_, rfl, rfl, rfl⟩
    | block body => exact absurd rfl (leaf body)
    | _ =>
      rw [writeExpr] at hwrite
      cases hwrite
      exact ⟨_, rfl, rfl, rfl⟩

/-- The marks of a gene read back: `readCloses` finds `gene.closes`. -/
theorem readCloses_markFields (gene : Gene) {fields : List (String × Json)}
    (unmarked : Json.field? "close" fields = none) :
    readCloses (markFields gene fields) = .ok gene.closes := by
  rw [readCloses, field?_markFields]
  by_cases hcloses : 0 < gene.closes
  · rw [if_pos ⟨rfl, hcloses⟩]
    have hlt : gene.closes.toNat < 256 := gene.closes.toNat_lt
    have hword : (UInt64.ofNat gene.closes.toNat).toNat = gene.closes.toNat :=
      UInt64.toNat_ofNat_of_lt' (Nat.lt_trans hlt (by decide))
    show (if (UInt64.ofNat gene.closes.toNat).toNat < 256 then
      Except.ok (UInt64.ofNat gene.closes.toNat).toUInt8 else _) = _
    rw [if_pos (by rw [hword]; exact hlt), UInt64.toUInt8_ofNat', UInt8.ofNat_toNat]
  · have hzero : gene.closes = 0 := by
      simpa using hcloses
    rw [if_neg (fun h => hcloses h.2), if_neg (fun h => absurd h.1 (by decide)), unmarked, hzero]

/-- **A gene reads back** if `gene.atom` does and is no block. -/
theorem readsBack_gene {gene : Gene} (leaf : ∀ body, gene.atom ≠ .expr (.block body))
    {condition : Prop}
    (back : ReadsBack (writeAtom library.registry) (readCode library) gene.atom condition) :
    ReadsBack (writeGene library.registry) (readGene library) gene condition := by
  obtain ⟨stored, hwrite, hread⟩ := back
  obtain ⟨fields, rfl, hsilent, hcloses⟩ := writeAtom_object hwrite leaf
  refine ⟨.object (markFields gene fields), ?_, fun found => ?_⟩
  · rw [writeGene, hwrite]
    rfl
  · have hatom : readAtom library (.object (markFields gene fields)) =
        readAtom library (.object fields) := by
      -- The marks of the gene are fields that no atom is read from.
      refine readAtom_congr fun key hkey => ?_
      have hclose : "close" ≠ key := by
        rintro rfl
        exact absurd hkey (by decide)
      have hsilent : "silent" ≠ key := by
        rintro rfl
        exact absurd hkey (by decide)
      rw [field?_markFields, if_neg fun h => hclose h.1, if_neg fun h => hsilent h.1]
    have hmark : ((Json.field? "silent" (markFields gene fields)).bind Json.toBool?).getD false =
        gene.silent := by
      rw [field?_markFields, hsilent]
      cases gene.silent <;> rfl
    rw [readGene, hatom, readCloses_markFields gene hcloses, hmark, bind_eq_ok]
    constructor
    · rintro ⟨atom, hfound, h⟩
      cases h
      rw [← readCode_object] at hfound
      obtain ⟨rfl, holds⟩ := (hread atom).mp hfound
      exact ⟨rfl, holds⟩
    · rintro ⟨rfl, holds⟩
      refine ⟨found.atom, ?_, rfl⟩
      rw [← readCode_object]
      exact (hread _).mpr ⟨rfl, holds⟩

/-! ## Programs and genomes -/

/-- A storable program reads back through `writeProgram` and `readProgram`, exactly if all doubles
in it are finite. -/
theorem readsBack_program (keeps : library.registry.KeepsCore) {code : Block}
    (storable : Block.Every (Expr.Storable library) code) :
    ReadsBack (writeProgram library.registry) (readProgram library) code
      (Block.Every Expr.Finite code) := by
  obtain ⟨items, hwrite, hread⟩ := readsBack_items (readsBack_parts keeps code storable)
  refine ⟨.array items, ?_, hread⟩
  rw [writeProgram, hwrite]
  rfl

/-- A genome of storable atoms that are no blocks reads back, exactly if all doubles in it are
finite. -/
theorem readsBack_genome (keeps : library.registry.KeepsCore) {genome : Genome}
    (storable : ∀ gene ∈ genome, gene.atom.Every (Expr.Storable library))
    (leaves : ∀ gene ∈ genome, ∀ body, gene.atom ≠ .expr (.block body)) :
    ReadsBack (writeGenome library.registry) (readGenome library) genome
      (∀ gene ∈ genome, gene.atom.Every Expr.Finite) := by
  obtain ⟨items, hwrite, hread⟩ := ReadsBack.mapM fun gene hmem =>
    readsBack_gene (leaves gene hmem) (readsBack_atom keeps gene.atom (storable gene hmem))
  refine ⟨.array items, ?_, hread⟩
  rw [writeGenome, hwrite]
  rfl

/-- **Storing and reading give code back**, for every registry that evolved from the core one and
every instruction set: a program, and a genome without blocks, if at every depth its literals fit
their stacks and carry the names of later types, its doubles are finite, and its instructions have
the groups that the set records (`Expr.Grouped`). -/
theorem read_write {registry : Registry} (history : Registry.core.Evolves registry)
    (set : InstructionSet) :
    (∀ code : Block,
      Block.Every (fun e => e.Storable ⟨registry, set⟩ ∧ e.Finite) code →
        ∃ json, writeProgram registry code = .ok json ∧
          readProgram ⟨registry, set⟩ json = .ok code) ∧
    ∀ genome : Genome,
      (∀ gene ∈ genome, gene.atom.Every (fun e => e.Storable ⟨registry, set⟩ ∧ e.Finite) ∧
        ∀ body, gene.atom ≠ .expr (.block body)) →
        ∃ json, writeGenome registry genome = .ok json ∧
          readGenome ⟨registry, set⟩ json = .ok genome := by
  have keeps : (Library.mk registry set).registry.KeepsCore := history.keepsCore
  constructor
  · intro code hcode
    have storable := hcode.mono fun _ h => h.1
    have finite := hcode.mono fun _ h => h.2
    exact (readsBack_program keeps storable).read_eq finite
  · intro genome hgenome
    have storable := fun gene hmem => (hgenome gene hmem).1.mono fun _ h => h.1
    have finite := fun gene hmem => (hgenome gene hmem).1.mono fun _ h => h.2
    have leaves := fun gene hmem => (hgenome gene hmem).2
    exact (readsBack_genome keeps storable leaves).read_eq finite

/-- A program with a value of a later type and with code in a literal. -/
def mixedCode : Block :=
  [.literal (.custom "odd" .null) ⟨12⟩,
    .block [.literal (.code (.expr (.block [.literal (.float 1.5) .float,
      .instr "exec_if" 2]))) .code, .literal (.code .closer) .exec],
    .literal (.chars ['x', 'y']) .vectorChar, .input 3, .instr "missing" 0]

/-- A genome with both marks and a closer. -/
def mixedGenome : Genome :=
  [⟨.expr (.instr "exec_if" 2), false, 2⟩, ⟨.closer, true, 0⟩,
    ⟨.expr (.literal (.custom "odd" .null) ⟨12⟩), true, 255⟩]

/-- Both come back from a registry that has a history of its own. -/
theorem read_write_mixed :
    Registry.core.Evolves oddRegistry ∧
    (∃ json, writeProgram oddRegistry mixedCode = .ok json ∧
      readProgram ⟨oddRegistry, ⟨Instruction.control⟩⟩ json = .ok mixedCode) ∧
    ∃ json, writeGenome oddRegistry mixedGenome = .ok json ∧
      readGenome ⟨oddRegistry, ⟨Instruction.control⟩⟩ json = .ok mixedGenome := by
  have hodd : (Expr.literal (.custom "odd" .null) ⟨12⟩).Storable
      ⟨oddRegistry, ⟨Instruction.control⟩⟩ := ⟨oddType, rfl, rfl, fun _ => ⟨.null, rfl⟩⟩
  have hcore {value : Value} {id : StackId} {type : StackType}
      (htype : oddRegistry.get? id = some type) (haccepts : type.accepts value = true)
      (hlt : id.index < StackId.coreSize) :
      (Expr.literal value id).Storable ⟨oddRegistry, ⟨Instruction.control⟩⟩ :=
    ⟨type, htype, haccepts, fun hle => absurd hlt (Nat.not_lt.mpr hle)⟩
  have hfloat : (Expr.literal (.float 1.5) .float).Finite := by
    show Float.isFinite 1.5 = true
    decide
  have hinput : 3 ≤ Json.wordMax := by decide
  refine ⟨evolves_oddRegistry, (read_write evolves_oddRegistry _).1 mixedCode ?_,
    (read_write evolves_oddRegistry _).2 mixedGenome ?_⟩
  · refine ⟨⟨⟨hodd, rfl⟩, trivial⟩, ⟨⟨trivial, trivial⟩, ?_⟩,
      ⟨⟨hcore rfl rfl (by decide), rfl⟩, trivial⟩, ⟨hinput, trivial⟩, ⟨rfl, trivial⟩, trivial⟩
    -- The block: code in a literal, and a closer as code.
    refine ⟨⟨⟨hcore rfl rfl (by decide), rfl⟩, ⟨trivial, trivial⟩, ?_, ⟨rfl, trivial⟩, trivial⟩,
      ⟨⟨hcore rfl rfl (by decide), rfl⟩, trivial⟩, trivial⟩
    exact ⟨⟨hcore rfl rfl (by decide), hfloat⟩, trivial⟩
  · intro gene hgene
    simp only [mixedGenome, List.mem_cons, List.not_mem_nil, or_false] at hgene
    rcases hgene with rfl | rfl | rfl
    · exact ⟨⟨rfl, trivial⟩, nofun⟩
    · exact ⟨trivial, nofun⟩
    · exact ⟨⟨⟨hodd, rfl⟩, trivial⟩, nofun⟩

/-- The atom of every gene that `readGenome` gave was read from an object. -/
theorem exists_reads_of_readGenome {json : Json} {genome : Genome}
    (h : readGenome library json = .ok genome) :
    ∀ gene ∈ genome, ∃ fields, Reads library (.object fields) gene.atom := by
  obtain ⟨items, -, genes⟩ := readGenome_ok h
  clear h
  induction genes with
  | nil => exact List.forall_mem_nil _
  | cons hitem _ ih =>
    obtain ⟨fields, -, reads⟩ := readGene_ok hitem
    exact List.forall_mem_cons.mpr ⟨⟨fields, reads⟩, ih⟩

/-- **What was read can be stored**, with `writeProgram` or `writeGenome`, and then reads back as
itself exactly if all doubles in it are finite; otherwise the stored tree cannot be read at all. -/
theorem read_write_of_read (set : InstructionSet) (json : Json) :
    (∀ code, readProgram ⟨.core, set⟩ json = .ok code →
      ∃ stored, writeProgram .core code = .ok stored ∧
        ∀ found, readProgram ⟨.core, set⟩ stored = .ok found ↔
          found = code ∧ Block.Every Expr.Finite code) ∧
    ∀ genome, readGenome ⟨.core, set⟩ json = .ok genome →
      ∃ stored, writeGenome .core genome = .ok stored ∧
        ∀ found, readGenome ⟨.core, set⟩ stored = .ok found ↔
          found = genome ∧ ∀ gene ∈ genome, gene.atom.Every Expr.Finite := by
  have keeps : (Library.mk .core set).registry.KeepsCore := Registry.Evolves.start.keepsCore
  constructor
  · intro code hread
    obtain ⟨items, -, reads⟩ := readProgram_ok hread
    exact readsBack_program keeps reads.storable
  · intro genome hread
    have hgene := exists_reads_of_readGenome hread
    refine readsBack_genome keeps (fun gene hmem => ?_) fun gene hmem => ?_
    · obtain ⟨fields, reads⟩ := hgene gene hmem
      exact reads.storable
    · obtain ⟨fields, reads⟩ := hgene gene hmem
      exact reads.ne_block

/-- A finite program that was read comes back. -/
theorem read_write_of_read_mixedTree :
    readProgram ⟨.core, ⟨Instruction.control⟩⟩ mixedTree = .ok mixedTreeCode ∧
      ∃ stored, writeProgram .core mixedTreeCode = .ok stored ∧
        readProgram ⟨.core, ⟨Instruction.control⟩⟩ stored = .ok mixedTreeCode := by
  obtain ⟨stored, hwrite, hread⟩ :=
    (read_write_of_read ⟨Instruction.control⟩ mixedTree).1 _ readProgram_mixedTree
  have finite : Block.Every Expr.Finite mixedTreeCode := by
    simp [mixedTreeCode, Block.Every, Expr.Every, Value.Every, Atom.Every, Expr.Finite,
      Value.isFinite]
  exact ⟨readProgram_mixedTree, stored, hwrite, (hread _).mpr ⟨rfl, finite⟩⟩

/-- A double that is written as a text. -/
def infiniteTree : Json :=
  .array [.object [("a", .string "lit"), ("t", .string "float"), ("v", .string "inf")]]

/-- **An infinite double is read from a text and lost when it is stored**: its tree is `null`, which
no reader takes for a double. -/
theorem infiniteTree_not_read_back :
    ∃ code stored, readProgram .core infiniteTree = .ok code ∧
      writeProgram .core code = .ok stored ∧
      ∀ found, readProgram .core stored ≠ .ok found := by
  refine ⟨[.literal (.float (1.0 / 0.0)) .float],
    .array [.object [("a", .string "lit"), ("t", .string "float"), ("v", .null)]], ?_, ?_, ?_⟩
  · simp only [infiniteTree, readProgram, readItems, readCode, readAtom, readLiteral, literalOf]
    rfl
  · simp only [writeProgram, writeItems, writeExpr, writeValue]
    rfl
  · simp only [readProgram, readItems, readCode, readAtom, readLiteral, literalOf]
    intro found hfound
    cases hfound

end Storage

end PushMachine
