import PushMachine.Code

/-! # Expressions that occur in code

`Value.Every p` says that `p` holds of every expression that occurs in a value, at any depth: in
blocks inside blocks, and in code that a literal holds. A block is judged by its parts
(`Block.every_iff`), so such a property goes through whatever takes code apart or puts it
together. -/

namespace PushMachine

mutual

/-- The property `p` of every expression that occurs in a value. -/
def Value.Every (p : Expr → Prop) : Value → Prop
  | .code atom => Atom.Every p atom
  | _ => True
termination_by structural value => value

/-- The property `p` of every expression that occurs in an atom. -/
def Atom.Every (p : Expr → Prop) : Atom → Prop
  | .closer => True
  | .expr e => Expr.Every p e
termination_by structural atom => atom

/-- The property `p` of every expression that occurs in an expression, which is one of them. A
literal has the expressions of its value. -/
def Expr.Every (p : Expr → Prop) : Expr → Prop
  | .literal value on => p (.literal value on) ∧ Value.Every p value
  | .input index => p (.input index)
  | .instr name groups => p (.instr name groups)
  | .deferred name => p (.deferred name)
  | .block body => p (.block body) ∧ Block.Every p body
termination_by structural e => e

/-- The property `p` of every expression that occurs in a block. -/
def Block.Every (p : Expr → Prop) : List Expr → Prop
  | [] => True
  | e :: rest => Expr.Every p e ∧ Block.Every p rest
termination_by structural body => body

end

variable {p : Expr → Prop}

/-- What occurs in a block occurs in one of its parts. -/
theorem Block.every_iff {body : Block} : Block.Every p body ↔ ∀ e ∈ body, e.Every p := by
  induction body with
  | nil => exact iff_of_true trivial (List.forall_mem_nil _)
  | cons e rest ih => rw [Block.Every, List.forall_mem_cons, ih]

mutual

/-- A property of all expressions is one of those that occur in a value, `value.Every p`. -/
theorem Value.every_of_forall (h : ∀ e, p e) : (value : Value) → value.Every p
  | .code atom => Atom.every_of_forall h atom
  | .bool _ | .int _ | .float _ | .char _ | .str _ | .bools _ | .ints _ | .floats _ | .chars _
  | .strs _ | .custom _ _ => trivial

/-- A property of all expressions is one of those that occur in an atom. -/
theorem Atom.every_of_forall (h : ∀ e, p e) : (atom : Atom) → atom.Every p
  | .closer => trivial
  | .expr e => Expr.every_of_forall h e

/-- A property of all expressions is one of those that occur in an expression. -/
theorem Expr.every_of_forall (h : ∀ e, p e) : (e : Expr) → e.Every p
  | .literal value on => ⟨h (.literal value on), Value.every_of_forall h value⟩
  | .input index => h (.input index)
  | .instr name groups => h (.instr name groups)
  | .deferred name => h (.deferred name)
  | .block body => ⟨h (.block body), Block.every_of_forall h body⟩

/-- A property of all expressions is one of those that occur in a block. -/
theorem Block.every_of_forall (h : ∀ e, p e) : (body : List Expr) → Block.Every p body
  | [] => trivial
  | e :: rest => ⟨Expr.every_of_forall h e, Block.every_of_forall h rest⟩

end

variable {q : Expr → Prop}

mutual

/-- A weaker property `q` of the expressions that occur in a value. -/
theorem Value.Every.mono (h : ∀ e, p e → q e) : {value : Value} → value.Every p → value.Every q
  | .code _, hevery => Atom.Every.mono h hevery
  | .bool _, _ | .int _, _ | .float _, _ | .char _, _ | .str _, _ | .bools _, _ | .ints _, _
  | .floats _, _ | .chars _, _ | .strs _, _ | .custom _ _, _ => trivial

/-- A weaker property of the expressions that occur in an atom. -/
theorem Atom.Every.mono (h : ∀ e, p e → q e) : {atom : Atom} → atom.Every p → atom.Every q
  | .closer, _ => trivial
  | .expr _, hevery => Expr.Every.mono h hevery

/-- A weaker property of the expressions that occur in an expression. -/
theorem Expr.Every.mono (h : ∀ e, p e → q e) : {e : Expr} → e.Every p → e.Every q
  | .literal _ _, hevery => ⟨h _ hevery.1, Value.Every.mono h hevery.2⟩
  | .input _, hevery => h _ hevery
  | .instr _ _, hevery => h _ hevery
  | .deferred _, hevery => h _ hevery
  | .block _, hevery => ⟨h _ hevery.1, Block.Every.mono h hevery.2⟩

/-- A weaker property of the expressions that occur in a block. -/
theorem Block.Every.mono (h : ∀ e, p e → q e) :
    {body : List Expr} → Block.Every p body → Block.Every q body
  | [], _ => trivial
  | _ :: _, hevery => ⟨Expr.Every.mono h hevery.1, Block.Every.mono h hevery.2⟩

end

end PushMachine
