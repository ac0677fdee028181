import PushMachine.Proofs.StackTyping

/-! # The size of strings and vectors

A program whose strings and vectors are within the limit on collections never makes one that is
not: on no stack, and in no literal of the code that is pending or on the stack for code. Some
instructions test the limit, and the others make nothing longer than what they take
(`Registry.KeepsCore.unrolled_withinCap`). -/

namespace PushMachine

/-! ## Values within a limit -/

/-- A string or a vector of at most `cap` characters or items, and so are the strings in it; or any
other value. -/
@[simp] def Value.FitsCap (cap : Nat) : Value → Prop
  | .str s => s.length ≤ cap
  | .bools items => items.length ≤ cap
  | .ints items => items.length ≤ cap
  | .floats items => items.length ≤ cap
  | .chars items => items.length ≤ cap
  | .strs items => items.length ≤ cap ∧ ∀ s ∈ items, s.length ≤ cap
  | _ => True

/-- A literal of a value that `FitsCap`, or any other expression. -/
def Expr.FitsCap (cap : Nat) : Expr → Prop
  | .literal value _ => value.FitsCap cap
  | _ => True

/-- **A value within the limit** `cap`, with all literals that occur in it. -/
@[simp] def Value.WithinCap (cap : Nat) (value : Value) : Prop :=
  value.FitsCap cap ∧ value.Every (Expr.FitsCap cap)

/-- **A state within the limit**: every string and vector on a stack, or in a literal of code on a
stack, has at most `cap` characters or items. -/
def State.WithinCap (cap : Nat) (state : State) : Prop :=
  ∀ id items, state.stack? id = some items → ∀ value ∈ items, value.WithinCap cap

namespace Registry

variable {registry : Registry} {cap : Nat}

/-- The vectors of a type are closed, if they are `WithinCap` exactly as far as their items and
their length are. -/
theorem closedItems_withinCap {α : Type} [BEq α] [Item α]
    (within_iff : ∀ items : List α, (Item.toVector items).WithinCap cap ↔
      items.length ≤ cap ∧ ∀ x ∈ items, (Item.toValue x).WithinCap cap)
    {caps : SizeCaps} (hcap : caps.collectionSizeCap = cap) :
    (registry.typing (Value.WithinCap cap)).ClosedItems caps α where
  item items within := ((within_iff items).mp within).2
  capped items within hlength := (within_iff items).mpr ⟨hcap ▸ hlength, within⟩
  shorter items new within hnew hlength :=
    (within_iff new).mpr ⟨hlength.trans ((within_iff items).mp within).1, hnew⟩

/-- **Values within the limit** `collectionSizeCap` are kept by the core instructions. -/
theorem KeepsCore.unrolled_withinCap (keeps : registry.KeepsCore) (caps : SizeCaps) :
    (registry.typing (Value.WithinCap caps.collectionSizeCap)).Unrolled caps where
  declared_present h := h
  code_iff := keeps.belongs_code_iff
  data_iff := keeps.belongs_data_iff
  bool _ := ⟨trivial, trivial⟩
  int _ := ⟨trivial, trivial⟩
  float _ := ⟨trivial, trivial⟩
  char _ := ⟨trivial, trivial⟩
  str _ hlength := ⟨hlength, trivial⟩
  piece _ _ within hlength := ⟨hlength.trans within.1, trivial⟩
  bools := closedItems_withinCap (fun _ => by simp [Item.toVector, Item.toValue, Value.Every]) rfl
  ints := closedItems_withinCap (fun _ => by simp [Item.toVector, Item.toValue, Value.Every]) rfl
  floats := closedItems_withinCap (fun _ => by simp [Item.toVector, Item.toValue, Value.Every]) rfl
  chars := closedItems_withinCap (fun _ => by simp [Item.toVector, Item.toValue, Value.Every]) rfl
  strs := closedItems_withinCap (fun _ => by simp [Item.toVector, Item.toValue, Value.Every]) rfl
  literal _ allowed := ⟨trivial, allowed.2⟩
  deferred _ _ _ := ⟨trivial, trivial⟩
  part within hmem := ⟨trivial, Block.every_iff.mp within.2.2 _ hmem⟩
  built within _ := ⟨trivial, trivial, Block.every_iff.mpr fun e he => (within e he).2⟩
  rearranged within hsubperm := ⟨trivial, trivial, Block.every_iff.mpr fun e he =>
    Block.every_iff.mp within.2.2 e (hsubperm.subset he)⟩
  nil := ⟨trivial, trivial, trivial⟩
  turn {vector reference body} hvector hreference hbody := by
    refine ⟨trivial, trivial, Block.every_iff.mpr fun e he => ?_⟩
    simp only [Block.mem_ofAtoms, List.mem_cons, List.not_mem_nil, or_false, Atom.expr.injEq] at he
    rcases he with rfl | rfl | rfl
    · exact hvector.2
    · exact hreference.2
    · exact hbody.2

end Registry

/-! ## Runs -/

namespace Machine

/-- **Strings and vectors stay within the limit**: if every string and vector in the literals of a
program and in its inputs has at most `collectionSizeCap` characters or items, at any depth, then
the core machine runs it through such states only, and ends in one. -/
theorem run_withinCap (code : Block) (inputs : List Value) (outputs : List String)
    (limits : Limits) (clock : Clock)
    (literals : Block.Every (Expr.FitsCap limits.collectionSizeCap) code)
    (within : ∀ value ∈ inputs, value.WithinCap limits.collectionSizeCap) :
    (∀ n state, core.Reaches limits code inputs n state →
        state.WithinCap limits.collectionSizeCap) ∧
      (core.run code inputs outputs limits clock).2.state.WithinCap limits.collectionSizeCap := by
  have keeps : Registry.core.KeepsCore := Registry.Evolves.start.keepsCore
  have unrolled := keeps.unrolled_withinCap limits.toSizeCaps
  have governs := keeps.governs_typing unrolled.toClosed (fun hliteral => hliteral.2)
    (InstructionSet.core_keeps unrolled fun _ h => h) within
  obtain ⟨hreached, hfinal, -⟩ := governs.run core (State.governed_typing .core _ inputs)
    ⟨trivial, trivial, literals⟩ outputs clock
  have hstacks {state : State} (governed : state.Governed
      (Registry.core.typing (Value.WithinCap limits.collectionSizeCap)) inputs) :
      state.WithinCap limits.collectionSizeCap :=
    fun id items hitems value hvalue => (governed.meets.allowed id items hitems value hvalue).2
  exact ⟨fun n state hreaches => hstacks (hreached n state hreaches), hstacks hfinal⟩

/-- A string that cannot grow, one in quoted code, and a vector among the inputs stay within a limit
that they just reach. -/
theorem run_withinCap_of_full :
    let code : Block := [.literal (.str "abcd") .str, .instr "exec_dup" 1,
      .block [.literal (.str "e") .str, .instr "str_concat" 0],
      .literal (.code (.expr (.literal (.strs ["wxyz", ""]) .vectorStr))) .code, .input 0]
    let inputs : List Value := [.code (.expr (.block [.literal (.ints [1, 2, 3, 4]) .vectorInt,
      .instr "vector_int_dup" 0, .instr "vector_int_concat" 0]))]
    let limits : Limits := { collectionSizeCap := 4 }
    (∀ n state, core.Reaches limits code inputs n state → state.WithinCap 4) ∧
      (core.run code inputs [] limits .still).2.state.WithinCap 4 := by
  intro code inputs limits
  refine run_withinCap code inputs [] limits .still ?_ ?_
  · have hlengths : "abcd".length ≤ 4 ∧ "e".length ≤ 4 ∧ "wxyz".length ≤ 4 := by decide
    simpa [code, limits, Block.Every, Expr.Every, Value.Every, Atom.Every, Expr.FitsCap]
      using hlengths
  · simp [inputs, limits, Value.Every, Atom.Every, Expr.Every, Block.Every, Expr.FitsCap]

end Machine

end PushMachine
