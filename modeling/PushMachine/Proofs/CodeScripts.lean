import PushMachine.Instruction.Control
import PushMachine.Proofs.Closure

/-! # Instructions on code

The instructions that edit code and those that decide what runs next obey every closed discipline.
Code that is taken apart has sound parts (`Discipline.Closed.sound_atPoint?`), and code that is put
together within the limit has blocks within the limit only, so every block in it may be built from
the inside out (`Discipline.Closed.sound_block`, `Discipline.Closed.sound_insertBefore`). The main
statements are `codeEditing_obeys` and `control_obeys`. -/

namespace PushMachine

/-! ## Blocks and atoms -/

namespace Block

/-- The block `ofAtoms atoms` has the expressions among the atoms as its parts. -/
theorem mem_ofAtoms {e : Expr} {atoms : List Atom} : e ∈ ofAtoms atoms ↔ Atom.expr e ∈ atoms := by
  rw [ofAtoms, List.mem_filterMap]
  constructor
  · rintro ⟨atom, hatom, heq⟩
    cases atom <;> cases heq
    exact hatom
  · exact fun h => ⟨.expr e, h, rfl⟩

/-- The parts of `consAtom atom parts` are the atom, if it is an expression, and the others. -/
theorem mem_consAtom {e : Expr} {atom : Atom} {parts : Block} (h : e ∈ consAtom atom parts) :
    Atom.expr e = atom ∨ e ∈ parts := by
  cases atom with
  | closer => exact .inr h
  | expr other => exact (List.mem_cons.mp h).imp_left (congrArg Atom.expr)

end Block

/-- Code that is not a `.block` has only itself at its points. -/
theorem Expr.eq_of_atPoint? {e found : Expr} {point : Nat}
    (h : e.atPoint? point = some found) (hleaf : ∀ body, e ≠ .block body) : e = found := by
  rw [Expr.atPoint?] at h
  · exact Option.some.inj (Option.ite_none_right_eq_some.mp h).2
  · exact hleaf

/-! ## Sound code -/

namespace Discipline.Closed

open Script

variable {discipline : Discipline} {caps : SizeCaps} {id : StackId}

/-- The parts of a sound atom (`Atom.toBlock`) are sound. -/
theorem sound_of_mem_toBlock (closed : discipline.Closed caps) {atom : Atom}
    (sound : discipline.sound (.code atom)) {e : Expr} (h : e ∈ atom.toBlock) :
    discipline.sound (.code (.expr e)) := by
  cases atom with
  | closer => cases h
  | expr other =>
    cases other with
    | block body => exact closed.part sound h
    | _ =>
      rw [Atom.toBlock, List.mem_singleton] at h
      · rw [h]
        exact sound
      · exact nofun

mutual

/-- The code that `atPoint?` finds in sound code is sound. -/
theorem sound_atPoint? (closed : discipline.Closed caps) {found : Expr} :
    (e : Expr) → (point : Nat) → discipline.sound (.code (.expr e)) →
      e.atPoint? point = some found → discipline.sound (.code (.expr found))
  | .block body, point, sound, hfound => by
    rw [Expr.atPoint?] at hfound
    split at hfound
    · cases hfound
      exact sound
    · exact sound_partAt? closed body (point - 1) (fun e => closed.part sound) hfound
  | .literal _ _, _, sound, hfound => Expr.eq_of_atPoint? hfound nofun ▸ sound
  | .input _, _, sound, hfound => Expr.eq_of_atPoint? hfound nofun ▸ sound
  | .instr _ _, _, sound, hfound => Expr.eq_of_atPoint? hfound nofun ▸ sound
  | .deferred _, _, sound, hfound => Expr.eq_of_atPoint? hfound nofun ▸ sound

/-- The code that `partAt?` finds among sound parts is sound. -/
theorem sound_partAt? (closed : discipline.Closed caps) {found : Expr} :
    (parts : List Expr) → (point : Nat) → (∀ e ∈ parts, discipline.sound (.code (.expr e))) →
      Block.partAt? parts point = some found → discipline.sound (.code (.expr found))
  | [], _, _, hfound => nomatch hfound
  | e :: rest, point, sound, hfound => by
    obtain ⟨he, hrest⟩ := List.forall_mem_cons.mp sound
    rw [Block.partAt?] at hfound
    split at hfound
    · exact sound_atPoint? closed e point he hfound
    · exact sound_partAt? closed rest (point - e.size) hrest hfound

end

/-- A block of atoms with at most `maxPoints` points is sound if the expressions among them are, as
far as these are within the limit too. -/
theorem sound_block (closed : discipline.Closed caps) {atoms : List Atom}
    (sound : ∀ e, Atom.expr e ∈ atoms → e.size ≤ caps.maxPoints →
      discipline.sound (.code (.expr e)))
    (hsize : (Atom.block atoms).size ≤ caps.maxPoints) :
    discipline.sound (.code (Atom.block atoms)) := by
  have hbody : 1 + Block.partsSize (Block.ofAtoms atoms) ≤ caps.maxPoints := hsize
  refine closed.built (fun e he => sound e (Block.mem_ofAtoms.mp he) ?_) hsize
  have := Block.size_le_partsSize he
  omega

mutual

/-- An atom inserted into sound code by `insertInside` gives sound code within the limit. -/
theorem sound_insertInside (closed : discipline.Closed caps) {atom : Atom}
    (hatom : discipline.sound (.code atom)) :
    (e : Expr) → (point : Nat) → discipline.sound (.code (.expr e)) →
      (e.insertInside atom point).size ≤ caps.maxPoints →
      discipline.sound (.code (.expr (e.insertInside atom point)))
  | .block body, point, sound, hsize => by
    rw [Expr.insertInside] at hsize ⊢
    refine closed.built (sound_insertBefore closed hatom body (point - 1) ?_ hsize) hsize
    exact fun e => closed.part sound
  | .literal _ _, _, sound, _ => sound
  | .input _, _, sound, _ => sound
  | .instr _ _, _, sound, _ => sound
  | .deferred _, _, sound, _ => sound

/-- An atom inserted among sound parts by `insertBefore` gives sound parts, if they make a block
within the limit. -/
theorem sound_insertBefore (closed : discipline.Closed caps) {atom : Atom}
    (hatom : discipline.sound (.code atom)) :
    (parts : List Expr) → (point : Nat) → (∀ e ∈ parts, discipline.sound (.code (.expr e))) →
      Block.size (Block.insertBefore atom parts point) ≤ caps.maxPoints →
      ∀ e ∈ Block.insertBefore atom parts point, discipline.sound (.code (.expr e))
  | [], _, _, _ => by
    intro e he
    rcases Block.mem_consAtom he with rfl | hmem
    · exact hatom
    · cases hmem
  | other :: rest, point, sound, hsize => by
    obtain ⟨hother, hrest⟩ := List.forall_mem_cons.mp sound
    rw [Block.insertBefore] at hsize ⊢
    -- The atom goes in front of the part, into it, or behind it.
    split at hsize
    next hpoint =>
      intro e he
      rw [if_pos hpoint] at he
      rcases Block.mem_consAtom he with rfl | hmem
      · exact hatom
      · exact sound e hmem
    next hpoint =>
      rw [if_neg hpoint]
      split at hsize
      next hinside =>
        rw [if_pos hinside]
        rw [Block.size, Block.partsSize_cons] at hsize
        refine List.forall_mem_cons.mpr ⟨?_, hrest⟩
        exact sound_insertInside closed hatom other point hother (by omega)
      next hinside =>
        rw [if_neg hinside]
        rw [Block.size, Block.partsSize_cons] at hsize
        refine List.forall_mem_cons.mpr ⟨hother, ?_⟩
        refine sound_insertBefore closed hatom rest (point - other.size) hrest ?_
        rw [Block.size]
        omega

end

end Discipline.Closed

namespace Instruction

open Script

variable {discipline : Discipline} {caps : SizeCaps} {id : StackId}

/-! ## Editing code -/

/-- Pushing code by `pushCodeWithin` obeys, if the code is sound where it is within the limit. -/
theorem pushCodeWithin_obeys (closed : discipline.Closed caps) (hid : id = .exec ∨ id = .code)
    (declared : discipline.declared id) {post : Unit → Prop} {atom : Atom}
    (sound : atom.size ≤ caps.maxPoints → discipline.sound (.code atom)) (h : post ()) :
    (pushCodeWithin caps id atom).Obeys discipline post := by
  rw [pushCodeWithin]
  split
  next => exact revert_obeys
  next hcap => exact closed.pushAtom hid declared (sound (Nat.le_of_not_lt hcap)) h

/-- Pushing a block of sound parts by `pushBlockWithin` obeys. -/
theorem pushBlockWithin_obeys (closed : discipline.Closed caps) (code : discipline.declared .code)
    {post : Unit → Prop} {body : Block}
    (sound : ∀ e ∈ body, discipline.sound (.code (.expr e))) (h : post ()) :
    (pushBlockWithin caps body).Obeys discipline post :=
  pushCodeWithin_obeys closed (.inr rfl) code (closed.built sound) h

/-- Quoting a value. -/
theorem quoting_obeys (closed : discipline.Closed caps) (type : String) (id : StackId) :
    (quoting type id).Obeys discipline caps := by
  intro declared
  have present := closed.declared_present (declared id (by simp [touched, quoting]))
  have code := declared .code (by simp [touched, quoting])
  refine .bind (pop_obeys present fun value allowed => ?_)
  have hliteral := closed.literal present allowed
  exact pushCodeWithin_obeys closed (.inr rfl) code (fun _ => hliteral) trivial

/-- Quoting pending work. -/
theorem quotePending_keeps (closed : discipline.Closed caps) (exec : discipline.declared .exec)
    (code : discipline.declared .code) : (quotePending caps).Keeps discipline := by
  refine .bind (closed.popAtom (.inl rfl) exec fun atom sound => ?_)
  exact pushCodeWithin_obeys closed (.inr rfl) code (fun _ => sound) trivial

/-- Putting a block together from the two top atoms, by any `f` whose parts are theirs. -/
theorem combineAtoms_keeps (closed : discipline.Closed caps) (code : discipline.declared .code)
    {f : Atom → Atom → Block}
    (hf : ∀ top second e, e ∈ f top second → e ∈ top.toBlock ∨ e ∈ second.toBlock ∨
      Atom.expr e = top ∨ Atom.expr e = second) :
    (do
      let top ← popAtom .code
      let second ← popAtom .code
      pushBlockWithin caps (f top second)).Keeps discipline := by
  refine .bind (closed.popAtom (.inr rfl) code fun top htop => ?_)
  refine .bind (closed.popAtom (.inr rfl) code fun second hsecond => ?_)
  refine pushBlockWithin_obeys closed code (fun e he => ?_) trivial
  rcases hf top second e he with hmem | hmem | rfl | rfl
  · exact closed.sound_of_mem_toBlock htop hmem
  · exact closed.sound_of_mem_toBlock hsecond hmem
  · exact htop
  · exact hsecond

/-- The top block followed by the second (`appendBlocks`) is one of these. -/
theorem appendBlocks_keeps (closed : discipline.Closed caps) (code : discipline.declared .code) :
    (appendBlocks caps).Keeps discipline :=
  combineAtoms_keeps closed code fun _ _ _ he => (List.mem_append.mp he).imp_right .inl

/-- The second block followed by the top one. -/
theorem combineBlocks_keeps (closed : discipline.Closed caps) (code : discipline.declared .code) :
    (combineBlocks caps).Keeps discipline :=
  combineAtoms_keeps closed code fun _ _ _ he => (List.mem_append.mp he).symm.imp_right .inl

/-- The second atom in front of the top block. -/
theorem consBlock_keeps (closed : discipline.Closed caps) (code : discipline.declared .code) :
    (consBlock caps).Keeps discipline :=
  combineAtoms_keeps closed code fun _ _ _ he =>
    (Block.mem_consAtom he).symm.imp_right fun h => .inr (.inr h)

/-- The block of two atoms. -/
theorem listAtoms_keeps (closed : discipline.Closed caps) (code : discipline.declared .code) :
    (listAtoms caps).Keeps discipline := by
  refine combineAtoms_keeps closed code fun top second e he => .inr (.inr ?_)
  rcases List.mem_cons.mp (Block.mem_ofAtoms.mp he) with hsecond | htop
  · exact .inr hsecond
  · exact .inl (List.mem_singleton.mp htop)

/-- The block of one atom. -/
theorem wrapAtom_keeps (closed : discipline.Closed caps) (code : discipline.declared .code) :
    (wrapAtom caps).Keeps discipline := by
  refine .bind (closed.popAtom (.inr rfl) code fun top htop => ?_)
  refine pushBlockWithin_obeys closed code (fun e he => ?_) trivial
  rw [List.mem_singleton.mp (Block.mem_ofAtoms.mp he)]
  exact htop

/-- Changing an atom by an `f` that keeps soundness. -/
theorem changeAtom_keeps (closed : discipline.Closed caps) (code : discipline.declared .code)
    {f : Atom → Atom}
    (hf : ∀ atom, discipline.sound (.code atom) → discipline.sound (.code (f atom))) :
    (do
      let atom ← popAtom .code
      pushAtom .code (f atom)).Keeps discipline :=
  .bind (closed.popAtom (.inr rfl) code fun atom sound =>
    closed.pushAtom (.inr rfl) code (hf atom sound) trivial)

/-- The first part of a block. -/
theorem takeFirst_keeps (closed : discipline.Closed caps) (code : discipline.declared .code) :
    takeFirst.Keeps discipline := by
  refine changeAtom_keeps closed code fun atom sound => ?_
  fun_cases firstPart atom with
  | case1 e rest => exact closed.part sound List.mem_cons_self
  | case2 hother => exact sound

/-- The other parts of a block. -/
theorem takeOthers_keeps (closed : discipline.Closed caps) (code : discipline.declared .code) :
    takeOthers.Keeps discipline := by
  refine changeAtom_keeps closed code fun atom sound => ?_
  fun_cases otherParts atom with
  | case1 body => exact closed.rearranged sound (List.drop_sublist 1 body).subperm
  | case2 hother => exact closed.nil

/-- The first part of a block that has one. -/
theorem requireFirst_keeps (closed : discipline.Closed caps) (code : discipline.declared .code) :
    requireFirst.Keeps discipline := by
  refine .bind (closed.popAtom (.inr rfl) code fun atom sound => ?_)
  split
  next e rest =>
    exact closed.pushAtom (.inr rfl) code (closed.part sound List.mem_cons_self) trivial
  next => exact revert_obeys

/-- The other parts of a block that has a first one. -/
theorem requireOthers_keeps (closed : discipline.Closed caps) (code : discipline.declared .code) :
    requireOthers.Keeps discipline := by
  refine .bind (closed.popAtom (.inr rfl) code fun atom sound => ?_)
  split
  next e rest =>
    have hrest := closed.rearranged sound (List.sublist_cons_self e rest).subperm
    exact closed.pushAtom (.inr rfl) code hrest trivial
  next => exact revert_obeys

/-- The part of a block at a position. -/
theorem nthPart_keeps (closed : discipline.Closed caps) (code : discipline.declared .code)
    (int : discipline.declared .int) : nthPart.Keeps discipline := by
  refine .bind (closed.popInt int fun n => ?_)
  refine .bind (closed.popAtom (.inr rfl) code fun atom sound => ?_)
  refine ofOption_bind_obeys fun place _ => ofOption_bind_obeys fun e he => ?_
  have hpart := closed.sound_of_mem_toBlock sound (List.mem_of_getElem? he)
  exact closed.pushAtom (.inr rfl) code hpart trivial

/-- Measuring an atom. -/
theorem measureAtom_keeps (closed : discipline.Closed caps) (f : Atom → Nat)
    (code : discipline.declared .code) (int : discipline.declared .int) :
    (measureAtom f).Keeps discipline :=
  .bind (closed.popAtom (.inr rfl) code fun _ _ => closed.pushNat int trivial)

/-- The code at a point (`extractPoint`), by `sound_atPoint?`. -/
theorem extractPoint_keeps (closed : discipline.Closed caps) (code : discipline.declared .code)
    (int : discipline.declared .int) : extractPoint.Keeps discipline := by
  refine .bind (closed.popInt int fun n => ?_)
  refine .bind (closed.popAtom (.inr rfl) code fun atom sound => ?_)
  unfold pushPoint
  split
  next body =>
    refine ofOption_bind_obeys fun found hfound => ?_
    exact closed.pushAtom (.inr rfl) code (closed.sound_atPoint? _ _ sound hfound) trivial
  next => exact closed.pushAtom (.inr rfl) code sound trivial

/-- Inserting at a point (`insertPoint`), by `sound_insertBefore`. -/
theorem insertPoint_keeps (closed : discipline.Closed caps) (code : discipline.declared .code)
    (int : discipline.declared .int) : (insertPoint caps).Keeps discipline := by
  refine .bind (closed.popInt int fun n => ?_)
  refine .bind (closed.popAtom (.inr rfl) code fun target htarget => ?_)
  refine .bind (closed.popAtom (.inr rfl) code fun item hitem => ?_)
  refine pushCodeWithin_obeys closed (.inr rfl) code (fun hsize => closed.built ?_ hsize) trivial
  refine closed.sound_insertBefore hitem target.toBlock _ (fun e => ?_) hsize
  exact closed.sound_of_mem_toBlock htarget

/-- Testing for a part. -/
theorem testPart_keeps (closed : discipline.Closed caps) (code : discipline.declared .code)
    (bool : discipline.declared .bool) : testPart.Keeps discipline := by
  refine .bind (closed.popAtom (.inr rfl) code fun body _ => ?_)
  exact .bind (closed.popAtom (.inr rfl) code fun item _ => closed.pushBool bool trivial)

/-- Finding a part. -/
theorem findPart_keeps (closed : discipline.Closed caps) (code : discipline.declared .code)
    (int : discipline.declared .int) : findPart.Keeps discipline := by
  refine .bind (closed.popAtom (.inr rfl) code fun body _ => ?_)
  refine .bind (closed.popAtom (.inr rfl) code fun item _ => ?_)
  split
  · exact closed.pushNat int trivial
  · exact closed.pushInt int trivial

/-- Reversing a block. -/
theorem reverseBlock_keeps (closed : discipline.Closed caps) (code : discipline.declared .code) :
    reverseBlock.Keeps discipline := by
  refine changeAtom_keeps closed code fun atom sound => ?_
  fun_cases reverseParts atom with
  | case1 body => exact closed.rearranged sound (List.reverse_perm body).subperm
  | case2 hother => exact sound

/-- Testing an atom. -/
theorem testAtom_keeps (closed : discipline.Closed caps) (f : Atom → Bool)
    (code : discipline.declared .code) (bool : discipline.declared .bool) :
    (testAtom f).Keeps discipline :=
  .bind (closed.popAtom (.inr rfl) code fun _ _ => closed.pushBool bool trivial)

/-- **The instructions that edit code** (`codeEditing`) obey a closed discipline. -/
theorem codeEditing_obeys (closed : discipline.Closed caps) :
    ∀ instruction ∈ codeEditing, instruction.Obeys discipline caps := by
  simp only [codeEditing, List.forall_mem_cons, List.not_mem_nil, quoting_obeys closed, obeys_mk,
    false_implies, implies_true, forall_const, true_and, and_true, and_imp]
  -- In the order of the list; what an instruction declares comes as a hypothesis.
  exact ⟨trivial, trivial, quotePending_keeps closed,
    fun code _ _ => appendBlocks_keeps closed code, fun code _ _ => combineBlocks_keeps closed code,
    fun code _ _ => consBlock_keeps closed code, fun code _ _ => listAtoms_keeps closed code,
    fun code _ => wrapAtom_keeps closed code, fun code _ => takeFirst_keeps closed code,
    fun code _ => takeOthers_keeps closed code, fun code _ => requireFirst_keeps closed code,
    fun code _ => requireOthers_keeps closed code, fun code int _ => nthPart_keeps closed code int,
    measureAtom_keeps closed _, measureAtom_keeps closed _, measureAtom_keeps closed _,
    fun code int _ => extractPoint_keeps closed code int,
    fun code _ int _ => insertPoint_keeps closed code int,
    fun code _ bool => testPart_keeps closed code bool,
    fun code _ int => findPart_keeps closed code int, fun code _ => reverseBlock_keeps closed code,
    testAtom_keeps closed _, testAtom_keeps closed _⟩

/-! ## Control -/

/-- A body's stack is one for code. -/
theorem BodySource.stack_cases (source : BodySource) :
    source.stack = .exec ∨ source.stack = .code := by
  cases source with
  | code => exact .inr rfl
  | exec => exact .inl rfl

/-- A literal integer is sound, if `.int` is declared. -/
theorem sound_intLiteral (closed : discipline.Closed caps) (int : discipline.declared .int)
    (n : Int64) : discipline.sound (.code (.expr (.int n))) :=
  have present := closed.declared_present int
  closed.literal present (closed.allows_item (α := Int64) present (closed.int n))

/-- The `rangeBlock` of a loop over a range is sound within the limit. -/
theorem sound_rangeBlock (closed : discipline.Closed caps) {source : BodySource}
    (declared : discipline.declared source.stack) (exec : discipline.declared .exec)
    (int : discipline.declared .int) {start stop : Int64} {body : Atom}
    (sound : body.size ≤ caps.maxPoints → discipline.sound (.code body))
    (hsize : (rangeBlock source start stop body).size ≤ caps.maxPoints) :
    discipline.sound (.code (rangeBlock source start stop body)) := by
  -- The two blocks have their parts in different orders.
  cases source with
  | code =>
    refine closed.sound_block (fun e he hpoints => ?_) hsize
    simp only [List.mem_cons, List.not_mem_nil, or_false, Atom.expr.injEq] at he
    rcases he with rfl | rfl | rfl | rfl | rfl
    · exact sound_intLiteral closed int start
    · exact sound_intLiteral closed int stop
    · exact closed.deferred ("code_from_exec", [.exec, .code]) (by simp [selfReferences])
        (by simp [exec, show discipline.declared .code from declared])
    · exact sound hpoints
    · exact closed.deferred ("code_do_range", [.code, .int, .exec]) (by simp [selfReferences])
        (by simp [exec, int, show discipline.declared .code from declared])
  | exec =>
    refine closed.sound_block (fun e he hpoints => ?_) hsize
    simp only [List.mem_cons, List.not_mem_nil, or_false, Atom.expr.injEq] at he
    rcases he with rfl | rfl | rfl | rfl
    · exact sound_intLiteral closed int start
    · exact sound_intLiteral closed int stop
    · exact closed.deferred ("exec_do_range", [.exec, .int]) (by simp [selfReferences])
        (by simp [exec, int])
    · exact sound hpoints

/-- One turn of a loop over a range keeps a closed discipline, with `rangeBlock` for the next. -/
theorem rangeTurn_keeps (closed : discipline.Closed caps) {source : BodySource}
    (declared : discipline.declared source.stack) (int : discipline.declared .int)
    (exec : discipline.declared .exec) : (rangeTurn source caps).Keeps discipline := by
  refine .bind (closed.popAtom source.stack_cases declared fun body hbody => ?_)
  refine .bind (closed.popInt int fun stop => .bind (closed.popInt int fun current => ?_))
  have finish : (do pushInt current; pushAtom .exec body : Script Unit).Keeps discipline :=
    .bind (closed.pushInt int (closed.pushAtom (.inl rfl) exec hbody trivial))
  split
  · refine .bind (pushCodeWithin_obeys closed (.inl rfl) exec (fun hsize => ?_) finish)
    exact sound_rangeBlock closed declared exec int (fun _ => hbody) hsize
  · exact finish

/-- Setting up a loop that runs as often as an integer says (`repeatLoop`). -/
theorem repeatLoop_keeps (closed : discipline.Closed caps) {source : BodySource}
    (hideCounter : Bool) (declared : discipline.declared source.stack)
    (int : discipline.declared .int) (exec : discipline.declared .exec) :
    (repeatLoop source hideCounter caps).Keeps discipline := by
  refine .bind (closed.popInt int fun n => ?_)
  refine .bind (closed.popAtom source.stack_cases declared fun body hbody => ?_)
  split
  · exact revert_obeys
  · refine pushCodeWithin_obeys closed (.inl rfl) exec (fun hsize => ?_) trivial
    refine sound_rangeBlock closed declared exec int (fun hinner => ?_) hsize
    cases hideCounter with
    | false => exact hbody
    | true =>
      -- The inner block is within the limit because the block around it is.
      refine closed.sound_block (fun e he _ => ?_) hinner
      rcases List.mem_cons.mp he with heq | hmem
      · cases heq
        exact closed.deferred ("int_pop", [.int]) (by simp [selfReferences]) (by simp [int])
      · rw [List.mem_singleton.mp hmem]
        exact hbody

/-- Leaving a body, `.deferred "exec_while"` and the body again behind. -/
theorem pushLoop_keeps (closed : discipline.Closed caps) (exec : discipline.declared .exec)
    {body : Atom} (sound : discipline.sound (.code body)) :
    (do
      pushAtom .exec body
      pushAtom .exec (.expr (.deferred "exec_while"))
      pushAtom .exec body : Script Unit).Keeps discipline := by
  have hloop : discipline.sound (.code (.expr (.deferred "exec_while"))) :=
    closed.deferred ("exec_while", [.exec]) (by simp [selfReferences]) (by simp [exec])
  refine .bind (closed.pushAtom (.inl rfl) exec sound ?_)
  refine .bind (closed.pushAtom (.inl rfl) exec hloop ?_)
  exact closed.pushAtom (.inl rfl) exec sound trivial

/-- Running a body and then the loop again. -/
theorem doWhileTurn_keeps (closed : discipline.Closed caps) (exec : discipline.declared .exec) :
    doWhileTurn.Keeps discipline :=
  .bind (closed.popAtom (.inl rfl) exec fun _ hbody => pushLoop_keeps closed exec hbody)

/-- One turn of a loop. The stack `.bool` is not declared, but a stack with an item is present. -/
theorem whileTurn_keeps (closed : discipline.Closed caps) (exec : discipline.declared .exec) :
    whileTurn.Keeps discipline := by
  refine .bind (closed.popAtom (.inl rfl) exec fun body hbody => ?_)
  refine .bind (depth_obeys fun count hcount => ?_)
  split
  next => trivial
  next hne =>
    refine .bind (closed.popItem (α := Bool) (hcount hne) fun condition _ => ?_)
    split
    · trivial
    · exact pushLoop_keeps closed exec hbody

/-- Running code and dropping it afterwards. -/
theorem callCode_keeps (closed : discipline.Closed caps) (code : discipline.declared .code)
    (exec : discipline.declared .exec) : callCode.Keeps discipline := by
  refine .bind (closed.peekAtom (.inr rfl) code fun body hbody => .bind ?_)
  refine closed.pushAtom (.inl rfl) exec ?_ (closed.pushAtom (.inl rfl) exec hbody trivial)
  exact closed.deferred ("code_pop", [.code]) (by simp [selfReferences]) (by simp [code])

/-- Choosing by `f` between two atoms of a stack for code. -/
theorem choose_keeps (closed : discipline.Closed caps) (hid : id = .exec ∨ id = .code)
    (declared : discipline.declared id) (bool : discipline.declared .bool)
    (exec : discipline.declared .exec) {f : Bool → Atom → Atom → Atom}
    (hf : ∀ condition first second,
      f condition first second = first ∨ f condition first second = second) :
    (do
      let condition ← popBool
      let first ← popAtom id
      let second ← popAtom id
      pushAtom .exec (f condition first second)).Keeps discipline := by
  refine .bind (closed.popBool bool fun condition => ?_)
  refine .bind (closed.popAtom hid declared fun first hfirst => ?_)
  refine .bind (closed.popAtom hid declared fun second hsecond => ?_)
  refine closed.pushAtom (.inl rfl) exec ?_ trivial
  rcases hf condition first second with heq | heq
  · rw [heq]
    exact hfirst
  · rw [heq]
    exact hsecond

/-- Running code if a truth value is true. -/
theorem callCodeWhen_keeps (closed : discipline.Closed caps) (code : discipline.declared .code)
    (bool : discipline.declared .bool) (exec : discipline.declared .exec) :
    callCodeWhen.Keeps discipline := by
  refine .bind (closed.popBool bool fun condition => ?_)
  refine .bind (closed.popAtom (.inr rfl) code fun body hbody => ?_)
  split
  · exact closed.pushAtom (.inl rfl) exec hbody trivial
  · trivial

/-- Dropping pending work unless a truth value is true. -/
theorem keepPendingWhen_keeps (closed : discipline.Closed caps) (exec : discipline.declared .exec)
    (bool : discipline.declared .bool) : keepPendingWhen.Keeps discipline := by
  refine .bind (closed.popBool bool fun condition => ?_)
  split
  · exact .bind (pop_obeys (closed.declared_present exec) fun _ _ => trivial)
  · trivial

/-- Running a body on every part of a block, by `mapPlan`. -/
theorem mapBlock_keeps (closed : discipline.Closed caps) (code : discipline.declared .code)
    (exec : discipline.declared .exec) : (mapBlock caps).Keeps discipline := by
  refine .bind (closed.popAtom (.inr rfl) code fun items hitems => ?_)
  refine .bind (closed.popAtom (.inl rfl) exec fun body hbody => ?_)
  split
  next hempty =>
    rw [List.isEmpty_iff.mp hempty]
    exact closed.pushAtom (.inr rfl) code closed.nil trivial
  next =>
    refine pushCodeWithin_obeys closed (.inl rfl) exec (closed.sound_block fun e he _ => ?_) trivial
    simp only [List.mem_append, List.mem_flatMap, List.mem_cons, List.not_mem_nil, or_false,
      Atom.expr.injEq] at he
    -- Three atoms for every item, then the references that gather the results.
    rcases he with ⟨item, hitem, rfl | rfl | rfl⟩ | rfl | hcons
    · exact closed.deferred ("code_from_exec", [.exec, .code]) (by simp [selfReferences])
        (by simp [exec, code])
    · exact closed.sound_of_mem_toBlock hitems hitem
    · exact hbody
    · exact closed.deferred ("code_wrap", [.code]) (by simp [selfReferences]) (by simp [code])
    · cases List.eq_of_mem_replicate hcons
      exact closed.deferred ("code_cons", [.code]) (by simp [selfReferences]) (by simp [code])

/-- **The loops** over one source (`loops source`) obey a closed discipline. -/
theorem loops_obeys (closed : discipline.Closed caps) (source : BodySource) :
    ∀ instruction ∈ loops source, instruction.Obeys discipline caps := by
  simp only [loops, List.forall_mem_cons, List.not_mem_nil, obeys_mk, false_implies, implies_true,
    and_true, and_imp]
  exact ⟨fun declared int _ exec _ => rangeTurn_keeps closed declared int exec,
    repeatLoop_keeps closed false, repeatLoop_keeps closed true⟩

/-- **The instructions that control what runs next** (`control`) obey a closed discipline. -/
theorem control_obeys (closed : discipline.Closed caps) :
    ∀ instruction ∈ control, instruction.Obeys discipline caps := by
  rw [control, List.forall_mem_append, List.forall_mem_append, List.forall_mem_append]
  simp only [List.forall_mem_cons, List.not_mem_nil, obeys_mk, false_implies, implies_true,
    forall_const, and_true, and_imp]
  refine ⟨⟨⟨⟨callCode_keeps closed, fun code exec => ?_⟩, loops_obeys closed .code⟩,
    loops_obeys closed .exec⟩, fun exec _ => whileTurn_keeps closed exec,
    fun exec _ => doWhileTurn_keeps closed exec, fun code _ bool exec => ?_,
    fun exec _ bool _ => ?_, callCodeWhen_keeps closed, keepPendingWhen_keeps closed,
    fun code exec _ _ => mapBlock_keeps closed code exec⟩
  · exact .bind (closed.popAtom (.inr rfl) code fun body hbody =>
      closed.pushAtom (.inl rfl) exec hbody trivial)
  · exact choose_keeps closed (.inr rfl) code bool exec fun _ _ _ => (ite_eq_or_eq _ _ _).symm
  · exact choose_keeps closed (.inl rfl) exec bool exec fun _ _ _ => ite_eq_or_eq _ _ _

end Instruction

end PushMachine
