import Mathlib.Logic.Function.Iterate
import PushMachine.Proofs.PendingWork

/-! # Counted loops are folds

A loop over a range takes one turn and leaves a block behind that runs the other turns. So a run of
it is told by induction on the distance of the counters: one turn pushes the counter and the body
and the block for the others (`does_rangeTurn`), the block leads to the next call of the loop
(`leads_rangeBlock`), and together they visit all counters in order (`leads_range`). The loops that
repeat a body leave the block for a whole range. One of them hides the counter, by a body that drops
it first. -/

namespace PushMachine

/-! ## Counters -/

namespace Instruction

variable {start stop : Int64}

/-- The number that is `k` steps away from `start`, towards `stop`. -/
def counterAt (start stop : Int64) (k : Nat) : Int :=
  start.toInt + (stop.toInt - start.toInt).sign * k

/-- **The counters** from `start` to `stop`, one apart. -/
def counters (start stop : Int64) : List Int64 :=
  (List.range ((stop.toInt - start.toInt).natAbs + 1)).map fun k =>
    Int64.ofInt (counterAt start stop k)

/-- Counters go up or down. -/
theorem sign_cases (h : start ≠ stop) :
    (start.toInt < stop.toInt ∧ (stop.toInt - start.toInt).sign = 1) ∨
      (stop.toInt < start.toInt ∧ (stop.toInt - start.toInt).sign = -1) := by
  have hne : start.toInt ≠ stop.toInt := fun heq => h (Int64.toInt_inj.mp heq)
  rcases Int.lt_or_gt_of_ne hne with hlt | hgt
  · exact .inl ⟨hlt, Int.sign_eq_one_of_pos (Int.sub_pos_of_lt hlt)⟩
  · exact .inr ⟨hgt, Int.sign_eq_neg_one_of_neg (Int.sub_neg_of_lt hgt)⟩

/-- The counters on the way are integers of the machine: `Int64.ofInt` loses nothing of `counterAt`.
-/
theorem toInt_counterAt {k : Nat} (hk : k ≤ (stop.toInt - start.toInt).natAbs) :
    (Int64.ofInt (counterAt start stop k)).toInt = counterAt start stop k := by
  have hstart := start.le_toInt
  have hstart' := start.toInt_lt
  have hstop := stop.le_toInt
  have hstop' := stop.toInt_lt
  have hbounds : -2 ^ 63 ≤ counterAt start stop k ∧ counterAt start stop k < 2 ^ 63 := by
    rw [counterAt]
    by_cases heq : start = stop
    · rw [heq, Int.sub_self, Int.sign_zero]
      omega
    · rcases sign_cases heq with ⟨hlt, hsign⟩ | ⟨hlt, hsign⟩ <;> rw [hsign] <;> omega
  exact Int64.toInt_ofInt_of_le hbounds.1 hbounds.2

theorem counterAt_zero (start stop : Int64) : counterAt start stop 0 = start.toInt := by
  rw [counterAt, Int.natCast_zero, Int.mul_zero, Int.add_zero]

/-- The next counter is one step away, `counterAt start stop 1`, and it does not wrap around. -/
theorem toInt_nextCounter (h : start ≠ stop) :
    (nextCounter start stop).toInt = counterAt start stop 1 := by
  have hnext : nextCounter start stop = Int64.ofInt (counterAt start stop 1) := by
    rw [nextCounter, counterAt]
    rcases sign_cases h with ⟨hlt, hsign⟩ | ⟨hlt, hsign⟩
    · rw [if_pos (Int64.lt_iff_toInt_lt.mpr hlt), hsign, Int64.ofInt_add, Int64.ofInt_toInt]
      rfl
    · have hnot : ¬start < stop := fun hlt' => by
        rw [Int64.lt_iff_toInt_lt] at hlt'
        omega
      rw [if_neg hnot, hsign, Int64.ofInt_add, Int64.ofInt_toInt]
      exact Int64.sub_eq_add_neg start 1
  rw [hnext, toInt_counterAt]
  rcases sign_cases h with ⟨hlt, -⟩ | ⟨hlt, -⟩ <;> omega

/-- The next counter is one step nearer. -/
theorem natAbs_nextCounter (h : start ≠ stop) :
    (stop.toInt - (nextCounter start stop).toInt).natAbs + 1 =
      (stop.toInt - start.toInt).natAbs := by
  rw [toInt_nextCounter h, counterAt]
  rcases sign_cases h with ⟨hlt, hsign⟩ | ⟨hlt, hsign⟩ <;> rw [hsign] <;> omega

/-- The counters from `nextCounter` on are those that are one step further away. -/
theorem counterAt_nextCounter (h : start ≠ stop) {k : Nat}
    (hk : k + 1 ≤ (stop.toInt - start.toInt).natAbs) :
    counterAt (nextCounter start stop) stop k = counterAt start stop (k + 1) := by
  have hnext := toInt_nextCounter h
  rw [counterAt] at hnext
  rw [counterAt, counterAt]
  by_cases heq : nextCounter start stop = stop
  · -- The next counter is the last, so none is left behind it.
    have hdistance := natAbs_nextCounter h
    rw [heq, Int.sub_self] at hdistance
    obtain rfl : k = 0 := by omega
    omega
  · -- Otherwise the direction stays the same.
    rcases sign_cases h with ⟨hlt, hsign⟩ | ⟨hlt, hsign⟩ <;>
      rcases sign_cases heq with ⟨hlt', hsign'⟩ | ⟨hlt', hsign'⟩ <;>
      rw [hsign] at hnext ⊢ <;> rw [hsign', hnext] <;> omega

theorem counters_self (n : Int64) : counters n n = [n] := by
  rw [counters, Int.sub_self, Int.natAbs_zero]
  show [Int64.ofInt (counterAt n n 0)] = [n]
  rw [counterAt_zero, Int64.ofInt_toInt]

/-- The first counter, `start`, and the others. -/
theorem counters_cons (h : start ≠ stop) :
    counters start stop = start :: counters (nextCounter start stop) stop := by
  rw [counters, counters, natAbs_nextCounter h, List.range_succ_eq_map, List.map_cons,
    counterAt_zero, Int64.ofInt_toInt, List.map_map]
  congr 1
  refine List.map_congr_left fun k hk => ?_
  rw [Function.comp_apply, counterAt_nextCounter h (List.mem_range.mp hk)]

theorem length_counters (start stop : Int64) :
    (counters start stop).length = (stop.toInt - start.toInt).natAbs + 1 := by
  rw [counters, List.length_map, List.length_range]

/-- No counter wraps around. -/
theorem map_toInt_counters (start stop : Int64) :
    (counters start stop).map Int64.toInt =
      (List.range ((stop.toInt - start.toInt).natAbs + 1)).map (counterAt start stop) := by
  rw [counters, List.map_map]
  refine List.map_congr_left fun k hk => ?_
  rw [Function.comp_apply, toInt_counterAt (Nat.le_of_lt_succ (List.mem_range.mp hk))]

/-- A positive number has one before it. -/
theorem toInt_sub_one {n : Int64} (positive : 1 ≤ n) : (n - 1).toInt = n.toInt - 1 := by
  have hone : (1 : Int64).toInt = 1 := rfl
  have hpositive := Int64.le_iff_toInt_le.mp positive
  have hlt := n.toInt_lt
  rw [Int64.toInt_sub, hone, Int.bmod_eq_of_le] <;> omega

end Instruction

/-! ## Bodies on their stack -/

namespace Instruction

open Script

variable {source : BodySource} {caps : SizeCaps} {body : Expr} {config : Config}
  {pending items ints : List Value} {rest : State} {start stop n : Int64}

/-- The configuration with `body` on top of the stack that a loop takes it from. -/
def BodySource.offer (source : BodySource) (body : Expr) (config : Config) : Config :=
  match source with
  | .code => ⟨config.pending, config.rest.modifyStack .code (.code (.expr body) :: ·)⟩
  | .exec => ⟨.code (.expr body) :: config.pending, config.rest⟩

/-- Number of points that the block for a range has besides the `body`. -/
def BodySource.overhead : BodySource → Nat
  | .code => 5
  | .exec => 4

theorem size_rangeBlock (source : BodySource) (start stop : Int64) (body : Expr) :
    (rangeBlock source start stop (.expr body)).size = body.size + source.overhead := by
  cases source with
  | code =>
    show 1 + (1 + (1 + (1 + (body.size + (1 + 0))))) = body.size + 5
    omega
  | exec =>
    show 1 + (1 + (1 + (1 + (body.size + 0)))) = body.size + 4
    omega

theorem BodySource.stack_ne_int (source : BodySource) : source.stack ≠ .int := by
  cases source <;> decide

/-- The stack for bodies, `source.stack`, is not that of the counters. -/
theorem stack?_setStack_int :
    (Config.mk pending (rest.setStack .int ints)).stack? source.stack =
      (Config.mk pending rest).stack? source.stack := by
  cases source with
  | exec => rfl
  | code => exact State.stack?_setStack_of_ne (by decide) ints

/-- The body is on top of `source.stack`, and below it is what was there. -/
theorem stack?_offer (present : config.stack? source.stack = some items) (body : Expr) :
    (source.offer body config).stack? source.stack = some (.code (.expr body) :: items) ∧
      (source.offer body config).setStack source.stack items = config := by
  cases source with
  | exec =>
    cases present
    exact ⟨rfl, rfl⟩
  | code =>
    have hcodes : config.rest.stack? .code = some items := present
    simp only [BodySource.offer, State.modifyStack_of_found hcodes]
    refine ⟨State.stack?_setStack_self hcodes _, ?_⟩
    show Config.mk config.pending ((config.rest.setStack .code _).setStack .code items) = config
    rw [State.setStack_setStack, State.setStack_self hcodes]

/-- The integers are where they were before `offer`. -/
theorem stack?_offer_int (source : BodySource) (body : Expr) (config : Config) :
    (source.offer body config).stack? .int = config.rest.stack? .int := by
  cases source with
  | exec => rfl
  | code => exact State.stack?_modifyStack_of_ne (by decide) _

/-- Taking the body that was offered, with `popAtom source.stack`. -/
theorem does_popAtom_offer (present : config.stack? source.stack = some items) :
    (popAtom source.stack).Does (source.offer body config) (.expr body) config 0 := by
  obtain ⟨hfound, hback⟩ := stack?_offer present body
  exact (does_popAtom hfound).to hback

/-- Taking an integer besides the body, with `popInt`. -/
theorem does_popInt_offer (found : rest.stack? .int = some (.int n :: ints)) :
    popInt.Does (source.offer body ⟨pending, rest⟩) n
      (source.offer body ⟨pending, rest.setStack .int ints⟩) 0 := by
  have hsame : source.offer body ⟨pending, rest.setStack .int ints⟩ =
      (source.offer body ⟨pending, rest⟩).setStack .int ints := by
    cases source with
    | exec => rfl
    | code => exact congrArg _ (State.modifyStack_setStack_of_ne (by decide) ints _)
  exact (does_popInt ((stack?_offer_int _ _ _).trans found)).to hsame.symm

/-- With a body and as many integers as `k` a loop is ready. -/
theorem readies_offer {instruction : Instruction} {k : Nat}
    (inputs : instruction.inputs = source.stack :: List.replicate k .int)
    (present : (Config.mk pending rest).stack? source.stack = some items)
    (found : rest.stack? .int = some ints) (enough : k ≤ ints.length) :
    (source.offer body ⟨pending, rest⟩).Readies instruction := by
  have hne := source.stack_ne_int
  intro id hid
  rw [inputs] at hid ⊢
  rcases List.mem_cons.mp hid with rfl | hint
  · refine ⟨_, (stack?_offer present body).1, ?_⟩
    rw [List.count_cons_self, List.count_eq_zero_of_not_mem]
    · exact Nat.succ_le_succ (Nat.zero_le _)
    · exact fun hmem => hne (List.eq_of_mem_replicate hmem)
  · obtain rfl := List.eq_of_mem_replicate hint
    refine ⟨ints, (stack?_offer_int _ _ _).trans found, ?_⟩
    rwa [List.count_cons_of_ne hne, List.count_replicate_self]

/-! ## One turn -/

/-- What waits behind the body during one turn: the block for the other counters, if `start ≠ stop`.
-/
def otherTurns (source : BodySource) (start stop : Int64) (body : Expr) : List Value :=
  if start = stop then []
  else [.code (rangeBlock source (nextCounter start stop) stop (.expr body))]

/-- **One turn** of a loop over a range, `rangeTurn`, pushes the counter and the body, and has
`otherTurns` wait behind it. -/
theorem does_rangeTurn (present : (Config.mk pending rest).stack? source.stack = some items)
    (found : rest.stack? .int = some (.int stop :: .int start :: ints))
    (fits : body.size + source.overhead ≤ caps.maxPoints ∨ start = stop) :
    ∃ pushes ≤ 3, (rangeTurn source caps).Does (source.offer body ⟨pending, rest⟩) ()
      ⟨.code (.expr body) :: (otherTurns source start stop body ++ pending),
        rest.setStack .int (.int start :: ints)⟩ pushes := by
  have hstop : popInt.Does ⟨pending, rest⟩ stop
      ⟨pending, rest.setStack .int (.int start :: ints)⟩ 0 := does_popInt found
  have hstart : popInt.Does ⟨pending, rest.setStack .int (.int start :: ints)⟩ start
      ⟨pending, rest.setStack .int ints⟩ 0 :=
    (does_popInt (Config.stack?_replaced found (by decide))).to
      (Config.setStack_replaced (by decide) _)
  have hpush (pending : List Value) : (pushInt start).Does ⟨pending, rest.setStack .int ints⟩ ()
      ⟨pending, rest.setStack .int (.int start :: ints)⟩ 1 :=
    (does_push (Config.stack?_replaced found (by decide)) _).to
      (Config.setStack_replaced (by decide) _)
  have hbody (pending : List Value) :
      (pushAtom .exec (.expr body)).Does ⟨pending, rest.setStack .int (.int start :: ints)⟩ ()
        ⟨.code (.expr body) :: pending, rest.setStack .int (.int start :: ints)⟩ 1 :=
    does_push rfl _
  rw [rangeTurn, otherTurns]
  by_cases hlast : start = stop
  · -- The last turn does not check the size, since nothing waits behind it.
    refine ⟨2, by decide, .bind (m := 2) (does_popAtom_offer present) (.bind (m := 2) hstop
      (.bind (m := 2) hstart ?_))⟩
    rw [if_pos hlast, if_neg (not_not_intro hlast)]
    exact .bind (m := 1) (hpush pending) (hbody pending)
  · -- The block for the other turns is as large as the first one, whatever the counters are.
    have hsize : (rangeBlock source (nextCounter start stop) stop (.expr body)).size ≤
        caps.maxPoints := by
      rw [size_rangeBlock]
      exact fits.resolve_right hlast
    refine ⟨3, Nat.le_refl 3, .bind (m := 3) (does_popAtom_offer present) (.bind (m := 3) hstop
      (.bind (m := 3) hstart ?_))⟩
    rw [if_neg hlast, if_pos hlast]
    exact .bind (m := 2) (does_pushCodeWithin hsize rfl) (.bind (m := 1) (hpush _) (hbody _))

/-- The body of a loop that may hide the counter: with `"int_pop"` in front of it. -/
def repeated (hideCounter : Bool) (body : Expr) : Expr :=
  if hideCounter then .block [.deferred "int_pop", body] else body

theorem size_repeated (body : Expr) : (repeated true body).size = body.size + 2 := by
  show 1 + (1 + (body.size + 0)) = body.size + 2
  omega

/-- A loop that repeats a body, `repeatLoop`, has the block for a whole range run. -/
theorem does_repeatLoop {hideCounter : Bool}
    (present : (Config.mk pending rest).stack? source.stack = some items)
    (found : rest.stack? .int = some (.int n :: ints)) (positive : ¬n < 1)
    (fits : (repeated hideCounter body).size + source.overhead ≤ caps.maxPoints) :
    (repeatLoop source hideCounter caps).Does (source.offer body ⟨pending, rest⟩) ()
      ⟨.code (rangeBlock source 0 (n - 1) (.expr (repeated hideCounter body))) :: pending,
        rest.setStack .int ints⟩ 1 := by
  rw [← size_rangeBlock source 0 (n - 1)] at fits
  rw [← stack?_setStack_int] at present
  refine .bind (m := 1) (does_popInt_offer found) (.bind (m := 1) (does_popAtom_offer present) ?_)
  rw [if_neg positive]
  cases hideCounter <;> exact does_pushCodeWithin fits rfl

/-- It gives up where it is to run less than once (`n < 1`), or the block would be too large. -/
theorem givesUp_repeatLoop {hideCounter : Bool}
    (present : (Config.mk pending rest).stack? source.stack = some items)
    (found : rest.stack? .int = some (.int n :: ints))
    (fails : n < 1 ∨ caps.maxPoints < (repeated hideCounter body).size + source.overhead) :
    (repeatLoop source hideCounter caps).GivesUp (source.offer body ⟨pending, rest⟩) := by
  rw [← stack?_setStack_int] at present
  refine (does_popInt_offer found).bind_givesUp ((does_popAtom_offer present).bind_givesUp ?_)
  by_cases hless : n < 1
  · rw [if_pos hless]
    exact givesUp_revert
  · rw [if_neg hless]
    have hlarge := fails.resolve_left hless
    rw [← size_rangeBlock source 0 (n - 1)] at hlarge
    cases hideCounter <;> exact givesUp_pushCodeWithin hlarge

end Instruction

/-! ## Whole loops -/

namespace Library

open Instruction

/-- What a loop does for one counter: push it, and then `f`. -/
def visit (f : State → State) (state : State) (counter : Int64) : State :=
  f (state.modifyStack .int (.int counter :: ·))

/-- The configuration in which a loop is called next by `atom`, with a body for it. -/
def loopCall (source : BodySource) (atom : Atom) (body : Expr) (config : Config) : Config :=
  ⟨.code atom :: (source.offer body config).pending, (source.offer body config).rest⟩

/-- The instructions that counted loops rest on. -/
def loopNames (source : BodySource) : List String :=
  [source.name ++ "_do_range", source.name ++ "_do_count", source.name ++ "_do_times",
    "code_from_exec", "int_pop"]

set_option maxRecDepth 1500 in
/-- Among the core instructions, which are looked up from the end, `"int_pop"` is far away. -/
theorem get?_core_intPop : (InstructionSet.core .core).get? "int_pop" =
    some (ofVerb .int "int" "pop" [.int] [] 1 fun _ => dropTop .int) :=
  InstructionSet.get?_core rfl rfl

variable {library : Library} {limits : Limits} {realm : State → Prop} {source : BodySource}
  {body : Expr} {f : State → State} {atom : Atom} {pending ints : List Value} {rest : State}
  {start stop n : Int64}

section Loops

variable (offers : library.Offers [.int, source.stack] (loopNames source))
  (reigns : library.Realm limits realm) (cap : 3 ≤ limits.growthCap)
include offers

/-- A loop is found by its name. -/
theorem get?_loop {instruction : Instruction} (hmem : instruction ∈ loops source) :
    library.instructions.get? instruction.name = some instruction := by
  simp only [loops, List.mem_cons, List.not_mem_nil, or_false] at hmem
  rcases hmem with rfl | rfl | rfl <;>
    exact (offers.instruction _ (by simp [loopNames])).trans
      (by cases source <;> exact InstructionSet.get?_core rfl rfl)

include reigns

/-- In a realm there is a stack for bodies. -/
theorem leads_of_present {config after : Config}
    (leads : ∀ items, config.stack? source.stack = some items →
      library.Leads limits realm (loopCall source atom body config) after) :
    library.Leads limits realm (loopCall source atom body config) after := by
  cases source with
  | exec => exact leads config.pending rfl
  | code =>
    have hcode : library.registry.contains .code = true := offers.contains (by decide) rfl
    refine .of_housed reigns hcode fun items hitems => ?_
    obtain ⟨codes, hcodes⟩ := State.exists_of_modifyStack hitems
    exact leads codes hcodes

/-- An integer goes to its stack, `.int`. -/
theorem closedBody_int (n : Int64) :
    library.ClosedBody limits realm (.int n) (·.modifyStack .int (.int n :: ·)) :=
  closedBody_literal reigns (offers.type .int (by simp)) (by decide) rfl

include cap

/-- **The step**: one turn of a loop over a range, `rangeTurn`. -/
theorem leadsIn_rangeTurn {items : List Value}
    (called : atom.called? = some (source.name ++ "_do_range"))
    (present : (Config.mk pending rest).stack? source.stack = some items)
    (found : rest.stack? .int = some (.int stop :: .int start :: ints))
    (fits : body.size + source.overhead ≤ limits.maxPoints ∨ start = stop) :
    library.LeadsIn limits realm 1 (loopCall source atom body ⟨pending, rest⟩)
      ⟨.code (.expr body) :: (otherTurns source start stop body ++ pending),
        rest.setStack .int (.int start :: ints)⟩ := by
  obtain ⟨pushes, hpushes, hdoes⟩ := does_rangeTurn present found fits
  exact leadsIn_call reigns called (get?_loop offers List.mem_cons_self)
    (readies_offer (k := 2) rfl present found (by simp)) hdoes (Nat.le_trans hpushes cap)

theorem leads_rangeTurn (called : atom.called? = some (source.name ++ "_do_range"))
    (found : rest.stack? .int = some (.int stop :: .int start :: ints))
    (fits : body.size + source.overhead ≤ limits.maxPoints ∨ start = stop) :
    library.Leads limits realm (loopCall source atom body ⟨pending, rest⟩)
      ⟨.code (.expr body) :: (otherTurns source start stop body ++ pending),
        rest.setStack .int (.int start :: ints)⟩ :=
  leads_of_present offers reigns fun _ present =>
    (leadsIn_rangeTurn offers reigns cap called present found fits).leads

/-- The block for a range leads to a call of the loop. -/
theorem leads_rangeBlock (fits : body.size + source.overhead ≤ limits.maxPoints)
    (pending : List Value) (rest : State) :
    library.Leads limits realm ⟨.code (rangeBlock source start stop (.expr body)) :: pending, rest⟩
      (loopCall source (.expr (.deferred (source.name ++ "_do_range"))) body ⟨pending,
        (rest.modifyStack .int (.int start :: ·)).modifyStack .int (.int stop :: ·)⟩) := by
  have hstart := closedBody_int offers reigns start
  have hstop := closedBody_int offers reigns stop
  cases source with
  | exec =>
    refine (leads_block reigns _ pending rest).trans reigns ?_
    exact (hstart _ _).trans reigns (hstop _ _)
  | code =>
    refine (leads_block reigns _ pending rest).trans reigns ?_
    refine (hstart _ _).trans reigns ((hstop _ _).trans reigns ?_)
    exact offers.leads_quote (by decide) (by decide) reigns (by omega) rfl
      (Nat.le_trans (Nat.le_add_right _ _) fits) _ _

variable (closed : library.ClosedBody limits realm body f)
include closed

/-- A call of the loop runs the first turn, and then the others if they are right. -/
theorem leads_range_of_others (called : atom.called? = some (source.name ++ "_do_range"))
    (found : rest.stack? .int = some (.int stop :: .int start :: ints))
    (fits : body.size + source.overhead ≤ limits.maxPoints ∨ start = stop)
    (others : start ≠ stop → ∀ rest, library.Leads limits realm
      ⟨.code (rangeBlock source (nextCounter start stop) stop (.expr body)) :: pending, rest⟩
      ⟨pending, (counters (nextCounter start stop) stop).foldl (visit f) rest⟩) :
    library.Leads limits realm (loopCall source atom body ⟨pending, rest⟩)
      ⟨pending, (counters start stop).foldl (visit f) (rest.setStack .int ints)⟩ := by
  refine (leads_rangeTurn offers reigns cap called found fits).trans reigns ?_
  refine (closed _ _).trans reigns ?_
  have hvisit : f (rest.setStack .int (.int start :: ints)) =
      visit f (rest.setStack .int ints) start := by
    rw [visit, State.modifyStack_setStack found]
  rw [hvisit, otherTurns]
  by_cases hlast : start = stop
  · rw [if_pos hlast, hlast, counters_self]
    exact .refl _
  · rw [if_neg hlast, counters_cons hlast]
    exact others hlast _

/-- **The run**: the block for a range visits `counters start stop` in order. -/
theorem leads_rangeBlock_fold (fits : body.size + source.overhead ≤ limits.maxPoints)
    (start stop : Int64) (pending : List Value) (rest : State) :
    library.Leads limits realm ⟨.code (rangeBlock source start stop (.expr body)) :: pending, rest⟩
      ⟨pending, (counters start stop).foldl (visit f) rest⟩ := by
  -- By induction on the distance, which the next counter makes smaller.
  induction hdistance : (stop.toInt - start.toInt).natAbs using Nat.strong_induction_on
    generalizing start rest with
  | h k ih =>
    refine .of_housed reigns (offers.contains List.mem_cons_self rfl) fun ints hints => ?_
    have hfound : rest.stack? .int = some ints := hints
    have hpushed : (rest.modifyStack .int (.int start :: ·)).modifyStack .int (.int stop :: ·) =
        rest.setStack .int (.int stop :: .int start :: ints) := by
      rw [State.modifyStack_of_found hfound, State.modifyStack_setStack hfound]
    refine (leads_rangeBlock offers reigns cap fits pending rest).trans reigns ?_
    rw [hpushed]
    have hcalled : (Atom.expr (.deferred (source.name ++ "_do_range"))).called? =
        some (source.name ++ "_do_range") := rfl
    have hcounters : (rest.setStack .int (.int stop :: .int start :: ints)).stack? .int =
        some (.int stop :: .int start :: ints) := State.stack?_setStack_self hfound _
    have hcall := leads_range_of_others offers reigns cap closed hcalled hcounters (.inl fits)
      fun hne rest => ih _ (by rw [← hdistance, ← natAbs_nextCounter hne]; omega) _ rest rfl
    rwa [State.setStack_setStack, State.setStack_self hfound] at hcall

/-- **A loop over a range is a fold** of `visit` over its counters. -/
theorem leads_range (called : atom.called? = some (source.name ++ "_do_range"))
    (found : rest.stack? .int = some (.int stop :: .int start :: ints))
    (fits : body.size + source.overhead ≤ limits.maxPoints ∨ start = stop) :
    library.Leads limits realm (loopCall source atom body ⟨pending, rest⟩)
      ⟨pending, (counters start stop).foldl (visit f) (rest.setStack .int ints)⟩ :=
  leads_range_of_others offers reigns cap closed called found fits fun hne rest =>
    leads_rangeBlock_fold offers reigns cap closed (fits.resolve_right hne) _ stop pending rest

omit closed in
/-- A loop that repeats a body is a fold of `visit` over the counters from zero on. -/
theorem leads_repeat {hideCounter : Bool} {instruction : Instruction}
    (hmem : instruction ∈ loops source) (inputs : instruction.inputs = [source.stack, .int])
    (script : instruction.body = repeatLoop source hideCounter)
    (called : atom.called? = some instruction.name)
    (closed : library.ClosedBody limits realm (repeated hideCounter body) f)
    (found : rest.stack? .int = some (.int n :: ints)) (positive : ¬n < 1)
    (fits : (repeated hideCounter body).size + source.overhead ≤ limits.maxPoints) :
    library.Leads limits realm (loopCall source atom body ⟨pending, rest⟩)
      ⟨pending, (counters 0 (n - 1)).foldl (visit f) (rest.setStack .int ints)⟩ := by
  refine .trans ?_ reigns (leads_rangeBlock_fold offers reigns cap closed fits _ _ _ _)
  refine leads_of_present offers reigns fun items present => ?_
  have hdoes := does_repeatLoop present found positive fits
  rw [← script] at hdoes
  exact leads_call reigns called (get?_loop offers hmem)
    (readies_offer (k := 1) inputs present found (by simp)) hdoes (by omega)

omit reigns cap closed in
/-- It reverts where it is to run less than once (`n < 1`), or the block for the range would be too
large. -/
theorem reverts_repeat {hideCounter : Bool} {instruction : Instruction}
    (hmem : instruction ∈ loops source) (script : instruction.body = repeatLoop source hideCounter)
    {items : List Value} (present : (Config.mk pending rest).stack? source.stack = some items)
    (found : rest.stack? .int = some (.int n :: ints))
    (fails : n < 1 ∨ limits.maxPoints < (repeated hideCounter body).size + source.overhead) :
    library.Reverts limits instruction.name (source.offer body ⟨pending, rest⟩) := by
  refine reverts_of_givesUp (get?_loop offers hmem) ?_
  rw [script]
  exact givesUp_repeatLoop present found fails

omit cap closed in
/-- Dropping an integer by `"int_pop"`, if there is one. -/
theorem leads_dropInt (called : atom.called? = some "int_pop") (pending : List Value)
    (rest : State) :
    library.Leads limits realm ⟨.code atom :: pending, rest⟩
      ⟨pending, rest.modifyStack .int List.tail⟩ := by
  refine .of_housed reigns (offers.contains List.mem_cons_self rfl) fun ints hints => ?_
  have hfound : rest.stack? .int = some ints := hints
  have hints' : (Config.mk pending rest).stack? .int = some ints := hints
  have hpop := (offers.instruction "int_pop" (by simp [loopNames])).trans get?_core_intPop
  rw [State.modifyStack_of_found hfound]
  cases ints with
  | nil =>
    -- A loop never comes here, but a closed body is one in every state.
    rw [List.tail_nil, State.setStack_self hfound]
    exact (reverts_of_few hpop List.mem_cons_self hints' Nat.one_pos).leads reigns called
  | cons value ints =>
    refine leads_call reigns called hpop ?_ (Script.Does.bind (m := 0) (Script.does_pop hints')
      (Script.does_done ())) (Nat.zero_le _)
    refine Config.readies_of_nodup (by decide) fun id hid => ?_
    obtain rfl := List.mem_singleton.mp hid
    exact ⟨_, _, hints'⟩

omit cap in
/-- A body that drops the counter first: `f` after `List.tail` on the integers. -/
theorem closedBody_hidden : library.ClosedBody limits realm (repeated true body)
    fun state => f (state.modifyStack .int List.tail) := by
  intro pending rest
  refine (leads_block reigns _ pending rest).trans reigns ?_
  exact (leads_dropInt offers reigns rfl _ rest).trans reigns (closed pending _)

end Loops

/-- Dropping a counter undoes pushing it. -/
theorem visit_hidden (f : State → State) (state : State) (counter : Int64) :
    visit (fun state => f (state.modifyStack .int List.tail)) state counter = f state := by
  rw [visit]
  cases hfound : state.stack? .int with
  | none =>
    have hmissing (change : List Value → List Value) : state.modifyStack .int change = state := by
      rw [State.modifyStack, hfound]
    rw [hmissing, hmissing]
  | some ints =>
    rw [State.modifyStack_of_found hfound, State.modifyStack_setStack hfound, List.tail_cons,
      State.setStack_self hfound]

/-- A loop that hides the counter runs its body as often as there are counters, `turns.length`
times. -/
theorem foldl_visit_hidden (f : State → State) (state : State) (turns : List Int64) :
    turns.foldl (visit fun state => f (state.modifyStack .int List.tail)) state =
      f^[turns.length] state := by
  rw [show visit _ = fun state _ => f state from funext₂ (visit_hidden f), List.foldl_const]

/-- The counters from `0` to `n - 1` are as many as `n` says. -/
theorem length_counters_zero (positive : ¬n < 1) : (counters 0 (n - 1)).length = n.toInt.toNat := by
  have hle : 1 ≤ n := Int64.not_lt.mp positive
  have hpositive : (1 : Int64).toInt ≤ n.toInt := Int64.le_iff_toInt_le.mp hle
  have hone : (1 : Int64).toInt = 1 := rfl
  have hzero : (0 : Int64).toInt = 0 := rfl
  rw [length_counters, toInt_sub_one hle, hzero]
  omega

/-- **Counted loops are folds**. From every state of a realm in which such a loop is called next,
with a closed body for it, the run comes to a state with exactly the work that was pending behind:

* a loop over a range pushes each counter in order and runs the body after it, and so does a loop
  that counts from zero;
* a loop that repeats the body runs it as often as the number says, and shows no counter;
* these two revert where the number is not positive or the block for the range is too large, and no
  turn reverts later;
* no counter wraps around. -/
theorem loops_fold (source : BodySource) (library : Library) (limits : Limits)
    (realm : State → Prop) (body : Expr) (f : State → State)
    (offers : library.Offers [.int, source.stack] (loopNames source))
    (reigns : library.Realm limits realm) (cap : 3 ≤ limits.growthCap)
    (closed : library.ClosedBody limits realm body f) :
    (∀ atom pending rest ints start stop,
      atom.called? = some (source.name ++ "_do_range") →
      rest.stack? .int = some (.int stop :: .int start :: ints) →
      body.size + source.overhead ≤ limits.maxPoints ∨ start = stop →
      library.Leads limits realm (loopCall source atom body ⟨pending, rest⟩)
        ⟨pending, (counters start stop).foldl (visit f) (rest.setStack .int ints)⟩) ∧
    (∀ atom pending rest ints n, rest.stack? .int = some (.int n :: ints) → 1 ≤ n →
      (atom.called? = some (source.name ++ "_do_count") →
        body.size + source.overhead ≤ limits.maxPoints →
        library.Leads limits realm (loopCall source atom body ⟨pending, rest⟩)
          ⟨pending, (counters 0 (n - 1)).foldl (visit f) (rest.setStack .int ints)⟩) ∧
      (atom.called? = some (source.name ++ "_do_times") →
        body.size + 2 + source.overhead ≤ limits.maxPoints →
        library.Leads limits realm (loopCall source atom body ⟨pending, rest⟩)
          ⟨pending, f^[n.toInt.toNat] (rest.setStack .int ints)⟩)) ∧
    (∀ pending rest ints n items, rest.stack? .int = some (.int n :: ints) →
      (Config.mk pending rest).stack? source.stack = some items →
      (n < 1 ∨ limits.maxPoints < body.size + source.overhead →
        library.Reverts limits (source.name ++ "_do_count") (source.offer body ⟨pending, rest⟩)) ∧
      (n < 1 ∨ limits.maxPoints < body.size + 2 + source.overhead →
        library.Reverts limits (source.name ++ "_do_times") (source.offer body ⟨pending, rest⟩))) ∧
    (∀ start stop : Int64,
      (counters start stop).map Int64.toInt =
        (List.range ((stop.toInt - start.toInt).natAbs + 1)).map (counterAt start stop) ∧
      (start ≠ stop → (nextCounter start stop).toInt = counterAt start stop 1)) ∧
    ∀ n : Int64, 1 ≤ n → (n - 1).toInt = n.toInt - 1 := by
  refine ⟨fun atom pending rest ints start stop called found fits =>
    leads_range offers reigns cap closed called found fits, ?_, ?_, ?_, ?_⟩
  · intro atom pending rest ints n found positive
    have hpositive : ¬n < 1 := Int64.not_lt.mpr positive
    refine ⟨fun called fits => ?_, fun called fits => ?_⟩
    · exact leads_repeat offers reigns cap (.tail _ (.head _)) rfl rfl called closed found hpositive
        fits
    -- The body that drops the counter first is two points larger.
    · rw [← size_repeated] at fits
      rw [← length_counters_zero hpositive, ← foldl_visit_hidden]
      exact leads_repeat offers reigns cap (.tail _ (.tail _ (.head _))) rfl rfl called
        (closedBody_hidden offers reigns closed) found hpositive fits
  · intro pending rest ints n items found present
    refine ⟨fun fails => ?_, fun fails => ?_⟩
    · exact reverts_repeat offers (.tail _ (.head _)) rfl present found fails
    · rw [← size_repeated] at fails
      exact reverts_repeat offers (.tail _ (.tail _ (.head _))) rfl present found fails
  · intro start stop
    exact ⟨map_toInt_counters start stop, toInt_nextCounter⟩
  · intro n positive
    exact toInt_sub_one positive

/-- A loop down from one to minus one, in front of other work, with a body that pushes a truth
value. -/
theorem loops_fold_countdown :
    let body : Expr := .literal (.bool true) .bool
    let rest : State :=
      { slots := (List.replicate 12 (some [])).set 3 (some [.int (-1), .int 1, .int 9]) }
    let state := rest.setStack .exec
      [.code (.expr (.deferred "exec_do_range")), .code (.expr body), .code .closer]
    ∃ n last, core.Steps {} n state last ∧ last.stack? .exec = some [.code .closer] ∧
      last.settled = (rest.setStack .int [.int (-1), .int 0, .int 1, .int 9]).setStack .bool
        [.bool true, .bool true, .bool true] := by
  intro body rest state
  have reigns := core.realm_of_registry {}
  have closed : core.ClosedBody {} _ body _ := closedBody_literal reigns rfl (by decide) rfl
  have hrange := (loops_fold .exec core {} _ body _ (offers_core _ _) reigns (by decide) closed).1
    (.expr (.deferred "exec_do_range")) [.code .closer] rest [.int 9] 1 (-1) rfl rfl
    (.inl (by decide))
  have hcounters : counters 1 (-1) = [1, 0, -1] := by decide
  rw [hcounters] at hrange
  obtain ⟨n, last, hsteps, hlast⟩ := hrange state ⟨rfl, rfl⟩ ⟨rfl, rfl⟩
  refine ⟨n, last, hsteps, hlast.pending, hlast.rest.trans ?_⟩
  simp [rest, visit, State.modifyStack, State.setStack, State.stack?, StackId.int, StackId.bool]

end Library

end PushMachine
