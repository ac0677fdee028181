import PushMachine.Proofs.PendingWork

/-! # Loops over truth values

A loop of this kind takes a truth value before each turn and ends at a false one, or when there is
none. Its state lies in the pending work: a turn leaves the body, a call of the loop and the body
again (`Instruction.does_whileTurn`), so that after the body the loop is called as before. What the
loop comes to is said without the machine, by `WhileLoop` where it ends and by `Endless` where it
does not. A loop that ends is followed by induction on its turns. One that does not end has more
steps to take than any limit allows, because each turn takes a step of its own
(`Library.exists_steps_of_endless`). So it ends with the steps or with the time, whichever is used
up first (`Library.Exhausts`). -/

namespace PushMachine

/-! ## Steps and limits -/

namespace State

variable {state : State}

/-- A state is in one configuration. -/
theorem Shows.unique {first second : Config} (one : state.Shows first)
    (other : state.Shows second) : first = second := by
  obtain ⟨pending, rest⟩ := first
  obtain ⟨pending', rest'⟩ := second
  cases one.pending.symm.trans other.pending
  cases one.rest.symm.trans other.rest
  rfl

end State

namespace Library

variable {library : Library} {limits : Limits} {realm : State → Prop}

/-- **The reason to cut a run short** that may take `remaining` more steps: its steps are used up if
the clock lasts for them, and else its time. -/
structure CutShort (limits : Limits) (clock : Clock) (remaining steps : Nat)
    (reason : StopReason) : Prop where
  /-- All steps are taken: the clock `Lasts` for them. -/
  inTime : clock.Lasts limits steps remaining → reason = .stepLimitExceeded
  /-- The time is up before that. -/
  late : ¬clock.Lasts limits steps remaining → reason = .timeLimitExceeded

/-- A run that may take fewer steps than there are to take (`remaining < n`) is `CutShort`. -/
theorem Steps.proceed_of_lt {σ : Type} {n remaining steps : Nat} {state last : State} {data : σ}
    (walk : library.Steps limits n state last) (few : remaining < n) (clock : Clock)
    (tracer : Tracer σ) :
    CutShort limits clock remaining steps
      (library.proceed limits clock tracer remaining steps state data).reason := by
  induction walk generalizing remaining steps data with
  | zero => exact absurd few (Nat.not_lt_zero _)
  | succ taken goes _ ih =>
    have pending := State.depth_ne_zero_of_taken taken
    cases remaining with
    | zero =>
      rw [proceed_zero pending]
      exact ⟨fun _ => rfl, fun late => absurd (fun _ _ _ => by omega) late⟩
    | succ remaining =>
      -- A clock that is spent ends the run before the steps are used up.
      cases htime : clock.isSpent limits steps with
      | true =>
        rw [proceed_of_spent pending htime]
        refine ⟨fun lasts => ?_, fun _ => rfl⟩
        cases htime.symm.trans lasts.now
      | false =>
        rw [proceed_of_going pending htime taken goes]
        have hfew := Nat.lt_of_succ_lt_succ few
        refine ⟨fun lasts => (ih hfew).inTime lasts.next,
          fun late => (ih hfew).late fun lasts => ?_⟩
        exact late (.cons htime lasts)

/-- **Using up every limit**: from every state of the realm that shows `config`, a run is cut short,
however many steps it may take. -/
def Exhausts (library : Library) (limits : Limits) (realm : State → Prop) (config : Config) :
    Prop :=
  ∀ state, realm state → state.Shows config →
    ∀ {σ : Type} (clock : Clock) (tracer : Tracer σ) (remaining steps : Nat) (data : σ),
      CutShort limits clock remaining steps
        (library.proceed limits clock tracer remaining steps state data).reason

/-- It takes a step to come to another configuration, `before ≠ after`. -/
theorem Leads.exists_steps_pos {before after : Config} {state : State}
    (leads : library.Leads limits realm before after) (differs : before ≠ after)
    (hrealm : realm state) (shown : state.Shows before) :
    ∃ n last, 0 < n ∧ library.Steps limits n state last ∧ last.Shows after := by
  obtain ⟨n, last, walk, hlast⟩ := leads state hrealm shown
  refine ⟨n, last, Nat.pos_of_ne_zero ?_, walk, hlast⟩
  rintro rfl
  cases walk
  exact differs (shown.unique hlast)

end Library

/-! ## What the loops come to -/

/-- **The end of a loop** over truth values with a body that does `f`: there is no truth value, or
the top one is false and is taken, or it is true and the loop goes on after the body. -/
inductive WhileLoop (f : State → State) : State → State → Prop where
  /-- There is no truth value: the depth of `.bool` is zero. -/
  | dry {state : State} (empty : state.depth .bool = 0) : WhileLoop f state state
  /-- The value `false` ends the loop. -/
  | stop {state : State} {bools : List Value}
      (found : state.stack? .bool = some (.bool false :: bools)) :
    WhileLoop f state (state.setStack .bool bools)
  /-- The value `true` has the body run, and the loop goes on. -/
  | turn {state last : State} {bools : List Value}
      (found : state.stack? .bool = some (.bool true :: bools))
      (others : WhileLoop f (f (state.setStack .bool bools)) last) :
    WhileLoop f state last

/-- **A loop without an end**: `true` is on top before every turn. -/
def Endless (f : State → State) (start : State) : Prop :=
  ∃ turns : Nat → State, turns 0 = start ∧ ∀ k, ∃ bools,
    (turns k).stack? .bool = some (.bool true :: bools) ∧
      turns (k + 1) = f ((turns k).setStack .bool bools)

/-- A loop without an end has none after its first turn. -/
theorem Endless.next {f : State → State} {state : State} (endless : Endless f state) :
    ∃ bools, state.stack? .bool = some (.bool true :: bools) ∧
      Endless f (f (state.setStack .bool bools)) := by
  obtain ⟨turns, rfl, hturns⟩ := endless
  obtain ⟨bools, hfound, hnext⟩ := hturns 0
  exact ⟨bools, hfound, fun k => turns (k + 1), hnext, fun k => hturns (k + 1)⟩

/-! ## One turn -/

namespace Instruction

open Script

variable {body : Expr} {pending bools : List Value} {rest : State} {b : Bool}

/-- The pending work of a turn: the body, a call of `"exec_while"`, and the body for it. -/
def turnWork (body : Expr) (pending : List Value) : List Value :=
  .code (.expr body) :: .code (.expr (.deferred "exec_while")) :: .code (.expr body) :: pending

/-- Taking the body from `.exec`. -/
theorem does_popBody :
    (popAtom .exec).Does ⟨.code (.expr body) :: pending, rest⟩ (.expr body) ⟨pending, rest⟩ 0 :=
  does_popAtom rfl

/-- Counting the truth values, `rest.depth .bool`. -/
theorem does_depthBool :
    (Script.depth .bool).Does ⟨pending, rest⟩ (rest.depth .bool) ⟨pending, rest⟩ 0 := by
  intro state shown
  refine ⟨state, ?_, shown, rfl⟩
  have hdepth : rest.depth .bool = state.depth .bool := by
    rw [State.depth, State.depth, shown.stack?_eq, Config.stack?_of_ne (by decide)]
  rw [hdepth]
  rfl

/-- Taking a truth value, with `popBool`. -/
theorem does_popBool (found : rest.stack? .bool = some (.bool b :: bools)) :
    popBool.Does ⟨pending, rest⟩ b ⟨pending, rest.setStack .bool bools⟩ 0 := by
  rw [popBool, popItem]
  exact .bind (n := 0) (m := 0) (does_pop found) (does_done b)

/-- Leaving the `turnWork` of a turn. -/
theorem does_turnWork :
    (do
      pushAtom .exec (.expr body)
      pushAtom .exec (.expr (.deferred "exec_while"))
      pushAtom .exec (.expr body)).Does ⟨pending, rest⟩ () ⟨turnWork body pending, rest⟩ 3 :=
  .bind (m := 2) (does_push rfl _) (.bind (m := 1) (does_push rfl _) (does_push rfl _))

/-- Without a truth value only the body is gone. -/
theorem does_whileTurn_dry (empty : rest.depth .bool = 0) :
    whileTurn.Does ⟨.code (.expr body) :: pending, rest⟩ () ⟨pending, rest⟩ 0 := by
  refine .bind (m := 0) does_popBody (.bind (m := 0) does_depthBool ?_)
  rw [if_pos empty]
  exact does_done ()

/-- **One turn**, `whileTurn`, takes the body and the truth value, and leaves `turnWork` if the
value was true. -/
theorem does_whileTurn (found : rest.stack? .bool = some (.bool b :: bools)) :
    whileTurn.Does ⟨.code (.expr body) :: pending, rest⟩ ()
      ⟨if b then turnWork body pending else pending, rest.setStack .bool bools⟩
      (if b then 3 else 0) := by
  have hdepth : rest.depth .bool ≠ 0 := by
    rw [State.depth, found]
    exact Nat.succ_ne_zero _
  cases b with
  | false =>
    refine .bind (m := 0) does_popBody (.bind (m := 0) does_depthBool ?_)
    rw [if_neg hdepth]
    exact .bind (m := 0) (does_popBool found) (does_done ())
  | true =>
    refine .bind (m := 3) does_popBody (.bind (m := 3) does_depthBool ?_)
    rw [if_neg hdepth]
    exact .bind (m := 3) (does_popBool found) does_turnWork

/-- A loop that starts with its body, `doWhileTurn`, leaves `turnWork` at once. -/
theorem does_doWhileTurn :
    doWhileTurn.Does ⟨.code (.expr body) :: pending, rest⟩ () ⟨turnWork body pending, rest⟩ 3 :=
  .bind (m := 3) does_popBody does_turnWork

end Instruction

/-! ## Whole loops -/

namespace Library

open Instruction

variable {library : Library} {limits : Limits} {realm : State → Prop} {body : Expr}
  {f : State → State} {atom : Atom} {pending bools : List Value} {rest last : State}

/-- The loops over truth values. -/
def whileNames : List String := ["exec_while", "exec_do_while"]

/-- The configuration in which a loop is called next by `atom`, with a pending body. -/
def whileCall (atom : Atom) (body : Expr) (pending : List Value) (rest : State) : Config :=
  ⟨.code atom :: .code (.expr body) :: pending, rest⟩

section Loops

variable (offers : library.Offers [] whileNames) (reigns : library.Realm limits realm)
  (cap : 3 ≤ limits.growthCap)
include reigns

/-- A call of a loop does what its script does. -/
theorem leads_whileCall {name : String} {script : Script Unit} {after : Config} {pushes : Nat}
    (called : atom.called? = some name)
    (found : library.instructions.get? name = some
      { name := name, inputs := [.exec], outputs := [.exec], groups := 1
        body := fun _ => script })
    (does : script.Does ⟨.code (.expr body) :: pending, rest⟩ () after pushes)
    (fits : pushes ≤ limits.growthCap) :
    library.Leads limits realm (whileCall atom body pending rest) after := by
  refine leads_call reigns called found ?_ does fits
  refine Config.readies_of_nodup (List.pairwise_singleton _ _) fun id hid => ?_
  obtain rfl := List.mem_singleton.mp hid
  exact ⟨_, _, rfl⟩

include offers

/-- Without a truth value the loop ends as it was called. -/
theorem leads_while_dry (called : atom.called? = some "exec_while")
    (empty : rest.depth .bool = 0) :
    library.Leads limits realm (whileCall atom body pending rest) ⟨pending, rest⟩ := by
  have hwhile := (offers.instruction "exec_while" (by decide)).trans
    (InstructionSet.get?_core rfl rfl)
  exact leads_whileCall reigns called hwhile (does_whileTurn_dry empty) (Nat.zero_le _)

include cap

/-- **The step**: the truth value `b` is taken, and it decides whether the body runs. -/
theorem leads_whileTurn (called : atom.called? = some "exec_while") {b : Bool}
    (found : rest.stack? .bool = some (.bool b :: bools)) :
    library.Leads limits realm (whileCall atom body pending rest)
      ⟨if b then turnWork body pending else pending, rest.setStack .bool bools⟩ := by
  have hwhile := (offers.instruction "exec_while" (by decide)).trans
    (InstructionSet.get?_core rfl rfl)
  refine leads_whileCall reigns called hwhile (does_whileTurn found) ?_
  cases b with
  | false => exact Nat.zero_le _
  | true => exact cap

/-- A loop that starts with its body, `"exec_do_while"`, runs it before the first truth value is
taken. -/
theorem leads_doWhileTurn (called : atom.called? = some "exec_do_while") :
    library.Leads limits realm (whileCall atom body pending rest)
      ⟨turnWork body pending, rest⟩ := by
  have hdoWhile := (offers.instruction "exec_do_while" (by decide)).trans
    (InstructionSet.get?_core rfl rfl)
  exact leads_whileCall reigns called hdoWhile does_doWhileTurn cap

variable (closed : library.ClosedBody limits realm body f)
include closed

omit offers reigns cap in
/-- After the body the loop is called next, with the body for it. -/
theorem leads_turnWork (pending : List Value) (rest : State) :
    library.Leads limits realm ⟨turnWork body pending, rest⟩
      (whileCall (.expr (.deferred "exec_while")) body pending (f rest)) :=
  closed _ rest

/-- **The run of a loop that ends**: `WhileLoop f rest last` is what `"exec_while"` leads to. -/
theorem leads_while (called : atom.called? = some "exec_while") (ends : WhileLoop f rest last) :
    library.Leads limits realm (whileCall atom body pending rest) ⟨pending, last⟩ := by
  -- By induction on the turns; from the second on the loop is called by its own reference.
  induction ends generalizing atom with
  | dry empty => exact leads_while_dry offers reigns called empty
  | stop found => exact leads_whileTurn offers reigns cap called found
  | turn found _ ih =>
    refine (leads_whileTurn offers reigns cap called found).trans reigns ?_
    exact (leads_turnWork closed pending _).trans reigns (ih rfl)

/-- **The run of a loop without an end** takes `n` steps or more, for every `n`. -/
theorem exists_steps_of_endless (called : atom.called? = some "exec_while")
    (endless : Endless f rest) (n : Nat) {state : State} (hrealm : realm state)
    (shown : state.Shows (whileCall atom body pending rest)) :
    ∃ m last, n ≤ m ∧ library.Steps limits m state last := by
  induction n generalizing atom rest state with
  | zero => exact ⟨0, state, Nat.le_refl 0, .zero⟩
  | succ n ih =>
    obtain ⟨bools, hfound, hnext⟩ := endless.next
    -- The body takes the place of the call, so the call was a step.
    have hdiffers : whileCall atom body pending rest ≠
        ⟨turnWork body pending, rest.setStack .bool bools⟩ := by
      intro heq
      have hlength := congrArg (fun config : Config => config.pending.length) heq
      exact absurd hlength (Nat.ne_of_lt (Nat.lt_succ_self _))
    obtain ⟨first, middle, hfirst, hturn, hmiddle⟩ :=
      (leads_whileTurn offers reigns cap called hfound).exists_steps_pos hdiffers hrealm shown
    have hrealm' := reigns.steps hrealm hturn
    obtain ⟨second, after, hbody, hafter⟩ := leads_turnWork closed pending _ middle hrealm' hmiddle
    obtain ⟨m, last, hle, hsteps⟩ := ih rfl hnext (reigns.steps hrealm' hbody) hafter
    exact ⟨first + (second + m), last, by omega, hturn.trans (hbody.trans hsteps)⟩

end Loops

/-- **Loops over truth values are while loops**. From every state of a realm in which such a loop is
called next, with a closed body for it:

* where the loop ends, the run comes to the state in which it ends, with exactly the work that was
  pending behind;
* where it has no end, the run is cut short, however many steps it may take: its steps are used up
  if the clock lasts for them, and its time is used up if not (`CutShort`).

A loop of the second kind runs the body once before. -/
theorem while_loops (library : Library) (limits : Limits) (realm : State → Prop) (body : Expr)
    (f : State → State) (offers : library.Offers [] whileNames)
    (reigns : library.Realm limits realm) (cap : 3 ≤ limits.growthCap)
    (closed : library.ClosedBody limits realm body f) (atom : Atom) (pending : List Value)
    (rest : State) :
    (atom.called? = some "exec_while" →
      (∀ last, WhileLoop f rest last →
        library.Leads limits realm (whileCall atom body pending rest) ⟨pending, last⟩) ∧
      (Endless f rest → library.Exhausts limits realm (whileCall atom body pending rest))) ∧
    (atom.called? = some "exec_do_while" →
      (∀ last, WhileLoop f (f rest) last →
        library.Leads limits realm (whileCall atom body pending rest) ⟨pending, last⟩) ∧
      (Endless f (f rest) →
        library.Exhausts limits realm (whileCall atom body pending rest))) := by
  refine ⟨fun called => ⟨?_, ?_⟩, fun called => ⟨?_, ?_⟩⟩
  · intro last ends
    exact leads_while offers reigns cap closed called ends
  · intro endless state hrealm shown σ clock tracer remaining steps data
    obtain ⟨m, last, hle, hsteps⟩ := exists_steps_of_endless offers reigns cap closed called endless
      (remaining + 1) hrealm shown
    exact hsteps.proceed_of_lt hle clock tracer
  · intro last ends
    -- The body runs once, and an ordinary loop is left.
    refine (leads_doWhileTurn offers reigns cap called).trans reigns ?_
    refine (leads_turnWork closed pending rest).trans reigns ?_
    exact leads_while offers reigns cap closed rfl ends
  · intro endless state hrealm shown σ clock tracer remaining steps data
    obtain ⟨first, middle, hfirst, hmiddle⟩ :=
      ((leads_doWhileTurn offers reigns cap called).trans reigns
        (leads_turnWork closed pending rest)) state hrealm shown
    obtain ⟨m, last, hle, hsteps⟩ := exists_steps_of_endless offers reigns cap closed rfl endless
      (remaining + 1) (reigns.steps hrealm hfirst) hmiddle
    exact (hfirst.trans hsteps).proceed_of_lt (Nat.lt_of_lt_of_le hle (Nat.le_add_left _ _)) clock
      tracer

/-- A loop of two turns, in front of other work, that leaves the truth value behind the false one;
and a loop whose body pushes the truth value that it needs to go on. -/
theorem while_loops_twice :
    let slots : List (Option (List Value)) := List.replicate 12 (some [])
    (let body : Expr := .int 7
      let rest : State :=
        { slots := slots.set 2 (some [.bool true, .bool true, .bool false, .bool true]) }
      let state := rest.setStack .exec
        [.code (.expr (.deferred "exec_while")), .code (.expr body), .code .closer]
      ∃ n last, core.Steps {} n state last ∧ last.stack? .exec = some [.code .closer] ∧
        last.settled = (rest.setStack .int [.int 7, .int 7]).setStack .bool [.bool true]) ∧
    (let body : Expr := .literal (.bool true) .bool
      let rest : State := { slots := slots }
      let state := rest.setStack .exec
        [.code (.expr (.instr "exec_do_while" 1)), .code (.expr body), .code .closer]
      ∀ stepLimit,
        (core.proceed {} .still .silent stepLimit 0 state ()).reason = .stepLimitExceeded) := by
  intro slots
  have reigns := core.realm_of_registry {}
  refine ⟨?_, ?_⟩
  · intro body rest state
    have closed : core.ClosedBody {} _ body _ := closedBody_literal reigns rfl (by decide) rfl
    have hloop := (while_loops core {} _ body _ (offers_core _ _) reigns (by decide) closed
      (.expr (.deferred "exec_while")) [.code .closer] rest).1 rfl
    have hends : WhileLoop (·.modifyStack .int (.int 7 :: ·)) rest _ :=
      .turn rfl (.turn rfl (.stop rfl))
    obtain ⟨n, last, hsteps, hlast⟩ := hloop.1 _ hends state ⟨rfl, rfl⟩ ⟨rfl, rfl⟩
    exact ⟨n, last, hsteps, hlast.pending, hlast.rest.trans rfl⟩
  · intro body rest state stepLimit
    have closed : core.ClosedBody {} _ body _ := closedBody_literal reigns rfl (by decide) rfl
    have hloop := (while_loops core {} _ body _ (offers_core _ _) reigns (by decide) closed
      (.expr (.instr "exec_do_while" 1)) [.code .closer] rest).2 rfl
    -- Each turn takes the value that the turn before it pushed.
    have hcut := hloop.2 ⟨fun _ => rest.setStack .bool [.bool true], rfl, fun _ => ⟨[], rfl, rfl⟩⟩
      state ⟨rfl, rfl⟩ ⟨rfl, rfl⟩ .still .silent stepLimit 0 ()
    exact hcut.inTime (Clock.lasts_still _ _ _)

/-- **A loop without an end that is late**: with no time to run, its steps are not used up, however
many it may take. -/
theorem while_loops_late :
    let limits : Limits := { runtimeLimitMs := 0 }
    let clock : Clock := ⟨fun _ => 1⟩
    let body : Expr := .literal (.bool true) .bool
    let f := fun state : State => state.modifyStack .bool (.bool true :: ·)
    let rest : State := { slots := List.replicate 12 (some []) }
    let state := rest.setStack .exec [.code (.expr (.instr "exec_do_while" 1)), .code (.expr body)]
    core.ClosedBody limits (·.From (.ofRegistry .core)) body f ∧ Endless f (f rest) ∧
      ∀ stepLimit, (core.proceed limits clock .silent (stepLimit + 1) 0 state ()).reason =
        .timeLimitExceeded := by
  intro limits clock body f rest state
  refine ⟨closedBody_literal (core.realm_of_registry limits) rfl (by decide) rfl, ?_, ?_⟩
  · exact ⟨fun _ => rest.setStack .bool [.bool true], rfl, fun _ => ⟨[], rfl, rfl⟩⟩
  · intro stepLimit
    have pending : state.depth .exec ≠ 0 := by decide
    have spent : clock.isSpent limits 0 = true := by simp [Clock.isSpent, clock, limits]
    rw [proceed_of_spent pending spent]

end Library

end PushMachine
