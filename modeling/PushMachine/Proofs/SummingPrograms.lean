import Mathlib.Data.Nat.Choose.Basic
import PushMachine.Proofs.Computations
import PushMachine.Proofs.CountedLoops
import PushMachine.Proofs.IntegerArithmetic
import PushMachine.Proofs.PrintedText
import PushMachine.Samples

/-! # Programs that add up numbers

Two sample programs add up numbers, one in a loop and one without. What they compute, and in how
many steps, is put together from their pieces. For the loop this is an induction on the distance of
the counters: one turn unfolds to the body and a block for the other turns
(`Library.leadsIn_turn`), and all turns together fold the counters (`Library.computes_range`).

The sums are clamped after every addition. Since no number is negative, this comes to the same as
clamping the whole sum once (`capped_add`). -/

namespace PushMachine

/-! ## A loop over a range -/

namespace Library

open Instruction

/-- What is left to run after one turn and its body: the block for the other counters, if
`start ≠ stop`. -/
def laterTurns (start stop : Int64) (body : Expr) : Block :=
  if start = stop then []
  else [.block [.int (nextCounter start stop), .int stop, .deferred "exec_do_range", body]]

/-- These are the `otherTurns` that wait. -/
theorem map_laterTurns (start stop : Int64) (body : Expr) :
    ((laterTurns start stop body).map fun e => .code (.expr e)) =
      otherTurns .exec start stop body := by
  rw [laterTurns, otherTurns]
  split <;> rfl

section Range

variable {library : Library} {limits : Limits} {inputs : List Value} {m : Nat} {body loop : Expr}
  {config : Config} {start stop : Int64}
  (offers : library.Offers [.int, BodySource.exec.stack] (loopNames .exec))
  (cap : 3 ≤ limits.growthCap) (fits : body.size + 4 ≤ limits.maxPoints)
include offers

/-- Integers compute themselves. -/
theorem computes_ints (limits : Limits) (inputs : List Value) (numbers : List Int64) :
    library.Computes limits inputs numbers.length (numbers.map .int) []
      (numbers.map fun n => (.int, .int n)) := by
  induction numbers with
  | nil => exact .nil beside_nil
  | cons n numbers ih =>
    have hfirst : library.Computes limits inputs 1 [.int n] [] [(.int, .int n)] :=
      computes_literal (offers.type .int (by simp)) (by decide) rfl
    have hall := hfirst.append (ih.frame [(.int, .int n)] hfirst.given)
    rwa [Nat.add_comm] at hall

include cap fits

/-- **The step**: one turn of `"exec_do_range"` unfolds to the body and the other turns. -/
theorem leadsIn_turn (called : (Atom.expr loop).called? = some "exec_do_range")
    (hosts : config.Hosts library.registry inputs) :
    library.LeadsIn limits (·.From (.ofRegistry library.registry)) 1
      ((config.holding [(.int, .int start), (.int, .int stop)]).ahead [loop, body])
      ((config.holding [(.int, .int start)]).ahead (body :: laterTurns start stop body)) := by
  obtain ⟨ints, found⟩ := hosts.has (offers.contains List.mem_cons_self rfl)
  have hints : config.rest.stack? .int = some ints := found
  -- Both counters lie on the integer stack, so the two items held become one stack.
  have hone : config.holding [(.int, .int start)] =
      ⟨config.pending, config.rest.setStack .int (.int start :: ints)⟩ :=
    Config.topped_of_found found _
  have htwo : config.holding [(.int, .int start), (.int, .int stop)] =
      ⟨config.pending, config.rest.setStack .int (.int stop :: .int start :: ints)⟩ := by
    show (config.topped .int (.int start)).topped .int (.int stop) = _
    rw [Config.topped_of_found (Config.stack?_topped_self found _), Config.topped_of_found found,
      Config.setStack_setStack, Config.setStack_of_ne (by decide)]
  have hcounters : (config.rest.setStack .int (.int stop :: .int start :: ints)).stack? .int =
      some (.int stop :: .int start :: ints) := State.stack?_setStack_self hints _
  have hpending : (Config.mk config.pending (config.rest.setStack .int
      (.int stop :: .int start :: ints))).stack? BodySource.exec.stack = some config.pending := rfl
  have hturn := leadsIn_rangeTurn offers (library.realm_of_registry limits) cap called hpending
    hcounters (.inl fits)
  rw [State.setStack_setStack, ← map_laterTurns] at hturn
  rw [hone, htwo]
  exact hturn

/-- **The run**: a loop over a range folds `f` over the counters, if its body does so with one of
them. -/
theorem computes_range {β : Type} {hold : β → List (StackId × Value)} {f : β → Int64 → β}
    (visits : ∀ s i, library.Computes limits inputs m [body] (hold s ++ [(.int, .int i)])
      (hold (f s i)))
    (called : (Atom.expr loop).called? = some "exec_do_range") (start stop : Int64) (s : β) :
    library.Computes limits inputs ((m + 4) * (stop.toInt - start.toInt).natAbs + (m + 1))
      [loop, body] (hold s ++ [(.int, .int start), (.int, .int stop)])
      (hold ((counters start stop).foldl f s)) := by
  -- By induction on the distance, which the next counter makes smaller.
  induction hdistance : (stop.toInt - start.toInt).natAbs using Nat.strong_induction_on
    generalizing start s loop with
  | h k ih =>
    have hbeside : Beside (hold s) := fun entry hentry =>
      (visits s start).taken entry (List.mem_append_left _ hentry)
    have hturn (config : Config) (hosts : config.Hosts library.registry inputs) :
        library.LeadsIn limits (·.From (.ofRegistry library.registry)) 1
          ((config.holding (hold s ++ [(.int, .int start), (.int, .int stop)])).ahead [loop, body])
          ((config.holding (hold s ++ [(.int, .int start)])).ahead
            ([body] ++ laterTurns start stop body)) := by
      rw [Config.holding_append, Config.holding_append]
      exact leadsIn_turn offers cap fits called (hosts.holding _)
    have htaken : Beside (hold s ++ [(.int, .int start), (.int, .int stop)]) :=
      beside_append.mpr ⟨hbeside, by simp +decide⟩
    have hlater : library.Computes limits inputs ((m + 4) * k) (laterTurns start stop body)
        (hold (f s start)) (hold ((counters start stop).foldl f s)) := by
      rw [laterTurns]
      by_cases hlast : start = stop
      · obtain rfl : k = 0 := by rw [← hdistance, hlast, Int.sub_self, Int.natAbs_zero]
        rw [if_pos hlast, hlast, counters_self]
        exact .nil (visits s stop).given
      · -- The block for the other turns pushes their counters and calls the loop again.
        have hnear := (natAbs_nextCounter hlast).trans hdistance
        have hpushed := (computes_ints offers limits inputs [nextCounter start stop, stop]).frame
          (hold (f s start)) (visits s start).given
        have hagain : (Atom.expr (.deferred "exec_do_range")).called? = some "exec_do_range" := rfl
        have hcall := ih _ (by omega) hagain (nextCounter start stop) (f s start) rfl
        rw [List.append_nil] at hpushed
        have hblock := (hpushed.append hcall).block
        have hsteps : 1 + (2 + ((m + 4) * (stop.toInt - (nextCounter start stop).toInt).natAbs +
            (m + 1))) = (m + 4) * k := by
          rw [← hnear, Nat.mul_succ]
          omega
        rw [if_neg hlast, counters_cons hlast, ← hsteps]
        exact hblock
    have hall := Computes.unfold htaken hturn ((visits s start).append hlater)
    rwa [show 1 + (m + (m + 4) * k) = (m + 4) * k + (m + 1) by omega] at hall

end Range

end Library

/-! ## Clamped sums -/

/-- The word for a number, or `10 ^ 12`, the bound on results, if it is greater. -/
def capped (n : Nat) : Int64 := Int64.ofNat (min n (10 ^ 12))

/-- The word for a number, or the greatest one if it is greater. -/
def saturated (n : Nat) : Int64 := Int64.ofNat (min n largestInt)

theorem toInt_capped (n : Nat) : (capped n).toInt = min n (10 ^ 12) := by
  rw [capped, Int64.toInt_ofNat_of_lt (by omega)]

theorem toInt_saturated (n : Nat) : (saturated n).toInt = min n largestInt := by
  rw [saturated, Int64.toInt_ofNat_of_lt (by rw [largestInt]; omega)]

/-- **Clamping can wait**: `clampInt` of a clamped sum and a number is the whole sum, clamped. -/
theorem capped_add (a b : Nat) :
    clampInt ((capped a).toInt + (saturated b).toInt) = capped (a + b) := by
  rw [← Int64.toInt_inj, toInt_clampInt, toInt_capped, toInt_saturated, toInt_capped, clamped,
    largestInt]
  omega

/-- Adding up the numbers below `n`, with a clamped addition. -/
theorem foldl_clamped (n : Nat) :
    ((List.range n).map saturated).foldl (fun s i => clampInt (s.toInt + i.toInt)) 0 =
      capped (n * (n - 1) / 2) := by
  induction n with
  | zero => rfl
  | succ n ih =>
    rw [List.range_succ, List.map_append, List.foldl_append, ih, Nat.triangle_succ]
    exact capped_add _ n

/-- The counters from `0` to `n`. -/
theorem counters_zero {n : Int64} (nonneg : 0 ≤ n) :
    Instruction.counters 0 n = (List.range (n.toInt.toNat + 1)).map saturated := by
  have hzero : (0 : Int64).toInt = 0 := rfl
  have hnonneg := Int64.le_iff_toInt_le.mp nonneg
  have hlt := n.toInt_lt
  rw [Instruction.counters, hzero, Int.sub_zero, show n.toInt.natAbs = n.toInt.toNat by omega]
  refine List.map_congr_left fun k hk => ?_
  have hle : k ≤ n.toInt.toNat := Nat.le_of_lt_succ (List.mem_range.mp hk)
  rw [← Int64.toInt_inj, Instruction.toInt_counterAt (by omega), Instruction.counterAt, hzero,
    toInt_saturated, largestInt]
  -- The step is the sign of `n`, which is zero only when there is one counter.
  by_cases hn : n.toInt = 0
  · rw [hn, Int.sub_zero, Int.sign_zero]
    omega
  · rw [Int.sign_eq_one_of_pos (by omega)]
    omega

namespace Library

variable {library : Library} {limits : Limits} {inputs : List Value} {e : Expr}

/-- Adding two integers with `"int_add"`. -/
theorem computes_add (offers : library.Offers [.exec, .int] integerNames)
    (cap : 1 ≤ limits.growthCap) (called : (Atom.expr e).called? = some "int_add") (a b : Int64) :
    library.Computes limits inputs 1 [e] [(.int, .int a), (.int, .int b)]
      [(.int, .int (clampInt (a.toInt + b.toInt)))] := by
  have hmember : Instruction.intOperation "add" (fun a b => some (a + b)) ∈
      Instruction.arithmetic := by simp [Instruction.arithmetic]
  have hint : library.registry.contains .int = true := offers.contains (by decide) rfl
  refine computes_call called (get?_integers offers hmember (by decide) rfl) ?_ (.refl _)
    (by simp +decide) (by simp +decide) cap fun config hosts => ?_
  · simpa [Instruction.intOperation] using hint
  · exact Instruction.does_combineInts (hosts.has hint) (f := fun a b => some (a + b)) rfl

/-- **Adding up without a loop**, by `Samples.chainedSum`. -/
theorem computes_chainedSum (cap : 1 ≤ limits.growthCap) (n : Nat) :
    core.Computes limits inputs (2 * n + 1) (Samples.chainedSum n) []
      [(.int, .int (capped (n * (n - 1) / 2)))] := by
  induction n with
  | zero => exact computes_ints (offers_core _ _) limits inputs [0]
  | succ n ih =>
    -- The sum so far waits below the next number.
    have hnumber := (computes_ints (offers_core _ _) limits inputs [saturated n]).frame
      [(.int, .int (capped (n * (n - 1) / 2)))] ih.given
    have hcalled : (Atom.expr (.instr "int_add" 0)).called? = some "int_add" := rfl
    have hadd : core.Computes limits inputs 1 _ _ _ := computes_add (offers_core _ _) cap hcalled
      (capped (n * (n - 1) / 2)) (saturated n)
    rw [capped_add, ← Nat.triangle_succ] at hadd
    have hcode : Samples.chainedSum (n + 1) =
        Samples.chainedSum n ++ [.int (saturated n), .instr "int_add" 0] := by
      simp only [Samples.chainedSum, List.range_succ, List.flatMap_append, List.flatMap_singleton,
        List.cons_append]
      rfl
    rw [hcode]
    exact ih.append (hnumber.append hadd)

/-- **Adding up in a loop**, by `Samples.loopedSum`. -/
theorem computes_loopedSum (set : InstructionSet) (cap : 3 ≤ limits.growthCap)
    (size : 5 ≤ limits.maxPoints) {n : Int64} (nonneg : 0 ≤ n) :
    core.Computes limits inputs (5 * n.toInt.toNat + 5) (Samples.loopedSum set n) []
      [(.int, .int (capped (n.toInt.toNat * (n.toInt.toNat + 1) / 2)))] := by
  have hsize : (set.toExpr "int_add").size + 4 ≤ limits.maxPoints := by
    rw [InstructionSet.toExpr_eq]
    exact size
  have hadd (s i : Int64) : core.Computes limits inputs 1 [set.toExpr "int_add"]
      ((fun s => [(.int, .int s)]) s ++ [(.int, .int i)])
      ((fun s => [(.int, .int s)]) (clampInt (s.toInt + i.toInt))) :=
    computes_add (offers_core _ _) (by omega) (set.called?_toExpr _) s i
  have hrange := computes_range (offers_core _ _) cap hsize hadd
    (set.called?_toExpr "exec_do_range") 0 n 0
  have hsteps : 3 + ((1 + 4) * (n.toInt - (0 : Int64).toInt).natAbs + (1 + 1)) =
      5 * n.toInt.toNat + 5 := by
    have hnonneg := Int64.le_iff_toInt_le.mp nonneg
    have hzero : (0 : Int64).toInt = 0 := rfl
    omega
  -- The counters from zero on are the numbers below the next one.
  rw [counters_zero nonneg, foldl_clamped, Nat.add_sub_cancel,
    Nat.mul_comm (n.toInt.toNat + 1)] at hrange
  rw [← hsteps]
  exact (computes_ints (offers_core _ _) limits inputs [0, 0, n]).append hrange

end Library

namespace Machine

/-- **The programs that add up numbers run to their end**, on every machine of the core library that
is given enough steps and a clock that lasts for them. The loop from zero to `n` takes `5 * n + 6`
steps and the chain of the numbers below `n` takes `2 * n + 2`. Each leaves its sum as the only item
on any stack, or `10^12` where the sum is greater. -/
theorem sums_finish (machine : Machine) (madeOf : machine.MadeOf .core) (set : InstructionSet)
    (inputs : List Value) (outputs : List String) (limits : Limits) (clock : Clock) :
    (∀ n : Int64, 0 ≤ n → 5 * n.toInt.toNat + 6 ≤ limits.stepLimit → 3 ≤ limits.growthCap →
      5 ≤ limits.maxPoints → clock.Lasts limits 0 (5 * n.toInt.toNat + 6) →
      Finished (machine.run (Samples.loopedSum set n) inputs outputs limits clock)
        (5 * n.toInt.toNat + 6) "" .int
        [.int (Int64.ofNat (min (n.toInt.toNat * (n.toInt.toNat + 1) / 2) (10 ^ 12)))]) ∧
    ∀ n : Nat, 2 * n + 2 ≤ limits.stepLimit → 1 ≤ limits.growthCap →
      clock.Lasts limits 0 (2 * n + 2) →
      Finished (machine.run (Samples.chainedSum n) inputs outputs limits clock) (2 * n + 2) "" .int
        [.int (Int64.ofNat (min (n * (n - 1) / 2) (10 ^ 12)))] := by
  refine ⟨fun n nonneg steps cap size lasts => ?_, fun n steps cap lasts => ?_⟩
  · exact finished_of_computes madeOf rfl rfl (Library.computes_loopedSum set cap size nonneg) steps
      outputs lasts
  · exact finished_of_computes madeOf rfl rfl (Library.computes_chainedSum cap n) steps outputs
      lasts

/-- A loop with limits that just allow it, and a chain whose sum is too large. -/
theorem sums_finish_tight :
    core.MadeOf .core ∧
      Finished (core.run (Samples.loopedSum (.core .core) 3) [] []
        { stepLimit := 21, growthCap := 3, maxPoints := 5 } .still) 21 "" .int [.int 6] ∧
      Finished (core.run (Samples.chainedSum 2000000) [] []
        { stepLimit := 4000002, growthCap := 1, maxPoints := 0 } .still) 4000002 "" .int
        [.int 1000000000000] := by
  have hmade : core.MadeOf .core := core_madeOf
  refine ⟨hmade, ?_, ?_⟩
  · exact (sums_finish core hmade _ [] [] _ _).1 3 (by decide) (by decide) (by decide) (by decide)
      (Clock.lasts_still _ _ _)
  · exact (sums_finish core hmade (.core .core) [] [] _ _).2 2000000 (by decide) (by decide)
      (Clock.lasts_still _ _ _)

end Machine

end PushMachine
