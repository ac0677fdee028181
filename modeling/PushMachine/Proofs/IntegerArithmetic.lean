import Mathlib.Data.Rat.Floor
import PushMachine.Instruction.Arithmetic
import PushMachine.Proofs.Arguments
import PushMachine.Proofs.InstructionNames

/-! # Integer arithmetic is exact

The instructions on integers compute the exact result and push the nearest integer of magnitude at
most `10^12`. Nothing is lost on the way: all operands are integers of 64 bits, and every
intermediate result fits into a word of 128 bits.

Division goes to the floor. What that means for a quotient and a remainder is said by
`FlooredDivision`, which determines both (`FlooredDivision.unique`). A machine divides towards zero,
so its quotient and its remainder are corrected by two separate tests of signs
(`flooredQuotient?`, `flooredRemainder?`), and these agree in all cases because they lead to the
same floored division. -/

namespace PushMachine

/-! ## Floored division -/

/-- **A floored division** of `a` by `b`: the remainder `r` has the sign of the divisor, or is zero,
and is smaller. -/
structure FlooredDivision (a b q r : Int) : Prop where
  /-- The quotient and the remainder make up the dividend. -/
  eq : a = b * q + r
  /-- The remainder has the sign of the divisor. -/
  sign : r = 0 ∨ r.sign = b.sign
  /-- The remainder is smaller than the divisor. -/
  lt : |r| < |b|

namespace FlooredDivision

variable {a b q r q' r' : Int}

/-- The remainder lies between zero and the divisor: from `0` up or down to `b`. -/
theorem between (division : FlooredDivision a b q r) : 0 ≤ r ∧ r < b ∨ b < r ∧ r ≤ 0 := by
  obtain ⟨-, hsign, hlt⟩ := division
  rcases lt_trichotomy b 0 with hb | rfl | hb
  · rw [Int.sign_eq_neg_one_of_neg hb, Int.sign_eq_neg_one_iff_neg] at hsign
    rw [abs_of_neg hb, abs_lt] at hlt
    omega
  · exact absurd hlt (not_lt_of_ge (by simp))
  · rw [Int.sign_eq_one_of_pos hb, Int.sign_eq_one_iff_pos] at hsign
    rw [abs_of_pos hb, abs_lt] at hlt
    omega

/-- Lying between zero and the divisor is all that is asked of a remainder. -/
theorem of_between (eq : a = b * q + r) (between : 0 ≤ r ∧ r < b ∨ b < r ∧ r ≤ 0) :
    FlooredDivision a b q r := by
  refine ⟨eq, ?_, ?_⟩
  · by_cases hr : r = 0
    · exact .inl hr
    · refine .inr ?_
      rcases between with ⟨hr', hb⟩ | ⟨hb, hr'⟩
      · rw [Int.sign_eq_one_of_pos (by omega), Int.sign_eq_one_of_pos (by omega)]
      · rw [Int.sign_eq_neg_one_of_neg (by omega), Int.sign_eq_neg_one_of_neg (by omega)]
  · rcases between with ⟨hr', hb⟩ | ⟨hb, hr'⟩
    · rwa [abs_of_nonneg hr', abs_of_pos (by omega)]
    · rw [abs_of_nonpos hr', abs_of_neg (by omega)]
      omega

/-- The divisor is not zero. -/
theorem divisor_ne_zero (division : FlooredDivision a b q r) : b ≠ 0 := by
  have := division.between
  omega

/-- The quotient is the floor of the exact one: `⌊a / b⌋ = q`. -/
theorem floor_eq (division : FlooredDivision a b q r) : ⌊(a : ℚ) / b⌋ = q := by
  have hb : (b : ℚ) ≠ 0 := Int.cast_ne_zero.mpr division.divisor_ne_zero
  have hquotient : (a : ℚ) / b = q + r / b := by
    rw [division.eq]
    push_cast
    field_simp
  -- What is left over is a fraction from zero up to one.
  have hrest : (0 : ℚ) ≤ r / b ∧ (r : ℚ) / b < 1 := by
    rcases division.between with ⟨hr, hlt⟩ | ⟨hlt, hr⟩
    · have hpos : (0 : ℚ) < b := by exact_mod_cast lt_of_le_of_lt hr hlt
      exact ⟨div_nonneg (by exact_mod_cast hr) hpos.le,
        (div_lt_one hpos).mpr (by exact_mod_cast hlt)⟩
    · have hneg : (b : ℚ) < 0 := by exact_mod_cast lt_of_lt_of_le hlt hr
      exact ⟨div_nonneg_of_nonpos (by exact_mod_cast hr) hneg.le,
        (div_lt_one_of_neg hneg).mpr (by exact_mod_cast hlt)⟩
  rw [Int.floor_eq_iff, hquotient]
  constructor
  · linarith only [hrest.1]
  · linarith only [hrest.2]

/-- **There is one floored division** only. -/
theorem unique (division : FlooredDivision a b q r) (other : FlooredDivision a b q' r') :
    q = q' ∧ r = r' := by
  have hq : q = q' := division.floor_eq.symm.trans other.floor_eq
  refine ⟨hq, ?_⟩
  have heq := division.eq.symm.trans other.eq
  rw [hq] at heq
  exact add_left_cancel heq

/-- The quotient is not greater than the dividend: `|q| ≤ |a|`. -/
theorem abs_quotient_le (division : FlooredDivision a b q r) : |q| ≤ |a| := by
  have heq := division.eq
  -- By the signs of remainder and quotient, the dividend lies beyond the quotient.
  rcases division.between with ⟨hr, hlt⟩ | ⟨hlt, hr⟩
  · rcases lt_or_ge q 0 with hq | hq
    · have hle : a ≤ q := by nlinarith only [heq, hr, hlt, hq]
      rw [abs_of_neg hq, abs_of_neg (lt_of_le_of_lt hle hq)]
      exact neg_le_neg hle
    · have hle : q ≤ a := by nlinarith only [heq, hr, hlt, hq]
      rwa [abs_of_nonneg hq, abs_of_nonneg (hq.trans hle)]
  · rcases lt_or_ge q 0 with hq | hq
    · have hle : -q ≤ a := by nlinarith only [heq, hr, hlt, hq]
      rwa [abs_of_neg hq, abs_of_pos (lt_of_lt_of_le (neg_pos.mpr hq) hle)]
    · have hle : a ≤ -q := by nlinarith only [heq, hr, hlt, hq]
      rw [abs_of_nonneg hq, abs_of_nonpos (hle.trans (neg_nonpos.mpr hq))]
      exact le_neg_of_le_neg hle

/-- The quotient and the remainder to the floor, `fdiv` and `fmod`, are a floored division. -/
theorem of_ne_zero (a : Int) (hb : b ≠ 0) : FlooredDivision a b (a.fdiv b) (a.fmod b) := by
  refine of_between (Int.mul_fdiv_add_fmod a b).symm ?_
  rcases lt_or_gt_of_ne hb with hneg | hpos
  · -- Both signs turned, the divisor is positive.
    have hnonneg := Int.fmod_nonneg_of_pos (-a) (Int.neg_pos_of_neg hneg)
    have hlt := Int.fmod_lt_of_pos (-a) (Int.neg_pos_of_neg hneg)
    rw [Int.neg_fmod_neg] at hnonneg hlt
    omega
  · exact .inl ⟨Int.fmod_nonneg_of_pos a hpos, Int.fmod_lt_of_pos a hpos⟩

/-- The quotient and the remainder towards zero, `tdiv` and `tmod`, corrected where the signs
differ, are a floored division. -/
theorem of_truncated (a : Int) (hb : b ≠ 0) :
    FlooredDivision a b
      (if a.tmod b ≠ 0 ∧ ¬(a < 0 ↔ b < 0) then a.tdiv b - 1 else a.tdiv b)
      (if a.tmod b ≠ 0 ∧ ¬(a.tmod b < 0 ↔ b < 0) then a.tmod b + b else a.tmod b) := by
  have heq := Int.mul_tdiv_add_tmod a b
  have hlt : (a.tmod b).natAbs < b.natAbs := by
    rw [Int.natAbs_tmod]
    exact Nat.mod_lt _ (Int.natAbs_pos.mpr hb)
  -- A remainder towards zero has the sign of the dividend, so both tests are the same.
  have hsame : a.tmod b ≠ 0 → (a.tmod b < 0 ↔ a < 0) := by
    intro hne
    rcases le_or_gt 0 a with ha | ha
    · have := Int.tmod_nonneg b ha
      omega
    · have := Int.tmod_nonneg b (Int.neg_nonneg_of_nonpos ha.le)
      rw [Int.neg_tmod] at this
      omega
  by_cases hzero : a.tmod b = 0
  · rw [if_neg (fun h => h.1 hzero), if_neg (fun h => h.1 hzero)]
    exact of_between heq.symm (by omega)
  · simp only [hsame hzero]
    by_cases hdiffer : a < 0 ↔ b < 0
    · rw [if_neg (fun h => h.2 hdiffer), if_neg (fun h => h.2 hdiffer)]
      exact of_between heq.symm (by omega)
    · rw [if_pos ⟨hzero, hdiffer⟩, if_pos ⟨hzero, hdiffer⟩]
      refine of_between ?_ (by omega)
      rw [mul_sub, mul_one]
      omega

end FlooredDivision

/-! ## Words of 128 bits -/

/-- A result in a word of 128 bits, if it fits. -/
def wide? (n : Int) : Option Int := if -2 ^ 127 ≤ n ∧ n < 2 ^ 127 then some n else none

theorem wide?_of_lt {n : Int} (lower : -2 ^ 127 ≤ n) (upper : n < 2 ^ 127) : wide? n = some n :=
  if_pos ⟨lower, upper⟩

/-- **The floored quotient in words of 128 bits**: `tdiv`, less one if there is a remainder and the
operands have different signs. -/
def flooredQuotient? (a b : Int) : Option Int := do
  let q ← wide? (a.tdiv b)
  let r ← wide? (a.tmod b)
  if r ≠ 0 ∧ ¬(a < 0 ↔ b < 0) then wide? (q - 1) else return q

/-- **The floored remainder in words of 128 bits**: `tmod`, more by the divisor if their signs
differ. -/
def flooredRemainder? (a b : Int) : Option Int := do
  let r ← wide? (a.tmod b)
  if r ≠ 0 ∧ ¬(r < 0 ↔ b < 0) then wide? (r + b) else return r

section Words

variable (a b : Int64)

/-- The quotient and the remainder towards zero are not greater than the operands: within `2 ^ 63`
of zero. -/
theorem truncated_bounds :
    -2 ^ 63 ≤ a.toInt.tdiv b.toInt ∧ a.toInt.tdiv b.toInt ≤ 2 ^ 63 ∧
      -2 ^ 63 ≤ a.toInt.tmod b.toInt ∧ a.toInt.tmod b.toInt ≤ 2 ^ 63 := by
  have hquotient := Int.natAbs_tdiv_le_natAbs a.toInt b.toInt
  have hremainder : (a.toInt.tmod b.toInt).natAbs ≤ a.toInt.natAbs := by
    rw [Int.natAbs_tmod]
    exact Nat.mod_le _ _
  have hlower := a.le_toInt
  have hupper := a.toInt_lt
  omega

/-- **The quotient is computed without overflow**: `flooredQuotient?` is `fdiv`. -/
theorem flooredQuotient?_eq (hb : b.toInt ≠ 0) :
    flooredQuotient? a.toInt b.toInt = some (a.toInt.fdiv b.toInt) := by
  obtain ⟨hquotient, hquotient', hremainder, hremainder'⟩ := truncated_bounds a b
  have hsame := ((FlooredDivision.of_truncated a.toInt hb).unique
    (FlooredDivision.of_ne_zero a.toInt hb)).1
  rw [flooredQuotient?, wide?_of_lt (by omega) (by omega), wide?_of_lt (by omega) (by omega),
    ← hsame]
  simp only [Option.bind_eq_bind, Option.bind_some]
  split
  · exact wide?_of_lt (by omega) (by omega)
  · rfl

/-- **The remainder is computed without overflow**: `flooredRemainder?` is `fmod`. -/
theorem flooredRemainder?_eq (hb : b.toInt ≠ 0) :
    flooredRemainder? a.toInt b.toInt = some (a.toInt.fmod b.toInt) := by
  obtain ⟨-, -, hremainder, hremainder'⟩ := truncated_bounds a b
  have hsame := ((FlooredDivision.of_truncated a.toInt hb).unique
    (FlooredDivision.of_ne_zero a.toInt hb)).2
  have hlower := b.le_toInt
  have hupper := b.toInt_lt
  rw [flooredRemainder?, wide?_of_lt (by omega) (by omega), ← hsame]
  simp only [Option.bind_eq_bind, Option.bind_some]
  split
  · exact wide?_of_lt (by omega) (by omega)
  · rfl

/-- A product fits into a word of 128 bits. -/
theorem wide?_mul : wide? (a.toInt * b.toInt) = some (a.toInt * b.toInt) := by
  have hbound : |a.toInt * b.toInt| ≤ 2 ^ 63 * 2 ^ 63 := by
    rw [abs_mul]
    exact mul_le_mul (abs_le.mpr ⟨a.le_toInt, a.toInt_lt.le⟩)
      (abs_le.mpr ⟨b.le_toInt, b.toInt_lt.le⟩) (abs_nonneg _) (by norm_num)
  rw [abs_le] at hbound
  exact wide?_of_lt (by omega) (by omega)

end Words

/-! ## The instructions -/

/-- The nearest integer of magnitude at most `10^12`. -/
def clamped (n : Int) : Int := max (-10 ^ 12) (min n (10 ^ 12))

/-- A clamped result is an integer of 64 bits: `clampInt n` is `clamped n`. -/
theorem toInt_clampInt (n : Int) : (clampInt n).toInt = clamped n := by
  rw [clampInt, maxMagnitude, clamped]
  exact Int64.toInt_ofInt_of_le (by omega) (by omega)

theorem clamped_of_abs_le {n : Int} (h : |n| ≤ 10 ^ 12) : clamped n = n := by
  rw [abs_le] at h
  rw [clamped, min_eq_left h.2, max_eq_right h.1]

namespace Instruction

open Script

variable {config : Config} {a b : Int64} {n : Int}

/-- Combining two integers with `combineInts f`, where `f` has a result. -/
theorem does_combineInts (has : config.Has .int) {f : Int → Int → Option Int}
    (result : f a.toInt b.toInt = some n) :
    (combineInts f).Does (config.holding [(.int, .int a), (.int, .int b)]) ()
      (config.topped .int (.int (clampInt n))) 1 :=
  .bind (m := 1) (does_popInt_topped (has.topped _ _) b) (.bind (m := 1) (does_popInt_topped has a)
    (.bind (m := 1) (does_ofOption result) (does_push_topped has _)))

/-- Integers for which `f` has no result. -/
theorem givesUp_combineInts (has : config.Has .int) {f : Int → Int → Option Int}
    (none : f a.toInt b.toInt = none) :
    (combineInts f).GivesUp (config.holding [(.int, .int a), (.int, .int b)]) :=
  (does_popInt_topped (has.topped _ _) b).bind_givesUp
    ((does_popInt_topped has a).bind_givesUp ((givesUp_ofOption none).bind _))

/-- Changing an integer with `changeInt f`. -/
theorem does_changeInt (has : config.Has .int) (f : Int → Int) (a : Int64) :
    (changeInt f).Does (config.holding [(.int, .int a)]) ()
      (config.topped .int (.int (clampInt (f a.toInt)))) 1 :=
  .bind (m := 1) (does_popInt_topped has a) (does_push_topped has _)

end Instruction

namespace Library

open Instruction

/-- The names of the instructions that compute with integers. -/
def integerNames : List String :=
  ["int_add", "int_sub", "int_mult", "int_div", "int_mod", "int_min", "int_max", "int_inc",
    "int_dec"]

/-- **An integer result**: the number fits into a word of 128 bits, and the instruction gives the
nearest integer of magnitude at most `10^12` for it. -/
def GivesInt (library : Library) (caps : SizeCaps) (name : String) (arguments : List Int64)
    (n : Int) : Prop :=
  wide? n = some n ∧ ∃ result : Int64, result.toInt = clamped n ∧
    library.Gives caps name (arguments.map fun a => (.int, .int a)) .int (.int result)

section Integers

variable {library : Library} {caps : SizeCaps} {a b : Int64} {n : Int}
  (offers : library.Offers [.exec, .int] integerNames)
include offers

/-- The names in `integerNames` stand for instructions of `arithmetic`. -/
theorem get?_integers {instruction : Instruction} (member : instruction ∈ arithmetic)
    (named : instruction.name ∈ integerNames)
    (touched : instruction.touched.all Registry.core.contains = true) :
    library.instructions.get? instruction.name = some instruction := by
  have hown : ∀ name ∈ integerNames, (fixed.map Instruction.name).count name = 1 := by
    decide +kernel
  have hfixed : instruction ∈ fixed := by
    simp only [fixed, List.mem_append, member, true_or]
  rw [offers.instruction _ named]
  exact InstructionSet.get?_core_fixed hfixed (hown _ named) touched

/-- The result of two integers: what `intOperation verb f` gives. -/
theorem givesInt_operation (verb : String) (f : Int → Int → Option Int)
    (member : intOperation verb f ∈ arithmetic) (named : "int_" ++ verb ∈ integerNames)
    (result : f a.toInt b.toInt = some n) (fits : wide? n = some n) :
    library.GivesInt caps ("int_" ++ verb) [a, b] n := by
  refine ⟨fits, clampInt n, toInt_clampInt n, ?_⟩
  refine gives_of_does [.int] (get?_integers offers member named rfl)
    (offers.registered (by decide)) (by simp) (by simp) (.refl _) fun config has => ?_
  exact does_combineInts (has .int List.mem_cons_self) result

/-- Two integers without a result: `intOperation verb f` declines them. -/
theorem declines_operation (verb : String) (f : Int → Int → Option Int)
    (member : intOperation verb f ∈ arithmetic) (named : "int_" ++ verb ∈ integerNames)
    (none : f a.toInt b.toInt = none) :
    library.Declines caps ("int_" ++ verb) [(.int, .int a), (.int, .int b)] :=
  declines_of_givesUp [.int] (get?_integers offers member named rfl)
    (offers.registered (by decide)) (by simp)
    fun config has => givesUp_combineInts (has .int List.mem_cons_self) none

/-- The result of one integer: what `intChange verb f` gives. -/
theorem givesInt_change (verb : String) (f : Int → Int)
    (member : intChange verb f ∈ arithmetic) (named : "int_" ++ verb ∈ integerNames)
    (fits : wide? (f a.toInt) = some (f a.toInt)) :
    library.GivesInt caps ("int_" ++ verb) [a] (f a.toInt) := by
  refine ⟨fits, clampInt (f a.toInt), toInt_clampInt _, ?_⟩
  refine gives_of_does [.int] (get?_integers offers member named rfl)
    (offers.registered (by decide)) (by simp) (by simp) (.refl _) fun config has => ?_
  exact does_changeInt (has .int List.mem_cons_self) f a

end Integers

/-- **Integer arithmetic is exact**, up to the bound on results. All results and intermediate
results fit into a word of 128 bits, and what is pushed is the nearest integer of magnitude at most
`10^12`. Division and remainder revert exactly for the divisor zero. For any other they are the
floored division before they are clamped, computed from the division towards zero, and for operands
within the bound the pushed integers are a division too. -/
theorem integers_exact (library : Library) (offers : library.Offers [.exec, .int] integerNames)
    (caps : SizeCaps) (a b : Int64) :
    library.GivesInt caps "int_add" [a, b] (a.toInt + b.toInt) ∧
    library.GivesInt caps "int_sub" [a, b] (a.toInt - b.toInt) ∧
    library.GivesInt caps "int_mult" [a, b] (a.toInt * b.toInt) ∧
    library.GivesInt caps "int_min" [a, b] (min a.toInt b.toInt) ∧
    library.GivesInt caps "int_max" [a, b] (max a.toInt b.toInt) ∧
    library.GivesInt caps "int_inc" [a] (a.toInt + 1) ∧
    library.GivesInt caps "int_dec" [a] (a.toInt - 1) ∧
    (b.toInt = 0 →
      library.Declines caps "int_div" [(.int, .int a), (.int, .int b)] ∧
      library.Declines caps "int_mod" [(.int, .int a), (.int, .int b)]) ∧
    (b.toInt ≠ 0 → ∃ q r, FlooredDivision a.toInt b.toInt q r ∧ q = ⌊(a.toInt : ℚ) / b.toInt⌋ ∧
      flooredQuotient? a.toInt b.toInt = some q ∧ flooredRemainder? a.toInt b.toInt = some r ∧
      library.GivesInt caps "int_div" [a, b] q ∧ library.GivesInt caps "int_mod" [a, b] r ∧
      (|a.toInt| ≤ 10 ^ 12 → |b.toInt| ≤ 10 ^ 12 → a.toInt = b.toInt * clamped q + clamped r)) := by
  have hlower := a.le_toInt
  have hupper := a.toInt_lt
  have hlower' := b.le_toInt
  have hupper' := b.toInt_lt
  refine ⟨?sum, ?difference, ?product, ?least, ?greatest, ?next, ?previous, ?zero, ?division⟩
  case sum =>
    exact givesInt_operation offers "add" (fun a b => some (a + b)) (by simp [arithmetic])
      (by decide) rfl (wide?_of_lt (by omega) (by omega))
  case difference =>
    exact givesInt_operation offers "sub" (fun a b => some (a - b)) (by simp [arithmetic])
      (by decide) rfl (wide?_of_lt (by omega) (by omega))
  case product =>
    exact givesInt_operation offers "mult" (fun a b => some (a * b)) (by simp [arithmetic])
      (by decide) rfl (wide?_mul a b)
  case least =>
    exact givesInt_operation offers "min" (fun a b => some (min a b)) (by simp [arithmetic])
      (by decide) rfl (wide?_of_lt (by omega) (by omega))
  case greatest =>
    exact givesInt_operation offers "max" (fun a b => some (max a b)) (by simp [arithmetic])
      (by decide) rfl (wide?_of_lt (by omega) (by omega))
  case next =>
    exact givesInt_change offers "inc" (· + 1) (by simp [arithmetic]) (by decide)
      (wide?_of_lt (by omega) (by omega))
  case previous =>
    exact givesInt_change offers "dec" (· - 1) (by simp [arithmetic]) (by decide)
      (wide?_of_lt (by omega) (by omega))
  case zero =>
    intro hb
    exact ⟨declines_operation offers "div" quotient? (by simp [arithmetic]) (by decide) (if_pos hb),
      declines_operation offers "mod" remainder? (by simp [arithmetic]) (by decide) (if_pos hb)⟩
  case division =>
    intro hb
    have division := FlooredDivision.of_ne_zero a.toInt hb
    have hquotient := division.abs_quotient_le
    have hremainder := division.lt
    -- Both are bounded by an operand, so they fit into a word as well.
    obtain ⟨hq, hq'⟩ := abs_le.mp (hquotient.trans (abs_le.mpr ⟨hlower, hupper.le⟩))
    obtain ⟨hr, hr'⟩ := abs_le.mp (hremainder.le.trans (abs_le.mpr ⟨hlower', hupper'.le⟩))
    refine ⟨_, _, division, division.floor_eq.symm, flooredQuotient?_eq a b hb,
      flooredRemainder?_eq a b hb, ?_, ?_, ?_⟩
    · exact givesInt_operation offers "div" quotient? (by simp [arithmetic]) (by decide) (if_neg hb)
        (wide?_of_lt (by omega) (by omega))
    · exact givesInt_operation offers "mod" remainder? (by simp [arithmetic]) (by decide)
        (if_neg hb) (wide?_of_lt (by omega) (by omega))
    · intro ha hb'
      rw [clamped_of_abs_le (hquotient.trans ha), clamped_of_abs_le (hremainder.le.trans hb')]
      exact division.eq

/-- The least integer divided by `-1` is more than any integer, and is pushed as `10^12`. -/
theorem integers_exact_least :
    core.Offers [.exec, .int] integerNames ∧
      ∃ result : Int64, result.toInt = 10 ^ 12 ∧
        core.Gives {} "int_div" [(.int, .int Int64.minValue), (.int, .int (-1))] .int
          (.int result) := by
  have offers := offers_core [.exec, .int] integerNames
  obtain ⟨-, -, -, -, -, -, -, -, hdivision⟩ := integers_exact core offers {} Int64.minValue (-1)
  obtain ⟨q, r, -, -, hquotient, -, ⟨-, result, hresult, hgives⟩, -⟩ := hdivision (by decide)
  have hq : q = 2 ^ 63 := Option.some.inj (hquotient.symm.trans (by decide))
  refine ⟨offers, result, hresult.trans ?_, hgives⟩
  rw [hq]
  decide

end Library

end PushMachine
