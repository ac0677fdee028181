import Mathlib.Data.Prod.Lex
import Mathlib.Logic.Relation
import Mathlib.Order.Compare
import PushMachine.Simplifier
import PushMachine.Proofs.Sampling

/-! # Simplification never makes a program worse

An attempt of a simplifier either leaves the best genome as it is or replaces it by a candidate: a
shorter genome, with some genes erased and at least one left, whose errors add up to no more than
the total that is kept of the best one. That total stays the sum of the best genome's errors
(`Simplifier.total_after`), so the genome that is left after all attempts is reached by a chain of
such replacements (`Simplifier.chain_after`).

Sums of errors are compared as doubles. Their order is transitive, and it is reflexive except at
NaN, which is neither above nor below any double: errors that add up to NaN are never replaced. -/

namespace PushMachine

/-! ## The order of doubles

Doubles other than NaN are ordered by a rank: first by sign and finiteness, then, for finite ones,
by exponent and mantissa, which count downwards for negative doubles. -/

namespace Double

open Float.Model

/-- The rank of a double in its order. NaN has `none`. -/
def rank? : UnpackedFloat → Option (Int ×ₗ Int ×ₗ Int)
  | .notANumber => none
  | .infinity .negative => some (toLex (-2, toLex (0, 0)))
  | .finite .negative mantissa exponent _ => some (toLex (-1, toLex (-exponent, -mantissa)))
  | .zero _ => some (toLex (0, toLex (0, 0)))
  | .finite .positive mantissa exponent _ => some (toLex (1, toLex (exponent, mantissa)))
  | .infinity .positive => some (toLex (2, toLex (0, 0)))

theorem isLE_then_compare (e f : Int) (m n : Nat) :
    ((compare e f).then (compare m n)).isLE = true ↔ e < f ∨ e = f ∧ m ≤ n := by
  rcases lt_trichotomy e f with hlt | heq | hgt
  · simp [compare_lt_iff_lt.mpr hlt, hlt]
  · subst heq
    simp [Nat.isLE_compare]
  · simp [compare_gt_iff_gt.mpr hgt, hgt.ne', hgt.le]

theorem isGE_then_compare (e f : Int) (m n : Nat) :
    ((compare e f).then (compare m n)).isGE = true ↔ f < e ∨ e = f ∧ n ≤ m := by
  rcases lt_trichotomy e f with hlt | heq | hgt
  · simp [compare_lt_iff_lt.mpr hlt, hlt.ne, hlt.le]
  · subst heq
    simp [Nat.isGE_compare]
  · simp [compare_gt_iff_gt.mpr hgt, hgt]

theorem unpacked_le_iff (a b : UnpackedFloat) :
    a.le b = true ↔ ∃ x y, rank? a = some x ∧ rank? b = some y ∧ x ≤ y := by
  rcases a with (_ | _) | _ | _ | (_ | _) <;> rcases b with (_ | _) | _ | _ | (_ | _) <;>
    dsimp only [UnpackedFloat.le, UnpackedFloat.compare, rank?] <;>
    simp [Prod.Lex.toLex_le_toLex, isLE_then_compare, isGE_then_compare]
  -- What is left compares two signs.
  all_goals rfl

theorem le_iff_rank? (a b : Float) :
    a ≤ b ↔ ∃ x y, rank? a.toModel.unpack = some x ∧ rank? b.toModel.unpack = some y ∧ x ≤ y := by
  rw [← unpacked_le_iff]
  exact decide_eq_true_iff

theorem isSome_rank? (a : UnpackedFloat) : (rank? a).isSome = !a.isNaN := by
  rcases a with (_ | _) | _ | _ | (_ | _) <;> rfl

protected theorem le_trans {a b c : Float} (hab : a ≤ b) (hbc : b ≤ c) : a ≤ c := by
  obtain ⟨x, y, hx, hy, hxy⟩ := (le_iff_rank? a b).mp hab
  obtain ⟨y', z, hy', hz, hyz⟩ := (le_iff_rank? b c).mp hbc
  obtain rfl : y = y' := Option.some.inj (hy.symm.trans hy')
  exact (le_iff_rank? a c).mpr ⟨x, z, hx, hz, hxy.trans hyz⟩

/-- Nothing is below NaN: `a ≤ b` says that `b` is not NaN. -/
theorem isNaN_of_le {a b : Float} (hab : a ≤ b) : b.isNaN = false := by
  obtain ⟨x, y, -, hy, -⟩ := (le_iff_rank? a b).mp hab
  have hrank : (rank? b.toModel.unpack).isSome = !b.isNaN := isSome_rank? _
  rw [hy] at hrank
  exact Bool.not_eq_eq_eq_not.mp hrank.symm

protected theorem le_refl {a : Float} (hnumber : a.isNaN = false) : a ≤ a := by
  have hrank : (rank? a.toModel.unpack).isSome = !a.isNaN := isSome_rank? _
  rw [hnumber] at hrank
  obtain ⟨x, hx⟩ := Option.isSome_iff_exists.mp hrank
  exact (le_iff_rank? a a).mpr ⟨x, x, hx, hx, le_rfl⟩

end Double

/-! ## Erased positions -/

namespace Genome

theorem erasePositions_sublist (genome : Genome) (positions : List Nat) :
    (genome.erasePositions positions).Sublist genome := by
  have hsublist : (genome.erasePositions positions).Sublist (genome.zipIdx.map Prod.fst) :=
    List.filter_sublist.map Prod.fst
  rwa [List.zipIdx_map_fst] at hsublist

/-- Each of the positions that are `Drawn` takes a gene away. -/
theorem length_erasePositions (genome : Genome) {most : Nat} {positions : List Nat}
    (drawn : Drawn genome.length most positions) :
    (genome.erasePositions positions).length + positions.length = genome.length := by
  have hsnd : genome.zipIdx.map Prod.snd = List.range genome.length := by
    rw [List.zipIdx_map_snd, List.range_eq_range']
  have hkept : (genome.erasePositions positions).length =
      ((List.range genome.length).filter fun position => !positions.contains position).length := by
    rw [erasePositions, List.length_map, ← hsnd, List.filter_map, List.length_map]
    rfl
  -- Distinct positions below the length are exactly those filtered out, up to their order.
  have herased : ((List.range genome.length).filter
      fun position => positions.contains position).Perm positions := by
    refine (List.perm_ext_iff_of_nodup (List.nodup_range.filter _) drawn.nodup).mpr ?_
    intro position
    simpa using drawn.lt position
  have hsplit := List.length_eq_length_filter_add (l := List.range genome.length)
    fun position => positions.contains position
  rw [List.length_range, herased.length_eq] at hsplit
  omega

end Genome

/-! ## Attempts -/

namespace Simplifier

variable {σ ρ : Type} {simplifier : Simplifier} {score : Block → σ → List Float × σ}
  {pick : (length most : Nat) → ρ → List Nat × ρ}

theorem mostRemovals_pos (simplifier : Simplifier) (genome : Genome) :
    0 < simplifier.mostRemovals genome := by
  unfold mostRemovals
  omega

/-- A gene is left, also where no removals are asked for or the genome is short: `mostRemovals` is
below the length. -/
theorem mostRemovals_lt (simplifier : Simplifier) {genome : Genome} (hlong : 1 < genome.length) :
    simplifier.mostRemovals genome < genome.length := by
  unfold mostRemovals
  omega

/-- A way to pick positions that draws them as asked for: what `pick` gives is `Drawn`. -/
def Draws (simplifier : Simplifier) (pick : (length most : Nat) → ρ → List Nat × ρ) : Prop :=
  ∀ (genome : Genome) (picks : ρ), 1 < genome.length → Drawn genome.length
    (simplifier.mostRemovals genome) (pick genome.length (simplifier.mostRemovals genome) picks).1

/-- Samples are picked as asked for, as long as `maxRemovals < Generator.scatterFrom`. -/
theorem draws_sampleUpTo (hfew : simplifier.maxRemovals < Generator.scatterFrom) :
    simplifier.Draws Generator.sampleUpTo := by
  intro genome generator hlong
  have hmost : simplifier.mostRemovals genome < Generator.scatterFrom := by
    unfold mostRemovals
    have hone : 1 < Generator.scatterFrom := by decide
    omega
  exact generator.sampleUpTo_drawn (simplifier.mostRemovals_pos genome)
    (simplifier.mostRemovals_lt hlong).le hmost

/-- The positions that an attempt erases: what `pick` gives for the `mostRemovals` of the best
genome. -/
def erased (simplifier : Simplifier) (pick : (length most : Nat) → ρ → List Nat × ρ)
    (current : Best × σ × ρ) : List Nat :=
  (pick current.1.genome.length (simplifier.mostRemovals current.1.genome) current.2.2).1

/-- The genome that an attempt tries, without the `erased` positions, with its errors. -/
def candidate (simplifier : Simplifier) (score : Block → σ → List Float × σ)
    (pick : (length most : Nat) → ρ → List Nat × ρ) (current : Best × σ × ρ) : Scored :=
  let genome := current.1.genome.erasePositions (simplifier.erased pick current)
  ⟨genome, (score (genome.toBlockWithin simplifier.maxPoints) current.2.1).1⟩

/-- A replacement of the best genome by `next`. -/
structure Replaces (simplifier : Simplifier) (score : Block → σ → List Float × σ)
    (pick : (length most : Nat) → ρ → List Nat × ρ) (current : Best × σ × ρ) (next : Scored) :
    Prop where
  /-- Genes are erased at the positions picked, `simplifier.erased`. -/
  genome_eq : next.genome = current.1.genome.erasePositions (simplifier.erased pick current)
  /-- The order of the genes is kept. -/
  sublist : next.genome.Sublist current.1.genome
  /-- A gene is erased. -/
  length_lt : next.genome.length < current.1.genome.length
  /-- A gene is left. -/
  ne_nil : next.genome ≠ []
  /-- The errors are those of the genome's code, `toBlockWithin simplifier.maxPoints`. -/
  errors_eq : next.errors =
    (score (next.genome.toBlockWithin simplifier.maxPoints) current.2.1).1
  /-- The errors do not add up to more, by `errorSum`. -/
  errorSum_le : errorSum next.errors ≤ errorSum current.1.errors

theorem length_erased_le (draws : simplifier.Draws pick) {current : Best × σ × ρ}
    (hlong : 1 < current.1.genome.length) :
    (simplifier.erased pick current).length ≤ current.1.genome.length - 1 := by
  have hmost := (draws current.1.genome current.2.2 hlong).le
  have hlt := simplifier.mostRemovals_lt hlong
  unfold erased
  omega

/-- A candidate whose errors do not add up to more than `total` is a replacement, if `total` is the
`errorSum` of the best genome. -/
theorem replaces_candidate (draws : simplifier.Draws pick) {current : Best × σ × ρ}
    (hlong : 1 < current.1.genome.length) (htotal : current.1.total = errorSum current.1.errors)
    (hle : errorSum (simplifier.candidate score pick current).errors ≤ current.1.total) :
    simplifier.Replaces score pick current (simplifier.candidate score pick current) := by
  have hdrawn := draws current.1.genome current.2.2 hlong
  have hpos : 0 < (simplifier.erased pick current).length := hdrawn.pos
  have hmost := length_erased_le draws hlong
  have hlength : (simplifier.candidate score pick current).genome.length +
      (simplifier.erased pick current).length = current.1.genome.length :=
    current.1.genome.length_erasePositions hdrawn
  refine ⟨rfl, Genome.erasePositions_sublist _ _, ?_, ?_, rfl, htotal ▸ hle⟩
  · omega
  · -- Of the genes at most all but one are erased.
    exact List.ne_nil_of_length_pos (by omega)

/-- The state after some attempts, `attempt` from `start`. -/
def after (simplifier : Simplifier) (score : Block → σ → List Float × σ)
    (pick : (length most : Nat) → ρ → List Nat × ρ) (start : Best × σ × ρ) (attempts : Nat) :
    Best × σ × ρ :=
  simplifier.attempt score pick attempts start.1 start.2.1 start.2.2

theorem after_of_short {start : Best × σ × ρ} (hshort : start.1.genome.length ≤ 1)
    (attempts : Nat) : simplifier.after score pick start attempts = start := by
  cases attempts with
  | zero => rfl
  | succ attempts => simp [after, attempt, hshort]

/-- The first attempt comes before the others. -/
theorem after_succ_eq_after_one (start : Best × σ × ρ) (attempts : Nat) :
    simplifier.after score pick start (attempts + 1) =
      simplifier.after score pick (simplifier.after score pick start 1) attempts := by
  by_cases hshort : start.1.genome.length ≤ 1
  · rw [after_of_short hshort, after_of_short hshort, after_of_short hshort]
  · simp only [after, attempt, if_neg hshort]
    split <;> rfl

/-- The last attempt comes after the others. -/
theorem after_succ (start : Best × σ × ρ) (attempts : Nat) :
    simplifier.after score pick start (attempts + 1) =
      simplifier.after score pick (simplifier.after score pick start attempts) 1 := by
  induction attempts generalizing start with
  | zero => rfl
  | succ attempts ih =>
    rw [after_succ_eq_after_one start (attempts + 1), ih, ← after_succ_eq_after_one]

/-- **The step**: the candidate is kept, with the `errorSum` of its errors as the new total, exactly
if that sum is at most the old one. -/
theorem after_one_of_long {current : Best × σ × ρ} (hlong : 1 < current.1.genome.length) :
    let candidate := simplifier.candidate score pick current
    (simplifier.after score pick current 1).1 =
      if errorSum candidate.errors ≤ current.1.total then ⟨candidate, errorSum candidate.errors⟩
      else current.1 := by
  simp only [after, attempt, if_neg (Nat.not_le_of_lt hlong)]
  exact apply_ite Prod.fst _ _ _

/-- An attempt keeps the total in step with the errors: `total = errorSum errors`. -/
theorem total_after_one {current : Best × σ × ρ}
    (htotal : current.1.total = errorSum current.1.errors) :
    let next := (simplifier.after score pick current 1).1
    next.total = errorSum next.errors := by
  intro next
  by_cases hlong : 1 < current.1.genome.length
  · simp only [next, after_one_of_long hlong]
    split
    · rfl
    · exact htotal
  · simp only [next, after_of_short (Nat.le_of_not_lt hlong)]
    exact htotal

/-- **The total is the sum of the errors**, `errorSum`, after every number of attempts, if it is at
the start. -/
theorem total_after {start : Best × σ × ρ} (htotal : start.1.total = errorSum start.1.errors)
    (n : Nat) :
    (simplifier.after score pick start n).1.total =
      errorSum (simplifier.after score pick start n).1.errors := by
  induction n with
  | zero => exact htotal
  | succ n ih =>
    rw [after_succ]
    exact total_after_one ih

/-- An attempt of a run keeps the best genome or `Replaces` it. -/
theorem after_succ_cases (draws : simplifier.Draws pick) {start : Best × σ × ρ}
    (htotal : start.1.total = errorSum start.1.errors) (n : Nat) :
    (simplifier.after score pick start (n + 1)).1 = (simplifier.after score pick start n).1 ∨
      simplifier.Replaces score pick (simplifier.after score pick start n)
        (simplifier.after score pick start (n + 1)).1.toScored := by
  have hstep : (simplifier.after score pick start n).1.total = _ := total_after htotal n
  rw [after_succ]
  generalize simplifier.after score pick start n = current at hstep
  by_cases hlong : 1 < current.1.genome.length
  · rw [after_one_of_long hlong]
    split
    · next hle => exact .inr (replaces_candidate draws hlong hstep hle)
    · exact .inl rfl
  · rw [after_of_short (Nat.le_of_not_lt hlong)]
    exact .inl rfl

/-! ## Runs -/

/-- One of the first `attempts` of a run replaces the best genome. -/
def ReplacedWithin (simplifier : Simplifier) (score : Block → σ → List Float × σ)
    (pick : (length most : Nat) → ρ → List Nat × ρ) (start : Best × σ × ρ) (attempts : Nat)
    (best next : Scored) : Prop :=
  ∃ n < attempts, (simplifier.after score pick start n).1.toScored = best ∧
    (simplifier.after score pick start (n + 1)).1.toScored = next ∧
    simplifier.Replaces score pick (simplifier.after score pick start n) next

theorem ReplacedWithin.mono {start : Best × σ × ρ} {fewer more : Nat} (hle : fewer ≤ more)
    {best next : Scored} (replaced : simplifier.ReplacedWithin score pick start fewer best next) :
    simplifier.ReplacedWithin score pick start more best next := by
  obtain ⟨n, hn, hbest⟩ := replaced
  exact ⟨n, by omega, hbest⟩

/-- **A run is a chain of replacements**, each `ReplacedWithin` the attempts. -/
theorem chain_after (draws : simplifier.Draws pick) {start : Best × σ × ρ}
    (htotal : start.1.total = errorSum start.1.errors) (attempts : Nat) :
    Relation.ReflTransGen (simplifier.ReplacedWithin score pick start attempts) start.1.toScored
      (simplifier.after score pick start attempts).1.toScored := by
  induction attempts with
  | zero => exact .refl
  | succ attempts ih =>
    -- The links of the run so far stay links of the run with one attempt more.
    have hchain := Relation.ReflTransGen.mono
      (fun _ _ => ReplacedWithin.mono (Nat.le_succ attempts)) _ _ ih
    rcases after_succ_cases draws htotal attempts with hkept | hreplaced
    · rwa [hkept]
    · exact hchain.tail ⟨attempts, Nat.lt_succ_self attempts, rfl, rfl, hreplaced⟩

/-- What a chain of replacements keeps of the genome that it starts from: `last` is a sublist of
`first`. -/
theorem sublist_of_chain {start : Best × σ × ρ} {attempts : Nat} {first last : Scored}
    (chain : Relation.ReflTransGen (simplifier.ReplacedWithin score pick start attempts)
      first last) :
    last.genome.Sublist first.genome ∧ (first.genome ≠ [] → last.genome ≠ []) := by
  induction chain with
  | refl => exact ⟨.refl _, id⟩
  | tail _ replaced ih =>
    obtain ⟨n, _, rfl, _, hreplaced⟩ := replaced
    exact ⟨hreplaced.sublist.trans ih.1, fun _ => hreplaced.ne_nil⟩

/-- The errors do not add up to more along a chain with a replacement. -/
theorem errorSum_le_of_chain {start : Best × σ × ρ} {attempts : Nat} {first last : Scored}
    (chain : Relation.TransGen (simplifier.ReplacedWithin score pick start attempts) first last) :
    errorSum last.errors ≤ errorSum first.errors := by
  induction chain with
  | single replaced =>
    obtain ⟨n, _, rfl, _, hreplaced⟩ := replaced
    exact hreplaced.errorSum_le
  | tail _ replaced ih =>
    obtain ⟨n, _, rfl, _, hreplaced⟩ := replaced
    exact Double.le_trans hreplaced.errorSum_le ih

/-- What `simplify` comes to is the best genome after all attempts. -/
theorem simplify_fst (genome : Genome) (baseline : List Float) (scores : σ) (picks : ρ) :
    (simplifier.simplify score pick genome baseline scores picks).1 =
      (simplifier.after score pick (⟨⟨genome, baseline⟩, errorSum baseline⟩, scores, picks)
        simplifier.steps).1.toScored := rfl

/-- **A run keeps its genome or improves on it**: nothing was replaced, or there is a chain with a
replacement and `errorSum` is not more. -/
theorem simplify_eq_or_chain (draws : simplifier.Draws pick) (genome : Genome)
    (baseline : List Float) (scores : σ) (picks : ρ) :
    let start : Best × σ × ρ := (⟨⟨genome, baseline⟩, errorSum baseline⟩, scores, picks)
    let result := (simplifier.simplify score pick genome baseline scores picks).1
    result = ⟨genome, baseline⟩ ∨
      Relation.TransGen (simplifier.ReplacedWithin score pick start simplifier.steps)
        ⟨genome, baseline⟩ result ∧
      errorSum result.errors ≤ errorSum baseline := by
  intro start result
  have hchain : Relation.ReflTransGen (simplifier.ReplacedWithin score pick start simplifier.steps)
      start.1.toScored result := by
    have htotal : start.1.total = errorSum start.1.errors := rfl
    -- The chain has a link for each attempt that replaced the best so far.
    rw [show result = _ from simplify_fst genome baseline scores picks]
    exact chain_after draws htotal simplifier.steps
  rcases Relation.reflTransGen_iff_eq_or_transGen.mp hchain with hkept | hreplaced
  · exact .inl hkept
  · have hle := errorSum_le_of_chain hreplaced
    exact .inr ⟨hreplaced, hle⟩

/-- Errors whose `errorSum` is NaN are never replaced. -/
theorem simplify_of_nan (draws : simplifier.Draws pick) (genome : Genome) {baseline : List Float}
    (hnan : (errorSum baseline).isNaN = true) (scores : σ) (picks : ρ) :
    (simplifier.simplify score pick genome baseline scores picks).1 = ⟨genome, baseline⟩ := by
  rcases simplify_eq_or_chain draws genome baseline scores picks with hkept | ⟨-, hle⟩
  · exact hkept
  · rw [Double.isNaN_of_le hle] at hnan
    cases hnan

/-- **Simplification is safe**: the result is what is left of the genome after a chain of
replacements (`ReplacedWithin`), each with the errors of its own code and none of them worse than
the one before. Its errors thus add up to no more than at the start, unless they add up to NaN
there; then nothing is replaced. In each attempt on a genome of two genes or more, one gene is left,
and the candidate is kept exactly if its errors do not add up to more than the total, which is
always the sum of the best genome's errors. -/
theorem simplify_safe (simplifier : Simplifier) (score : Block → σ → List Float × σ)
    {pick : (length most : Nat) → ρ → List Nat × ρ} (draws : simplifier.Draws pick)
    (genome : Genome) (baseline : List Float) (scores : σ) (picks : ρ) :
    let start : Best × σ × ρ := (⟨⟨genome, baseline⟩, errorSum baseline⟩, scores, picks)
    let after := simplifier.after score pick start
    let candidate := fun n => simplifier.candidate score pick (after n)
    let result := (simplifier.simplify score pick genome baseline scores picks).1
    result.genome.Sublist genome ∧
      (genome ≠ [] → result.genome ≠ []) ∧
      (result = ⟨genome, baseline⟩ ∨
        Relation.TransGen (simplifier.ReplacedWithin score pick start simplifier.steps)
          ⟨genome, baseline⟩ result ∧
        errorSum result.errors ≤ errorSum baseline) ∧
      ((errorSum baseline).isNaN = false → errorSum result.errors ≤ errorSum baseline) ∧
      ((errorSum baseline).isNaN = true → result = ⟨genome, baseline⟩) ∧
      ∀ n, (after n).1.total = errorSum (after n).1.errors ∧
        (1 < (after n).1.genome.length →
          (simplifier.erased pick (after n)).length ≤ (after n).1.genome.length - 1 ∧
          (after (n + 1)).1 =
            if errorSum (candidate n).errors ≤ (after n).1.total then
              ⟨candidate n, errorSum (candidate n).errors⟩
            else (after n).1) := by
  intro start after candidate result
  have htotal : start.1.total = errorSum start.1.errors := rfl
  obtain ⟨hsublist, hne⟩ := sublist_of_chain (chain_after draws htotal simplifier.steps)
  have hreached : result = _ ∨ _ := simplify_eq_or_chain draws genome baseline scores picks
  refine ⟨hsublist, hne, hreached, fun hnumber => ?_, fun hnan => ?_,
    fun n => ⟨?_, fun hlong => ?_⟩⟩
  · rcases hreached with hkept | ⟨-, hle⟩
    · rw [show result = _ from hkept]
      exact Double.le_refl hnumber
    · exact hle
  · exact simplify_of_nan draws genome hnan scores picks
  · exact total_after htotal n
  · refine ⟨length_erased_le draws hlong, ?_⟩
    exact (congrArg Prod.fst (after_succ start n)).trans (after_one_of_long hlong)

/-- Three attempts with sampled positions, scored badly at every other call: two genes are erased,
the next candidate is turned down for a NaN, and then two more genes are erased. -/
theorem simplify_safe_of_sampled :
    let simplifier : Simplifier := { steps := 3 }
    let score : Block → Nat → List Float × Nat := fun _ calls =>
      (if calls % 2 = 0 then [1.0, 1.0] else [0.0 / 0.0], calls + 1)
    let genome : Genome := [⟨.expr (.literal (.int 5) .int), false, 0⟩,
      ⟨.expr (.literal (.int 6) .int), false, 1⟩, Gene.closer,
      ⟨.expr (.instr "int_add" 0), false, 0⟩, Gene.closer]
    let result := (simplifier.simplify score Generator.sampleUpTo genome [3.0] 0 ⟨4⟩).1
    simplifier.Draws Generator.sampleUpTo ∧ result.genome.length = 1 ∧
      result.genome.Sublist genome ∧ errorSum result.errors ≤ errorSum [3.0] := by
  intro simplifier score genome result
  have draws : simplifier.Draws Generator.sampleUpTo := draws_sampleUpTo (by decide)
  obtain ⟨hsublist, -, -, hle, -⟩ := simplify_safe simplifier score draws genome [3.0] 0 ⟨4⟩
  exact ⟨draws, by decide +kernel, hsublist, hle (by decide +kernel)⟩

/-- Errors of both infinities add up to NaN. An attempt on a genome of two genes with these errors
turns down the candidate without any error, and the result is not at most as bad as the start. -/
theorem simplify_opposite_infinities :
    let simplifier : Simplifier := { steps := 1 }
    let score : Block → Unit → List Float × Unit := fun _ _ => ([0.0], ())
    let gene : Gene := ⟨.expr (.literal (.int 7) .int), false, 0⟩
    let baseline : List Float := [1.0 / 0.0, -1.0 / 0.0]
    let result := (simplifier.simplify score Generator.sampleUpTo [gene, gene] baseline () ⟨1⟩).1
    simplifier.Draws Generator.sampleUpTo ∧ result = ⟨[gene, gene], baseline⟩ ∧
      ¬errorSum result.errors ≤ errorSum baseline := by
  intro simplifier score gene baseline result
  have draws : simplifier.Draws Generator.sampleUpTo := draws_sampleUpTo (by decide)
  have hnan : (errorSum baseline).isNaN = true := by decide +kernel
  have hkept : result = ⟨[gene, gene], baseline⟩ := simplify_of_nan draws _ hnan () ⟨1⟩
  refine ⟨draws, hkept, ?_⟩
  rw [hkept]
  decide +kernel

end Simplifier

end PushMachine
