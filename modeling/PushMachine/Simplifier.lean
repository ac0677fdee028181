import PushMachine.Genome

/-! # Simplification

A genome is simplified by deleting a few genes at a time. The shorter genome is kept if its errors
do not add up to more than those of the best one so far, so simplification never makes a program
worse. -/

namespace PushMachine

/-- An error as it counts in a sum: a NaN is infinitely bad, `1.0 / 0.0`. -/
def errorWeight (error : Float) : Float := if error.isNaN then 1.0 / 0.0 else error

/-- **The sum of errors**. The sum of no errors is `-0.0`. -/
def errorSum (errors : List Float) : Float :=
  errors.foldl (fun sum error => sum + errorWeight error) (-0.0)

/-- How a genome is simplified. -/
structure Simplifier where
  /-- Number of attempts. -/
  steps : Nat := 100
  /-- The most genes deleted in one attempt. -/
  maxRemovals : Nat := 3
  /-- The most points of the code that is scored (`Genome.toBlockWithin`). -/
  maxPoints : Nat := 1000

namespace Simplifier

variable {σ ρ : Type}

/-- A genome and its errors. -/
structure Scored where
  /-- The genome. -/
  genome : Genome
  /-- The errors of its code. -/
  errors : List Float

/-- The best genome so far, with the `total` that a candidate is compared with. -/
structure Best extends Scored where
  /-- The sum of its errors, `errorSum errors`. -/
  total : Float

/-- The most genes that an attempt deletes from a genome, by `maxRemovals`: one is always left. -/
def mostRemovals (simplifier : Simplifier) (genome : Genome) : Nat :=
  max (min simplifier.maxRemovals (genome.length - 1)) 1

/-- **Simplifies a genome**. The function `pick` draws between one and some number of positions of a
genome, and `score` gives the errors of code; both may keep data of their own. -/
def attempt (simplifier : Simplifier) (score : Block → σ → List Float × σ)
    (pick : (length most : Nat) → ρ → List Nat × ρ) :
    (attempts : Nat) → Best → σ → ρ → Best × σ × ρ
  | 0, best, scores, picks => (best, scores, picks)
  | attempts + 1, best, scores, picks =>
    if best.genome.length ≤ 1 then (best, scores, picks)
    else
      let (positions, picks) := pick best.genome.length (simplifier.mostRemovals best.genome) picks
      let candidate := best.genome.erasePositions positions
      let (errors, scores) := score (candidate.toBlockWithin simplifier.maxPoints) scores
      let total := errorSum errors
      if total ≤ best.total then
        simplifier.attempt score pick attempts ⟨⟨candidate, errors⟩, total⟩ scores picks
      else simplifier.attempt score pick attempts best scores picks

/-- Simplifies a genome whose errors are known: `steps` turns of `attempt`. -/
def simplify (simplifier : Simplifier) (score : Block → σ → List Float × σ)
    (pick : (length most : Nat) → ρ → List Nat × ρ) (genome : Genome) (baseline : List Float)
    (scores : σ) (picks : ρ) : Scored × σ × ρ :=
  let start : Best := ⟨⟨genome, baseline⟩, errorSum baseline⟩
  let ended := simplifier.attempt score pick simplifier.steps start scores picks
  (ended.1.toScored, ended.2)

end Simplifier

end PushMachine
