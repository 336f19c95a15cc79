import Mathlib.Algebra.Group.Nat.Basic
import Mathlib.Data.List.Basic

/-!
# `MevDesign.LstMev.Optimize`: the search of `optimize_arbitrage`

`optimize_arbitrage` (`bins/lst-mev/src/main.rs:59-132`) looks for the flash-swap
amount with the largest profit. Each round samples the profit at `intervals + 1`
evenly spaced amounts of `[min_amount_in, max_amount_in]`, then narrows the interval
around the round's best sample (`narrow`); the search stops when the interval is at
most `tolerance` wide. Across all rounds it keeps the best sample seen, which it
returns as `Optimized`.

`simulate` (`main.rs:19-56`) enters as the oracle `f`: the profit of an amount, a
failed simulation read as `0` (`unwrap_or(0)`). Amounts and profits are `u128` in the
source and `Nat` here; `saturating_sub` is `Nat` subtraction. The `info!` line of the
`for` loop is kept as the search's `log`: every amount the search evaluated, with its
profit.

The `while` loop terminates because every narrowing leaves an interval at most two
steps wide (`narrow_width`) and a step is a tenth of the width.
-/

set_option autoImplicit false

namespace MevDesign.LstMev

/-- `intervals`: a round samples `intervals + 1` amounts. -/
def intervals : Nat := 10

/-- `tolerance`: `0.001` ETH, the width at which the search stops. -/
def tolerance : Nat := 10 ^ 15

/-- `ceiling`: `1000` ETH, the largest amount the search tries. -/
def ceiling : Nat := 10 ^ 18 * 1000

/-- `Optimized`. -/
structure Optimized where
  optimizedIn : Nat
  optimizedOut : Nat
  deriving DecidableEq, Repr

/-- The variables of the `while` loop, with the `info!` log of the samples. -/
structure Search where
  minAmountIn : Nat
  maxAmountIn : Nat
  optimizedIn : Nat
  maxProfit : Nat
  log : List (Nat × Nat)
  deriving DecidableEq, Repr

/-- The variables of the `for` loop: the round's best and the overall best. -/
structure Scan where
  bestLocalProfit : Nat
  bestLocalAmountIn : Nat
  optimizedIn : Nat
  maxProfit : Nat
  log : List (Nat × Nat)
  deriving DecidableEq, Repr

/-- The body of the `for` loop after `simulate`: log the sample, then take it as the
round's best and as the overall best, each when its profit is strictly larger. -/
def Scan.record (acc : Scan) (amountIn profit : Nat) : Scan :=
  let acc := { acc with log := acc.log ++ [(amountIn, profit)] }
  let acc :=
    if profit > acc.bestLocalProfit then
      { acc with bestLocalProfit := profit, bestLocalAmountIn := amountIn }
    else acc
  if profit > acc.maxProfit then { acc with maxProfit := profit, optimizedIn := amountIn }
  else acc

/-- `for i in 0..=intervals`, from index `i` with `n` indices left. The loop breaks
after the sample at `ceiling`. -/
def scanFrom (f : Nat → Nat) (minAmountIn step : Nat) : Nat → Nat → Scan → Scan
  | _, 0, acc => acc
  | i, n + 1, acc =>
    let amountIn := min (minAmountIn + i * step) ceiling
    let acc := acc.record amountIn (f amountIn)
    if amountIn = ceiling then acc else scanFrom f minAmountIn step (i + 1) n acc

/-- One round's samples, from `best_local_profit = 0` at `min_amount_in`. -/
def scan (f : Nat → Nat) (s : Search) (step : Nat) : Scan :=
  scanFrom f s.minAmountIn step 0 (intervals + 1)
    ⟨0, s.minAmountIn, s.optimizedIn, s.maxProfit, s.log⟩

/-- The narrowing after a round, by where the round's best amount lies. -/
def narrow (s : Search) (step : Nat) (acc : Scan) : Search :=
  if acc.bestLocalAmountIn = s.minAmountIn then
    ⟨acc.bestLocalAmountIn, min (acc.bestLocalAmountIn + step) ceiling, acc.optimizedIn,
      acc.maxProfit, acc.log⟩
  else if acc.bestLocalAmountIn = s.maxAmountIn then
    -- `max_amount_in` is intentionally left unchanged
    ⟨s.maxAmountIn - step, s.maxAmountIn, acc.optimizedIn, acc.maxProfit, acc.log⟩
  else
    ⟨acc.bestLocalAmountIn - step, min (acc.bestLocalAmountIn + step) ceiling,
      acc.optimizedIn, acc.maxProfit, acc.log⟩

/-- Whatever the round found, the narrowed interval is at most two steps wide. -/
theorem narrow_width (s : Search) (step : Nat) (acc : Scan) :
    (narrow s step acc).maxAmountIn - (narrow s step acc).minAmountIn ≤ 2 * step := by
  unfold narrow
  split_ifs <;> dsimp only <;> omega

/-- The `while` loop: a round while the interval is wider than `tolerance`. -/
def searchLoop (f : Nat → Nat) (s : Search) : Search :=
  if s.maxAmountIn - s.minAmountIn > tolerance then
    if (s.maxAmountIn - s.minAmountIn) / intervals = 0 then s
    else
      let step := (s.maxAmountIn - s.minAmountIn) / intervals
      searchLoop f (narrow s step (scan f s step))
  else s
termination_by s.maxAmountIn - s.minAmountIn
decreasing_by
  have := narrow_width s ((s.maxAmountIn - s.minAmountIn) / intervals)
    (scan f s ((s.maxAmountIn - s.minAmountIn) / intervals))
  simp only [intervals] at *
  omega

/-- The search from `[0, ceiling]`, with no sample yet. -/
def search (f : Nat → Nat) : Search :=
  searchLoop f ⟨0, ceiling, 0, 0, []⟩

/-- `optimize_arbitrage`, with `simulate` as the oracle `f`. -/
def optimizeArbitrage (f : Nat → Nat) : Optimized :=
  ⟨(search f).optimizedIn, (search f).maxProfit⟩

end MevDesign.LstMev
