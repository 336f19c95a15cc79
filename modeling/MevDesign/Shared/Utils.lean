import Mathlib.Algebra.Group.Nat.Basic
import Mathlib.Data.List.Basic

/-!
# `MevDesign.Shared.Utils`: `get_block_range`

`get_block_range` (`crates/shared/src/utils.rs:30-35`) splits `[from_block, to_block]`
into chunks of at most `chunk` blocks for `eth_getLogs`: the starts of
`(from_block..=to_block).step_by(chunk)`, each paired with
`(start + chunk - 1).min(to_block)`.

Block numbers are `u64`. The range iterator itself never overflows, but the chunk
end does where `start + chunk` passes `u64::MAX`. What that does depends on the build
(`Overflow`): with overflow checks (the debug profile) the addition panics, without
them (the release profile) it wraps. `usize` is taken to be 64 bits, so
`chunk as usize` is `chunk`.
-/

set_option autoImplicit false

namespace MevDesign.Shared

/-- `u64::MAX`. -/
def u64Max : Nat := 2 ^ 64 - 1

/-- What `u64` arithmetic does on overflow: panic with overflow checks on, wrap with
them off. -/
inductive Overflow where
  | panic
  | wrap
  deriving DecidableEq, Repr

/-- `a + b` on `u64`; `none` for a panic. -/
def addU64 (o : Overflow) (a b : Nat) : Option Nat :=
  if a + b ≤ u64Max then some (a + b)
  else match o with
    | .panic => none
    | .wrap => some ((a + b) % 2 ^ 64)

/-- `a - b` on `u64`; `none` for a panic. -/
def subU64 (o : Overflow) (a b : Nat) : Option Nat :=
  if b ≤ a then some (a - b)
  else match o with
    | .panic => none
    | .wrap => some ((a + 2 ^ 64 - b) % 2 ^ 64)

/-- `(start..=to_block).step_by(step)`: `start`, `start + step`, … while at most
`to_block`. -/
def stepBy (start toBlock step : Nat) : List Nat :=
  if _h : start ≤ toBlock ∧ 0 < step then start :: stepBy (start + step) toBlock step
  else []
termination_by toBlock + 1 - start
decreasing_by omega

/-- The closure of `get_block_range`: `|start| (start, (start + chunk - 1).min(to_block))`. -/
def chunkOf (o : Overflow) (toBlock chunk start : Nat) : Option (Nat × Nat) := do
  let last ← subU64 o (← addU64 o start chunk) 1
  pure (start, min last toBlock)

/-- `get_block_range`; `none` where it panics: on `step_by(0)`, or where a chunk end
overflows with overflow checks on. -/
def getBlockRange (o : Overflow) (fromBlock toBlock chunk : Nat) :
    Option (List (Nat × Nat)) :=
  if chunk = 0 then none
  else (stepBy fromBlock toBlock chunk).mapM (chunkOf o toBlock chunk)

end MevDesign.Shared
