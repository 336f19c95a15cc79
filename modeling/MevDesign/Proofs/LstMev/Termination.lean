import MevDesign.Proofs.LstMev.Search

/-!
# `MevDesign.Proofs.LstMev.Termination`: the search ends, in `u128`, for every profit

`optimize_arbitrage` keeps its amounts in `u128`. The model computes them in `Nat`;
this module shows that nothing it computes leaves `u128`, whatever `simulate`
returns, and that the `while` loop stops after at most nine rounds.

A round (`searchRound`) is taken when the loop goes on (`Search.Continues`). Every
state the loop reaches from `[0, ceiling]` is `Bounded`: `min_amount_in ≤
max_amount_in ≤ ceiling` (`Rounds.bounded`). From such a state a round is safe
(`roundSafe`). Its samples are at most `max_amount_in`, so below `ceiling`. The round's
best amount is `min_amount_in` or a sample (`Scanned.roundBest_sample`), so its step
above stays below `2 ^ 128`. The saturating subtractions never saturate, and the
width falls to at most two steps, or one at either end (`narrow_width`,
`narrow_width_of_end`). A step is a tenth of the width, so the width falls at least
fivefold in every round, and `5 ^ 9 * tolerance` exceeds `ceiling`
(`rounds_searchLoop`).
-/

set_option autoImplicit false

namespace MevDesign.LstMev

namespace Search

/-- `max_amount_in - min_amount_in`. -/
def width (s : Search) : Nat := s.maxAmountIn - s.minAmountIn

/-- `step`: a tenth of the width. -/
def step (s : Search) : Nat := s.width / intervals

/-- The loop runs a round at `s`: the `while` condition holds and the `break` on a
zero step is not taken. -/
def Continues (s : Search) : Prop := tolerance < s.width ∧ s.step ≠ 0

instance (s : Search) : Decidable s.Continues := inferInstanceAs (Decidable (_ ∧ _))

/-- `min_amount_in ≤ max_amount_in ≤ ceiling`. -/
structure Bounded (s : Search) : Prop where
  min_le_max : s.minAmountIn ≤ s.maxAmountIn
  max_le_ceiling : s.maxAmountIn ≤ ceiling

end Search

/-- One round of the `while` body from `s`. -/
def searchRound (f : Nat → Nat) (s : Search) : Search :=
  narrow s s.step (scan f s s.step)

/-- The loop, one round at a time. -/
theorem searchLoop_eq (f : Nat → Nat) (s : Search) :
    searchLoop f s = if s.Continues then searchLoop f (searchRound f s) else s := by
  rw [searchLoop]
  by_cases hw : tolerance < s.maxAmountIn - s.minAmountIn <;>
    by_cases hz : (s.maxAmountIn - s.minAmountIn) / intervals = 0 <;>
    simp [hw, hz, Search.Continues, Search.width, Search.step, searchRound]

/-- `Rounds f n s s'`: the loop goes from `s` to `s'` in `n` rounds. -/
inductive Rounds (f : Nat → Nat) : Nat → Search → Search → Prop
  | done (s : Search) : Rounds f 0 s s
  | step {n : Nat} {s s' : Search} :
      s.Continues → Rounds f n (searchRound f s) s' → Rounds f (n + 1) s s'

/-! ### The narrowing, for any round's best -/

section Narrow
variable {s : Search} {acc : Scan}

/-- At either end the narrowed interval is at most one step wide. -/
theorem narrow_width_of_end (step : Nat)
    (h : acc.bestLocalAmountIn = s.minAmountIn ∨ acc.bestLocalAmountIn = s.maxAmountIn) :
    (narrow s step acc).width ≤ step := by
  unfold narrow Search.width; split_ifs <;> dsimp only <;> omega

theorem narrow_bounded {step : Nat} (hs : s.Bounded) (hb : acc.bestLocalAmountIn ≤ ceiling) :
    (narrow s step acc).Bounded := by
  have := hs.min_le_max; have := hs.max_le_ceiling
  unfold narrow; split_ifs <;> constructor <;> dsimp only <;> omega

end Narrow

/-! ### One round -/

/-- What the round at `s` computes, for any profit `f`. Every sampled amount and the
sum `best_local_amount_in + step` stay below `2 ^ 128`. The saturating subtractions
`max_amount_in.saturating_sub(step)` and `best_local_amount_in.saturating_sub(step)`
never saturate (the second is taken only off `min_amount_in`). The width falls, to at
most a fifth in the interior case and a tenth at either end. -/
structure RoundSafe (f : Nat → Nat) (s : Search) : Prop where
  sample_lt : ∀ i ≤ intervals, s.minAmountIn + i * s.step < 2 ^ 128
  best_add_lt : (scan f s s.step).bestLocalAmountIn + s.step < 2 ^ 128
  step_le_max : s.step ≤ s.maxAmountIn
  step_le_best : (scan f s s.step).bestLocalAmountIn ≠ s.minAmountIn →
    s.step ≤ (scan f s s.step).bestLocalAmountIn
  width_lt : (searchRound f s).width < s.width
  interior : (scan f s s.step).bestLocalAmountIn ≠ s.minAmountIn →
    (scan f s s.step).bestLocalAmountIn ≠ s.maxAmountIn →
    5 * (searchRound f s).width ≤ s.width
  atEnd : (scan f s s.step).bestLocalAmountIn = s.minAmountIn ∨
    (scan f s s.step).bestLocalAmountIn = s.maxAmountIn →
    10 * (searchRound f s).width ≤ s.width

section Round
variable {f : Nat → Nat} {s : Search}

/-- The round's best amount is `min_amount_in + j * step` for some `j ≤ 10`. -/
theorem roundBest_eq (hs : s.Bounded) :
    ∃ j ≤ 10, (scan f s s.step).bestLocalAmountIn = s.minAmountIn + j * s.step := by
  have := hs.min_le_max; have := hs.max_le_ceiling
  have hfit : s.minAmountIn + 10 * s.step ≤ ceiling := by
    unfold Search.step Search.width intervals; omega
  obtain ⟨j, hj, hb, -⟩ := Scanned.roundBest_sample
    (scanFrom_scanned f s.minAmountIn s.step 0 (intervals + 1) _) hfit
  exact ⟨j, hj, hb⟩

theorem roundSafe (hs : s.Bounded) (hc : s.Continues) :
    (searchRound f s).Bounded ∧ RoundSafe f s := by
  obtain ⟨j, hj, hb⟩ := roundBest_eq (f := f) hs
  have := hs.min_le_max; have := hs.max_le_ceiling
  obtain ⟨hw, hz⟩ := hc
  -- the step is a tenth of the width, and the samples stay inside the interval
  have hstep : 10 * s.step ≤ s.width ∧ s.width < 10 * s.step + 10 := by
    unfold Search.step intervals; omega
  have hwidth : s.width = s.maxAmountIn - s.minAmountIn := rfl
  have hj10 := Nat.mul_le_mul_right s.step hj
  have hc : ceiling = 10 ^ 21 := rfl
  have hbest : s.minAmountIn ≤ (scan f s s.step).bestLocalAmountIn ∧
      (scan f s s.step).bestLocalAmountIn ≤ ceiling := by omega
  have h2 := narrow_width s s.step (scan f s s.step)
  change (narrow s s.step (scan f s s.step)).width ≤ 2 * s.step at h2
  refine ⟨narrow_bounded hs hbest.2, fun i hi => ?_, by omega, by omega, fun hne => ?_,
    by unfold searchRound; omega, fun _ _ => by unfold searchRound; omega,
    fun h => by have := narrow_width_of_end s.step h; unfold searchRound; omega⟩
  · have := Nat.mul_le_mul_right s.step (show i ≤ 10 from hi)
    omega
  · -- off `min_amount_in` the best is a sample with a positive index
    obtain ⟨k, rfl⟩ : ∃ k, j = k + 1 :=
      Nat.exists_eq_succ_of_ne_zero fun h0 => hne (by rw [hb, h0, Nat.zero_mul, Nat.add_zero])
    rw [hb, Nat.succ_mul]
    omega

end Round

/-! ### The loop -/

/-- Every state the loop reaches from a bounded one is bounded. -/
theorem Rounds.bounded {f : Nat → Nat} {n : Nat} {s s' : Search} (h : Rounds f n s s')
    (hs : s.Bounded) : s'.Bounded := by
  induction h with
  | done => exact hs
  | step hc _ ih => exact ih (roundSafe hs hc).1

/-- From a bounded state at most `5 ^ k * tolerance` wide, the loop stops within `k`
rounds. -/
theorem rounds_searchLoop (f : Nat → Nat) :
    ∀ (k : Nat) (s : Search), s.Bounded → s.width ≤ 5 ^ k * tolerance →
      ∃ n ≤ k, Rounds f n s (searchLoop f s) ∧ ¬(searchLoop f s).Continues := by
  intro k
  induction k with
  | zero =>
    intro s _ hw
    have hc : ¬s.Continues := fun hc => by have := hc.1; omega
    rw [searchLoop_eq, if_neg hc]
    exact ⟨0, le_rfl, .done s, hc⟩
  | succ k ih =>
    intro s hs hw
    by_cases hc : s.Continues
    · obtain ⟨hb, hsafe⟩ := roundSafe (f := f) hs hc
      -- every round shrinks the width at least fivefold
      have h5 : 5 * (searchRound f s).width ≤ s.width := by
        by_cases he : (scan f s s.step).bestLocalAmountIn = s.minAmountIn ∨
            (scan f s s.step).bestLocalAmountIn = s.maxAmountIn
        · have := hsafe.atEnd he; omega
        · push_neg at he; exact hsafe.interior he.1 he.2
      have hpow : 5 ^ (k + 1) * tolerance = 5 * (5 ^ k * tolerance) := by
        rw [Nat.pow_succ, Nat.mul_comm (5 ^ k) 5, Nat.mul_assoc]
      obtain ⟨n, hn, hr, hstop⟩ := ih (searchRound f s) hb (by omega)
      rw [searchLoop_eq, if_pos hc]
      exact ⟨n + 1, by omega, .step hc hr, hstop⟩
    · rw [searchLoop_eq, if_neg hc]
      exact ⟨0, Nat.zero_le _, .done s, hc⟩

/-- The search loop terminates without `u128` overflow or underflow, for every profit
oracle `f`. From `[0, ceiling]` it stops within nine rounds. Every state it reaches
keeps `min_amount_in ≤ max_amount_in ≤ ceiling`. At every state where it takes a
round, that round's arithmetic stays in `u128`, its saturating subtractions do not
saturate, and the width falls, to at most a fifth in the interior case and a tenth
at either end. -/
theorem search_terminates_in_u128 (f : Nat → Nat) :
    (∃ n ≤ 9, Rounds f n ⟨0, ceiling, 0, 0, []⟩ (search f) ∧ ¬(search f).Continues) ∧
      ∀ n s, Rounds f n ⟨0, ceiling, 0, 0, []⟩ s →
        s.Bounded ∧ (s.Continues → RoundSafe f s) := by
  have hinit : (⟨0, ceiling, 0, 0, []⟩ : Search).Bounded := ⟨Nat.zero_le _, le_rfl⟩
  refine ⟨rounds_searchLoop f 9 _ hinit ?_, fun n s h => ?_⟩
  · simp [Search.width, ceiling, tolerance]
  · have hs := h.bounded hinit
    exact ⟨hs, fun hc => (roundSafe hs hc).2⟩

end MevDesign.LstMev
