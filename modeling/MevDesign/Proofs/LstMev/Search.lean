import MevDesign.LstMev.Optimize

/-!
# `MevDesign.Proofs.LstMev.Search`: the search finds the optimum of a unimodal profit

For a profit `f` strictly unimodal on `[0, ceiling]`, with maximiser `xStar`,
`optimize_arbitrage` returns an amount within `tolerance` of `xStar`, with its profit,
and no sample of the search had a larger one (`optimize_finds_optimum`).

The proof is an interval invariant, `Window`: `xStar` and the overall best amount
stay in `[min_amount_in, max_amount_in]`, so that when the loop stops the two are
at most `tolerance` apart. It is kept by every round (`Window.round`) and so by the
loop (`Window.searchLoop`).

A round is the `for` loop, described by `Scanned`: over the amounts it samples, the
round's best and the overall best are running maxima (`RunningMax`), and the log
gains exactly the samples (`scanFrom_scanned`). The `break` at `ceiling` skips no
amount, since every later index would sample `ceiling` again.

The geometric step is `StrictlyUnimodal.near_best`: an amount at least as good as the
round's best sample lies within one step of it. It applies both to `xStar` and to the
overall best, and each of the three narrowings keeps that step on either side of the
best sample inside the interval (`narrow_mem`). The right-end case, which leaves
`max_amount_in` unchanged, needs no more, because its best sample is `max_amount_in`.
-/

set_option autoImplicit false

namespace MevDesign.LstMev

/-! ### Running maxima -/

/-- `(a, p)` is a running maximum of `f` over the amounts `S`, started from
`(a₀, p₀)` and replaced on a strictly larger value: no amount of `S` beats `p`, `p`
only grew, and it is the start or the value at an amount of `S`. -/
structure RunningMax (f : Nat → Nat) (S : Nat → Prop) (a₀ p₀ a p : Nat) : Prop where
  le_of_mem : ∀ x, S x → f x ≤ p
  start_le : p₀ ≤ p
  attained : (a = a₀ ∧ p = p₀) ∨ (S a ∧ p = f a)

section RunningMax
variable {f : Nat → Nat} {S T : Nat → Prop} {a₀ p₀ a₁ p₁ a p : Nat}

theorem RunningMax.empty (hS : ∀ x, ¬S x) : RunningMax f S a p a p :=
  ⟨fun x hx => absurd hx (hS x), le_rfl, .inl ⟨rfl, rfl⟩⟩

/-- One sample `x`, taken when its value is strictly larger. -/
theorem RunningMax.update (f : Nat → Nat) (x a p : Nat) :
    RunningMax f (· = x) a p (if f x > p then x else a) (if f x > p then f x else p) := by
  split_ifs with h
  · exact ⟨fun y hy => hy ▸ le_rfl, h.le, .inr ⟨rfl, rfl⟩⟩
  · exact ⟨fun y hy => hy ▸ Nat.le_of_not_lt h, le_rfl, .inl ⟨rfl, rfl⟩⟩

theorem RunningMax.trans (h₁ : RunningMax f S a₀ p₀ a₁ p₁)
    (h₂ : RunningMax f T a₁ p₁ a p) :
    RunningMax f (fun x => S x ∨ T x) a₀ p₀ a p where
  le_of_mem x hx := hx.elim (fun hS => (h₁.le_of_mem x hS).trans h₂.start_le) (h₂.le_of_mem x)
  start_le := h₁.start_le.trans h₂.start_le
  attained := by
    rcases h₂.attained with ⟨rfl, rfl⟩ | ⟨hT, hp⟩
    · exact h₁.attained.imp id fun ⟨hS, hp⟩ => ⟨.inl hS, hp⟩
    · exact .inr ⟨.inr hT, hp⟩

end RunningMax

/-! ### The `for` loop -/

namespace Scan

variable (acc : Scan) (x p : Nat)

@[simp] theorem record_bestLocalAmountIn :
    (acc.record x p).bestLocalAmountIn =
      if p > acc.bestLocalProfit then x else acc.bestLocalAmountIn := by
  unfold record; dsimp only; split_ifs <;> rfl

@[simp] theorem record_bestLocalProfit :
    (acc.record x p).bestLocalProfit =
      if p > acc.bestLocalProfit then p else acc.bestLocalProfit := by
  unfold record; dsimp only; split_ifs <;> rfl

@[simp] theorem record_optimizedIn :
    (acc.record x p).optimizedIn = if p > acc.maxProfit then x else acc.optimizedIn := by
  unfold record; dsimp only; split_ifs <;> rfl

@[simp] theorem record_maxProfit :
    (acc.record x p).maxProfit = if p > acc.maxProfit then p else acc.maxProfit := by
  unfold record; dsimp only; split_ifs <;> rfl

@[simp] theorem record_log : (acc.record x p).log = acc.log ++ [(x, p)] := by
  unfold record; dsimp only; split_ifs <;> rfl

end Scan

/-- What a stretch of the `for` loop does from `acc` to `acc'`, over the sampled
amounts `S`: the round's best and the overall best are running maxima over `S`, and
the log gains each sample with its profit. -/
structure Scanned (f : Nat → Nat) (S : Nat → Prop) (acc acc' : Scan) : Prop where
  roundBest : RunningMax f S acc.bestLocalAmountIn acc.bestLocalProfit
    acc'.bestLocalAmountIn acc'.bestLocalProfit
  overallBest : RunningMax f S acc.optimizedIn acc.maxProfit acc'.optimizedIn acc'.maxProfit
  log_iff : ∀ e, e ∈ acc'.log ↔ e ∈ acc.log ∨ (e.2 = f e.1 ∧ S e.1)

section Scanned
variable {f : Nat → Nat} {S T : Nat → Prop} {acc acc₁ acc' : Scan}

theorem Scanned.empty (hS : ∀ x, ¬S x) (acc : Scan) : Scanned f S acc acc :=
  ⟨.empty hS, .empty hS, fun _ => by simp [hS]⟩

theorem Scanned.record (f : Nat → Nat) (acc : Scan) (x : Nat) :
    Scanned f (· = x) acc (acc.record x (f x)) where
  roundBest := by simpa only [Scan.record_bestLocalAmountIn, Scan.record_bestLocalProfit]
    using RunningMax.update f x _ _
  overallBest := by simpa only [Scan.record_optimizedIn, Scan.record_maxProfit]
    using RunningMax.update f x _ _
  log_iff e := by
    obtain ⟨y, q⟩ := e
    simp only [Scan.record_log, List.mem_append, List.mem_singleton, Prod.mk.injEq]
    constructor <;> rintro (h | ⟨rfl, rfl⟩) <;> simp_all

theorem Scanned.trans (h₁ : Scanned f S acc acc₁) (h₂ : Scanned f T acc₁ acc') :
    Scanned f (fun x => S x ∨ T x) acc acc' where
  roundBest := h₁.roundBest.trans h₂.roundBest
  overallBest := h₁.overallBest.trans h₂.overallBest
  log_iff e := by rw [h₂.log_iff, h₁.log_iff, and_or_left, or_assoc]

theorem Scanned.congr (h : Scanned f S acc acc') (hST : ∀ x, S x ↔ T x) :
    Scanned f T acc acc' :=
  (funext fun x => propext (hST x) : S = T) ▸ h

end Scanned

/-- The amounts of the indices `i ≤ j < i + n` of a round from `lo` with step `step`. -/
def Sampled (lo step i n x : Nat) : Prop :=
  ∃ j, i ≤ j ∧ j < i + n ∧ x = min (lo + j * step) ceiling

section Sampled
variable {lo step i n x : Nat}

theorem not_sampled_zero : ¬Sampled lo step i 0 x := by
  rintro ⟨j, h₁, h₂, -⟩; omega

theorem sampled_succ :
    Sampled lo step i (n + 1) x ↔
      x = min (lo + i * step) ceiling ∨ Sampled lo step (i + 1) n x := by
  constructor
  · rintro ⟨j, h₁, h₂, rfl⟩
    rcases Nat.eq_or_lt_of_le h₁ with rfl | h
    · exact .inl rfl
    · exact .inr ⟨j, h, by omega, rfl⟩
  · rintro (rfl | ⟨j, h₁, h₂, rfl⟩)
    · exact ⟨i, le_rfl, by omega, rfl⟩
    · exact ⟨j, by omega, by omega, rfl⟩

/-- Once an index samples `ceiling`, so does every later one: the `break` skips no
amount. -/
theorem sampled_succ_of_ceiling (hc : min (lo + i * step) ceiling = ceiling) :
    Sampled lo step i (n + 1) x ↔ x = ceiling := by
  constructor
  · rintro ⟨j, hij, -, rfl⟩
    have := Nat.mul_le_mul_right step hij
    omega
  · rintro rfl; exact ⟨i, le_rfl, by omega, hc.symm⟩

/-- The samples of a whole round that fits below `ceiling`. -/
theorem sampled_round_iff (hfit : lo + 10 * step ≤ ceiling) :
    Sampled lo step 0 (intervals + 1) x ↔ ∃ j ≤ 10, x = lo + j * step := by
  constructor
  · rintro ⟨j, -, hj, rfl⟩
    have hj' : j ≤ 10 := by simp only [intervals] at hj; omega
    have := Nat.mul_le_mul_right step hj'
    exact ⟨j, hj', by omega⟩
  · rintro ⟨j, hj, rfl⟩
    have := Nat.mul_le_mul_right step hj
    exact ⟨j, Nat.zero_le _, by simp only [intervals]; omega, by omega⟩

end Sampled

/-- The `for` loop from index `i` with `n` indices left samples exactly `Sampled`. -/
theorem scanFrom_scanned (f : Nat → Nat) (lo step : Nat) :
    ∀ i n acc, Scanned f (Sampled lo step i n) acc (scanFrom f lo step i n acc)
  | _, 0, acc => .empty (fun _ => not_sampled_zero) acc
  | i, n + 1, acc => by
    simp only [scanFrom]
    split_ifs with hc
    · exact (Scanned.record f acc _).congr fun x => by rw [sampled_succ_of_ceiling hc, hc]
    · exact ((Scanned.record f acc _).trans (scanFrom_scanned f lo step (i + 1) n _)).congr
        fun x => sampled_succ.symm

/-! ### Strictly unimodal profits -/

/-- `f` is strictly unimodal on `[0, ceiling]` with maximiser `xStar`: strictly
increasing up to `xStar` and strictly decreasing after it. -/
structure StrictlyUnimodal (f : Nat → Nat) (xStar : Nat) : Prop where
  le_ceiling : xStar ≤ ceiling
  increasing : ∀ x y, x < y → y ≤ xStar → f x < f y
  decreasing : ∀ x y, xStar ≤ x → x < y → y ≤ ceiling → f y < f x

section Unimodal
variable {f : Nat → Nat} {xStar : Nat}

theorem StrictlyUnimodal.le_max (hf : StrictlyUnimodal f xStar) {x : Nat} (hx : x ≤ ceiling) :
    f x ≤ f xStar := by
  rcases Nat.lt_trichotomy x xStar with h | rfl | h
  · exact (hf.increasing x xStar h le_rfl).le
  · exact le_rfl
  · exact (hf.decreasing xStar x le_rfl h hx).le

/-- An amount `y` of the round's interval at least as good as the round's best sample
`lo + j * step` lies within one step of it. Otherwise the sample one step further
towards `y` lies strictly between them, and unimodality makes it beat one of the two. -/
theorem StrictlyUnimodal.near_best (hf : StrictlyUnimodal f xStar) {lo hi step j y : Nat}
    (hj : j ≤ 10) (hpos : 0 < step) (hfit : lo + 10 * step ≤ hi) (hrem : hi ≤ lo + 11 * step)
    (hhi : hi ≤ ceiling) (hmax : ∀ i ≤ 10, f (lo + i * step) ≤ f (lo + j * step))
    (hy₁ : lo ≤ y) (hy₂ : y ≤ hi) (hfy : f (lo + j * step) ≤ f y) :
    lo + j * step - step ≤ y ∧ y ≤ lo + j * step + step := by
  have hj10 := Nat.mul_le_mul_right step hj
  constructor
  · -- the sample below the best lies strictly between `y` and the best
    by_contra hlt
    obtain ⟨k, rfl⟩ : ∃ k, j = k + 1 :=
      Nat.exists_eq_succ_of_ne_zero fun h => by subst h; simp at hlt; omega
    have hk : (k + 1) * step = k * step + step := Nat.succ_mul k step
    have hbelow := hmax k (by omega)
    rcases Nat.lt_or_ge (lo + k * step) xStar with h | h
    · have := hf.increasing y (lo + k * step) (by omega) h.le
      omega
    · have := hf.decreasing (lo + k * step) (lo + (k + 1) * step) h (by omega) (by omega)
      omega
  · -- the sample above the best lies strictly between the best and `y`
    by_contra hlt
    have hj' : j < 10 := by
      by_contra h
      obtain rfl : j = 10 := by omega
      omega
    have hk : (j + 1) * step = j * step + step := Nat.succ_mul j step
    have habove := hmax (j + 1) hj'
    rcases Nat.lt_or_ge xStar (lo + (j + 1) * step) with h | h
    · have := hf.decreasing (lo + (j + 1) * step) y h.le (by omega) (by omega)
      omega
    · have := hf.increasing (lo + j * step) (lo + (j + 1) * step) (by omega) h
      omega

end Unimodal

/-! ### The narrowing -/

section Narrow
variable {s : Search} {step : Nat} {acc : Scan}

@[simp] theorem narrow_optimizedIn : (narrow s step acc).optimizedIn = acc.optimizedIn := by
  unfold narrow; split_ifs <;> rfl

@[simp] theorem narrow_maxProfit : (narrow s step acc).maxProfit = acc.maxProfit := by
  unfold narrow; split_ifs <;> rfl

@[simp] theorem narrow_log : (narrow s step acc).log = acc.log := by
  unfold narrow; split_ifs <;> rfl

theorem narrow_maxAmountIn_le (hc : s.maxAmountIn ≤ ceiling) :
    (narrow s step acc).maxAmountIn ≤ ceiling := by
  unfold narrow; split_ifs <;> dsimp only <;> omega

/-- Each narrowing keeps every amount of the old interval that lies within one step of
the round's best. -/
theorem narrow_mem {y : Nat} (hy₁ : s.minAmountIn ≤ y) (hy₂ : y ≤ s.maxAmountIn)
    (hc : y ≤ ceiling) (hb₁ : acc.bestLocalAmountIn - step ≤ y)
    (hb₂ : y ≤ acc.bestLocalAmountIn + step) :
    (narrow s step acc).minAmountIn ≤ y ∧ y ≤ (narrow s step acc).maxAmountIn := by
  unfold narrow; split_ifs <;> dsimp only <;> omega

end Narrow

/-! ### The interval invariant -/

/-- What every round keeps for a strictly unimodal `f` with maximiser `xStar`: the
maximiser and the overall best lie in `[min_amount_in, max_amount_in] ⊆ [0, ceiling]`;
the overall best is a logged sample, or still the initial `0` at `min_amount_in`; and
every logged sample has its profit, at most `max_profit`. -/
structure Window (f : Nat → Nat) (xStar : Nat) (s : Search) : Prop where
  min_le_xStar : s.minAmountIn ≤ xStar
  xStar_le_max : xStar ≤ s.maxAmountIn
  max_le_ceiling : s.maxAmountIn ≤ ceiling
  min_le_best : s.minAmountIn ≤ s.optimizedIn
  best_le_max : s.optimizedIn ≤ s.maxAmountIn
  best_logged : (s.optimizedIn, s.maxProfit) ∈ s.log ∨
    (s.maxProfit = 0 ∧ s.optimizedIn = s.minAmountIn)
  log_le : ∀ e ∈ s.log, e.2 = f e.1 ∧ e.2 ≤ s.maxProfit

section Window
variable {f : Nat → Nat} {xStar : Nat} {s : Search} {step : Nat} {acc : Scan}

theorem Window.init (hf : StrictlyUnimodal f xStar) : Window f xStar ⟨0, ceiling, 0, 0, []⟩ :=
  ⟨Nat.zero_le _, hf.le_ceiling, le_rfl, le_rfl, Nat.zero_le _, .inr ⟨rfl, rfl⟩,
    fun _ h => absurd h (List.not_mem_nil _)⟩

/-- The round's best amount is one of its samples, and none of them beats it. -/
theorem Scanned.roundBest_sample {lo g m : Nat} {log : List (Nat × Nat)}
    (hsc : Scanned f (Sampled lo step 0 (intervals + 1)) ⟨0, lo, g, m, log⟩ acc)
    (hfit : lo + 10 * step ≤ ceiling) :
    ∃ j ≤ 10, acc.bestLocalAmountIn = lo + j * step ∧
      ∀ i ≤ 10, f (lo + i * step) ≤ f acc.bestLocalAmountIn := by
  have hle : ∀ i ≤ 10, f (lo + i * step) ≤ acc.bestLocalProfit := fun i hi =>
    hsc.roundBest.le_of_mem _ ((sampled_round_iff hfit).2 ⟨i, hi, rfl⟩)
  rcases hsc.roundBest.attained with ⟨hb, hp⟩ | ⟨hb, hp⟩
  · -- no sample beat the initial `0`
    refine ⟨0, Nat.zero_le _, by simpa using hb, fun i hi => ?_⟩
    have := hle i hi
    dsimp only at hp
    omega
  · obtain ⟨j, hj, hb'⟩ := (sampled_round_iff hfit).1 hb
    exact ⟨j, hj, hb', fun i hi => hp ▸ hle i hi⟩

/-- After a round, the overall best is a logged sample of the old interval. -/
theorem Window.overallBest (hs : Window f xStar s)
    (hsc : Scanned f (Sampled s.minAmountIn step 0 (intervals + 1))
      ⟨0, s.minAmountIn, s.optimizedIn, s.maxProfit, s.log⟩ acc)
    (hfit : s.minAmountIn + 10 * step ≤ s.maxAmountIn) :
    (acc.optimizedIn, acc.maxProfit) ∈ acc.log ∧ s.minAmountIn ≤ acc.optimizedIn ∧
      acc.optimizedIn ≤ s.maxAmountIn := by
  have hc := hs.max_le_ceiling
  have hlo : Sampled s.minAmountIn step 0 (intervals + 1) s.minAmountIn :=
    (sampled_round_iff (by omega)).2 ⟨0, Nat.zero_le _, by simp⟩
  rcases hsc.overallBest.attained with ⟨hg, hm⟩ | ⟨hS, hm⟩
  · dsimp only at hg hm
    rw [hg, hm]
    refine ⟨?_, hs.min_le_best, hs.best_le_max⟩
    rcases hs.best_logged with h | ⟨h0, hg0⟩
    · exact (hsc.log_iff _).2 (.inl h)
    · -- still the initial `0`: the first sample, at `min_amount_in`, made no profit
      have := hsc.overallBest.le_of_mem _ hlo
      rw [hg0, h0, show (0 : Nat) = f s.minAmountIn by omega]
      exact (hsc.log_iff _).2 (.inr ⟨rfl, hlo⟩)
  · obtain ⟨j, hj, hj'⟩ := (sampled_round_iff (by omega)).1 hS
    have := Nat.mul_le_mul_right step hj
    exact ⟨hm ▸ (hsc.log_iff _).2 (.inr ⟨rfl, hS⟩), by omega, by omega⟩

/-- One round keeps the window, and leaves the overall best a logged sample. -/
theorem Window.round (hf : StrictlyUnimodal f xStar) (hs : Window f xStar s) (hpos : 0 < step)
    (hfit : s.minAmountIn + 10 * step ≤ s.maxAmountIn)
    (hrem : s.maxAmountIn ≤ s.minAmountIn + 11 * step) :
    Window f xStar (narrow s step (scan f s step)) ∧
      ((scan f s step).optimizedIn, (scan f s step).maxProfit) ∈ (scan f s step).log := by
  have hc := hs.max_le_ceiling
  have hsc : Scanned f (Sampled s.minAmountIn step 0 (intervals + 1))
      ⟨0, s.minAmountIn, s.optimizedIn, s.maxProfit, s.log⟩ (scan f s step) :=
    scanFrom_scanned f s.minAmountIn step 0 (intervals + 1) _
  obtain ⟨j, hj, hb, hmax⟩ := hsc.roundBest_sample (by omega)
  obtain ⟨hlogged, hg₁, hg₂⟩ := hs.overallBest hsc hfit
  -- every logged sample has its profit, at most the overall best's
  have hlog : ∀ e ∈ (scan f s step).log, e.2 = f e.1 ∧ e.2 ≤ (scan f s step).maxProfit := by
    intro e he
    rcases (hsc.log_iff e).1 he with h | ⟨h, hS⟩
    · exact ⟨(hs.log_le e h).1, (hs.log_le e h).2.trans hsc.overallBest.start_le⟩
    · exact ⟨h, h ▸ hsc.overallBest.le_of_mem _ hS⟩
  have hbest : f (scan f s step).bestLocalAmountIn ≤ f (scan f s step).optimizedIn := by
    have hm : (scan f s step).maxProfit = f (scan f s step).optimizedIn := (hlog _ hlogged).1
    rw [← hm, hb]
    exact hsc.overallBest.le_of_mem _ ((sampled_round_iff (by omega)).2 ⟨j, hj, rfl⟩)
  rw [hb] at hmax hbest
  have hx := hf.near_best hj hpos hfit hrem hc hmax hs.min_le_xStar hs.xStar_le_max
    (hf.le_max (by have := Nat.mul_le_mul_right step hj; omega))
  have hg := hf.near_best hj hpos hfit hrem hc hmax hg₁ hg₂ hbest
  rw [← hb] at hx hg
  have hxn := narrow_mem hs.min_le_xStar hs.xStar_le_max hf.le_ceiling hx.1 hx.2
  have hgn := narrow_mem hg₁ hg₂ (by omega) hg.1 hg.2
  exact ⟨⟨hxn.1, hxn.2, narrow_maxAmountIn_le hc, by simpa using hgn.1, by simpa using hgn.2,
    .inl (by simpa using hlogged), by simpa using hlog⟩, hlogged⟩

/-- The loop keeps the window, stops at most `tolerance` wide, and, once it has run a
round, leaves the overall best a logged sample. -/
theorem Window.searchLoop (hf : StrictlyUnimodal f xStar) :
    ∀ s, Window f xStar s →
      ((s.optimizedIn, s.maxProfit) ∈ s.log ∨ tolerance < s.maxAmountIn - s.minAmountIn) →
      Window f xStar (searchLoop f s) ∧
        ((searchLoop f s).optimizedIn, (searchLoop f s).maxProfit) ∈ (searchLoop f s).log ∧
        (searchLoop f s).maxAmountIn - (searchLoop f s).minAmountIn ≤ tolerance := by
  intro s
  induction s using LstMev.searchLoop.induct f with
  | case1 s hwide hzero =>
    simp only [intervals, tolerance] at hwide hzero
    omega
  | case2 s hwide hzero _ ih =>
    intro hs _
    rw [LstMev.searchLoop, if_pos hwide, if_neg hzero]
    -- a step of a width above `tolerance` exceeds the remainder of the division
    have hw : 10 ^ 15 < s.maxAmountIn - s.minAmountIn := hwide
    have hround := hs.round hf (Nat.pos_of_ne_zero hzero) (by unfold intervals; omega)
      (by unfold intervals; omega)
    exact ih hround.1 (.inl (by simpa using hround.2))
  | case3 s hnarrow =>
    intro hs hbest
    rw [LstMev.searchLoop, if_neg hnarrow]
    exact ⟨hs, hbest.resolve_right hnarrow, Nat.le_of_not_lt hnarrow⟩

end Window

/-! ### The result -/

/-- For a profit strictly unimodal on `[0, ceiling]`, `optimize_arbitrage` returns an
amount within `tolerance` of the maximiser and its profit, which is the largest
profit of every sample the search logged. -/
theorem optimize_finds_optimum (f : Nat → Nat) (xStar : Nat) (hf : StrictlyUnimodal f xStar) :
    xStar ≤ (optimizeArbitrage f).optimizedIn + tolerance ∧
      (optimizeArbitrage f).optimizedIn ≤ xStar + tolerance ∧
      (optimizeArbitrage f).optimizedOut = f (optimizeArbitrage f).optimizedIn ∧
      ((optimizeArbitrage f).optimizedIn, (optimizeArbitrage f).optimizedOut) ∈ (search f).log ∧
      ∀ e ∈ (search f).log, e.2 = f e.1 ∧ e.2 ≤ (optimizeArbitrage f).optimizedOut := by
  obtain ⟨hw, hlogged, hnarrow⟩ :=
    (Window.init hf).searchLoop hf _ (.inr (by simp [ceiling, tolerance]))
  have := hw.min_le_xStar; have := hw.xStar_le_max
  have := hw.min_le_best; have := hw.best_le_max
  exact ⟨by dsimp only [optimizeArbitrage, search]; omega,
    by dsimp only [optimizeArbitrage, search]; omega, (hw.log_le _ hlogged).1, hlogged, hw.log_le⟩

/-- A tent with its peak at `xStar`, lifted by `ceiling` so that it stays positive. -/
def tent (xStar x : Nat) : Nat :=
  if x ≤ xStar then ceiling + x else ceiling + 2 * xStar - x

theorem tent_strictlyUnimodal {xStar : Nat} (h : xStar ≤ ceiling) :
    StrictlyUnimodal (tent xStar) xStar :=
  ⟨h, fun x y hxy hy => by unfold tent; split_ifs <;> omega,
    fun x y hx hxy hy => by unfold tent; split_ifs <;> omega⟩

/-- The search on a tent peaked at `500` ETH. -/
theorem optimize_finds_tent_peak :
    let f := tent (5 * 10 ^ 20)
    StrictlyUnimodal f (5 * 10 ^ 20) ∧
      (5 * 10 ^ 20 ≤ (optimizeArbitrage f).optimizedIn + tolerance ∧
      (optimizeArbitrage f).optimizedIn ≤ 5 * 10 ^ 20 + tolerance ∧
      (optimizeArbitrage f).optimizedOut = f (optimizeArbitrage f).optimizedIn ∧
      ((optimizeArbitrage f).optimizedIn, (optimizeArbitrage f).optimizedOut) ∈ (search f).log ∧
      ∀ e ∈ (search f).log, e.2 = f e.1 ∧ e.2 ≤ (optimizeArbitrage f).optimizedOut) := by
  intro f
  have h : StrictlyUnimodal f (5 * 10 ^ 20) := tent_strictlyUnimodal (by simp [ceiling])
  exact ⟨h, optimize_finds_optimum f _ h⟩

end MevDesign.LstMev
