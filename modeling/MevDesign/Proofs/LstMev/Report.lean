import MevDesign.Proofs.LstMev.Termination

/-!
# `MevDesign.Proofs.LstMev.Report`: what `optimize_arbitrage` reports, for any profit

`Search.lean` locates the optimum of a unimodal profit. Whatever `simulate` returns,
unimodal or not, the result still has a plain reading: it is the first sample of the
search whose profit is positive and beaten by no other sample, or `(0, 0)` when no
sample made a profit.

`firstBest` states that reading over the log of samples, independently of the loop: a
`find?` of the first sample that is positive and no smaller than any sample. The loop
keeps `FirstBest`, in which `(optimized_in, max_profit)` is the start `(0, 0)` or sits
in the log after samples of strictly smaller profit, with no sample above it
(`FirstBest.record`, `FirstBest.scanFrom`, `FirstBest.searchLoop`). The strict `>` of
both updates is what makes it the first such sample. `FirstBest.firstBest_eq` reads the
result off the invariant (`optimizeArbitrage_eq_firstBest`).

Each `simulate` call builds an EVM over a forked database, so the number of calls
matters. A round logs at most `intervals + 1` samples (`scanFrom_log_length`), and
the loop takes at most nine rounds (`rounds_searchLoop`), so the search calls
`simulate` at most 99 times, for every profit (`search_log_length_le`).
-/

set_option autoImplicit false

namespace MevDesign.LstMev

/-- The first logged sample whose profit is positive and no smaller than any logged
profit, as `Optimized`; `(0, 0)` when there is none. -/
def firstBest (log : List (Nat × Nat)) : Optimized :=
  match log.find? fun e => decide (0 < e.2) && log.all fun e' => decide (e'.2 ≤ e.2) with
  | some e => ⟨e.1, e.2⟩
  | none => ⟨0, 0⟩

/-! ### The invariant -/

/-- What the loop keeps of `(optimized_in, max_profit)` and the log, for any profit `f`:
every sample is the profit at an amount at most `ceiling`, none beats `max_profit`, and
the pair is the start `(0, 0)` or a positive sample after samples of smaller profit. -/
structure FirstBest (f : Nat → Nat) (a p : Nat) (log : List (Nat × Nat)) : Prop where
  log_oracle : ∀ e ∈ log, e.2 = f e.1 ∧ e.1 ≤ ceiling
  log_le : ∀ e ∈ log, e.2 ≤ p
  first : (a = 0 ∧ p = 0) ∨
    (0 < p ∧ ∃ pre post, log = pre ++ (a, p) :: post ∧ ∀ e ∈ pre, e.2 < p)

namespace FirstBest

variable {f : Nat → Nat}

theorem init (f : Nat → Nat) : FirstBest f 0 0 [] :=
  ⟨nofun, nofun, .inl ⟨rfl, rfl⟩⟩

/-- The invariant names the result of `firstBest`. -/
theorem firstBest_eq {a p : Nat} {log : List (Nat × Nat)} (h : FirstBest f a p log) :
    firstBest log = ⟨a, p⟩ := by
  unfold firstBest
  rcases h.first with ⟨rfl, rfl⟩ | ⟨hp, pre, post, hlog, hpre⟩
  · -- no sample made a profit
    rw [List.find?_eq_none.2 fun e he => by simp [Nat.le_zero.1 (h.log_le e he)]]
  · -- the samples before `(a, p)` are beaten by it, and `(a, p)` beats every sample
    have hbeaten : ∀ e ∈ pre, (log.all fun e' => decide (e'.2 ≤ e.2)) = false := fun e he =>
      List.all_eq_false.2 ⟨(a, p), by rw [hlog]; simp, by simpa using hpre e he⟩
    have hbest : log.all (fun e' => decide (e'.2 ≤ p)) := by
      simpa using h.log_le
    have hfind : log.find? (fun e => decide (0 < e.2) &&
        log.all fun e' => decide (e'.2 ≤ e.2)) = some (a, p) := by
      conv_lhs => arg 2; rw [hlog]
      rw [List.find?_append, List.find?_eq_none.2 fun e he => by simp [hbeaten e he],
        List.find?_cons_of_pos _ (by simpa [hp] using hbest)]
      rfl
    rw [hfind]

/-- The body of the `for` loop, at an amount at most `ceiling`. -/
theorem record {acc : Scan} (h : FirstBest f acc.optimizedIn acc.maxProfit acc.log)
    {x : Nat} (hx : x ≤ ceiling) :
    FirstBest f (acc.record x (f x)).optimizedIn (acc.record x (f x)).maxProfit
      (acc.record x (f x)).log := by
  simp only [Scan.record_optimizedIn, Scan.record_maxProfit, Scan.record_log]
  have hlog : ∀ e ∈ acc.log ++ [(x, f x)], e.2 = f e.1 ∧ e.1 ≤ ceiling := by
    rw [List.forall_mem_append, List.forall_mem_singleton]
    exact ⟨h.log_oracle, rfl, hx⟩
  split_ifs with hgt
  · -- a new best: it comes after every sample so far, all of smaller profit
    refine ⟨hlog, ?_,
      .inr ⟨by omega, acc.log, [], rfl, fun e he => (h.log_le e he).trans_lt hgt⟩⟩
    rw [List.forall_mem_append, List.forall_mem_singleton]
    exact ⟨fun e he => (h.log_le e he).trans hgt.le, le_rfl⟩
  · refine ⟨hlog, ?_, ?_⟩
    · rw [List.forall_mem_append, List.forall_mem_singleton]
      exact ⟨h.log_le, Nat.le_of_not_lt hgt⟩
    rcases h.first with h0 | ⟨hp, pre, post, hl, hpre⟩
    · exact .inl h0
    · exact .inr ⟨hp, pre, post ++ [(x, f x)], by simp [hl], hpre⟩

/-- The `for` loop keeps the invariant. -/
theorem scanFrom (lo step : Nat) :
    ∀ (i n : Nat) (acc : Scan), FirstBest f acc.optimizedIn acc.maxProfit acc.log →
      FirstBest f (LstMev.scanFrom f lo step i n acc).optimizedIn
        (LstMev.scanFrom f lo step i n acc).maxProfit (LstMev.scanFrom f lo step i n acc).log
  | _, 0, _, h => h
  | i, n + 1, acc, h => by
    have h' := h.record (x := min (lo + i * step) ceiling) (Nat.min_le_right _ _)
    simp only [LstMev.scanFrom]
    split_ifs
    · exact h'
    · exact scanFrom lo step (i + 1) n _ h'

/-- The `while` loop keeps the invariant. -/
theorem searchLoop :
    ∀ s : Search, FirstBest f s.optimizedIn s.maxProfit s.log →
      FirstBest f (LstMev.searchLoop f s).optimizedIn (LstMev.searchLoop f s).maxProfit
        (LstMev.searchLoop f s).log := by
  intro s
  induction s using LstMev.searchLoop.induct f with
  | case1 s hwide hzero => intro h; rwa [LstMev.searchLoop, if_pos hwide, if_pos hzero]
  | case2 s hwide hzero _ ih =>
    intro h
    rw [LstMev.searchLoop, if_pos hwide, if_neg hzero]
    apply ih
    simpa only [narrow_optimizedIn, narrow_maxProfit, narrow_log] using
      FirstBest.scanFrom _ _ 0 (intervals + 1)
        ⟨0, s.minAmountIn, s.optimizedIn, s.maxProfit, s.log⟩ h
  | case3 s hnarrow => intro h; rwa [LstMev.searchLoop, if_neg hnarrow]

end FirstBest

/-- For every profit oracle `f`, `optimize_arbitrage` returns the first sample of its
search whose profit is positive and beaten by no sample, or `(0, 0)` when no sample
made a profit; every sample it logged is `f` at an amount of at most `ceiling`. -/
theorem optimizeArbitrage_eq_firstBest (f : Nat → Nat) :
    optimizeArbitrage f = firstBest (search f).log ∧
      ∀ e ∈ (search f).log, e.2 = f e.1 ∧ e.1 ≤ ceiling := by
  have h := FirstBest.searchLoop ⟨0, ceiling, 0, 0, []⟩ (FirstBest.init f)
  exact ⟨h.firstBest_eq.symm, h.log_oracle⟩

/-- A tie at the best profit goes to the first sample of it. -/
example : firstBest [(0, 0), (2, 5), (4, 5), (6, 3)] = ⟨2, 5⟩ := by decide

/-! ### The number of `simulate` calls -/

/-- A stretch of the `for` loop with `n` indices left logs at most `n` samples. -/
theorem scanFrom_log_length (f : Nat → Nat) (lo step : Nat) :
    ∀ (i n : Nat) (acc : Scan),
      (LstMev.scanFrom f lo step i n acc).log.length ≤ acc.log.length + n
  | _, 0, _ => le_rfl
  | i, n + 1, acc => by
    simp only [LstMev.scanFrom]
    split_ifs
    · simp
    · have := scanFrom_log_length f lo step (i + 1) n
        (acc.record (min (lo + i * step) ceiling) (f (min (lo + i * step) ceiling)))
      simp only [Scan.record_log, List.length_append, List.length_singleton] at this
      omega

/-- Each round logs at most `intervals + 1` samples. -/
theorem Rounds.log_length {f : Nat → Nat} {n : Nat} {s s' : Search} (h : Rounds f n s s') :
    s'.log.length ≤ s.log.length + (intervals + 1) * n := by
  induction h with
  | done => simp
  | @step n s s' _ _ ih =>
    have : (scan f s s.step).log.length ≤ s.log.length + (intervals + 1) :=
      scanFrom_log_length f _ _ 0 (intervals + 1) _
    simp only [searchRound, narrow_log] at ih
    rw [Nat.mul_succ]
    omega

/-- For every profit oracle, `optimize_arbitrage` calls `simulate` at most 99 times:
its search logs at most 99 samples, one per call. -/
theorem search_log_length_le (f : Nat → Nat) : (search f).log.length ≤ 99 := by
  obtain ⟨n, hn, hr, -⟩ := rounds_searchLoop f 9 ⟨0, ceiling, 0, 0, []⟩
    ⟨Nat.zero_le _, le_rfl⟩ (by simp [Search.width, ceiling, tolerance])
  have := hr.log_length
  simp only [intervals, List.length_nil] at this
  change (searchLoop f _).log.length ≤ 99
  omega

end MevDesign.LstMev
