import MevDesign.Shared.Utils

/-!
# `MevDesign.Proofs.Shared.BlockRange`: the chunks of `get_block_range`

Where `get_block_range` returns, its chunks `Tiles` the range: the first starts at
`from_block`, each starts on the block after the end of the one before, none is
empty or longer than `chunk`, and the last ends at `to_block`. Every block of the
range then lies in exactly one chunk (`Tiles.countP_cover`); `getBlockRange_partitions`
puts the two together.

It does not always return. With overflow checks on, it panics exactly when `chunk`
is zero or a start plus `chunk` passes `u64::MAX` (`getBlockRange_panic_eq_none_iff`).
Without them the end wraps below its start. `getBlockRange_overflows_at_u64_max` is
the one-block range at `u64::MAX`, on which both builds fail.
-/

set_option autoImplicit false

namespace MevDesign.Shared

section StepBy
variable {start toBlock step : Nat}

theorem stepBy_of_le (h : start ≤ toBlock) (hs : 0 < step) :
    stepBy start toBlock step = start :: stepBy (start + step) toBlock step := by
  rw [stepBy, dif_pos ⟨h, hs⟩]

theorem stepBy_of_lt (h : toBlock < start) : stepBy start toBlock step = [] := by
  rw [stepBy, dif_neg (by omega)]

end StepBy

/-- With overflow checks on, a chunk is `(start, min (start + chunk - 1) to_block)`,
or a panic where `start + chunk` passes `u64::MAX`. -/
theorem chunkOf_panic {toBlock chunk start : Nat} (hc : 0 < chunk) :
    chunkOf .panic toBlock chunk start =
      if start + chunk ≤ u64Max then some (start, min (start + chunk - 1) toBlock) else none := by
  unfold chunkOf addU64 subU64
  by_cases h : start + chunk ≤ u64Max
  · rw [if_pos h, if_pos h]
    simp [show 1 ≤ start + chunk by omega]
  · rw [if_neg h, if_neg h]; rfl

/-- `Tiles toBlock chunk s rs`: the chunks `rs` cover `[s, toBlock]` in order. Each
starts on the block after the end of the one before, spans at least one block and at
most `chunk`, and the last ends at `toBlock`. -/
inductive Tiles (toBlock chunk : Nat) : Nat → List (Nat × Nat) → Prop
  | last {s : Nat} : s ≤ toBlock → toBlock + 1 - s ≤ chunk →
      Tiles toBlock chunk s [(s, toBlock)]
  | cons {s e : Nat} {rs : List (Nat × Nat)} : s ≤ e → e < toBlock → e + 1 - s ≤ chunk →
      Tiles toBlock chunk (e + 1) rs → Tiles toBlock chunk s ((s, e) :: rs)

/-- A tiling of `[s, toBlock]` puts every block of it in exactly one chunk, and no
other block in any. -/
theorem Tiles.countP_cover {toBlock chunk s : Nat} {rs : List (Nat × Nat)}
    (h : Tiles toBlock chunk s rs) (b : Nat) :
    rs.countP (fun p => p.1 ≤ b ∧ b ≤ p.2) = if s ≤ b ∧ b ≤ toBlock then 1 else 0 := by
  induction h with
  | last =>
    simp only [List.countP_cons, List.countP_nil, decide_eq_true_eq]
    split_ifs <;> simp_all
  | cons hse het _ _ ih =>
    rw [List.countP_cons, ih]
    simp only [decide_eq_true_eq]
    split_ifs <;> omega

section Tiles
variable {toBlock chunk s : Nat} {rs : List (Nat × Nat)}

/-- Every chunk of a tiling of `[s, toBlock]` starts at `s` or later and is not empty. -/
theorem Tiles.bounds (h : Tiles toBlock chunk s rs) : ∀ c ∈ rs, s ≤ c.1 ∧ c.1 ≤ c.2 := by
  induction h with
  | last hs _ => simpa using hs
  | cons hse _ _ _ ih =>
    simp only [List.mem_cons, forall_eq_or_imp]
    exact ⟨⟨le_rfl, hse⟩, fun c hc => ⟨by have := (ih c hc).1; omega, (ih c hc).2⟩⟩

/-- Two chunks of a tiling are the same chunk, or one ends before the other starts. -/
theorem Tiles.disjoint (h : Tiles toBlock chunk s rs) :
    ∀ c ∈ rs, ∀ c' ∈ rs, c = c' ∨ c.2 < c'.1 ∨ c'.2 < c.1 := by
  induction h with
  | last => simp
  | cons _ _ _ ht ih =>
    have hb := ht.bounds
    intro c hc c' hc'
    rcases List.mem_cons.1 hc with rfl | hc <;> rcases List.mem_cons.1 hc' with rfl | hc'
    · exact .inl rfl
    · exact .inr (.inl (by have := (hb c' hc').1; omega))
    · exact .inr (.inr (by have := (hb c hc).1; omega))
    · exact ih c hc c' hc'

end Tiles

/-- The chunks of the starts from `start` on tile `[start, toBlock]`, when no chunk end
overflows. -/
theorem tiles_map_stepBy {toBlock chunk : Nat} (hc : 0 < chunk) :
    ∀ start, start ≤ toBlock →
      Tiles toBlock chunk start
        ((stepBy start toBlock chunk).map fun x => (x, min (x + chunk - 1) toBlock)) := by
  intro start
  induction start, toBlock, chunk using stepBy.induct with
  | case1 start toBlock chunk _ ih =>
    intro hle
    rw [stepBy_of_le hle hc, List.map_cons]
    by_cases hend : start + chunk ≤ toBlock
    · -- a full chunk, and the rest of the range after it
      have hmin : min (start + chunk - 1) toBlock = start + chunk - 1 := by omega
      rw [hmin]
      refine .cons (by omega) (by omega) (by omega) ?_
      rw [show start + chunk - 1 + 1 = start + chunk by omega]
      exact ih hc hend
    · -- the last chunk, cut at `to_block`
      rw [stepBy_of_lt (by omega), List.map_nil,
        show min (start + chunk - 1) toBlock = toBlock by omega]
      exact .last hle (by omega)
  | case2 start toBlock chunk h => exact fun hle => absurd ⟨hle, hc⟩ h

/-- With overflow checks on, the closures either all return or one panics. -/
theorem mapM_chunkOf_panic {toBlock chunk : Nat} (hc : 0 < chunk) (l : List Nat) :
    l.mapM (chunkOf .panic toBlock chunk) =
      if ∀ x ∈ l, x + chunk ≤ u64Max then
        some (l.map fun x => (x, min (x + chunk - 1) toBlock))
      else none := by
  induction l with
  | nil => rfl
  | cons x l ih =>
    rw [List.mapM_cons, chunkOf_panic hc, ih]
    have hcons : (∀ y ∈ x :: l, y + chunk ≤ u64Max) ↔
        x + chunk ≤ u64Max ∧ ∀ y ∈ l, y + chunk ≤ u64Max := List.forall_mem_cons
    by_cases hx : x + chunk ≤ u64Max
    · by_cases hl : ∀ y ∈ l, y + chunk ≤ u64Max
      · rw [if_pos hx, if_pos hl, if_pos (hcons.2 ⟨hx, hl⟩)]; rfl
      · rw [if_pos hx, if_neg hl, if_neg fun h => hl (hcons.1 h).2]; rfl
    · rw [if_neg hx, if_neg fun h => hx (hcons.1 h).1]; rfl

/-- With overflow checks on, `get_block_range` panics exactly on a zero `chunk` or where
a start plus `chunk` passes `u64::MAX`. -/
theorem getBlockRange_panic_eq_none_iff {fromBlock toBlock chunk : Nat} :
    getBlockRange .panic fromBlock toBlock chunk = none ↔
      chunk = 0 ∨ ∃ start ∈ stepBy fromBlock toBlock chunk, u64Max < start + chunk := by
  unfold getBlockRange
  split_ifs with hc
  · simp [hc]
  · rw [mapM_chunkOf_panic (Nat.pos_of_ne_zero hc)]
    split_ifs with h
    · simp only [reduceCtorEq, hc, false_or, false_iff, not_exists, not_and, not_lt]
      exact h
    · push_neg at h
      simpa [hc] using h

/-- Where `get_block_range` returns with overflow checks on, its chunks tile
`[from_block, to_block]`. -/
theorem getBlockRange_tiles {fromBlock toBlock chunk : Nat} {rs : List (Nat × Nat)}
    (hle : fromBlock ≤ toBlock) (h : getBlockRange .panic fromBlock toBlock chunk = some rs) :
    Tiles toBlock chunk fromBlock rs := by
  unfold getBlockRange at h
  split_ifs at h with hc
  rw [mapM_chunkOf_panic (Nat.pos_of_ne_zero hc)] at h
  split_ifs at h
  cases h
  exact tiles_map_stepBy (Nat.pos_of_ne_zero hc) fromBlock hle

/-- Where `get_block_range` returns with overflow checks on, its chunks partition
`[from_block, to_block]`: they tile it in order, and every block of it lies in exactly
one chunk. -/
theorem getBlockRange_partitions {fromBlock toBlock chunk : Nat} {rs : List (Nat × Nat)}
    (hle : fromBlock ≤ toBlock) (h : getBlockRange .panic fromBlock toBlock chunk = some rs) :
    Tiles toBlock chunk fromBlock rs ∧
      ∀ b, rs.countP (fun p => p.1 ≤ b ∧ b ≤ p.2) =
        if fromBlock ≤ b ∧ b ≤ toBlock then 1 else 0 :=
  have ht := getBlockRange_tiles hle h
  ⟨ht, ht.countP_cover⟩

/-- `get_block_range(0, 25_000, 10_000)`: three chunks, the last cut at block
`25_000`. -/
theorem getBlockRange_three_chunks :
    0 ≤ 25000 ∧
      getBlockRange .panic 0 25000 10000 = some [(0, 9999), (10000, 19999), (20000, 25000)] ∧
      (Tiles 25000 10000 0 [(0, 9999), (10000, 19999), (20000, 25000)] ∧
        ∀ b, [(0, 9999), (10000, 19999), (20000, 25000)].countP
          (fun p : Nat × Nat => p.1 ≤ b ∧ b ≤ p.2) =
            if 0 ≤ b ∧ b ≤ 25000 then 1 else 0) :=
  have h : getBlockRange .panic 0 25000 10000 =
      some [(0, 9999), (10000, 19999), (20000, 25000)] := by
    have hs : stepBy 0 25000 10000 = [0, 10000, 20000] := by
      rw [stepBy_of_le (by decide) (by decide), stepBy_of_le (by decide) (by decide),
        stepBy_of_le (by decide) (by decide), stepBy_of_lt (by decide)]
    rw [getBlockRange, if_neg (by decide), mapM_chunkOf_panic (by decide), hs,
      if_pos (by decide)]
    rfl
  ⟨Nat.zero_le _, h, getBlockRange_partitions (Nat.zero_le _) h⟩

/-- The one-block range at `u64::MAX` with chunks of two: `start + chunk` overflows.
With overflow checks on, `get_block_range` panics; without them the end wraps to
block `0`, before the chunk's start, and the range is not covered. -/
theorem getBlockRange_overflows_at_u64_max :
    getBlockRange .panic u64Max u64Max 2 = none ∧
      getBlockRange .wrap u64Max u64Max 2 = some [(u64Max, 0)] := by
  have hs : stepBy u64Max u64Max 2 = [u64Max] := by
    rw [stepBy_of_le le_rfl (by decide), stepBy_of_lt (by simp [u64Max])]
  constructor <;> rw [getBlockRange, if_neg (by decide), hs] <;> rfl

end MevDesign.Shared
