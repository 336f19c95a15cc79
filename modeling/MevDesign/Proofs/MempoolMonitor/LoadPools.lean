import MevDesign.MempoolMonitor.LoadPools
import MevDesign.Proofs.Shared.BlockRange

/-!
# `MevDesign.Proofs.MempoolMonitor.LoadPools`: a failed chunk is skipped for good

The next run of `load_pools` resumes one block past the highest block of the pools
this run returns. A pool carries the block of its creation log
(`Pool.tryFrom_block`). The chunk loop appends each chunk's pools in chunk order, and a
chunk whose `get_logs` fails adds none and does not stop the loop
(`foldlM_scanChunk`). So when a later chunk yields a pool, the resume block passes the
failed chunk, and no later run fetches it again.

`resume_le_failed_iff` says exactly when a run keeps every failed chunk for the next
one: the resume block is at most the first block of each failed chunk exactly when no
chunk after a failed one yields a pool. It needs the chunks to tile the range
(`getBlockRange_tiles`, `Tiles.disjoint`) and each fetched log to lie in its
chunk.

`failed_chunk_skipped_for_good` is the smallest run that breaks it, for every `Abi`
whose `PairCreated` decoder accepts the log and in both builds: from an empty cache
and `from_block = 0` to the head `20_000`, the fetch of `[0, 9_999]` fails and
`[10_000, 19_999]` holds a pool created at block `15_000`. The next run resumes at
`15_001`.
-/

set_option autoImplicit false

namespace MevDesign.MempoolMonitor

open MevDesign.Shared

/-- A pool parsed from a log carries the log's block number, `0` when it has none. -/
theorem Pool.tryFrom_block {abi : Abi} {log : Log} {p : Pool}
    (h : Pool.tryFrom abi log = some (.ok p)) : p.block = log.blockNumber.getD 0 := by
  unfold Pool.tryFrom at h
  split at h
  · cases h
  · simp only [Option.some.injEq] at h
    split_ifs at h
    · cases hd : abi.decodePairCreated log.inner <;> rw [hd] at h <;> cases h; rfl
    · cases hd : abi.decodePoolCreated log.inner <;> rw [hd] at h <;> cases h; rfl

/-- Below the head, `load_pools` folds the chunk loop over the chunks from the resume
block to the head. -/
theorem loadPools_of_lt {o : Overflow} {abi : Abi} {pools : List Pool}
    {fromBlock endBlock start : Nat} {getLogs : Nat → Nat → Except String (List Log)}
    (hs : startBlock o pools fromBlock = some start) (hlt : start < endBlock) :
    loadPools o abi pools fromBlock endBlock getLogs =
      (getBlockRange o start endBlock chunkSize).bind
        (·.foldlM (scanChunk abi getLogs) pools) := by
  simp [loadPools, hs, Nat.not_le.2 hlt]

/-! ### The pools of a run -/

section OptionMapM
variable {α β : Type} {f : α → Option β}

theorem mapM_cons_eq_some {a : α} {l : List α} {l' : List β} :
    (a :: l).mapM f = some l' ↔
      ∃ b bs, f a = some b ∧ l.mapM f = some bs ∧ l' = b :: bs := by
  rw [List.mapM_cons]
  cases f a <;> cases l.mapM f <;> simp [eq_comm]

/-- Where a loop in `Option` returns, each element has its result in the output. -/
theorem exists_of_mapM_eq_some : ∀ {l : List α} {l' : List β}, l.mapM f = some l' →
    ∀ a ∈ l, ∃ b ∈ l', f a = some b
  | [], _, _, _, ha => nomatch ha
  | a :: l, l', h, x, hx => by
    obtain ⟨b, bs, hb, hbs, rfl⟩ := mapM_cons_eq_some.1 h
    rcases List.mem_cons.1 hx with rfl | hx
    · exact ⟨b, List.mem_cons_self _ _, hb⟩
    · obtain ⟨c, hc, hfc⟩ := exists_of_mapM_eq_some hbs x hx
      exact ⟨c, List.mem_cons_of_mem _ hc, hfc⟩

/-- Where a loop in `Option` returns, each output is the result of some element. -/
theorem exists_of_mem_mapM_eq_some : ∀ {l : List α} {l' : List β}, l.mapM f = some l' →
    ∀ b ∈ l', ∃ a ∈ l, f a = some b
  | [], l', h, _, hb => by cases h; cases hb
  | a :: l, l', h, x, hx => by
    obtain ⟨b, bs, hb, hbs, rfl⟩ := mapM_cons_eq_some.1 h
    rcases List.mem_cons.1 hx with rfl | hx
    · exact ⟨a, List.mem_cons_self _ _, hb⟩
    · obtain ⟨c, hc, hfc⟩ := exists_of_mem_mapM_eq_some hbs x hx
      exact ⟨c, List.mem_cons_of_mem _ hc, hfc⟩

end OptionMapM

/-- The pools one chunk adds: those parsed from its logs, none when its fetch fails;
`none` where a `try_from` panics. -/
def chunkPools (abi : Abi) (getLogs : Nat → Nat → Except String (List Log))
    (chunk : Nat × Nat) : Option (List Pool) :=
  match getLogs chunk.1 chunk.2 with
  | .ok logs => newPools abi logs
  | .error _ => some []

section Loop
variable {abi : Abi} {getLogs : Nat → Nat → Except String (List Log)}

theorem scanChunk_eq (pools : List Pool) (chunk : Nat × Nat) :
    scanChunk abi getLogs pools chunk = (chunkPools abi getLogs chunk).map (pools ++ ·) := by
  rcases h : getLogs chunk.1 chunk.2 with _ | logs <;> simp [scanChunk, chunkPools, h]

/-- The chunk loop appends the pools of each chunk, in chunk order: a failed chunk adds
none and does not stop the loop. -/
theorem foldlM_scanChunk : ∀ (chunks : List (Nat × Nat)) (pools : List Pool),
    chunks.foldlM (scanChunk abi getLogs) pools =
      (chunks.mapM (chunkPools abi getLogs)).map fun pss => pools ++ pss.flatten
  | [], pools => by rw [List.mapM_nil]; simp
  | c :: chunks, pools => by
    rw [List.foldlM_cons, scanChunk_eq, List.mapM_cons]
    cases chunkPools abi getLogs c with
    | none => rfl
    | some ps =>
      simp only [Option.map_some', Option.some_bind, Option.bind_eq_bind, foldlM_scanChunk chunks]
      cases chunks.mapM (chunkPools abi getLogs) <;> simp

/-- A kept pool comes from a log that `Pool::try_from` parses into it. -/
theorem mem_newPools {logs : List Log} {ps : List Pool} (h : newPools abi logs = some ps)
    {p : Pool} (hp : p ∈ ps) : ∃ log ∈ logs, Pool.tryFrom abi log = some (.ok p) := by
  obtain ⟨rs, hrs, rfl⟩ := Option.map_eq_some'.1 h
  obtain ⟨r, hr, hrp⟩ := List.mem_filterMap.1 hp
  obtain ⟨log, hlog, hl⟩ := exists_of_mem_mapM_eq_some hrs r hr
  refine ⟨log, hlog, ?_⟩
  cases r <;> simp_all [Except.toOption]

/-- The pools a chunk adds lie in the chunk, when its logs do. -/
theorem block_mem_chunk {c : Nat × Nat}
    (hlogs : ∀ logs, getLogs c.1 c.2 = .ok logs →
      ∀ log ∈ logs, ∃ b, log.blockNumber = some b ∧ c.1 ≤ b ∧ b ≤ c.2)
    {ps : List Pool} (h : chunkPools abi getLogs c = some ps) {p : Pool} (hp : p ∈ ps) :
    c.1 ≤ p.block ∧ p.block ≤ c.2 := by
  unfold chunkPools at h
  split at h
  · rename_i logs hl
    obtain ⟨log, hlog, htry⟩ := mem_newPools h hp
    obtain ⟨b, hb, h₁, h₂⟩ := hlogs logs hl log hlog
    rw [Pool.tryFrom_block htry, hb]
    exact ⟨h₁, h₂⟩
  · cases h; cases hp

end Loop

/-! ### The resume block -/

section Resume
variable {pools : List Pool} {fromBlock r : Nat}

/-- With overflow checks on, the resume block is past the block of every pool. -/
theorem block_lt_startBlock (h : startBlock .panic pools fromBlock = some r) {p : Pool}
    (hp : p ∈ pools) : p.block < r := by
  unfold startBlock at h
  split at h
  · rename_i hm
    simp only [List.max?_eq_none_iff, List.map_eq_nil_iff] at hm
    simp [hm] at hp
  · rename_i m hm
    have := (List.max?_eq_some_iff'.1 hm).2 p.block (List.mem_map_of_mem _ hp)
    unfold addU64 at h
    split_ifs at h
    cases h; omega

/-- With overflow checks on, the resume block is at most `x` when every pool's block is
below `x`, and `from_block` is at most `x` when there are no pools. -/
theorem startBlock_le {x : Nat} (h : startBlock .panic pools fromBlock = some r)
    (hlt : ∀ p ∈ pools, p.block < x) (hnil : pools = [] → fromBlock ≤ x) : r ≤ x := by
  unfold startBlock at h
  split at h
  · rename_i hm
    simp only [List.max?_eq_none_iff, List.map_eq_nil_iff] at hm
    cases h; exact hnil hm
  · rename_i m hm
    obtain ⟨p, hp, rfl⟩ := List.mem_map.1 (List.max?_eq_some_iff'.1 hm).1
    have := hlt p hp
    unfold addU64 at h
    split_ifs at h
    cases h; omega

end Resume

/-- With overflow checks on, take a run of `load_pools` that scans the chunks `chunks`
from its resume block `start` to the head and returns `P'`, where each successful
`get_logs` returns only logs of its chunk, and let the next run resume at `r`. Then
`r` is at most the first block of every chunk whose fetch failed exactly when no chunk
after a failed one yields a pool. -/
theorem resume_le_failed_iff {abi : Abi} {cached : List Pool} {fromBlock endBlock : Nat}
    {getLogs : Nat → Nat → Except String (List Log)} {start r : Nat}
    {chunks : List (Nat × Nat)} {P' : List Pool}
    (hs : startBlock .panic cached fromBlock = some start) (hlt : start < endBlock)
    (hch : getBlockRange .panic start endBlock chunkSize = some chunks)
    (hlogs : ∀ c ∈ chunks, ∀ logs, getLogs c.1 c.2 = .ok logs →
      ∀ log ∈ logs, ∃ b, log.blockNumber = some b ∧ c.1 ≤ b ∧ b ≤ c.2)
    (hP : loadPools .panic abi cached fromBlock endBlock getLogs = some P')
    (hr : startBlock .panic P' fromBlock = some r) :
    (∀ c ∈ chunks, (∃ e, getLogs c.1 c.2 = .error e) → r ≤ c.1) ↔
      ∀ c ∈ chunks, (∃ e, getLogs c.1 c.2 = .error e) →
        ∀ c' ∈ chunks, c.1 < c'.1 → chunkPools abi getLogs c' = some [] := by
  -- the pools returned: the cached ones, then those of each chunk in turn
  rw [loadPools_of_lt hs hlt, hch, Option.some_bind, foldlM_scanChunk] at hP
  obtain ⟨pss, hpss, rfl⟩ := Option.map_eq_some'.1 hP
  have ht := getBlockRange_tiles hlt.le hch
  constructor
  · -- a pool of a later chunk lies past the failed chunk, and the resume block past it
    intro hle c hc hfail c' hc' hlt'
    obtain ⟨ps, hps, hcp⟩ := exists_of_mapM_eq_some hpss c' hc'
    refine hcp.trans (congrArg some (List.eq_nil_iff_forall_not_mem.2 fun p hp => ?_))
    have h₁ := (block_mem_chunk (hlogs c' hc') hcp hp).1
    have h₂ := block_lt_startBlock hr
      (List.mem_append_right _ (List.mem_flatten.2 ⟨ps, hps, hp⟩))
    have := hle c hc hfail
    omega
  · -- every pool lies before the failed chunk
    intro hnone c hc hfail
    have hc₁ := ht.bounds c hc
    refine startBlock_le hr (fun p hp => ?_) (fun hnil => ?_)
    · rcases List.mem_append.1 hp with hp | hp
      · have := block_lt_startBlock hs hp
        omega
      · obtain ⟨ps, hps, hp⟩ := List.mem_flatten.1 hp
        obtain ⟨c', hc', hcp⟩ := exists_of_mem_mapM_eq_some hpss ps hps
        have hb := block_mem_chunk (hlogs c' hc') hcp hp
        rcases ht.disjoint c hc c' hc' with rfl | h | h
        · obtain ⟨e, he⟩ := hfail
          simp only [chunkPools, he, Option.some.injEq] at hcp
          subst hcp; cases hp
        · rw [hnone c hc hfail c' hc' (by omega)] at hcp
          cases hcp; cases hp
        · omega
    · -- no pools at all: this run started at `from_block`
      obtain ⟨rfl, -⟩ := List.append_eq_nil.1 hnil
      have : fromBlock = start := Option.some.inj hs
      omega

/-! ### A failed chunk skipped for good -/

/-- The `get_logs` outcomes of the run below: the fetch of the chunk at `0` fails, the
chunk at `10_000` holds `log`, and the others hold no logs. -/
def flakyLogs (log : Log) (s _e : Nat) : Except String (List Log) :=
  if s = 0 then .error "request timed out" else if s = 10000 then .ok [log] else .ok []

/-- The chunks from block `0` to the head `20_000`, in both builds. -/
theorem getBlockRange_to_20000 (o : Overflow) :
    getBlockRange o 0 20000 chunkSize = some [(0, 9999), (10000, 19999), (20000, 20000)] := by
  have hs : stepBy 0 20000 10000 = [0, 10000, 20000] := by
    rw [stepBy_of_le (by decide) (by decide), stepBy_of_le (by decide) (by decide),
      stepBy_of_le (by decide) (by decide), stepBy_of_lt (by decide)]
  rw [chunkSize, getBlockRange, if_neg (by decide), hs]
  cases o <;> rfl

/-- The run over those chunks with `flakyLogs log` returns the pool parsed from `log`. -/
theorem loadPools_flakyLogs (o : Overflow) (abi : Abi) (log : Log) (p : Pool)
    (hp : Pool.tryFrom abi log = some (.ok p)) :
    loadPools o abi [] 0 20000 (flakyLogs log) = some [p] := by
  -- the first chunk adds nothing, the second adds `p`, the third nothing
  have h2 : scanChunk abi (flakyLogs log) [] (10000, 19999) = some [p] := by
    show (newPools abi [log]).map ([] ++ ·) = _
    rw [newPools, List.mapM_cons, hp]; rfl
  have h3 : scanChunk abi (flakyLogs log) [p] (20000, 20000) = some [p] := rfl
  rw [loadPools_of_lt (show startBlock o [] 0 = some 0 from rfl) (by decide),
    getBlockRange_to_20000]
  simp only [Option.some_bind, List.foldlM_cons, List.foldlM_nil, Option.bind_eq_bind,
    show scanChunk abi (flakyLogs log) [] (0, 9999) = some [] from rfl, h2, h3]
  rfl

/-- Signature hashes `1` to `6`, and a `PairCreated` decoder that takes the tokens from
the two indexed topics and the pair from the data. -/
def exampleAbi : Abi where
  pairCreatedHash := 1
  poolCreatedHash := 2
  transferHash := 3
  crocSwapHash := 4
  v2SwapHash := 5
  v3SwapHash := 6
  decodePairCreated log := match log.data.topics with
    | [_, token0, token1] =>
      .ok ⟨token0, token1, log.data.data.foldl (fun n b => 256 * n + b.toNat) 0⟩
    | _ => .error "topics length mismatch"
  decodePoolCreated _ := .error "topics length mismatch"

/-- A `PairCreated` log at block `15_000`: tokens `7` and `8`, pair `9`. -/
def pairCreatedLog : Log := ⟨⟨100, ⟨[1, 7, 8], [9]⟩⟩, some 15000⟩

/-- From an empty cache and `from_block = 0` with the head at `20_000`, the chunks are
`[0, 9_999]`, `[10_000, 19_999]` and `[20_000, 20_000]`. Let the fetch of the first fail
and the second return one log at block `15_000` that `Pool::try_from` parses into `p`.
Then `load_pools` returns `[p]`, and the next run resumes at block `15_001`, past the
failed chunk `[0, 9_999]`, which no later run fetches. -/
theorem failed_chunk_skipped_for_good (o : Overflow) (abi : Abi) (log : Log) (p : Pool)
    (hp : Pool.tryFrom abi log = some (.ok p)) (hblock : log.blockNumber = some 15000) :
    getBlockRange o 0 20000 chunkSize = some [(0, 9999), (10000, 19999), (20000, 20000)] ∧
      flakyLogs log 0 9999 = .error "request timed out" ∧
      loadPools o abi [] 0 20000 (flakyLogs log) = some [p] ∧
      startBlock o [p] 0 = some 15001 := by
  have hb : p.block = 15000 := by rw [Pool.tryFrom_block hp, hblock]; rfl
  refine ⟨getBlockRange_to_20000 o, rfl, loadPools_flakyLogs o abi log p hp, ?_⟩
  rw [startBlock, show ([p].map Pool.block).max? = some 15000 by rw [List.map_cons, hb]; rfl]
  cases o <;> rfl

/-- The run of `failed_chunk_skipped_for_good` with `exampleAbi` and `pairCreatedLog`,
in the debug build. -/
theorem failed_chunk_skipped_at_block_15000 :
    Pool.tryFrom exampleAbi pairCreatedLog = some (.ok ⟨9, 7, 8, 3000, .uniswapV2, 15000⟩) ∧
      pairCreatedLog.blockNumber = some 15000 ∧
      (getBlockRange .panic 0 20000 chunkSize =
          some [(0, 9999), (10000, 19999), (20000, 20000)] ∧
        flakyLogs pairCreatedLog 0 9999 = .error "request timed out" ∧
        loadPools .panic exampleAbi [] 0 20000 (flakyLogs pairCreatedLog) =
          some [⟨9, 7, 8, 3000, .uniswapV2, 15000⟩] ∧
        startBlock .panic [⟨9, 7, 8, 3000, .uniswapV2, 15000⟩] 0 = some 15001) :=
  ⟨rfl, rfl, failed_chunk_skipped_for_good .panic exampleAbi pairCreatedLog _ rfl rfl⟩

/-- The run of `failed_chunk_skipped_for_good`, in the debug build: the next run
resumes past the failed chunk `[0, 9_999]`, and the chunk after it yields a pool. -/
theorem resume_le_failed_iff_on_flaky_run :
    startBlock .panic [] 0 = some 0 ∧ 0 < 20000 ∧
      getBlockRange .panic 0 20000 chunkSize =
        some [(0, 9999), (10000, 19999), (20000, 20000)] ∧
      (∀ c ∈ [(0, 9999), (10000, 19999), (20000, 20000)], ∀ logs,
        flakyLogs pairCreatedLog c.1 c.2 = .ok logs →
          ∀ log ∈ logs, ∃ b, log.blockNumber = some b ∧ c.1 ≤ b ∧ b ≤ c.2) ∧
      loadPools .panic exampleAbi [] 0 20000 (flakyLogs pairCreatedLog) =
        some [⟨9, 7, 8, 3000, .uniswapV2, 15000⟩] ∧
      startBlock .panic [⟨9, 7, 8, 3000, .uniswapV2, 15000⟩] 0 = some 15001 ∧
      ((∀ c ∈ [(0, 9999), (10000, 19999), (20000, 20000)],
          (∃ e, flakyLogs pairCreatedLog c.1 c.2 = .error e) → 15001 ≤ c.1) ↔
        ∀ c ∈ [(0, 9999), (10000, 19999), (20000, 20000)],
          (∃ e, flakyLogs pairCreatedLog c.1 c.2 = .error e) →
            ∀ c' ∈ [(0, 9999), (10000, 19999), (20000, 20000)], c.1 < c'.1 →
              chunkPools exampleAbi (flakyLogs pairCreatedLog) c' = some []) :=
  have hlogs : ∀ c ∈ [(0, 9999), (10000, 19999), (20000, 20000)], ∀ logs,
      flakyLogs pairCreatedLog c.1 c.2 = .ok logs →
        ∀ log ∈ logs, ∃ b, log.blockNumber = some b ∧ c.1 ≤ b ∧ b ≤ c.2 := by
    intro c hc logs hl log hlog
    simp only [List.mem_cons, List.mem_singleton, List.not_mem_nil, or_false] at hc
    rcases hc with rfl | rfl | rfl <;> simp [flakyLogs] at hl <;> subst hl
    · simp only [List.mem_singleton] at hlog
      subst hlog
      exact ⟨15000, rfl, by decide, by decide⟩
    · cases hlog
  have hs : startBlock .panic [] 0 = some 0 := rfl
  have hP := loadPools_flakyLogs .panic exampleAbi pairCreatedLog _ rfl
  have hr : startBlock .panic [⟨9, 7, 8, 3000, .uniswapV2, 15000⟩] 0 = some 15001 := rfl
  ⟨hs, by decide, getBlockRange_to_20000 _, hlogs, hP, hr,
    resume_le_failed_iff hs (by decide) (getBlockRange_to_20000 _) hlogs hP hr⟩

end MevDesign.MempoolMonitor
