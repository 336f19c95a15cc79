import MevDesign.Proofs.MempoolMonitor.LoadPools

/-!
# `MevDesign.Proofs.MempoolMonitor.Sync`: the pool cache across runs

Each start of the mempool monitor runs `load_pools`, which resumes from the pools the
previous run saved. `LoadPools.lean` shows how a failed `get_logs` loses a chunk for
good. This module shows the other side: when every fetch succeeds, resuming is exact.
However many runs there were, and whatever their heads, the cache holds exactly the
pools created in the blocks from `from_block` up to some block at or past the last
head, in block order, each once (`loadPools_runs_chain_prefix`).

The environment is a `Chain`: the logs of each block, each carrying its block number.
`Chain.getLogs` is `eth_getLogs` against a node that serves the chain and answers
every request, with the filter `get_logs` builds: the logs of the range whose first
topic is one of the events' hashes (`factoryHashes`), in block order. `Chain.pools` is
the reference: the pools parsed from the factory logs of a range of blocks, block by
block, with no chunks and no resume block. What a run saves is what the next one
reads: the `csv` round trip of `save_to_csv` and `load_from_csv` is taken as exact.

One run maps a prefix to a prefix (`loadPools_pools`). The resume block is one past
the last pool, and no block between it and the end of the prefix has a pool
(`startBlock_pools`). When the resume block is below the head, the chunks tile the
rest of the range (`getBlockRange_tiles`), and a chunk's pools are the reference's
pools of the chunk (`chunkPools_getLogs`), so the run appends the reference's pools
up to the head (`Chain.flatten_pools_of_tiles`). When it is not, the run returns the cache
unchanged. This is also where the head block can be left out: a run whose resume block
equals the head does not scan it, and the next run with a later head does.

When the node fails some calls (`Chain.ServesOrFails`), resuming is no longer exact,
but the cache is still never wrong (`loadPools_runs_sublist`): a failed chunk adds no
pool and every other chunk adds the reference's pools of its blocks
(`chunkPools_sublist`), so each run keeps the cache a sublist of the reference's
pools, with a resume block past every cached pool (`startBlock_sublist`).
-/

set_option autoImplicit false

namespace MevDesign.MempoolMonitor

open MevDesign.Shared

open scoped List

/-- The hashes of the events `load_pools` passes to `get_logs`: `PairCreated` and
`PoolCreated`, which `Filter::events` matches against the first topic. -/
def factoryHashes (abi : Abi) : List B256 := [abi.pairCreatedHash, abi.poolCreatedHash]

/-- A chain as `eth_getLogs` reads it: the logs of each block, in order, each carrying
the number of its block. -/
structure Chain where
  logs : Nat → List Log
  blockNumber_eq : ∀ b, ∀ log ∈ logs b, log.blockNumber = some b

namespace Chain

variable (c : Chain)

/-- The logs of block `b` whose first topic is one of `hashes`. -/
def matching (hashes : List B256) (b : Nat) : List Log :=
  (c.logs b).filter fun log => log.inner.data.topics.head?.any hashes.contains

/-- `get_logs(provider, from_block, to_block, None, &events)` on a node that serves
the chain: the logs of the blocks `from_block..=to_block` whose first topic is the hash
of one of the events, in block order. -/
def getLogs (hashes : List B256) (fromBlock toBlock : Nat) : Except String (List Log) :=
  .ok ((List.range' fromBlock (toBlock + 1 - fromBlock)).flatMap (c.matching hashes))

/-- The pools created in the blocks `lo..hi`, in block order: those `Pool::try_from`
parses from each block's factory logs. -/
def pools (abi : Abi) (lo hi : Nat) : List Pool :=
  (List.range' lo (hi - lo)).flatMap fun b =>
    (c.matching (factoryHashes abi) b).filterMap fun log =>
      (Pool.tryFrom abi log).bind Except.toOption

end Chain

/-! ### The reference -/

/-- A log with topics never makes `Pool::try_from` panic. -/
theorem Pool.tryFrom_isSome (abi : Abi) {log : Log} (h : log.inner.data.topics ≠ []) :
    (Pool.tryFrom abi log).isSome := by
  unfold Pool.tryFrom
  split
  · contradiction
  · rfl

theorem Pool.tryFrom_of_bind_eq_some {abi : Abi} {log : Log} {p : Pool}
    (h : (Pool.tryFrom abi log).bind Except.toOption = some p) :
    Pool.tryFrom abi log = some (.ok p) := by
  rcases hr : Pool.tryFrom abi log with _ | _ | p' <;> simp_all [Except.toOption]

namespace Chain

variable (c : Chain) (abi : Abi)

theorem topics_ne_nil_of_mem_matching {hashes : List B256} {b : Nat} {log : Log}
    (h : log ∈ c.matching hashes b) : log.inner.data.topics ≠ [] := by
  intro hnil
  simp [matching, hnil] at h

/-- A pool of `lo..hi` carries a block of `lo..hi`. -/
theorem block_mem_of_mem_pools {lo hi : Nat} {p : Pool} (hp : p ∈ c.pools abi lo hi) :
    lo ≤ p.block ∧ p.block < hi := by
  obtain ⟨b, hb, hp⟩ := List.mem_flatMap.1 hp
  obtain ⟨log, hlog, hlp⟩ := List.mem_filterMap.1 hp
  have hblock : p.block = b := by
    rw [Pool.tryFrom_block (Pool.tryFrom_of_bind_eq_some hlp),
      c.blockNumber_eq b log (List.mem_of_mem_filter hlog)]
    rfl
  rw [List.mem_range'_1] at hb
  omega

theorem pools_append {lo mid hi : Nat} (h₁ : lo ≤ mid) (h₂ : mid ≤ hi) :
    c.pools abi lo mid ++ c.pools abi mid hi = c.pools abi lo hi := by
  unfold pools
  rw [← List.flatMap_append]
  have := List.range'_append_1 lo (mid - lo) (hi - mid)
  rw [Nat.add_sub_cancel' h₁, show hi - mid + (mid - lo) = hi - lo by omega] at this
  rw [this]

/-! ### One run -/

/-- With overflow checks on, a cache that is a sublist of the reference's pools of
`lo..k` resumes one block past its last pool, and it is a sublist of the reference's
pools up to that block. -/
theorem startBlock_sublist {P : List Pool} {lo k : Nat} (hP : P <+ c.pools abi lo k)
    (hlo : lo ≤ k) (hk : k ≤ u64Max) :
    ∃ r, startBlock .panic P lo = some r ∧ lo ≤ r ∧ r ≤ k ∧ P <+ c.pools abi lo r := by
  unfold startBlock
  split
  · rename_i hm
    simp only [List.max?_eq_none_iff, List.map_eq_nil_iff] at hm
    exact ⟨lo, rfl, le_rfl, hlo, by simp [hm]⟩
  · rename_i m hm
    obtain ⟨hmem, hmax⟩ := List.max?_eq_some_iff'.1 hm
    obtain ⟨p, hp, rfl⟩ := List.mem_map.1 hmem
    have hb := c.block_mem_of_mem_pools abi (hP.subset hp)
    refine ⟨p.block + 1, by rw [addU64, if_pos (by omega)], by omega, by omega, ?_⟩
    rw [← c.pools_append abi (show lo ≤ p.block + 1 by omega) (show p.block + 1 ≤ k by omega)]
      at hP
    -- the pools past the resume block are past every cached pool
    refine List.Sublist.of_sublist_append_left (fun q hq hq' => ?_) hP
    have := (c.block_mem_of_mem_pools abi hq').1
    have := hmax _ (List.mem_map_of_mem _ hq)
    omega

/-- With overflow checks on, a cache that is the reference's pools of `lo..k` resumes
one block past its last pool, at `lo` when it is empty, and it is also the
reference's pools up to that block. -/
theorem startBlock_pools {lo k : Nat} (hlo : lo ≤ k) (hk : k ≤ u64Max) :
    ∃ r, startBlock .panic (c.pools abi lo k) lo = some r ∧ lo ≤ r ∧ r ≤ k ∧
      c.pools abi lo k = c.pools abi lo r := by
  obtain ⟨r, hs, hlr, hrk, hsub⟩ := c.startBlock_sublist abi (List.Sublist.refl _) hlo hk
  refine ⟨r, hs, hlr, hrk, hsub.antisymm ?_⟩
  rw [← c.pools_append abi hlr hrk]
  exact List.sublist_append_left _ _

/-- Where `Pool::try_from` cannot panic, the new pools are the ones it parses. -/
theorem newPools_eq_some :
    ∀ {logs : List Log}, (∀ log ∈ logs, log.inner.data.topics ≠ []) → newPools abi logs =
      some (logs.filterMap fun log => (Pool.tryFrom abi log).bind Except.toOption)
  | [], _ => by rw [newPools, List.mapM_nil]; rfl
  | log :: logs, h => by
    obtain ⟨rs, hrs, hf⟩ := Option.map_eq_some'.1
      (newPools_eq_some fun l hl => h l (List.mem_cons_of_mem _ hl))
    obtain ⟨r, hr⟩ := Option.isSome_iff_exists.1
      (Pool.tryFrom_isSome abi (h log (List.mem_cons_self _ _)))
    rw [newPools, List.mapM_cons, hr, hrs, List.filterMap_cons, hr]
    cases r <;> simp only [Option.bind_eq_bind, Option.some_bind, Option.map_some',
      List.filterMap_cons, pure, Except.toOption, hf]

/-- A chunk's pools are the reference's pools of its blocks. -/
theorem chunkPools_getLogs (ch : Nat × Nat) :
    chunkPools abi (c.getLogs (factoryHashes abi)) ch = some (c.pools abi ch.1 (ch.2 + 1)) := by
  simp only [chunkPools, getLogs]
  rw [newPools_eq_some abi fun log hlog => by
    obtain ⟨b, -, hb⟩ := List.mem_flatMap.1 hlog
    exact c.topics_ne_nil_of_mem_matching hb]
  rw [List.filterMap_flatMap]
  rfl

/-- The chunks of a tiling of `s..=toBlock` together hold the reference's pools of
`s..=toBlock`. -/
theorem flatten_pools_of_tiles {toBlock chunk s : Nat} {rs : List (Nat × Nat)}
    (ht : Tiles toBlock chunk s rs) :
    (rs.map fun ch => c.pools abi ch.1 (ch.2 + 1)).flatten = c.pools abi s (toBlock + 1) := by
  induction ht with
  | last => simp
  | cons hse het _ _ ih =>
    rw [List.map_cons, List.flatten_cons, ih]
    exact c.pools_append abi (by omega) (by omega)

end Chain

theorem mapM_eq_some_map {α β : Type} {f : α → Option β} {g : α → β} :
    ∀ {l : List α}, (∀ a ∈ l, f a = some (g a)) → l.mapM f = some (l.map g)
  | [], _ => by rw [List.mapM_nil]; rfl
  | a :: l, h => by
    rw [List.mapM_cons, h a (List.mem_cons_self _ _),
      mapM_eq_some_map fun x hx => h x (List.mem_cons_of_mem _ hx)]
    rfl

theorem le_of_mem_stepBy {x start toBlock step : Nat} :
    x ∈ stepBy start toBlock step → x ≤ toBlock := by
  induction start, toBlock, step using stepBy.induct with
  | case1 start toBlock step h ih =>
    rw [stepBy, dif_pos h]
    intro hx
    rcases List.mem_cons.1 hx with rfl | hx
    · exact h.1
    · exact ih hx
  | case2 start toBlock step h => rw [stepBy, dif_neg h]; exact nofun

/-- With overflow checks on, `get_block_range` returns on a range whose end plus
`CHUNK_SIZE` stays in `u64`. -/
theorem getBlockRange_isSome (start : Nat) {toBlock : Nat} (h : toBlock + chunkSize ≤ u64Max) :
    (getBlockRange .panic start toBlock chunkSize).isSome := by
  rw [getBlockRange, if_neg (by decide), mapM_chunkOf_panic (by decide),
    if_pos fun x hx => by have := le_of_mem_stepBy hx; omega]
  rfl

namespace Chain

variable (c : Chain) (abi : Abi)

/-- One run with every fetch answered: a cache that is the reference's pools of
`lo..k` becomes the reference's pools of `lo..k'`, for some `k'` at or past the head
`e`. -/
theorem loadPools_pools {lo k e : Nat} (hlo : lo ≤ k) (hk : k ≤ u64Max)
    (he : e + chunkSize ≤ u64Max) :
    ∃ k', loadPools .panic abi (c.pools abi lo k) lo e (c.getLogs (factoryHashes abi)) =
        some (c.pools abi lo k') ∧ lo ≤ k' ∧ e ≤ k' ∧ k' ≤ max k (e + 1) := by
  obtain ⟨r, hs, hlr, hrk, hpr⟩ := c.startBlock_pools abi hlo hk
  by_cases her : e ≤ r
  · -- nothing to scan: the cache comes back as it was
    refine ⟨r, ?_, hlr, her, by omega⟩
    simp only [loadPools, hs, Option.bind_eq_bind, Option.some_bind, if_pos her]
    exact congrArg some hpr
  · -- the chunks tile `r..=e`, and each adds the reference's pools of its blocks
    have hlt : r < e := Nat.lt_of_not_le her
    obtain ⟨rs, hrs⟩ := Option.isSome_iff_exists.1 (getBlockRange_isSome r he)
    refine ⟨e + 1, ?_, by omega, by omega, by omega⟩
    rw [loadPools_of_lt hs hlt, hrs, Option.some_bind, foldlM_scanChunk,
      mapM_eq_some_map fun ch _ => c.chunkPools_getLogs abi ch, Option.map_some',
      c.flatten_pools_of_tiles abi (getBlockRange_tiles hlt.le hrs), hpr,
      c.pools_append abi hlr (by omega)]

/-- Runs with every fetch answered, from the empty cache, at the heads `heads` in
turn: the cache stays the reference's pools of `from_block..k` for some `k ≤ u64::MAX`
at or past the last head. -/
theorem loadPools_foldlM (fromBlock : Nat) (hfrom : fromBlock ≤ u64Max) :
    ∀ heads : List Nat, (∀ e ∈ heads, e + chunkSize ≤ u64Max) →
      ∃ k, heads.foldlM (fun pools e =>
          loadPools .panic abi pools fromBlock e (c.getLogs (factoryHashes abi))) [] =
        some (c.pools abi fromBlock k) ∧
        fromBlock ≤ k ∧ k ≤ u64Max ∧ ∀ e ∈ heads.getLast?, e ≤ k := by
  intro heads
  induction heads using List.reverseRecOn with
  | nil => exact fun _ => ⟨fromBlock, by simp [pools], le_rfl, hfrom, nofun⟩
  | append_singleton heads e ih =>
    intro hheads
    obtain ⟨k, hk, hlo, hku, -⟩ := ih fun e' he' => hheads e' (List.mem_append_left _ he')
    have he := hheads e (List.mem_append_right _ (List.mem_singleton_self _))
    obtain ⟨k', hk', hlo', hek', hkk'⟩ := c.loadPools_pools abi hlo hku he
    refine ⟨k', ?_, hlo', by unfold chunkSize at he; omega, ?_⟩
    · simp only [List.foldlM_append, hk, List.foldlM_cons, hk', List.foldlM_nil,
        Option.bind_eq_bind, Option.some_bind]
      rfl
    · rw [List.getLast?_concat]
      rintro _ ⟨⟩
      exact hek'

end Chain

/-- Resuming is exact when every fetch succeeds. Take a chain served by a node that
answers every `get_logs`, and runs of `load_pools` with overflow checks on, the first
from an empty cache and each from the pools the one before returned, at heads
`heads` in turn, each at most `u64::MAX - CHUNK_SIZE`. The cache is then exactly the
pools created in the blocks from `from_block` up to some block `k` at or past the last
head, in block order, as `Pool::try_from` parses them from the factory logs: no pool
below the last head is missing, none is duplicated, none lies outside those blocks. -/
theorem loadPools_runs_chain_prefix (abi : Abi) (c : Chain) (fromBlock : Nat)
    (hfrom : fromBlock ≤ u64Max) (heads : List Nat)
    (hheads : ∀ e ∈ heads, e + chunkSize ≤ u64Max) :
    ∃ k, heads.foldlM (fun pools e =>
        loadPools .panic abi pools fromBlock e (c.getLogs (factoryHashes abi))) [] =
      some (c.pools abi fromBlock k) ∧ fromBlock ≤ k ∧ ∀ e ∈ heads.getLast?, e ≤ k := by
  obtain ⟨k, hk, hlo, -, hlast⟩ := c.loadPools_foldlM abi fromBlock hfrom heads hheads
  exact ⟨k, hk, hlo, hlast⟩

/-- A chain whose only log is `pairCreatedLog`, at block `15_000`. -/
def pairCreatedChain : Chain where
  logs b := if b = 15000 then [pairCreatedLog] else []
  blockNumber_eq b log h := by
    by_cases hb : b = 15000
    · subst hb
      simp only [if_pos, List.mem_singleton] at h
      subst h; rfl
    · simp [hb] at h

/-- Three runs from block `0`, at the heads `10_000`, `20_000` and `20_000`. -/
theorem three_runs_chain_prefix :
    (0 : Nat) ≤ u64Max ∧ (∀ e ∈ [10000, 20000, 20000], e + chunkSize ≤ u64Max) ∧
      ∃ k, [10000, 20000, 20000].foldlM (fun pools e => loadPools .panic exampleAbi pools 0 e
          (pairCreatedChain.getLogs (factoryHashes exampleAbi))) [] =
        some (pairCreatedChain.pools exampleAbi 0 k) ∧ 0 ≤ k ∧
        ∀ e ∈ [10000, 20000, 20000].getLast?, e ≤ k :=
  ⟨by decide, by decide,
    loadPools_runs_chain_prefix exampleAbi pairCreatedChain 0 (by decide) _ (by decide)⟩

/-! ### Runs on a node that may fail -/

namespace Chain

variable (c : Chain) (abi : Abi)

/-- A node that serves the chain or fails: each `get_logs` call answers as the chain
does, or returns an error. -/
def ServesOrFails (getLogs : Nat → Nat → Except String (List Log)) : Prop :=
  ∀ a b, getLogs a b = c.getLogs (factoryHashes abi) a b ∨ ∃ e, getLogs a b = .error e

variable {c abi}
variable {getLogs : Nat → Nat → Except String (List Log)}

/-- A chunk adds a sublist of the reference's pools of its blocks: all of them, or
none when its fetch fails. -/
theorem chunkPools_sublist (hg : c.ServesOrFails abi getLogs) (ch : Nat × Nat) :
    ∃ ps, chunkPools abi getLogs ch = some ps ∧ ps <+ c.pools abi ch.1 (ch.2 + 1) := by
  rcases hg ch.1 ch.2 with h | ⟨e, h⟩
  · refine ⟨_, ?_, List.Sublist.refl _⟩
    rw [← c.chunkPools_getLogs abi ch]
    simp only [chunkPools, h]
  · exact ⟨[], by simp [chunkPools, h], List.nil_sublist _⟩

theorem mapM_chunkPools_sublist (hg : c.ServesOrFails abi getLogs) :
    ∀ chunks : List (Nat × Nat), ∃ pss, chunks.mapM (chunkPools abi getLogs) = some pss ∧
      pss.flatten <+ (chunks.map fun ch => c.pools abi ch.1 (ch.2 + 1)).flatten
  | [] => ⟨[], by rw [List.mapM_nil]; rfl, by simp⟩
  | ch :: chunks => by
    obtain ⟨ps, hps, hsub⟩ := chunkPools_sublist hg ch
    obtain ⟨pss, hpss, hsubs⟩ := mapM_chunkPools_sublist hg chunks
    refine ⟨ps :: pss, by rw [List.mapM_cons, hps, hpss]; rfl, ?_⟩
    simpa using hsub.append hsubs

/-- One run on a node that may fail: a cache that is a sublist of the reference's
pools of `lo..k` becomes a sublist of the reference's pools of `lo..k'`, for some `k'`
at most one past the larger of `k` and the head. -/
theorem loadPools_sublist (hg : c.ServesOrFails abi getLogs) {P : List Pool} {lo k e : Nat}
    (hP : P <+ c.pools abi lo k) (hlo : lo ≤ k) (hk : k ≤ u64Max)
    (he : e + chunkSize ≤ u64Max) :
    ∃ P' k', loadPools .panic abi P lo e getLogs = some P' ∧ P' <+ c.pools abi lo k' ∧
      lo ≤ k' ∧ k' ≤ max k (e + 1) := by
  obtain ⟨r, hs, hlr, hrk, hPr⟩ := c.startBlock_sublist abi hP hlo hk
  by_cases her : e ≤ r
  · -- nothing to scan: the cache comes back as it was
    refine ⟨P, r, ?_, hPr, hlr, by omega⟩
    simp [loadPools, hs, her]
  · -- the chunks tile `r..=e`, and each adds a sublist of the reference's pools
    have hlt : r < e := Nat.lt_of_not_le her
    obtain ⟨rs, hrs⟩ := Option.isSome_iff_exists.1 (getBlockRange_isSome r he)
    obtain ⟨pss, hpss, hsub⟩ := mapM_chunkPools_sublist hg rs
    refine ⟨P ++ pss.flatten, e + 1, ?_, ?_, by omega, by omega⟩
    · rw [loadPools_of_lt hs hlt, hrs, Option.some_bind, foldlM_scanChunk, hpss]
      rfl
    · rw [← c.pools_append abi hlr (by omega),
        ← c.flatten_pools_of_tiles abi (getBlockRange_tiles hlt.le hrs)]
      exact hPr.append hsub

variable (c abi)

/-- Runs from the empty cache, each on a node that may fail and at a head at most `H`:
the cache stays a sublist of the reference's pools of `lo..k` for some `k` at most one
past the larger of `lo` and `H`. -/
theorem loadPools_foldlM_sublist {lo H : Nat} (hlo : lo ≤ u64Max)
    (hH : H + chunkSize ≤ u64Max) :
    ∀ runs : List (Nat × (Nat → Nat → Except String (List Log))),
      (∀ run ∈ runs, run.1 ≤ H ∧ c.ServesOrFails abi run.2) →
      ∃ P k, runs.foldlM (fun pools run => loadPools .panic abi pools lo run.1 run.2) [] =
        some P ∧ P <+ c.pools abi lo k ∧ lo ≤ k ∧ k ≤ max lo (H + 1) := by
  intro runs
  induction runs using List.reverseRecOn with
  | nil => exact fun _ => ⟨[], lo, rfl, List.nil_sublist _, le_rfl, le_max_left _ _⟩
  | append_singleton runs run ih =>
    intro hruns
    obtain ⟨P, k, hP, hsub, hlok, hkH⟩ :=
      ih fun run' h' => hruns run' (List.mem_append_left _ h')
    obtain ⟨hrH, hg⟩ := hruns run (List.mem_append_right _ (List.mem_singleton_self _))
    have hku : k ≤ u64Max := by unfold chunkSize at hH; omega
    obtain ⟨P', k', hP', hsub', hlo', hk'⟩ :=
      loadPools_sublist (e := run.1) hg hsub hlok hku (by unfold chunkSize at hH ⊢; omega)
    refine ⟨P', k', ?_, hsub', hlo', by omega⟩
    simp only [List.foldlM_append, hP, List.foldlM_cons, hP', List.foldlM_nil,
      Option.bind_eq_bind, Option.some_bind]
    rfl

end Chain

/-- Whatever fails, the cache is never wrong. Take a chain and runs of `load_pools`
with overflow checks on, the first from an empty cache and each from the pools the
one before returned, each against a node that answers every `get_logs` call as the
chain does or with an error, at heads at most `H ≤ u64::MAX - CHUNK_SIZE`. Every run
returns, and the cache is a sublist of the pools created in the blocks `from_block..=H`
in block order, as `Pool::try_from` parses them from the factory logs: a failed chunk
can leave pools out, but no pool is invented, duplicated, out of order or from past
the heads. -/
theorem loadPools_runs_sublist (abi : Abi) (c : Chain) (fromBlock H : Nat)
    (hfrom : fromBlock ≤ u64Max) (hH : H + chunkSize ≤ u64Max)
    (runs : List (Nat × (Nat → Nat → Except String (List Log))))
    (hruns : ∀ run ∈ runs, run.1 ≤ H ∧ c.ServesOrFails abi run.2) :
    ∃ P, runs.foldlM (fun pools run => loadPools .panic abi pools fromBlock run.1 run.2) [] =
      some P ∧ P <+ c.pools abi fromBlock (max fromBlock (H + 1)) := by
  obtain ⟨P, k, hP, hsub, hlo, hk⟩ := c.loadPools_foldlM_sublist abi hfrom hH runs hruns
  refine ⟨P, hP, hsub.trans ?_⟩
  rw [← c.pools_append abi hlo hk]
  exact List.sublist_append_left _ _

/-- A node that fails the chunk from block `10_000` and serves `pairCreatedChain`
otherwise. -/
def flakyPairCreatedLogs (a b : Nat) : Except String (List Log) :=
  if a = 10000 then .error "timeout" else pairCreatedChain.getLogs (factoryHashes exampleAbi) a b

/-- Two runs at head `20_000`: the first against the flaky node, the second against
one that answers every call. -/
theorem flaky_then_served_runs_sublist :
    (0 : Nat) ≤ u64Max ∧ 20000 + chunkSize ≤ u64Max ∧
      (∀ run ∈ [(20000, flakyPairCreatedLogs),
          (20000, pairCreatedChain.getLogs (factoryHashes exampleAbi))],
        run.1 ≤ 20000 ∧ pairCreatedChain.ServesOrFails exampleAbi run.2) ∧
      ∃ P, [(20000, flakyPairCreatedLogs),
          (20000, pairCreatedChain.getLogs (factoryHashes exampleAbi))].foldlM
          (fun pools run => loadPools .panic exampleAbi pools 0 run.1 run.2) [] = some P ∧
        P <+ pairCreatedChain.pools exampleAbi 0 (max 0 (20000 + 1)) :=
  have hruns : ∀ run ∈ [(20000, flakyPairCreatedLogs),
      (20000, pairCreatedChain.getLogs (factoryHashes exampleAbi))],
      run.1 ≤ 20000 ∧ pairCreatedChain.ServesOrFails exampleAbi run.2 := by
    simp only [List.mem_cons, List.mem_singleton, List.not_mem_nil, or_false]
    rintro _ (rfl | rfl)
    · refine ⟨le_rfl, fun a b => ?_⟩
      by_cases ha : a = 10000 <;> simp [flakyPairCreatedLogs, ha]
    · exact ⟨le_rfl, fun _ _ => .inl rfl⟩
  ⟨by decide, by decide, hruns,
    loadPools_runs_sublist exampleAbi pairCreatedChain 0 20000 (by decide) (by decide) _ hruns⟩

end MevDesign.MempoolMonitor
