import MevDesign.MempoolMonitor.Abi
import MevDesign.Shared.Utils

/-!
# `MevDesign.MempoolMonitor.LoadPools`: `Pool::try_from` and `load_pools`

`load_pools` (`bins/mempool-monitor/src/utils.rs:39-114`) brings the cached list of
Uniswap pools up to the chain head. It resumes one block past the highest cached
pool, or at `from_block` when the cache is empty, and returns the cached pools at
once when that is not below the head. Otherwise it walks the range in chunks of
`CHUNK_SIZE` blocks (`get_block_range`), fetches each chunk's factory logs with
`get_logs`, and appends the pools that `Pool::try_from`
(`bins/mempool-monitor/src/pool.rs:25-57`) parses from them. A chunk whose fetch fails
is logged and skipped (`continue`).

The model takes the I/O as arguments. `pools` is what `load_from_csv` read from
`cache/pools.csv` (empty when there is no file), `endBlock` is what
`get_block_number` returned, and `getLogs s e` is the outcome of `get_logs` for the
chunk `(s, e)`. An error before the loop ends the call with `Err` and no pools, so
it is not modelled; a failed `save_to_csv` is only logged. A panic is `none`, and
the `u64` arithmetic follows the build (`Overflow`).
-/

set_option autoImplicit false

namespace MevDesign.MempoolMonitor

open MevDesign.Shared

/-- `pool::Venue`. -/
inductive Venue where
  | uniswapV2
  | uniswapV3
  deriving DecidableEq, Repr

/-- `pool::Pool`: a pool, its tokens and fee, and the block of its creation log. -/
structure Pool where
  id : Address
  token0 : Address
  token1 : Address
  fee : Nat
  venue : Venue
  block : Nat
  deriving DecidableEq, Repr

/-- `Pool::try_from(&Log)`. The first topic selects the event; a decoder's error and an
unknown signature are errors. `none` is the panic of `topics()[0]` on a log without
topics. `try_into` of the `uint24` fee into a `u64` cannot fail. -/
def Pool.tryFrom (abi : Abi) (log : Log) : Option (Except String Pool) :=
  match log.inner.data.topics with
  | [] => none
  | topic :: _ => some <|
    if topic = abi.pairCreatedHash then do
      let pairLog ← abi.decodePairCreated log.inner
      pure { id := pairLog.pair, token0 := pairLog.token0, token1 := pairLog.token1,
             fee := 3000, venue := .uniswapV2, block := log.blockNumber.getD 0 }
    else if topic = abi.poolCreatedHash then do
      let poolLog ← abi.decodePoolCreated log.inner
      pure { id := poolLog.pool, token0 := poolLog.token0, token1 := poolLog.token1,
             fee := poolLog.fee.val, venue := .uniswapV3, block := log.blockNumber.getD 0 }
    else throw ("Unknown event signature: " ++ B256.toHex topic)

/-- `CHUNK_SIZE`. -/
def chunkSize : Nat := 10000

/-- `start_block`: one past the highest block of the pools, or `from_block` when there
are none. `block + 1` is `u64` arithmetic. -/
def startBlock (o : Overflow) (pools : List Pool) (fromBlock : Nat) : Option Nat :=
  match (pools.map Pool.block).max? with
  | none => some fromBlock
  | some block => addU64 o block 1

/-- `new_pools`: the pools that `filter_map(|log| Pool::try_from(log).ok())` keeps, in
log order; `none` where a `try_from` panics. -/
def newPools (abi : Abi) (logs : List Log) : Option (List Pool) :=
  (logs.mapM (Pool.tryFrom abi)).map (List.filterMap Except.toOption)

/-- One pass of the chunk loop: on `Ok(logs)` the new pools are appended (`extend`;
the `is_empty` test only guards a log line), on `Err` the chunk is skipped. -/
def scanChunk (abi : Abi) (getLogs : Nat → Nat → Except String (List Log))
    (pools : List Pool) (chunk : Nat × Nat) : Option (List Pool) :=
  match getLogs chunk.1 chunk.2 with
  | .ok logs => (newPools abi logs).map (pools ++ ·)
  | .error _ => some pools

/-- `load_pools`, from the cached `pools` and the head `endBlock`: the pools it returns,
`none` for a panic. -/
def loadPools (o : Overflow) (abi : Abi) (pools : List Pool) (fromBlock endBlock : Nat)
    (getLogs : Nat → Nat → Except String (List Log)) : Option (List Pool) := do
  let start ← startBlock o pools fromBlock
  if endBlock ≤ start then return pools
  (← getBlockRange o start endBlock chunkSize).foldlM (scanChunk abi getLogs) pools

end MevDesign.MempoolMonitor
