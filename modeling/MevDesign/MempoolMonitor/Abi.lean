import Mathlib.Algebra.Group.Nat.Basic
import Mathlib.Data.List.Basic

/-!
# `MevDesign.MempoolMonitor.Abi`: event logs and the `simulator::abi` items the monitor uses

The mempool monitor reads event logs in two places. `Pool::try_from`
(`bins/mempool-monitor/src/pool.rs`) turns a factory's `PairCreated` or `PoolCreated`
log into a `Pool`, and `main` decodes the logs of a call trace. Both compare a log's
first topic with an event's `SIGNATURE_HASH` and then call the event's
`decode_log(&log, false)`.

The events are declared with `sol!` in `crates/simulator/src/abi.rs`; the hashes and
the decoders are what `alloy` generates from them. A hash is the keccak-256 of the
event's signature, and a decoder is `alloy`'s ABI decoder, neither of them in this
repository, so they enter the model as the fields of `Abi`. A decoded event keeps only
the fields `Pool::try_from` reads.

Addresses and 32-byte words are `Nat`s: the monitor only compares and copies them.
-/

set_option autoImplicit false

namespace MevDesign.MempoolMonitor

/-- An account address. -/
abbrev Address := Nat

/-- A 32-byte word: a topic or a signature hash. -/
abbrev B256 := Nat

/-- `Display` of a `B256`: `0x` and the word's 64 lowercase hex digits. -/
def B256.toHex (h : B256) : String :=
  let digits := Nat.toDigits 16 (h % 2 ^ 256)
  "0x" ++ String.mk (List.replicate (64 - digits.length) '0' ++ digits)

example : B256.toHex 0xff = "0x" ++ String.mk (List.replicate 62 '0') ++ "ff" := by decide

/-- A byte string (`alloy_primitives::Bytes`). -/
abbrev Bytes := List UInt8

/-- `alloy_primitives::LogData`: the topics and the data of a log. -/
structure LogData where
  topics : List B256
  data : Bytes
  deriving DecidableEq, Repr

/-- `LogData::new`: `None` for more than four topics, the most a `LOG` opcode emits. -/
def LogData.new (topics : List B256) (data : Bytes) : Option LogData :=
  if topics.length ≤ 4 then some ⟨topics, data⟩ else none

namespace Primitives

/-- `alloy_primitives::Log`: the emitting address and the log's data. -/
structure Log where
  address : Address
  data : LogData
  deriving DecidableEq, Repr

end Primitives

/-- `alloy::rpc::types::Log`, as `eth_getLogs` returns it: the log and the number of its
block. The block hash, the transaction and the log's index are left out. -/
structure Log where
  inner : Primitives.Log
  blockNumber : Option Nat
  deriving DecidableEq, Repr

/-- `IUniswapV2Factory::PairCreated(address indexed token0, address indexed token1,
address pair, uint)`, decoded. -/
structure PairCreated where
  token0 : Address
  token1 : Address
  pair : Address
  deriving DecidableEq, Repr

/-- `IUniswapV3Factory::PoolCreated(address indexed token0, address indexed token1,
uint24 indexed fee, int24 tickSpacing, address pool)`, decoded. The fee is a `uint24`. -/
structure PoolCreated where
  token0 : Address
  token1 : Address
  fee : Fin (2 ^ 24)
  pool : Address
  deriving DecidableEq, Repr

/-- What `sol!` and `alloy` generate for the events the monitor matches: each event's
`SIGNATURE_HASH`, and `decode_log(&log, false)` for the two factory events, whose
results `Pool::try_from` reads. The results of the other decoders are only logged. -/
structure Abi where
  /-- `IUniswapV2Factory::PairCreated::SIGNATURE_HASH`. -/
  pairCreatedHash : B256
  /-- `IUniswapV3Factory::PoolCreated::SIGNATURE_HASH`. -/
  poolCreatedHash : B256
  /-- `IERC20::Transfer::SIGNATURE_HASH`. -/
  transferHash : B256
  /-- `CrocSwapDex::CrocSwap::SIGNATURE_HASH`. -/
  crocSwapHash : B256
  /-- `IUniswapV2Pair::Swap::SIGNATURE_HASH`. -/
  v2SwapHash : B256
  /-- `IUniswapV3Pool::Swap::SIGNATURE_HASH`. -/
  v3SwapHash : B256
  /-- `IUniswapV2Factory::PairCreated::decode_log(&log, false)`. -/
  decodePairCreated : Primitives.Log → Except String PairCreated
  /-- `IUniswapV3Factory::PoolCreated::decode_log(&log, false)`. -/
  decodePoolCreated : Primitives.Log → Except String PoolCreated

end MevDesign.MempoolMonitor
