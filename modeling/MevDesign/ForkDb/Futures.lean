import MevDesign.ForkDb.Handler

/-!
# `MevDesign.ForkDb.Futures`: what the provider futures compute

The futures that `get_account_req`, `request_account_storage`, `request_hash`,
`request_full_block` and `request_transaction` push are `async` blocks. `Handler.lean`
keeps only what they captured; a run (`Run.lean`) lets a future return anything its
`Output` admits. This module gives their bodies, as functions of the answers of the
provider calls they make:

* the remote futures ask a `RemoteProvider`, one snapshot of what the JSON-RPC
  provider answers to each call;
* the local futures ask the `StateProvider` of the archive at the pinned block,
  which `history_by_block_number` opened when the future was built.

`ProviderRequest.Resolves factory p r o` says that `o` is what the body of `r`
computes against `p` and the archive `factory`. A statement that needs the provider
to behave in some way constrains the `poll` events of a run through it.

`tokio::try_join!` polls the three account calls together and returns the first
error to arrive; `RemoteProvider.account` reports them in argument order, one of the
orders the scheduler may produce.
-/

set_option autoImplicit false

namespace MevDesign.ForkDb

/-- One snapshot of the remote provider: its answer to each call the futures make. -/
structure RemoteProvider where
  getBalance : Address → BlockId → Except Report U256
  getTransactionCount : Address → BlockId → Except Report Nat
  getCodeAt : Address → BlockId → Except Report Bytes
  getStorageAt : Address → U256 → BlockId → Except Report U256
  getBlockByNumber : Nat → Except Report (Option AnyRpcBlock)
  getBlock : BlockId → Except Report (Option AnyRpcBlock)
  getTransactionByHash : B256 → Except Report (Option AnyRpcTransaction)

/-- `{}` of a `B256`: `0x` and 64 lowercase hex digits. -/
def B256.toHex (h : B256) : String :=
  let digits := Nat.toDigits 16 (h % 2 ^ 256)
  "0x" ++ String.mk (List.replicate (64 - digits.length) '0' ++ digits)

namespace RemoteProvider

variable (p : RemoteProvider)

/-- The remote account future of `get_account_req`: balance, nonce and code at
`block_id`, joined by `tokio::try_join!`. -/
def account (address : Address) (blockId : BlockId) : Except Report (U256 × Nat × Bytes) := do
  let balance ← p.getBalance address blockId
  let nonce ← p.getTransactionCount address blockId
  let code ← p.getCodeAt address blockId
  pure (balance, nonce, code)

/-- The remote storage future of `request_account_storage`. -/
def storage (address : Address) (idx : U256) (blockId : BlockId) : Except Report U256 :=
  p.getStorageAt address idx blockId

/-- The future of `request_hash`: the block's header hash, `KECCAK_EMPTY` when the
provider has no such block. -/
def blockHash (number : Nat) : Except Report B256 :=
  match p.getBlockByNumber number with
  | .ok (some block) => .ok block.header.hash
  | .ok none => .ok KECCAK_EMPTY
  | .error err => .error (.wrap "failed to get block" err)

/-- The future of `request_full_block`. `wrap_err` is given a plain string, so its
text keeps the braces of `\x7bnumber:?\x7d` as they are. -/
def fullBlock (number : BlockId) : Except Report (Option AnyRpcBlock) :=
  match p.getBlock number with
  | .ok block => .ok block
  | .error err => .error (.wrap "could not fetch block \x7bnumber:?\x7d" err)

/-- The future of `request_transaction`: a missing transaction is an error too. -/
def transaction (tx : B256) : Except Report AnyRpcTransaction :=
  match p.getTransactionByHash tx with
  | .ok (some t) => .ok t
  | .ok none => .error (.msg ("could not get transaction " ++ B256.toHex tx))
  | .error err => .error (.wrap ("could not get transaction " ++ B256.toHex tx) err)

end RemoteProvider

/-- The bytes `get_account_req` takes out of the archive's bytecode: `match c.0`. -/
def codeBytes : Bytecode → Bytes
  | .legacyRaw bytes => bytes
  | .legacyAnalyzed analyzed => analyzed.bytecode
  | .eof eof => eof.raw
  | .eip7702 eip7702 => eip7702.raw

/-- The local account future of `get_account_req`: an absent balance or nonce is `0`,
absent code is `RethBytecode::new_raw` of no bytes, raw legacy code. -/
def localAccount (sp : StateProvider) (address : Address) :
    Except Report (U256 × Nat × Bytes) := do
  let balance ← (sp.accountBalance address).map (·.getD 0)
  let nonce ← (sp.accountNonce address).map (·.getD 0)
  let code ← (sp.accountCode address).map fun c => codeBytes (c.getD (.legacyRaw []))
  pure (balance, nonce, code)

/-- `new_raw` of no bytes, which the local future falls back to, is raw legacy code. -/
example : Bytecode.newRaw [] = some (.legacyRaw []) := rfl

/-- The local storage future of `request_account_storage`: an absent slot is `0`. -/
def localStorage (sp : StateProvider) (address : Address) (idx : U256) : Except Report U256 :=
  (sp.storage address idx).map (·.getD 0)

/-- The state provider a local future captured: the archive's state at block
`blockNumber`, which the handler opened when it built the future. -/
def archiveAt (fileDbFactory : Option DBFactory) (blockNumber : Nat) : Option StateProvider :=
  fileDbFactory.bind fun factory => (factory.historyByBlockNumber blockNumber).toOption

/-- `o` is what the body of `r` computes against the remote snapshot `p` and the
archive `fileDbFactory`. An `AnyRequest` future is the caller's: any result. -/
def ProviderRequest.Resolves (fileDbFactory : Option DBFactory) (p : RemoteProvider) :
    (r : ProviderRequest) → r.Output → Prop
  | .account address (.local n), o =>
    ∃ sp, archiveAt fileDbFactory n = some sp ∧ o = localAccount sp address
  | .account address (.remote blockId), o => o = p.account address blockId
  | .storage address idx (.local n), o =>
    ∃ sp, archiveAt fileDbFactory n = some sp ∧ o = localStorage sp address idx
  | .storage address idx (.remote blockId), o => o = p.storage address idx blockId
  | .blockHash number, o => o = p.blockHash number
  | .fullBlock number _, o => o = p.fullBlock number
  | .transaction tx _, o => o = p.transaction tx
  | .anyRequest _, _ => True

end MevDesign.ForkDb
