import MevDesign.ForkDb.Types

/-!
# `MevDesign.ForkDb.Handler`: `BackendHandler`, command by command

The handler of `crates/evm-fork-db/src/backend.rs` as a record and the functions that
change it:

* `BackendHandler.onRequest` is `on_request` with its helpers `request_account`,
  `get_account_req`, `request_account_storage`, `request_hash`, `request_full_block`
  and `request_transaction`. It returns `none` where the source panics: the
  `self.block_id.unwrap().as_u64().unwrap()` on the archive path.
* `BackendHandler.onReady` is the branch of the `pending_requests` loop of `poll` for a
  future that returned `Poll::Ready`: write the cache, drain the listener entry, reply.
  It returns `none` where the source panics: `Bytecode::new_raw` on fetched code that
  its decoder rejects (`ForkDb/Types.lean`).
* `BackendHandler.visit` is one turn of that loop: `swap_remove(n)`, then either
  `onReady` or the push back of a future that returned `Poll::Pending`.

The record adds one field to the source's struct: `sent`, the messages written into
reply channels, in order. It is what a client observes; the handler never reads it.
The provider, the transport marker and the `incoming` receiver are left out: the
provider's answers are the outputs of the futures (`ProviderRequest.Output`), and what
`incoming` yields is the input of `poll` (`ForkDb/Poll.lean`).

The bulk updates walk their payload map with `insertAll`, the source's
`for (k, v) in data { map.insert(k, v) }`.
-/

set_option autoImplicit false

namespace MevDesign.ForkDb

/-- `for (key, value) in data { map.insert(key, value) }`. -/
def insertAll {K V : Type} [DecidableEq K] (map data : AList (fun _ : K => V)) :
    AList (fun _ : K => V) :=
  data.foldl (fun m k v => m.insert k v) map

/-- `BackendHandler`, with the reply channels' contents in `sent`. -/
structure BackendHandler where
  fileDbFactory : Option DBFactory
  db : BlockchainDb
  pendingRequests : List ProviderRequest
  accountRequests : AList (fun _ : Address => List Sender)
  storageRequests : AList (fun _ : Address × U256 => List Sender)
  blockRequests : AList (fun _ : Nat => List Sender)
  queuedRequests : List BackendRequest
  blockId : Option BlockId
  sent : List (Sender × Reply)

namespace BackendHandler

/-- `BackendHandler::new`: empty tables, nothing pending or queued, nothing sent. -/
def new (fileDbFactory : Option DBFactory) (db : BlockchainDb) (blockId : Option BlockId) :
    BackendHandler :=
  ⟨fileDbFactory, db, [], ∅, ∅, ∅, [], blockId, []⟩

/-- `let _ = sender.send(msg)`. -/
def send (s : BackendHandler) (x : Sender) (msg : Reply) : BackendHandler :=
  { s with sent := s.sent ++ [(x, msg)] }

/-- `listeners.into_iter().for_each(|l| { let _ = l.send(msg.clone()) })`. -/
def notify (s : BackendHandler) (listeners : List Sender) (msg : Reply) : BackendHandler :=
  { s with sent := s.sent ++ listeners.map (fun x => (x, msg)) }

/-! ### `on_request` -/

/-- The source choice that `get_account_req` and `request_account_storage` both make.
With a local archive, the pin must be a block number (`none` is the panic of
`self.block_id.unwrap().as_u64().unwrap()`); an archive that cannot open that block
falls back to the remote provider, at `self.block_id.unwrap_or_default()`. -/
def source (s : BackendHandler) : Option Source :=
  match s.fileDbFactory with
  | some factory =>
    match s.blockId.bind BlockId.asU64 with
    | some blockNumber =>
      match factory.historyByBlockNumber blockNumber with
      | .ok _ => some (.local blockNumber)
      | .error _ => some (.remote (s.blockId.getD default))
    | none => none
  | none => some (.remote (s.blockId.getD default))

/-- `get_account_req`: the future that fetches an account. -/
def getAccountReq (s : BackendHandler) (address : Address) : Option ProviderRequest :=
  s.source.map (.account address)

/-- `request_account`: join the listeners of a fetch in flight, or start one. -/
def requestAccount (s : BackendHandler) (address : Address) (listener : Sender) :
    Option BackendHandler :=
  match s.accountRequests.lookup address with
  | some listeners =>
    some { s with accountRequests := s.accountRequests.insert address (listeners ++ [listener]) }
  | none =>
    (s.getAccountReq address).map fun req =>
      { s with
        accountRequests := s.accountRequests.insert address [listener]
        pendingRequests := s.pendingRequests ++ [req] }

/-- `request_account_storage`: the same for a storage slot. -/
def requestAccountStorage (s : BackendHandler) (address : Address) (idx : U256)
    (listener : Sender) : Option BackendHandler :=
  match s.storageRequests.lookup (address, idx) with
  | some listeners =>
    some { s with
      storageRequests := s.storageRequests.insert (address, idx) (listeners ++ [listener]) }
  | none =>
    s.source.map fun src =>
      { s with
        storageRequests := s.storageRequests.insert (address, idx) [listener]
        pendingRequests := s.pendingRequests ++ [.storage address idx src] }

/-- `request_hash`: the same for a block hash, always from the remote provider. -/
def requestHash (s : BackendHandler) (number : Nat) (listener : Sender) : BackendHandler :=
  match s.blockRequests.lookup number with
  | some listeners =>
    { s with blockRequests := s.blockRequests.insert number (listeners ++ [listener]) }
  | none =>
    { s with
      blockRequests := s.blockRequests.insert number [listener]
      pendingRequests := s.pendingRequests ++ [.blockHash number] }

/-- `request_full_block`: a fresh future that carries its reply channel. -/
def requestFullBlock (s : BackendHandler) (number : BlockId) (sender : Sender) :
    BackendHandler :=
  { s with pendingRequests := s.pendingRequests ++ [.fullBlock number sender] }

/-- `request_transaction`: a fresh future that carries its reply channel. -/
def requestTransaction (s : BackendHandler) (tx : B256) (sender : Sender) :
    BackendHandler :=
  { s with pendingRequests := s.pendingRequests ++ [.transaction tx sender] }

/-- `on_request`. Lookups are answered from the cache or coalesced into a fetch;
full blocks and transactions are always fetched; the bulk updates overwrite cache
entries; `none` is a panic. -/
def onRequest (s : BackendHandler) : BackendRequest → Option BackendHandler
  | .basic addr sender =>
    match s.db.accounts.lookup addr with
    | some basic => some (s.send sender (.account (.ok basic)))
    | none => s.requestAccount addr sender
  | .blockHash number sender =>
    match s.db.blockHashes.lookup number with
    | some hash => some (s.send sender (.blockHash (.ok hash)))
    | none => some (s.requestHash number sender)
  | .fullBlock number sender => some (s.requestFullBlock number sender)
  | .transaction tx sender => some (s.requestTransaction tx sender)
  | .storage addr idx sender =>
    match (s.db.storage.lookup addr).bind (AList.lookup idx) with
    | some value => some (s.send sender (.storage (.ok value)))
    | none => s.requestAccountStorage addr idx sender
  | .setPinnedBlock blockId => some { s with blockId := some blockId }
  | .updateAddress addressData =>
    some { s with db := { s.db with accounts := insertAll s.db.accounts addressData } }
  | .updateStorage storageData =>
    some { s with db := { s.db with storage := insertAll s.db.storage storageData } }
  | .updateBlockHash blockHashData =>
    some { s with db := { s.db with blockHashes := insertAll s.db.blockHashes blockHashData } }
  | .anyRequest sender =>
    some { s with pendingRequests := s.pendingRequests ++ [.anyRequest sender] }

/-! ### The completion branches of `poll` -/

/-- The conversion of a fetched `(balance, nonce, code)` to revm's `AccountInfo`:
empty code gets `KECCAK_EMPTY`, other code its keccak-256 hash, and the code goes
through `Bytecode::new_raw`; `none` is its panic. -/
def accountInfo (keccak256 : Bytes → B256) (balance : U256) (nonce : Nat) (code : Bytes) :
    Option AccountInfo :=
  let (code, codeHash) := if !code.isEmpty then (code, keccak256 code) else ([], KECCAK_EMPTY)
  (Bytecode.newRaw code).map fun code => { nonce, balance, code := some code, codeHash }

/-- `pin.db.storage().write().entry(addr).or_default().insert(idx, value)`. -/
def insertSlot (storage : AList (fun _ : Address => StorageInfo)) (addr : Address)
    (idx value : U256) : AList (fun _ : Address => StorageInfo) :=
  storage.insert addr (((storage.lookup addr).getD ∅).insert idx value)

/-- The branch of the `pending_requests` loop for a future that returned
`Poll::Ready`. Account, storage and block-hash results are written to the cache on
`Ok` and sent to every listener of the key, whose entry is removed; an error is sent
to them all, with one shared cause. The other futures answer their own channel.
`none` is the panic of `accountInfo`. -/
def onReady (keccak256 : Bytes → B256) (s : BackendHandler) :
    (r : ProviderRequest) → r.Output → Option BackendHandler
  | .account addr _, .error err =>
    some <| { s with accountRequests := s.accountRequests.erase addr }.notify
      ((s.accountRequests.lookup addr).getD []) (.account (.error (.getAccount addr err)))
  | .account addr _, .ok (balance, nonce, code) => do
    let acc ← accountInfo keccak256 balance nonce code
    pure <| { s with
      db := { s.db with accounts := s.db.accounts.insert addr acc }
      accountRequests := s.accountRequests.erase addr }.notify
      ((s.accountRequests.lookup addr).getD []) (.account (.ok acc))
  | .storage addr idx _, .error err =>
    some <| { s with storageRequests := s.storageRequests.erase (addr, idx) }.notify
      ((s.storageRequests.lookup (addr, idx)).getD [])
      (.storage (.error (.getStorage addr idx err)))
  | .storage addr idx _, .ok value =>
    some <| { s with
      db := { s.db with storage := insertSlot s.db.storage addr idx value }
      storageRequests := s.storageRequests.erase (addr, idx) }.notify
      ((s.storageRequests.lookup (addr, idx)).getD []) (.storage (.ok value))
  | .blockHash number, .error err =>
    some <| { s with blockRequests := s.blockRequests.erase number }.notify
      ((s.blockRequests.lookup number).getD []) (.blockHash (.error (.getBlockHash number err)))
  | .blockHash number, .ok value =>
    some <| { s with
      db := { s.db with blockHashes := s.db.blockHashes.insert number value }
      blockRequests := s.blockRequests.erase number }.notify
      ((s.blockRequests.lookup number).getD []) (.blockHash (.ok value))
  | .fullBlock number sender, resp =>
    some <| s.send sender <| .fullBlock <| match resp with
      | .ok (some block) => .ok block
      | .ok none => .error (.blockNotFound number)
      | .error err => .error (.getFullBlock number err)
  | .transaction txHash sender, resp =>
    some <| s.send sender <| .transaction <| match resp with
      | .ok tx => .ok tx
      | .error err => .error (.getTransaction txHash err)
  | .anyRequest sender, resp => some <| s.send sender (.any resp)

end BackendHandler

/-- `Vec::swap_remove(n)`: the element at `n` leaves and the last element takes its
place. -/
def swapRemove {α : Type} (l : List α) (n : Nat) : List α :=
  match l.getLast? with
  | some x => (l.set n x).dropLast
  | none => []

namespace BackendHandler

/-- One turn of `for n in (0..pin.pending_requests.len()).rev()` in `poll`: take the
future `r` at `n` out with `swap_remove`, then handle its result, or push it back when
it returned `Poll::Pending` (`none`). `none` is a panic of `onReady`. -/
def visit (keccak256 : Bytes → B256) (s : BackendHandler) (n : Nat) (r : ProviderRequest)
    (out : Option r.Output) : Option BackendHandler :=
  let s' := { s with pendingRequests := swapRemove s.pendingRequests n }
  match out with
  | none => some { s' with pendingRequests := s'.pendingRequests ++ [r] }
  | some o => s'.onReady keccak256 r o

end BackendHandler

end MevDesign.ForkDb
