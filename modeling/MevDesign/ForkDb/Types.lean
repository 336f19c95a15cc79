import Mathlib.Algebra.Group.Nat.Basic
import Mathlib.Data.List.AList

/-!
# `MevDesign.ForkDb.Types`: the data the fork backend moves around

The values of `crates/evm-fork-db/src/backend.rs`, as the handler reads them.

Words and hashes are numbers: the backend does no arithmetic on them, it only
compares keys and copies values, so `U256`, `B256` and `Address` are `Nat`. Byte
strings are lists of bytes. Every `HashMap` of the source is an `AList`, Mathlib's
association list whose keys are distinct by construction, so a map can be walked
(the bulk updates do) and looked up.

A reply channel (`OneshotSender`) is named by a `Sender`. The handler never reads a
sender; it only stores it and writes one message into it, which is what
`BackendHandler.sent` records (`ForkDb/Handler.lean`).

`crates/evm-fork-db/src/{cache,error}.rs` are not in the repository snapshot.
`BlockchainDb` and `DatabaseError` are modelled from the spec and from their uses in
`backend.rs`; their docstrings say so. `keccak256` is `alloy_primitives`' hash and
enters the handler as a parameter.

`Bytecode::new_raw`, which `poll` calls on every fetched account code, is revm's. It
parses code that starts with `0xEF00` as an EOF container and code that starts with
`0xEF01` as an EIP-7702 delegation, keeps any other code as raw legacy code, and
panics where a parse fails. `Bytecode.newRaw` follows it, with `none` for the panic.
-/

set_option autoImplicit false

namespace MevDesign.ForkDb

/-- An account address. -/
abbrev Address := Nat

/-- A 256-bit word: a balance, a storage slot or a storage value. -/
abbrev U256 := Nat

/-- A 32-byte hash. -/
abbrev B256 := Nat

/-- A byte string (`alloy_primitives::Bytes`). -/
abbrev Bytes := List UInt8

/-- A one-shot reply channel, by identity. -/
abbrev Sender := Nat

/-- `KECCAK_EMPTY`, the keccak-256 hash of the empty byte string. -/
def KECCAK_EMPTY : B256 :=
  0xc5d2460186f7233c927e7db2dcc703c0e500b653ca82273b7bfad8045d85a470

/-- An `eyre::Report`: a message, or a cause wrapped in context by `wrap_err`. -/
inductive Report where
  | msg (text : String)
  | wrap (context : String) (cause : Report)
deriving DecidableEq, Repr

/-! ### Block identifiers -/

/-- `alloy_rpc_types::BlockNumberOrTag`. -/
inductive BlockNumberOrTag where
  | latest
  | finalized
  | safe
  | earliest
  | pending
  | number (n : Nat)
deriving DecidableEq, Repr

/-- `alloy_rpc_types::BlockId`: a block by hash, or by number or tag. -/
inductive BlockId where
  | hash (h : B256)
  | number (n : BlockNumberOrTag)
deriving DecidableEq, Repr

/-- `BlockId::default()` is the `latest` tag, which `unwrap_or_default` falls back to. -/
instance : Inhabited BlockId := ⟨.number .latest⟩

/-- `BlockId::as_u64`: the block number, when the identifier is one. -/
def BlockId.asU64 : BlockId → Option Nat
  | .number (.number n) => some n
  | _ => none

/-- The header of an RPC block; the backend reads its hash only. -/
structure Header where
  hash : B256
deriving DecidableEq, Repr

/-- An RPC block (`AnyRpcBlock`). -/
structure AnyRpcBlock where
  header : Header
deriving DecidableEq, Repr

/-- An RPC transaction (`AnyRpcTransaction`), by identity: the backend forwards it
untouched. -/
abbrev AnyRpcTransaction := Nat

/-- The output of an erased `AnyRequest` future, by identity. -/
abbrev AnyValue := Nat

/-! ### Bytecode and accounts -/

/-- `revm::primitives::LegacyAnalyzedBytecode`. `bytecode` is the analysed code,
padded with zero bytes past the end of the original; the original code is its first
`originalLen` bytes. The jump table is left out: nothing here reads it. -/
structure LegacyAnalyzedBytecode where
  bytecode : Bytes
  originalLen : Nat
  originalLen_le : originalLen ≤ bytecode.length
deriving DecidableEq

/-- `LegacyAnalyzedBytecode::original_bytes`: the code before padding. -/
def LegacyAnalyzedBytecode.originalBytes (a : LegacyAnalyzedBytecode) : Bytes :=
  a.bytecode.take a.originalLen

/-- An EOF container; `raw` is the container as deployed. -/
structure Eof where
  raw : Bytes
deriving DecidableEq, Repr

/-- An EIP-7702 delegation designator; `raw` is the designator as deployed. -/
structure Eip7702Bytecode where
  raw : Bytes
deriving DecidableEq, Repr

/-- `revm::primitives::Bytecode`, the four forms an archive may return. -/
inductive Bytecode where
  | legacyRaw (bytes : Bytes)
  | legacyAnalyzed (analyzed : LegacyAnalyzedBytecode)
  | eof (eof : Eof)
  | eip7702 (eip7702 : Eip7702Bytecode)
deriving DecidableEq

/-! ### `Bytecode::new_raw`

`poll` builds the cached account's code with `Bytecode::new_raw`, which is
`new_raw_checked(bytes).expect("Expect correct EOF bytecode")`. Modelled from
`revm-primitives`, which is not in the snapshot: code that starts with the EOF magic
`0xEF00` is decoded as an EOF container (`Eof::decode`), code that starts with
`0xEF01` as an EIP-7702 delegation designator, and other code is kept as raw legacy
code. `none` is the panic of `expect` on code its decoder rejects. The decoders check
the container's structure; what they decode it into is left out, since the backend
keeps only the raw bytes. -/

/-- A decoder that consumes bytes from the front of its input; `none` is a decode
error. -/
abbrev Decoder := StateT Bytes Option

/-- `consume_u8`. -/
def consumeU8 : Decoder Nat
  | b :: input => some (b.toNat, input)
  | [] => none

/-- `consume_u16`: a big-endian `u16`. -/
def consumeU16 : Decoder Nat
  | b₀ :: b₁ :: input => some (b₀.toNat * 256 + b₁.toNat, input)
  | _ => none

/-- A one-byte field that must hold `kind`: the version, a section kind or the
terminator. -/
def consumeKind (kind : Nat) : Decoder Unit := do
  guard ((← consumeU8) = kind)

/-- The sizes of `num` sections, each a non-zero big-endian `u16`. -/
def consumeSizes : Nat → Decoder (List Nat)
  | 0 => pure []
  | num + 1 => do
    let size ← consumeU16
    guard (size ≠ 0)
    return size :: (← consumeSizes num)

/-- `consume_header_section_size`: a non-zero number of sections, then their sizes. -/
def consumeHeaderSectionSize : Decoder (List Nat) := do
  let numSections ← consumeU16
  guard (numSections ≠ 0)
  consumeSizes numSections

/-- `EofHeader`: the section sizes the body is checked against. -/
structure EofHeader where
  typesSize : Nat
  codeSizes : List Nat
  containerSizes : List Nat
  dataSize : Nat
deriving DecidableEq, Repr

/-- The start of `EofHeader::decode`: the magic `0xEF00`, version `1`, `KIND_TYPES` and
the types size, a multiple of 4. -/
def EofHeader.decodeTypesSize : Decoder Nat := do
  guard ((← consumeU16) = 0xEF00)
  consumeKind 0x01
  consumeKind 0x01
  let typesSize ← consumeU16
  guard (typesSize % 4 = 0)
  pure typesSize

/-- `KIND_CODE` and the code section sizes: at most 1024 sections, one per 4 bytes of
types. -/
def EofHeader.decodeCodeSizes (typesSize : Nat) : Decoder (List Nat) := do
  consumeKind 0x02
  let codeSizes ← consumeHeaderSectionSize
  guard (codeSizes.length ≤ 0x0400 ∧ codeSizes.length = typesSize / 4)
  pure codeSizes

/-- `KIND_CONTAINER` with at most 256 container sizes, then `KIND_DATA`; or
`KIND_DATA` at once, with no containers. Any other kind is an error. -/
def EofHeader.decodeContainers : Decoder (List Nat) := do
  match ← consumeU8 with
  | 0x03 =>
    let sizes ← consumeHeaderSectionSize
    guard (sizes.length ≤ 0x0100)
    consumeKind 0x04
    pure sizes
  | 0x04 => pure []
  | _ => failure

/-- `EofHeader::decode`, ending with the data size and the terminator `0`. -/
def EofHeader.decode : Decoder EofHeader := do
  let typesSize ← EofHeader.decodeTypesSize
  let codeSizes ← EofHeader.decodeCodeSizes typesSize
  let containerSizes ← EofHeader.decodeContainers
  let dataSize ← consumeU16
  consumeKind 0x00
  pure ⟨typesSize, codeSizes, containerSizes, dataSize⟩

/-- `TypesSection::decode` with its `validate`: the inputs, outputs and maximum stack
height of one code section. -/
def TypesSection.decode : Decoder Unit := do
  let inputs ← consumeU8
  let outputs ← consumeU8
  let maxStackSize ← consumeU16
  guard (inputs ≤ 0x7f ∧ outputs ≤ 0x80 ∧ maxStackSize ≤ 0x03FF ∧ inputs ≤ maxStackSize)

/-- The `types_count` type sections at the front of the body. -/
def TypesSection.decodeAll : Nat → Decoder Unit
  | 0 => pure ()
  | count + 1 => do TypesSection.decode; TypesSection.decodeAll count

/-- `EofBody::decode` on the bytes after the header: they hold the type, code and
container sections in full (`MissingBodyWithoutData`), at most `data_size` bytes
after them (`DanglingData`), and valid type sections. The section sums are the
`sum += size` loops of `consume_header_section_size`. -/
def EofBody.decode (header : EofHeader) : Decoder Unit := do
  let body ← get
  let partialBodyLen :=
    header.codeSizes.foldl (· + ·) 0 + header.containerSizes.foldl (· + ·) 0 + header.typesSize
  guard (partialBodyLen ≤ body.length)
  guard (body.length ≤ partialBodyLen + header.dataSize)
  TypesSection.decodeAll (header.typesSize / 4)

/-- `Eof::decode`: the header, then the body. -/
def Eof.decode (raw : Bytes) : Option Eof :=
  ((EofHeader.decode >>= EofBody.decode).run' raw).map fun _ => ⟨raw⟩

/-- `Eip7702Bytecode::new_raw`: 23 bytes, the magic `0xEF01`, version `0`. -/
def Eip7702Bytecode.newRaw (raw : Bytes) : Option Eip7702Bytecode := do
  guard (raw.length = 23)
  guard (raw.take 2 = [0xEF, 0x01])
  guard (raw[2]? = some 0)
  pure ⟨raw⟩

/-- `Bytecode::new_raw`; `none` is its panic. -/
def Bytecode.newRaw (bytecode : Bytes) : Option Bytecode :=
  if bytecode.take 2 = [0xEF, 0x00] then (Eof.decode bytecode).map .eof
  else if bytecode.take 2 = [0xEF, 0x01] then (Eip7702Bytecode.newRaw bytecode).map .eip7702
  else some (.legacyRaw bytecode)

/-- Code that does not start with `0xEF` is legacy code, which `new_raw` keeps. -/
theorem Bytecode.newRaw_of_head? {bytecode : Bytes} (h : bytecode.head? ≠ some 0xEF) :
    Bytecode.newRaw bytecode = some (.legacyRaw bytecode) := by
  have hne : ∀ b, bytecode.take 2 ≠ [0xEF, b] := fun b he =>
    h (by rw [← List.take_append_drop 2 bytecode, he]; rfl)
  simp only [Bytecode.newRaw, if_neg (hne _)]

/-- The EOF magic alone is not a container: `new_raw` panics. -/
example : Bytecode.newRaw [0xEF, 0x00] = none := by decide

/-- The smallest EOF container: one code section holding `STOP`, and no data. -/
example : (Bytecode.newRaw
    [0xEF, 0x00, 0x01, 0x01, 0x00, 0x04, 0x02, 0x00, 0x01, 0x00, 0x01, 0x04, 0x00, 0x00,
      0x00, 0x00, 0x80, 0x00, 0x00, 0x00]).isSome := by decide

/-- `revm::primitives::AccountInfo`. -/
structure AccountInfo where
  balance : U256
  nonce : Nat
  codeHash : B256
  code : Option Bytecode
deriving DecidableEq

/-- `crate::cache::StorageInfo`: the slots of one address. -/
abbrev StorageInfo := AList (fun _ : U256 => U256)

/-- Modelled from the spec: `crate::cache::BlockchainDb`, which is not in the
snapshot. Its three maps, as `backend.rs` reads and writes them through `accounts()`,
`storage()` and `block_hashes()`. Block hashes are keyed by the number widened to
`U256`. The locks, the metadata and the cache path are left out. -/
structure BlockchainDb where
  accounts : AList (fun _ : Address => AccountInfo)
  storage : AList (fun _ : Address => StorageInfo)
  blockHashes : AList (fun _ : U256 => B256)

/-- The empty cache, `BlockchainDb::new(meta, None)` with no cache file. -/
def BlockchainDb.empty : BlockchainDb := ⟨∅, ∅, ∅⟩

/-! ### The local archive -/

/-- A historical state of the local archive (`reth`'s `StateProvider`), through the
four reads the backend makes. `none` is an absent entry. -/
structure StateProvider where
  accountBalance : Address → Except Report (Option U256)
  accountNonce : Address → Except Report (Option Nat)
  accountCode : Address → Except Report (Option Bytecode)
  storage : Address → U256 → Except Report (Option U256)

/-- The local archive (`DBFactory`), through `history_by_block_number`. -/
structure DBFactory where
  historyByBlockNumber : Nat → Except Report StateProvider

/-! ### Errors and replies -/

/-- `Except` values are equal when they are the same constructor with equal payloads. -/
instance decEqExcept {ε α : Type} [DecidableEq ε] [DecidableEq α] : DecidableEq (Except ε α)
  | .error a, .error b => decidable_of_iff (a = b) (by rw [Except.error.injEq])
  | .ok a, .ok b => decidable_of_iff (a = b) (by rw [Except.ok.injEq])
  | .error _, .ok _ => isFalse nofun
  | .ok _, .error _ => isFalse nofun

/-- Modelled from the spec: `crate::error::DatabaseError`, which is not in the
snapshot. The variants and their payloads are those `backend.rs` builds and §7 of the
spec lists; an `Arc<eyre::Report>` cause is its `Report`. -/
inductive DatabaseError where
  | getAccount (address : Address) (cause : Report)
  | getStorage (address : Address) (idx : U256) (cause : Report)
  | getBlockHash (number : Nat) (cause : Report)
  | getFullBlock (blockId : BlockId) (cause : Report)
  | getTransaction (hash : B256) (cause : Report)
  | blockNotFound (blockId : BlockId)
  | missingCode (hash : B256)
  | transport (cause : Report)
  | anyRequest (cause : Report)
deriving DecidableEq, Repr

/-- A message on a reply channel. The five typed senders of the source
(`AccountInfoSender`, …) and the erased `AnyRequest` sender each carry their own
result type. -/
inductive Reply where
  | account (result : Except DatabaseError AccountInfo)
  | storage (result : Except DatabaseError U256)
  | blockHash (result : Except DatabaseError B256)
  | fullBlock (result : Except DatabaseError AnyRpcBlock)
  | transaction (result : Except DatabaseError AnyRpcTransaction)
  | any (result : Except Report AnyValue)
deriving DecidableEq

/-! ### Commands and provider requests -/

/-- `BackendRequest`, the commands `SharedBackend` sends. The bulk-update payloads are
the source's hash maps. -/
inductive BackendRequest where
  | basic (address : Address) (sender : Sender)
  | storage (address : Address) (idx : U256) (sender : Sender)
  | blockHash (number : Nat) (sender : Sender)
  | fullBlock (number : BlockId) (sender : Sender)
  | transaction (tx : B256) (sender : Sender)
  | setPinnedBlock (blockId : BlockId)
  | updateAddress (addressData : AList (fun _ : Address => AccountInfo))
  | updateStorage (storageData : AList (fun _ : Address => StorageInfo))
  | updateBlockHash (blockHashData : AList (fun _ : U256 => B256))
  | anyRequest (sender : Sender)

/-- The reply channel a command carries, if any. -/
def BackendRequest.sender? : BackendRequest → Option Sender
  | .basic _ x | .storage _ _ x | .blockHash _ x | .fullBlock _ x | .transaction _ x
  | .anyRequest x => some x
  | _ => none

/-- Where an account or storage future reads: the local archive at a block number,
or the remote provider at a block identifier. -/
inductive Source where
  | «local» (blockNumber : Nat)
  | remote (blockId : BlockId)
deriving DecidableEq, Repr

/-- `ProviderRequest`, a future in `pending_requests`, by the data it captured. The
account, storage and block-hash futures return their key with their result; the
full-block, transaction and `AnyRequest` futures carry their reply channel. -/
inductive ProviderRequest where
  | account (address : Address) (source : Source)
  | storage (address : Address) (idx : U256) (source : Source)
  | blockHash (number : Nat)
  | fullBlock (number : BlockId) (sender : Sender)
  | transaction (tx : B256) (sender : Sender)
  | anyRequest (sender : Sender)
deriving DecidableEq, Repr

/-- What a ready future yields besides its captured data: the `Result` part of its
`Output`. -/
def ProviderRequest.Output : ProviderRequest → Type
  | .account .. => Except Report (U256 × Nat × Bytes)
  | .storage .. => Except Report U256
  | .blockHash _ => Except Report B256
  | .fullBlock .. => Except Report (Option AnyRpcBlock)
  | .transaction .. => Except Report AnyRpcTransaction
  | .anyRequest _ => Except Report AnyValue

/-- The reply channel a future carries, if any. -/
def ProviderRequest.sender? : ProviderRequest → Option Sender
  | .fullBlock _ x | .transaction _ x | .anyRequest x => some x
  | _ => none

end MevDesign.ForkDb
