import MevDesign.ForkDb.Futures
import MevDesign.Proofs.ForkDb.Steps

/-!
# `MevDesign.Proofs.ForkDb.Archive`: the local archive and the remote provider

An account or a slot is read from the local archive when one is configured and can
open the pinned block, and from the remote provider otherwise. Both futures return a
`(balance, nonce, code)` triple (or a slot value) that `poll` turns into the cached
`AccountInfo` with the same conversion (`BackendHandler.accountInfo`), so the two
paths agree exactly when the futures return the same triple.

They do for the balance, the nonce and the slot value, an absent entry reading as
zero on both (`localAccount_eq`, `localStorage_eq`). For the code, the local future
takes the bytes out of the archive's `Bytecode` (`codeBytes`), and for analysed
legacy code it takes `analyzed.bytecode()`, the code with the zero padding analysis
appends, where the deployed code is `original_bytes()`.
`analyzed_code_cached_with_padding` is an account on which the cached code and code
hash are those of the padded bytes.
-/

set_option autoImplicit false

namespace MevDesign.ForkDb

open BackendHandler

/-- The code as deployed: what `eth_getCode` returns for the account. -/
def Bytecode.originalBytes : Bytecode → Bytes
  | .legacyRaw bytes => bytes
  | .legacyAnalyzed analyzed => analyzed.originalBytes
  | .eof container => container.raw
  | .eip7702 designator => designator.raw

/-- The local account future on an archive that answers each read: absent entries
read as zero, absent code as no bytes. -/
theorem localAccount_eq (sp : StateProvider) (a : Address) {b : Option U256} {n : Option Nat}
    {code : Option Bytecode} (hb : sp.accountBalance a = .ok b) (hn : sp.accountNonce a = .ok n)
    (hc : sp.accountCode a = .ok code) :
    localAccount sp a = .ok (b.getD 0, n.getD 0, (code.map codeBytes).getD []) := by
  cases code <;> simp [localAccount, hb, hn, hc, Except.map, bind, Except.bind, pure,
    Except.pure, codeBytes]

/-- The local storage future: an absent slot reads as zero. -/
theorem localStorage_eq (sp : StateProvider) (a : Address) (i : U256) {v : Option U256}
    (hv : sp.storage a i = .ok v) : localStorage sp a i = .ok (v.getD 0) := by
  simp [localStorage, hv, Except.map]

/-! ### The failing input -/

/-- `PUSH1 1` as revm analyses it: the two bytes of code, then 33 zero bytes. -/
def paddedPush1 : LegacyAnalyzedBytecode :=
  ⟨[0x60, 0x01] ++ List.replicate 33 0, 2, by decide⟩

/-- The archive's state at every block: every account has balance `5`, nonce `0` and
the analysed `PUSH1 1`; every slot is empty. -/
def paddedState : StateProvider where
  accountBalance _ := .ok (some 5)
  accountNonce _ := .ok (some 0)
  accountCode _ := .ok (some (.legacyAnalyzed paddedPush1))
  storage _ _ := .ok none

/-- An archive that opens every block at `paddedState`. -/
def paddedArchive : DBFactory := ⟨fun _ => .ok paddedState⟩

/-- The local path caches the padded code. Pinned at block `5` with `paddedArchive`, a
lookup of address `1` reads the archive; when that future completes, the cache holds
the `AccountInfo` of the padded bytes. A remote future that returns the deployed code
`[0x60, 0x01]` with the same balance and nonce caches the `AccountInfo` of those two
bytes, and the two differ, whatever the hash function. -/
theorem analyzed_code_cached_with_padding (keccak256 : Bytes → B256) :
    let s₀ : BackendHandler :=
      BackendHandler.new (some paddedArchive) .empty (some (.number (.number 5)))
    s₀.getAccountReq 1 = some (.account 1 (.local 5)) ∧
    archiveAt s₀.fileDbFactory 5 = some paddedState ∧
    (s₀.onReady keccak256 (.account 1 (.local 5))
      (localAccount paddedState 1)).bind (·.db.accounts.lookup 1) =
      accountInfo keccak256 5 0 paddedPush1.bytecode ∧
    (Bytecode.legacyAnalyzed paddedPush1).originalBytes = [0x60, 0x01] ∧
    (∀ p : RemoteProvider, p.account 1 (.number (.number 5)) = .ok (5, 0, [0x60, 0x01]) →
      (s₀.onReady keccak256 (.account 1 (.remote (.number (.number 5))))
        (p.account 1 (.number (.number 5)))).bind (·.db.accounts.lookup 1) =
          accountInfo keccak256 5 0 [0x60, 0x01]) ∧
    accountInfo keccak256 5 0 paddedPush1.bytecode ≠ accountInfo keccak256 5 0 [0x60, 0x01] := by
  refine ⟨rfl, rfl, rfl, rfl, fun p hp => by rw [hp]; rfl, fun h => ?_⟩
  -- both codes are legacy, and `new_raw` keeps each as it is
  have hcode : some (some (Bytecode.legacyRaw paddedPush1.bytecode)) =
      some (some (Bytecode.legacyRaw [0x60, 0x01])) :=
    congrArg (Option.map AccountInfo.code) h
  simp [paddedPush1] at hcode

end MevDesign.ForkDb
