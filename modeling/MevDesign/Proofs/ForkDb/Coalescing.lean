import MevDesign.Proofs.ForkDb.Steps

/-!
# `MevDesign.Proofs.ForkDb.Coalescing`: one fetch per key in flight

The handler's doc comment promises that "always only one provider request is
executed" for a key, however many clients ask at once. `Coalesced` states it for
one handler state, key by key:

* `count`: the number of pending futures that fetch the key is `1` when the key has
  a listener entry and `0` otherwise;
* `nonempty`: no listener entry is an empty list.

`Coalesced.onRequest` and `Coalesced.visit` are the step lemmas, one per kind of
step of a run; each reads the step off the inversion lemmas of `Steps.lean`.
`coalesced_of_reach` carries the invariant along every run from
`BackendHandler::new`, whatever the commands and whatever the futures return, and
`coalescing` states it table by table.
-/

set_option autoImplicit false

namespace MevDesign.ForkDb

open scoped List

open BackendHandler

/-- The coalescing invariant of a handler state. -/
structure Coalesced (s : BackendHandler) : Prop where
  count : ∀ k, s.pendingRequests.countP (fun r => r.key? == some k) =
    if (s.listenersAt k).isSome then 1 else 0
  nonempty : ∀ k, s.listenersAt k ≠ some []

theorem coalesced_new (fileDbFactory : Option DBFactory) (db : BlockchainDb)
    (blockId : Option BlockId) : Coalesced (BackendHandler.new fileDbFactory db blockId) where
  count k := by cases k <;> rfl
  nonempty k := by cases k <;> simp [BackendHandler.new, listenersAt]

namespace Coalesced

variable {s s' : BackendHandler}

/-- A step that permutes the pending futures and leaves the tables alone keeps the
invariant. -/
theorem of_perm (h : Coalesced s) (hp : s'.pendingRequests ~ s.pendingRequests)
    (hl : s'.listenersAt = s.listenersAt) : Coalesced s' where
  count k := by rw [hp.countP_eq, hl, h.count]
  nonempty k := hl ▸ h.nonempty k

/-- Joining an entry, or starting it with a fresh fetch of its key. -/
theorem register {k : LaneKey} {x : Sender} (h : Coalesced s)
    (hs : s.register k x (s.spawnFor k) = some s') : Coalesced s' := by
  rcases register_eq_some hs with ⟨ls, hls, rfl⟩ | ⟨hnone, r, hr, rfl⟩
  · have hsome : ∀ k', ((s.setListeners k (ls ++ [x])).listenersAt k').isSome =
        (s.listenersAt k').isSome := fun k' => by
      rw [listenersAt_setListeners]; split <;> simp_all
    constructor
    · intro k'
      rw [setListeners_pendingRequests, h.count k', hsome]
    · intro k'
      rw [listenersAt_setListeners]
      split <;> simp [h.nonempty k']
  · have hrk := (spawnFor_eq_some hr).1
    constructor
    · intro k'
      have hc := h.count k'
      simp only [listenersAt_mk, listenersAt_setListeners, List.countP_append,
        hc, hrk, List.countP_singleton]
      by_cases hk : k' = k
      · simp [hk, hnone]
      · simp [hk, Ne.symm hk]
    · intro k'
      simp only [listenersAt_mk, listenersAt_setListeners]
      split <;> simp [h.nonempty k']

/-- `on_request` keeps the invariant. -/
theorem onRequest {req : BackendRequest} (h : Coalesced s) (hs : s.onRequest req = some s') :
    Coalesced s' := by
  rcases onRequest_eq_some hs with ⟨k, x, -, -, ⟨msg, -, rfl⟩ | ⟨-, hreg⟩⟩ |
    ⟨x, r, -, -, hr, -, rfl⟩ | ⟨-, db, b, rfl⟩
  · exact h.of_perm (.refl _) (funext fun k => by simp)
  · exact h.register hreg
  · constructor
    · intro k
      simp [← h.count, hr]
    · intro k
      simpa using h.nonempty k
  · exact h.of_perm (.refl _) (funext fun k => by simp)

/-- Polling a pending future keeps the invariant: a future that is not ready goes
back, and a ready one takes its key's entry with it. -/
theorem visit (keccak256 : Bytes → B256) {n : Nat} {r : ProviderRequest}
    {out : Option r.Output} (h : Coalesced s) (hn : s.pendingRequests[n]? = some r)
    (hv : s.visit keccak256 n r out = some s') : Coalesced s' := by
  have hperm := swapRemove_perm_of_getElem? hn
  have hcount : ∀ k, (swapRemove s.pendingRequests n).countP (fun r => r.key? == some k) +
      (if r.key? = some k then 1 else 0) =
        s.pendingRequests.countP (fun r => r.key? == some k) := fun k => by
    simpa [List.countP_singleton] using hperm.countP_eq (fun r => r.key? == some k)
  rcases visit_eq_some keccak256 s hv with
    ⟨-, rfl⟩ | ⟨o, msg, -, -, ⟨k, hk, -, rfl⟩ | ⟨x, hk, -, rfl⟩⟩
  · exact h.of_perm hperm (funext fun k => by simp)
  · constructor
    · intro k'
      have hc := hcount k'
      rw [h.count k', hk] at hc
      simp only [listenersAt_notify, listenersAt_clearListeners, listenersAt_mk,
        notify_pendingRequests, clearListeners_pendingRequests]
      by_cases hkk : k' = k
      · -- the entry goes with the only fetch of its key
        subst hkk
        simp only [if_true, Option.isSome_none, Bool.false_eq_true, if_false] at hc ⊢
        split at hc <;> omega
      · simp only [hkk, if_false, Option.some.injEq, Ne.symm hkk] at hc ⊢
        omega
    · intro k'
      simp only [listenersAt_notify, listenersAt_clearListeners, listenersAt_mk]
      split <;> simp [h.nonempty k']
  · constructor
    · intro k'
      have hc := hcount k'
      simp only [hk, reduceCtorEq, if_false, Nat.add_zero] at hc
      simpa [hc] using h.count k'
    · intro k'
      simpa using h.nonempty k'

end Coalesced

/-- The invariant holds along every run from `BackendHandler::new`. -/
theorem coalesced_of_reach {keccak256 : Bytes → B256} {fileDbFactory : Option DBFactory}
    {db : BlockchainDb} {blockId : Option BlockId} {evs : List Event} {s : BackendHandler}
    (h : Reach keccak256 (BackendHandler.new fileDbFactory db blockId) evs s) : Coalesced s :=
  Reach.invariant Coalesced (coalesced_new fileDbFactory db blockId)
    (fun _ _ _ hs hreq => hs.onRequest hreq) (fun _ _ _ _ _ hs hn hv => hs.visit keccak256 hn hv) h

/-- The coalescing invariant, table by table, in every state a run from
`BackendHandler::new` reaches, for any commands and any results (`Ok` or `Err`) of the
futures in any order. A key of `account_requests`, `storage_requests` or
`block_requests` has exactly one pending fetch of that key, a key with no entry has
none, and no entry is an empty list. -/
theorem coalescing (keccak256 : Bytes → B256) (fileDbFactory : Option DBFactory)
    (db : BlockchainDb) (blockId : Option BlockId) (evs : List Event) (s : BackendHandler)
    (h : Reach keccak256 (BackendHandler.new fileDbFactory db blockId) evs s) :
    (∀ a, a ∈ s.accountRequests ↔
      s.pendingRequests.countP (fun r => r.key? == some (.account a)) = 1) ∧
    (∀ a i, (a, i) ∈ s.storageRequests ↔
      s.pendingRequests.countP (fun r => r.key? == some (.storage a i)) = 1) ∧
    (∀ n, n ∈ s.blockRequests ↔
      s.pendingRequests.countP (fun r => r.key? == some (.block n)) = 1) ∧
    (∀ k ls, s.listenersAt k = some ls → ls ≠ []) ∧
    (∀ k, s.pendingRequests.countP (fun r => r.key? == some k) ≤ 1) := by
  have hc := coalesced_of_reach h
  have key : ∀ k, (s.listenersAt k).isSome ↔
      s.pendingRequests.countP (fun r => r.key? == some k) = 1 := fun k => by
    rw [hc.count k]; split <;> simp_all
  refine ⟨fun a => ?_, fun a i => ?_, fun n => ?_,
    fun k ls hk hnil => hc.nonempty k (hnil ▸ hk),
    fun k => by rw [hc.count k]; split <;> simp⟩
  · rw [← key, ← AList.lookup_isSome]; rfl
  · rw [← key, ← AList.lookup_isSome]; rfl
  · rw [← key, ← AList.lookup_isSome]; rfl

/-- `coalescing` after one lookup of address `1` on a fresh handler with no archive:
the address has an entry and one fetch in flight. -/
theorem coalescing_after_one_lookup :
    let s : BackendHandler := { BackendHandler.new none .empty none with
      accountRequests := (∅ : AList _).insert 1 [7]
      pendingRequests := [.account 1 (.remote default)] }
    (∀ a, a ∈ s.accountRequests ↔
      s.pendingRequests.countP (fun r => r.key? == some (.account a)) = 1) ∧
    (∀ a i, (a, i) ∈ s.storageRequests ↔
      s.pendingRequests.countP (fun r => r.key? == some (.storage a i)) = 1) ∧
    (∀ n, n ∈ s.blockRequests ↔
      s.pendingRequests.countP (fun r => r.key? == some (.block n)) = 1) ∧
    (∀ k ls, s.listenersAt k = some ls → ls ≠ []) ∧
    (∀ k, s.pendingRequests.countP (fun r => r.key? == some k) ≤ 1) :=
  coalescing (fun _ => 0) none .empty none [.dispatch (.basic 1 7)] _
    (Reach.dispatch (.basic 1 7) .nil rfl)

end MevDesign.ForkDb
