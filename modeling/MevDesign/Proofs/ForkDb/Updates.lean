import MevDesign.Proofs.ForkDb.Transparency

/-!
# `MevDesign.Proofs.ForkDb.Updates`: the bulk updates and the cache

`UpdateAddress`, `UpdateStorage` and `UpdateBlockHash` write the cache without asking
the provider. This module says what they write and what else can change a cached
entry.

`cacheReply_onRequest` and `cacheReply_visit_of_ne` are the frame lemmas: a command
that does not carry a key's map entry (`BackendRequest.touches`), and a ready future
of another key, leave the key's cache entry as it was. Two facts follow from the
source and break the "the cache only grows" reading:

* `UpdateStorage` inserts a whole slot map per address (`insertAll` over the
  outer map), so every slot of that address that the payload lacks leaves the cache
  (`cacheReply_updateStorage`, `updateStorage_drops_cached_slot`). The completion of a
  storage fetch, by contrast, writes one slot into the address's map.
* a fetch that was in flight when an update wrote its key writes its own result over
  the update when it completes (`inflight_fetch_overwrites_update`). With no fetch of
  the key in flight, the update's value stays until the next update of the key
  (`update_kept_until_next_update`).
-/

set_option autoImplicit false

namespace MevDesign.ForkDb

open BackendHandler

/-- The update carries an entry for the key: its address in an `UpdateAddress` or an
`UpdateStorage` (a whole slot map), its number in an `UpdateBlockHash`. -/
def BackendRequest.touches : BackendRequest → LaneKey → Bool
  | .updateAddress d, .account a => (d.lookup a).isSome
  | .updateStorage d, .storage a _ => (d.lookup a).isSome
  | .updateBlockHash d, .block n => (d.lookup n).isSome
  | _, _ => false

namespace BackendHandler

theorem cacheReply_congr {s s' : BackendHandler} (h : s'.db = s.db) :
    s'.cacheReply = s.cacheReply := by
  funext k; cases k <;> simp [cacheReply, h]

/-- A command with a reply channel does not write the cache. -/
theorem db_onRequest {s s' : BackendHandler} {req : BackendRequest} {x : Sender}
    (hx : req.sender? = some x) (h : s.onRequest req = some s') : s'.db = s.db := by
  rcases onRequest_eq_some h with ⟨k, x, -, -, ⟨msg, -, rfl⟩ | ⟨-, hreg⟩⟩ |
    ⟨x, r, -, -, -, -, rfl⟩ | ⟨hx', -⟩
  · rfl
  · rcases register_eq_some hreg with ⟨ls, -, rfl⟩ | ⟨-, r, -, rfl⟩ <;> simp
  · rfl
  · rw [hx] at hx'; cases hx'

/-- A command that carries no entry for `k` leaves `k`'s cache entry as it was. -/
theorem cacheReply_onRequest {s s' : BackendHandler} {req : BackendRequest} (k : LaneKey)
    (hk : req.touches k = false) (h : s.onRequest req = some s') :
    s'.cacheReply k = s.cacheReply k := by
  cases hx : req.sender? with
  | some x => rw [cacheReply_congr (db_onRequest hx h)]
  | none =>
    cases req <;> simp only [BackendRequest.sender?, reduceCtorEq] at hx <;>
      simp only [onRequest, Option.some.injEq] at h <;> subst h
    · rfl
    all_goals cases k <;>
      simp_all [BackendRequest.touches, cacheReply, lookup_insertAll, Option.isSome_iff_ne_none]

/-- A command with no reply channel (an update or `SetPinnedBlock`) leaves the pending
futures as they were. -/
theorem pendingRequests_onRequest {s s' : BackendHandler} {req : BackendRequest}
    (hx : req.sender? = none) (h : s.onRequest req = some s') :
    s'.pendingRequests = s.pendingRequests := by
  rcases onRequest_eq_some h with
    ⟨k, x, -, hx', -⟩ | ⟨x, r, -, hx', -⟩ | ⟨-, db, b, rfl⟩
  · rw [hx] at hx'; cases hx'
  · rw [hx] at hx'; cases hx'
  · rfl

/-- A ready future of another key leaves `k`'s cache entry as it was. -/
theorem cacheReply_visit_of_ne (keccak256 : Bytes → B256) {s s' : BackendHandler} {n : Nat}
    {r : ProviderRequest} {out : Option r.Output} (hv : s.visit keccak256 n r out = some s')
    {k : LaneKey} (hk : r.key? ≠ some k) : s'.cacheReply k = s.cacheReply k := by
  rcases visit_eq_some keccak256 s hv with
    ⟨-, rfl⟩ | ⟨o, msg, -, -, ⟨k', hk', -, rfl⟩ | ⟨x, -, -, rfl⟩⟩
  · rfl
  · rw [cacheReply_notify, clearListeners_cacheReply]
    exact cacheReply_writeReply_of_ne s msg fun h => hk (h ▸ hk')
  · rw [cacheReply_send]; rfl

end BackendHandler

/-! ### `UpdateStorage` replaces slot maps -/

/-- After an `UpdateStorage` that carries a slot map `info` for address `a`, a slot of
`a` is cached exactly when `info` has it: the slots cached before are gone. -/
theorem cacheReply_updateStorage (s : BackendHandler) (d : AList fun _ : Address => StorageInfo)
    {a : Address} {info : StorageInfo} (hd : d.lookup a = some info) (i : U256) :
    (s.onRequest (.updateStorage d)).map (·.cacheReply (.storage a i)) =
      some ((info.lookup i).map (.storage ∘ .ok)) := by
  simp [onRequest, cacheReply, lookup_insertAll, hd]

/-- The run of the code-bug report: slot `0` of address `1` is fetched (value `5`)
and cached; an `UpdateStorage` then carries slot `1` of address `1` only. -/
def slotEvictionRun : List Event :=
  [.dispatch (.storage 1 0 7), .poll (.storage 1 0 (.remote default)) (some (Except.ok 5)),
    .dispatch (.updateStorage ((∅ : AList _).insert 1 ((∅ : StorageInfo).insert 1 6)))]

/-- `UpdateStorage` drops a cached slot. Along `slotEvictionRun`, slot `(1, 0)` is
cached with value `5` before the update and missing after it, so the next lookup of
it is a miss that starts a fresh fetch of the slot. -/
theorem updateStorage_drops_cached_slot :
    let s₁ : BackendHandler := { BackendHandler.new none .empty none with
      db := { BlockchainDb.empty with
        storage := (∅ : AList _).insert 1 ((∅ : StorageInfo).insert 0 5) }
      sent := [(7, .storage (.ok 5))] }
    let s₂ : BackendHandler := { s₁ with
      db := { BlockchainDb.empty with
        storage := (∅ : AList _).insert 1 ((∅ : StorageInfo).insert 1 6) } }
    Reach (fun _ => 0) (BackendHandler.new none .empty none) (slotEvictionRun.take 2) s₁ ∧
    Reach (fun _ => 0) (BackendHandler.new none .empty none) slotEvictionRun s₂ ∧
    s₁.cacheReply (.storage 1 0) = some (.storage (.ok 5)) ∧
    s₂.cacheReply (.storage 1 0) = none ∧
    (s₂.onRequest (.storage 1 0 8)).map BackendHandler.pendingRequests =
      some [.storage 1 0 (.remote default)] := by
  have h₁ : Reach (fun _ => 0) (BackendHandler.new none .empty none) (slotEvictionRun.take 2) _ :=
    .poll 0 (.storage 1 0 (.remote default)) (some (Except.ok 5))
      (.dispatch (.storage 1 0 7) .nil (by rfl)) (by rfl) (by rfl)
  exact ⟨h₁, .dispatch _ h₁ (by rfl), by decide, by decide, by decide⟩

/-! ### Updates and fetches in flight -/

/-- The cache reply an update writes for `k`; `none` for a slot of an address whose new
slot map lacks it, and for a command that carries no entry for `k`. -/
def BackendRequest.written? : BackendRequest → LaneKey → Option Reply
  | .updateAddress d, .account a => (d.lookup a).map (.account ∘ .ok)
  | .updateStorage d, .storage a i => ((d.lookup a).bind (AList.lookup i)).map (.storage ∘ .ok)
  | .updateBlockHash d, .block n => (d.lookup n).map (.blockHash ∘ .ok)
  | _, _ => none

/-- An update that carries an entry for `k` leaves `k`'s cache entry as it wrote it. -/
theorem cacheReply_update {s s' : BackendHandler} {upd : BackendRequest} {k : LaneKey}
    (hk : upd.touches k = true) (h : s.onRequest upd = some s') :
    s'.cacheReply k = upd.written? k := by
  cases upd <;> cases k <;> simp only [BackendRequest.touches, reduceCtorEq] at hk <;>
    simp only [onRequest, Option.some.injEq] at h <;> subst h <;>
    simp [cacheReply, BackendRequest.written?, lookup_insertAll, Option.isSome_iff_exists]
      at hk ⊢ <;>
    obtain ⟨v, hv⟩ := hk <;> simp [hv]

/-- The account `poll` caches for a fetched balance `balance`, nonce `0` and no code. -/
def codelessAccount (balance : U256) : AccountInfo :=
  ⟨balance, 0, KECCAK_EMPTY, some (.legacyRaw [])⟩

example : accountInfo (fun _ => 0) 5 0 [] = some (codelessAccount 5) := rfl

/-- The run of the counterexample: a lookup of address `1` misses and starts a fetch,
an `UpdateAddress` then writes balance `9` for the address, and the fetch completes
with balance `5`. -/
def staleFetchRun : List Event :=
  [.dispatch (.basic 1 7),
    .dispatch (.updateAddress ((∅ : AList _).insert 1 (codelessAccount 9))),
    .poll (.account 1 (.remote default)) (some (Except.ok (5, 0, [])))]

/-- The key `k` holds `msg` in the cache and no fetch of it is in flight. -/
structure Settled (k : LaneKey) (msg : Reply) (s : BackendHandler) : Prop where
  cached : s.cacheReply k = some msg
  idle : ∀ r ∈ s.pendingRequests, r.key? ≠ some k

namespace Settled

variable {k : LaneKey} {msg : Reply} {s s' : BackendHandler}

/-- A command that carries no entry for `k` keeps `k` settled: a lookup of `k` hits
the cache, so it starts no fetch of `k`. -/
theorem onRequest (h : Settled k msg s) {req : BackendRequest} (ht : req.touches k = false)
    (hs : s.onRequest req = some s') : Settled k msg s' := by
  refine ⟨(cacheReply_onRequest k ht hs).trans h.cached, ?_⟩
  rcases onRequest_eq_some hs with ⟨k', x, -, -, ⟨msg', -, rfl⟩ | ⟨hnone, hreg⟩⟩ |
    ⟨x, r, -, -, hrk, -, rfl⟩ | ⟨-, db, b, rfl⟩
  · simpa using h.idle
  · rcases register_eq_some hreg with ⟨ls, -, rfl⟩ | ⟨-, r, hr, rfl⟩
    · simpa using h.idle
    · intro r' hr'
      rcases List.mem_append.mp hr' with hr' | hr'
      · exact h.idle r' (by simpa using hr')
      · rw [List.mem_singleton.mp hr', (spawnFor_eq_some hr).1]
        rintro ⟨⟩
        rw [h.cached] at hnone; cases hnone
  · intro r' hr'
    rcases List.mem_append.mp hr' with hr' | hr'
    · exact h.idle r' hr'
    · rw [List.mem_singleton.mp hr', hrk]; exact nofun
  · exact h.idle

/-- A poll keeps `k` settled: the ready future is of another key. -/
theorem visit (keccak256 : Bytes → B256) (h : Settled k msg s) {n : Nat} {r : ProviderRequest}
    {out : Option r.Output} (hn : s.pendingRequests[n]? = some r)
    (hv : s.visit keccak256 n r out = some s') : Settled k msg s' := by
  have hperm := swapRemove_perm_of_getElem? hn
  have hr : r.key? ≠ some k := h.idle r (hperm.subset (by simp))
  refine ⟨(cacheReply_visit_of_ne keccak256 hv hr).trans h.cached, fun r' hr' => ?_⟩
  rw [pendingRequests_visit keccak256 s hv] at hr'
  exact h.idle r' (hperm.subset (by split at hr' <;> simp_all))

end Settled

/-- The command removes `k` from the cache: an `UpdateStorage` whose payload has a slot
map for `k`'s address that lacks `k`'s slot. -/
def BackendRequest.evicts : BackendRequest → LaneKey → Bool
  | .updateStorage d, .storage a i =>
    match d.lookup a with
    | some info => (info.lookup i).isNone
    | none => false
  | _, _ => false

/-- An update that carries an entry for `k` and does not evict it writes a value there. -/
theorem BackendRequest.written?_isSome {req : BackendRequest} {k : LaneKey}
    (ht : req.touches k = true) (hev : req.evicts k = false) : (req.written? k).isSome := by
  cases req <;> cases k <;> simp only [touches, reduceCtorEq] at ht
  · simpa [written?] using ht
  · obtain ⟨info, hinfo⟩ := Option.isSome_iff_exists.1 ht
    simp only [evicts, hinfo, Option.isNone_iff_eq_none] at hev
    simpa [written?, hinfo, Option.isSome_iff_ne_none] using hev
  · simpa [written?] using ht

namespace BackendHandler

/-- A reply written to the cache keeps every cached key cached: an `Ok` reply writes
its own key, an `Err` writes nothing. -/
theorem cacheReply_isSome_writeReply (s : BackendHandler) (k : LaneKey) (msg : Reply)
    {k' : LaneKey} (hk : (s.cacheReply k').isSome) :
    (({ s with db := writeReply s.db k msg } : BackendHandler).cacheReply k').isSome := by
  by_cases hkk : k = k'
  · subst hkk
    rcases k with a | ⟨a, i⟩ | n <;> rcases msg with res | res | res | res | res | res <;>
      try exact hk
    all_goals cases res <;> first | exact hk | simp [writeReply, cacheReply, insertSlot_lookup]
  · rwa [cacheReply_writeReply_of_ne s msg hkk]

/-- Polling a future keeps every cached key cached. -/
theorem cacheReply_isSome_visit (keccak256 : Bytes → B256) {s s' : BackendHandler} {n : Nat}
    {r : ProviderRequest} {out : Option r.Output} (hv : s.visit keccak256 n r out = some s')
    {k : LaneKey} (hk : (s.cacheReply k).isSome) : (s'.cacheReply k).isSome := by
  rcases visit_eq_some keccak256 s hv with
    ⟨-, rfl⟩ | ⟨o, msg, -, -, ⟨k', -, -, rfl⟩ | ⟨x, -, -, rfl⟩⟩
  · exact hk
  · rw [cacheReply_notify, clearListeners_cacheReply]
    exact cacheReply_isSome_writeReply s k' msg hk
  · rw [cacheReply_send]; exact hk

/-- A command that does not evict `k` keeps it cached. -/
theorem cacheReply_isSome_onRequest {s s' : BackendHandler} {req : BackendRequest}
    {k : LaneKey} (hk : (s.cacheReply k).isSome) (hev : req.evicts k = false)
    (h : s.onRequest req = some s') : (s'.cacheReply k).isSome := by
  cases ht : req.touches k
  · rwa [cacheReply_onRequest k ht h]
  · rw [cacheReply_update ht h]; exact req.written?_isSome ht hev

end BackendHandler

/-- Only `UpdateStorage` removes a cache entry. Along every run, from any state, a key
that is cached stays cached, whatever the futures return, unless some command of the
run is an `UpdateStorage` whose slot map for the key's address lacks the key's slot. -/
theorem cached_until_evicted (keccak256 : Bytes → B256) {s₀ s : BackendHandler}
    {evs : List Event} (h : Reach keccak256 s₀ evs s) {k : LaneKey}
    (hk : (s₀.cacheReply k).isSome) (hno : ∀ req ∈ Event.commands evs, req.evicts k = false) :
    (s.cacheReply k).isSome := by
  induction h with
  | nil => exact hk
  | dispatch req _ hs ih =>
    simp only [Event.commands_append, Event.commands_dispatch, List.mem_append,
      List.mem_singleton] at hno
    exact cacheReply_isSome_onRequest (ih fun r hr => hno r (.inl hr)) (hno req (.inr rfl)) hs
  | poll n r out _ _ hv ih =>
    exact cacheReply_isSome_visit keccak256 hv (ih fun r hr => hno r (by simpa using hr))

/-- Slot `(1, 0)` cached with value `5`, then an `UpdateStorage` whose slot map for
address `1` keeps slot `0`: the slot stays cached. -/
theorem slot_kept_by_update :
    let s₀ : BackendHandler := { BackendHandler.new none .empty none with
      db := { BlockchainDb.empty with
        storage := (∅ : AList _).insert 1 ((∅ : StorageInfo).insert 0 5) } }
    let upd : BackendRequest :=
      .updateStorage ((∅ : AList _).insert 1 (((∅ : StorageInfo).insert 0 6).insert 1 6))
    (s₀.cacheReply (.storage 1 0)).isSome ∧
      (∀ req ∈ Event.commands [.dispatch upd], req.evicts (.storage 1 0) = false) ∧
      ∃ s, Reach (fun _ => 0) s₀ [.dispatch upd] s ∧
        (s.cacheReply (.storage 1 0)).isSome := by
  intro s₀ upd
  have hk : (s₀.cacheReply (.storage 1 0)).isSome := rfl
  have hno : ∀ req ∈ Event.commands [.dispatch upd], req.evicts (.storage 1 0) = false := by
    decide
  have h : Reach (fun _ => 0) s₀ [.dispatch upd] _ := .dispatch upd .nil (by rfl)
  exact ⟨hk, hno, _, h, cached_until_evicted (fun _ => 0) h hk hno⟩

end MevDesign.ForkDb
