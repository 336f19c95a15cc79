import MevDesign.Proofs.ForkDb.Replies
import MevDesign.Proofs.ForkDb.Updates

/-!
# `MevDesign.Proofs.ForkDb.Fetches`: how often the provider is asked for a key

The handler exists so that the lookups of a forked EVM do not each reach the RPC node.
A lookup of a cached key is answered from the cache; a lookup of a key whose fetch is in
flight joins that fetch's listener entry (`Coalescing.lean`); only a lookup that finds
neither starts a future. Two things make a key miss again after it was fetched: the
fetch failed (an `Err` writes nothing), or an `UpdateStorage` removed the key from the
cache (`BackendRequest.evicts`). So the provider is asked for each account, slot and
block hash once, and once more for each failed fetch of it and each command that
evicted it.

`Event.completions k` counts the poll events at which a future for `k` returned. A
future leaves `pending_requests` only when it returns, so the futures for `k` ever
started are those that returned plus those in flight (`BackendHandler.inFlight`).
`FetchBound` bounds their number by one plus the failures and evictions of `k`, and
records that with nothing in flight and `k` uncached, every return so far was paid for
by a failure or an eviction. `FetchBound.onRequest` and `FetchBound.visit` are its step
lemmas, `FetchBound.of_reach` the run lemma, and `fetch_count_le` the statement along
every run from `BackendHandler::new`.

Each fetch must also answer every lookup that joined it. A lookup that misses is a
listener of its key; no command and no return for another key removes it
(`mem_listenersAt_onRequest`, `mem_listenersAt_visit`), and a return for the key
writes to every listener, `Ok` or `Err` (`count_answered_lt_visit`). So a lookup
passed to `on_request` in any state has its reply by the time the first future for
its key returns after it, whatever comes in between (`answered_by_next_return`): no
caller of `SharedBackend` is left waiting on a fetch that has already returned. A
return whose reply cannot be built, account code that `new_raw` rejects, is no step of
a run (`Reach.panics_eq_false`): the task panics there, and no listener of the key is
answered.
-/

set_option autoImplicit false

namespace MevDesign.ForkDb

open scoped List

open BackendHandler

/-- The future returned `Ok`. -/
def ProviderRequest.isOk : (r : ProviderRequest) → r.Output → Bool
  | .account .., o | .storage .., o | .blockHash _, o | .fullBlock .., o | .transaction .., o
  | .anyRequest _, o => o.isOk

/-- A future for `k` returned. -/
def Event.completes (k : LaneKey) : Event → Bool
  | .poll r (some _) => r.key? == some k
  | _ => false

/-- A future for `k` returned an error. -/
def Event.failsFetch (k : LaneKey) : Event → Bool
  | .poll r (some o) => r.key? == some k && !r.isOk o
  | _ => false

/-- The futures for `k` that returned along the run. -/
def Event.completions (k : LaneKey) (evs : List Event) : Nat := evs.countP (Event.completes k)

/-- The futures for `k` that returned an error along the run. -/
def Event.failures (k : LaneKey) (evs : List Event) : Nat := evs.countP (Event.failsFetch k)

/-- The commands of the run that evicted `k`. -/
def Event.evictions (k : LaneKey) (evs : List Event) : Nat :=
  (Event.commands evs).countP fun req => req.evicts k

/-- The futures for `k` in flight. -/
def BackendHandler.inFlight (s : BackendHandler) (k : LaneKey) : Nat :=
  s.pendingRequests.countP fun r => r.key? == some k

section Counts
variable (k : LaneKey) (evs : List Event)

@[simp] theorem Event.completions_dispatch (req : BackendRequest) :
    Event.completions k (evs ++ [.dispatch req]) = Event.completions k evs := by
  simp [Event.completions, Event.completes]

@[simp] theorem Event.failures_dispatch (req : BackendRequest) :
    Event.failures k (evs ++ [.dispatch req]) = Event.failures k evs := by
  simp [Event.failures, Event.failsFetch]

theorem Event.evictions_dispatch (req : BackendRequest) :
    Event.evictions k (evs ++ [.dispatch req]) =
      Event.evictions k evs + if req.evicts k then 1 else 0 := by
  simp [Event.evictions, List.countP_singleton]

@[simp] theorem Event.evictions_poll (r : ProviderRequest) (out : Option r.Output) :
    Event.evictions k (evs ++ [.poll r out]) = Event.evictions k evs := by
  simp [Event.evictions]

theorem Event.failures_poll (r : ProviderRequest) (out : Option r.Output) :
    Event.failures k (evs ++ [.poll r out]) =
      Event.failures k evs + if Event.failsFetch k (.poll r out) then 1 else 0 := by
  simp [Event.failures, List.countP_singleton]

end Counts

namespace BackendHandler

/-- The reply to an `Ok` result for `k` writes `k` into the cache. -/
theorem cacheReply_isSome_writeReply_of_isOk (keccak256 : Bytes → B256) (s : BackendHandler)
    {r : ProviderRequest} (o : r.Output) {k : LaneKey} (hk : r.key? = some k)
    (hok : r.isOk o = true) {msg : Reply} (hmsg : readyReply keccak256 r o = some msg) :
    (({ s with db := writeReply s.db k msg } : BackendHandler).cacheReply k).isSome := by
  cases r <;> simp only [ProviderRequest.key?, Option.some.injEq, reduceCtorEq] at hk <;>
    subst hk <;> cases o <;>
    simp only [ProviderRequest.isOk, Except.isOk, Except.toBool, Bool.false_eq_true] at hok <;>
    simp only [readyReply, Option.map_eq_some', Option.some.injEq] at hmsg
  · obtain ⟨acc, -, rfl⟩ := hmsg
    simp [writeReply, cacheReply]
  all_goals subst hmsg; simp [writeReply, cacheReply, insertSlot_lookup]

/-- A poll turn at which a future for `k` returns `Ok` leaves `k` cached. -/
theorem cacheReply_isSome_visit_of_isOk (keccak256 : Bytes → B256) {s s' : BackendHandler}
    {n : Nat} {r : ProviderRequest} {o : r.Output} (hv : s.visit keccak256 n r (some o) = some s')
    {k : LaneKey} (hk : r.key? = some k) (hok : r.isOk o = true) : (s'.cacheReply k).isSome := by
  rcases visit_eq_some keccak256 s hv with ⟨h0, -⟩ |
    ⟨o', msg, ho, hmsg, ⟨k', hk', -, rfl⟩ | ⟨x, hk', -, -⟩⟩
  · cases h0
  · cases ho
    obtain rfl : k' = k := Option.some.inj (hk'.symm.trans hk)
    rw [cacheReply_notify, clearListeners_cacheReply]
    exact cacheReply_isSome_writeReply_of_isOk keccak256
      { s with pendingRequests := swapRemove s.pendingRequests n } o hk hok hmsg
  · simp [hk] at hk'

/-- A command starts a future for `k` only on a miss with no listener entry for `k`;
otherwise the futures for `k` in flight are as many as before. -/
theorem inFlight_onRequest {s s' : BackendHandler} {req : BackendRequest} (k : LaneKey)
    (h : s.onRequest req = some s') :
    s'.inFlight k = s.inFlight k ∨
      (s.cacheReply k = none ∧ s.listenersAt k = none ∧ s'.inFlight k = s.inFlight k + 1) := by
  simp only [inFlight]
  rcases onRequest_eq_some h with ⟨k', x, -, -, ⟨msg, -, rfl⟩ | ⟨hmiss, hreg⟩⟩ |
    ⟨x, r, -, -, hr, -, rfl⟩ | ⟨-, db, b, rfl⟩
  · exact .inl (by simp)
  · rcases register_eq_some hreg with ⟨ls, -, rfl⟩ | ⟨hnone, r, hr, rfl⟩
    · exact .inl (by simp)
    · have hrk := (spawnFor_eq_some hr).1
      by_cases hkk : k' = k
      · subst hkk; exact .inr ⟨hmiss, hnone, by simp [hrk]⟩
      · exact .inl (by simp [hrk, hkk])
  · exact .inl (by simp [hr])
  · exact .inl rfl

/-- Polling a future moves it from in flight to returned exactly when it returns. -/
theorem completions_add_inFlight_visit (keccak256 : Bytes → B256) {s s' : BackendHandler}
    {n : Nat} {r : ProviderRequest} {out : Option r.Output}
    (hn : s.pendingRequests[n]? = some r) (hv : s.visit keccak256 n r out = some s')
    (k : LaneKey) (evs : List Event) :
    Event.completions k (evs ++ [.poll r out]) + s'.inFlight k =
      Event.completions k evs + s.inFlight k := by
  have hperm := (swapRemove_perm_of_getElem? hn).countP_eq (fun r => r.key? == some k)
  rw [List.countP_append, List.countP_singleton] at hperm
  rw [inFlight, pendingRequests_visit keccak256 s hv]
  cases out <;>
    simp only [Event.completions, inFlight, List.countP_append, List.countP_singleton,
      Event.completes, Option.isNone_none, Option.isNone_some, Bool.false_eq_true,
      ↓reduceIte, List.countP_nil] at hperm ⊢ <;>
    omega

end BackendHandler

/-- The invariant of a run from a state with no future pending: the futures for `k`
started so far are at most one more than the failed fetches and the evictions of `k`,
and when none is in flight and `k` is not cached, the failures and evictions account
for every one that returned. -/
structure FetchBound (k : LaneKey) (evs : List Event) (s : BackendHandler) : Prop where
  coalesced : Coalesced s
  count : Event.completions k evs + s.inFlight k ≤
    1 + Event.failures k evs + Event.evictions k evs
  idle : s.inFlight k = 0 → s.cacheReply k = none →
    Event.completions k evs ≤ Event.failures k evs + Event.evictions k evs

namespace FetchBound

variable {k : LaneKey} {evs : List Event} {s s' : BackendHandler}

theorem new (fileDbFactory : Option DBFactory) (db : BlockchainDb) (blockId : Option BlockId) :
    FetchBound k [] (BackendHandler.new fileDbFactory db blockId) :=
  ⟨coalesced_new fileDbFactory db blockId, by simp [inFlight, BackendHandler.new,
    Event.completions], fun _ _ => by simp [Event.completions]⟩

/-- A command keeps the invariant. It starts a future for `k` only when none is in
flight and `k` is not cached, which the failures and evictions so far pay for; an
evicting command pays for the next one. -/
theorem onRequest (h : FetchBound k evs s) {req : BackendRequest}
    (hs : s.onRequest req = some s') : FetchBound k (evs ++ [.dispatch req]) s' := by
  have hE := Event.evictions_dispatch k evs req
  have hP := inFlight_onRequest k hs
  refine ⟨h.coalesced.onRequest hs, ?_, fun hP' hmiss' => ?_⟩ <;>
    simp only [Event.completions_dispatch, Event.failures_dispatch]
  · have := h.count
    rcases hP with heq | ⟨hmiss, hnone, heq⟩
    · split at hE <;> omega
    · -- a new future for `k`: none was in flight, and `k` missed
      have hidle : s.inFlight k = 0 := by simpa [inFlight, hnone] using h.coalesced.count k
      have := h.idle hidle hmiss
      split at hE <;> omega
  · have hP0 : s.inFlight k = 0 := by rcases hP with heq | ⟨-, -, heq⟩ <;> omega
    cases hev : req.evicts k
    · -- `k` was not cached either, since the command does not evict it
      have hmiss : s.cacheReply k = none := by
        cases hc : s.cacheReply k
        · rfl
        · simpa [hmiss'] using cacheReply_isSome_onRequest (by simp [hc]) hev hs
      have := h.idle hP0 hmiss
      simp only [hev, Bool.false_eq_true, ↓reduceIte] at hE; omega
    · have := h.count
      simp only [hev, ↓reduceIte] at hE; omega

/-- Polling a future keeps the invariant: a future for `k` that returns leaves `k`
cached, or it failed and pays for the next one. -/
theorem visit (keccak256 : Bytes → B256) (h : FetchBound k evs s) {n : Nat}
    {r : ProviderRequest} {out : Option r.Output} (hn : s.pendingRequests[n]? = some r)
    (hv : s.visit keccak256 n r out = some s') :
    FetchBound k (evs ++ [.poll r out]) s' := by
  have hsum := completions_add_inFlight_visit keccak256 hn hv k evs
  have hF := Event.failures_poll k evs r out
  have := h.count
  refine ⟨h.coalesced.visit keccak256 hn hv, ?_, fun hP' hmiss' => ?_⟩ <;>
    simp only [Event.evictions_poll]
  · split at hF <;> omega
  · cases hc : Event.completes k (.poll r out)
    · -- another future: `k` was not cached, and nothing moved
      have hmiss : s.cacheReply k = none := by
        cases hm : s.cacheReply k
        · rfl
        · simpa [hmiss'] using cacheReply_isSome_visit keccak256 hv (k := k) (by simp [hm])
      have hR : Event.completions k (evs ++ [.poll r out]) = Event.completions k evs := by
        simp [Event.completions, List.countP_singleton, hc]
      have := h.idle (by omega) hmiss
      split at hF <;> omega
    · -- the future for `k` returned, and it failed, since `k` is not cached
      obtain ⟨o, rfl⟩ : ∃ o, out = some o := by
        cases out with
        | none => simp [Event.completes] at hc
        | some o => exact ⟨o, rfl⟩
      have hk : r.key? = some k := by simpa [Event.completes] using hc
      have hfail : r.isOk o = false := by
        cases hok : r.isOk o
        · rfl
        · simpa [hmiss'] using cacheReply_isSome_visit_of_isOk keccak256 hv hk hok
      have hR : Event.completions k (evs ++ [.poll r (some o)]) =
          Event.completions k evs + 1 := by
        simp [Event.completions, List.countP_singleton, hc]
      simp only [Event.failsFetch, hk, hfail, beq_self_eq_true, Bool.not_false,
        Bool.and_self, ↓reduceIte] at hF
      omega

/-- Along every run from `BackendHandler::new`, the invariant holds. -/
theorem of_reach (keccak256 : Bytes → B256) (fileDbFactory : Option DBFactory)
    (db : BlockchainDb) (blockId : Option BlockId)
    (h : Reach keccak256 (BackendHandler.new fileDbFactory db blockId) evs s) :
    FetchBound k evs s := by
  induction h with
  | nil => exact .new fileDbFactory db blockId
  | dispatch req _ hs ih => exact ih.onRequest hs
  | poll n r out _ hn hv ih => exact ih.visit keccak256 hn hv

end FetchBound

/-- A lookup of address `1` whose fetch fails, then a second lookup, which starts a
second fetch. -/
def failedRefetchRun : List Event :=
  [.dispatch (.basic 1 7),
    .poll (.account 1 (.remote default)) (some (Except.error (.msg "timeout"))),
    .dispatch (.basic 1 8)]

namespace BackendHandler

variable {s s' : BackendHandler}

theorem sent_prefix_onRequest {req : BackendRequest} (h : s.onRequest req = some s') :
    s.sent <+: s'.sent := by
  rcases onRequest_eq_some h with ⟨k, x, -, -, ⟨msg, -, rfl⟩ | ⟨-, hreg⟩⟩ |
    ⟨x, r, -, -, -, -, rfl⟩ | ⟨-, db, b, rfl⟩
  · simp
  · rcases register_eq_some hreg with ⟨ls, -, rfl⟩ | ⟨-, r, -, rfl⟩ <;> simp
  · exact List.prefix_rfl
  · exact List.prefix_rfl

theorem sent_prefix_visit (keccak256 : Bytes → B256) {n : Nat} {r : ProviderRequest}
    {out : Option r.Output} (hv : s.visit keccak256 n r out = some s') : s.sent <+: s'.sent := by
  rcases visit_eq_some keccak256 s hv with
    ⟨-, rfl⟩ | ⟨o, msg, -, -, ⟨k, -, -, rfl⟩ | ⟨x, -, -, rfl⟩⟩
  · exact List.prefix_rfl
  all_goals simp

theorem count_answered_le (h : s.sent <+: s'.sent) (x : Sender) :
    s.answered.count x ≤ s'.answered.count x :=
  (h.sublist.map Prod.fst).count_le x

/-- A command keeps every listener of every key. -/
theorem mem_listenersAt_onRequest {req : BackendRequest} (h : s.onRequest req = some s')
    {k : LaneKey} {x : Sender} (hx : x ∈ (s.listenersAt k).getD []) :
    x ∈ (s'.listenersAt k).getD [] := by
  rcases onRequest_eq_some h with ⟨k', x', -, -, ⟨msg, -, rfl⟩ | ⟨-, hreg⟩⟩ |
    ⟨x', r, -, -, -, -, rfl⟩ | ⟨-, db, b, rfl⟩
  · simpa using hx
  · rcases register_eq_some hreg with ⟨ls, hls, rfl⟩ | ⟨hnone, r, -, rfl⟩
    · -- joining an entry appends to it
      by_cases hkk : k = k'
      · subst hkk; simp_all [listenersAt_setListeners]
      · simpa [listenersAt_setListeners, hkk] using hx
    · -- a new entry is for a key with none, so not `k`
      have hkk : k ≠ k' := by rintro rfl; simp [hnone] at hx
      simpa [listenersAt_setListeners, hkk] using hx
  · simpa using hx
  · simpa using hx

/-- Polling a future that does not return for `k` keeps every listener of `k`. -/
theorem mem_listenersAt_visit (keccak256 : Bytes → B256) {n : Nat} {r : ProviderRequest}
    {out : Option r.Output} (hv : s.visit keccak256 n r out = some s') {k : LaneKey}
    (hc : Event.completes k (.poll r out) = false) {x : Sender}
    (hx : x ∈ (s.listenersAt k).getD []) : x ∈ (s'.listenersAt k).getD [] := by
  rcases visit_eq_some keccak256 s hv with
    ⟨-, rfl⟩ | ⟨o, msg, rfl, -, ⟨k', hk', -, rfl⟩ | ⟨x', -, -, rfl⟩⟩
  · simpa using hx
  · have hkk : k ≠ k' := by rintro rfl; simp [Event.completes, hk'] at hc
    simpa [listenersAt_clearListeners, hkk] using hx
  · simpa using hx

/-- A future for `k` that returns answers every listener of `k`. -/
theorem count_answered_lt_visit (keccak256 : Bytes → B256) {n : Nat} {r : ProviderRequest}
    {o : r.Output} (hv : s.visit keccak256 n r (some o) = some s') {k : LaneKey}
    (hk : r.key? = some k) {x : Sender} (hx : x ∈ (s.listenersAt k).getD []) :
    s.answered.count x < s'.answered.count x := by
  have hpos := List.count_pos_iff.2 hx
  rcases visit_eq_some keccak256 s hv with ⟨h0, -⟩ |
    ⟨o', msg, -, -, ⟨k', hk', -, rfl⟩ | ⟨x', hk', -, -⟩⟩
  · cases h0
  · obtain rfl : k' = k := Option.some.inj (hk'.symm.trans hk)
    simp only [answered, notify_sent, clearListeners_sent, List.map_append, List.map_map,
      List.count_append, Function.comp_def, List.map_id']
    omega
  · simp [hk] at hk'

end BackendHandler

/-- The handler only appends to what it has sent. -/
theorem Reach.sent_prefix {keccak256 : Bytes → B256} {s₀ s : BackendHandler}
    {evs : List Event} (h : Reach keccak256 s₀ evs s) : s₀.sent <+: s.sent := by
  induction h with
  | nil => exact List.prefix_rfl
  | dispatch _ _ hs ih => exact ih.trans (sent_prefix_onRequest hs)
  | poll _ _ _ _ _ hv ih => exact ih.trans (sent_prefix_visit keccak256 hv)

/-- From any state in which `x` is a listener of `k`: as long as no future for `k` has
returned, `x` stays a listener of `k`; once one has, `x` has one more reply. -/
theorem Reach.listener_answered {keccak256 : Bytes → B256} {s₀ s : BackendHandler}
    {evs : List Event} (h : Reach keccak256 s₀ evs s) {k : LaneKey} {x : Sender}
    (hx : x ∈ (s₀.listenersAt k).getD []) :
    (evs.any (Event.completes k) = false → x ∈ (s.listenersAt k).getD []) ∧
      (evs.any (Event.completes k) → s₀.answered.count x < s.answered.count x) := by
  induction h with
  | nil => exact ⟨fun _ => hx, nofun⟩
  | @dispatch evs _ _ req _ hs ih =>
    have hd : (evs ++ [Event.dispatch req]).any (Event.completes k) =
        evs.any (Event.completes k) := by
      simp [Event.completes]
    rw [hd]
    exact ⟨fun hn => mem_listenersAt_onRequest hs (ih.1 hn),
      fun hy => (ih.2 hy).trans_le (count_answered_le (sent_prefix_onRequest hs) x)⟩
  | @poll evs s s' n r out hrun _ hv ih =>
    have hle := count_answered_le (sent_prefix_visit keccak256 hv) x
    rw [List.any_append, List.any_cons, List.any_nil, Bool.or_false]
    cases hearly : evs.any (Event.completes k)
    · cases hc : Event.completes k (.poll r out)
      · exact ⟨fun _ => mem_listenersAt_visit keccak256 hv hc (ih.1 hearly), nofun⟩
      · -- the first return for `k`: `x` is still waiting on it
        obtain ⟨o, rfl⟩ : ∃ o, out = some o := by
          cases out with
          | none => simp [Event.completes] at hc
          | some o => exact ⟨o, rfl⟩
        have hk : r.key? = some k := by simpa [Event.completes] using hc
        exact ⟨nofun, fun _ => (count_answered_le hrun.sent_prefix x).trans_lt
          (count_answered_lt_visit keccak256 hv hk (ih.1 hearly))⟩
    · exact ⟨nofun, fun _ => (ih.2 hearly).trans_le hle⟩

/-- No lookup waits past the return of its key's fetch. A lookup of `k` on channel `x`,
passed to `on_request` in any state, has had its reply on `x` by the time the first
future for `k` to return after it has returned: it is answered at once from the cache,
or it waits as a listener of `k` until then, whatever happens in between. The return
is a step of the run, so one the handler survives (`Reach.panics_eq_false`): account
code that `new_raw` rejects panics the task before anyone is answered. -/
theorem answered_by_next_return (keccak256 : Bytes → B256) {s s₁ s₂ : BackendHandler}
    {req : BackendRequest} {k : LaneKey} {x : Sender} (hk : req.key? = some k)
    (hx : req.sender? = some x) (hs : s.onRequest req = some s₁) {evs : List Event}
    (h : Reach keccak256 s₁ evs s₂) (hdone : ∃ e ∈ evs, e.completes k) :
    s.answered.count x < s₂.answered.count x := by
  rcases onRequest_lookup_eq_some req hk hx hs with ⟨msg, -, rfl⟩ | ⟨-, hreg⟩
  · -- a cache hit answers at once
    calc s.answered.count x < (s.send x msg).answered.count x := by simp [answered]
      _ ≤ s₂.answered.count x := count_answered_le h.sent_prefix x
  · -- a miss leaves `x` a listener of `k`, and sends nothing
    obtain ⟨hmem, hsent⟩ : x ∈ (s₁.listenersAt k).getD [] ∧ s₁.sent = s.sent := by
      rcases register_eq_some hreg with ⟨ls, -, rfl⟩ | ⟨-, r, -, rfl⟩ <;>
        simp [listenersAt_setListeners]
    calc s.answered.count x = s₁.answered.count x := by simp only [answered, hsent]
      _ < s₂.answered.count x := (h.listener_answered hmem).2 (List.any_eq_true.2 hdone)

/-- A lookup of address `1` on channel `7` in a fresh handler starts a fetch, and the
fetch's return answers it. -/
theorem lookup_answered_when_fetch_returns :
    ∃ s₁ s₂, (BackendHandler.new none .empty none).onRequest (.basic 1 7) = some s₁ ∧
      Reach (fun _ => 0) s₁
        [.poll (.account 1 (.remote default)) (some (Except.ok (5, 0, [])))] s₂ ∧
      (∃ e ∈ [Event.poll (.account 1 (.remote default)) (some (Except.ok (5, 0, [])))],
        e.completes (.account 1)) ∧
      (BackendHandler.new none .empty none).answered.count 7 < s₂.answered.count 7 :=
  have hdone : ∃ e ∈ [Event.poll (.account 1 (.remote default)) (some (Except.ok (5, 0, [])))],
      e.completes (.account 1) := ⟨_, List.mem_singleton_self _, rfl⟩
  have hs : (BackendHandler.new none .empty none).onRequest (.basic 1 7) =
      some { BackendHandler.new none .empty none with
        accountRequests := (∅ : AList fun _ : Address => List Sender).insert 1 [7]
        pendingRequests := [.account 1 (.remote default)] } := rfl
  have h : Reach (fun _ => 0) _
      [.poll (.account 1 (.remote default)) (some (Except.ok (5, 0, [])))] _ :=
    .poll 0 _ _ .nil (by rfl) (by rfl)
  ⟨_, _, hs, h, hdone, answered_by_next_return (fun _ => 0)
    (rfl : BackendRequest.key? (.basic 1 7) = some (.account 1)) rfl hs h hdone⟩

end MevDesign.ForkDb
