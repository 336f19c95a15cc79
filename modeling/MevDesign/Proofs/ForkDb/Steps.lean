import MevDesign.ForkDb.Run

/-!
# `MevDesign.Proofs.ForkDb.Steps`: what one step of the handler can do

Every run invariant of the handler is proved from the lemmas here, never by
unfolding `on_request` or `poll` again.

The three listener tables of the source (`account_requests`, `storage_requests`,
`block_requests`) follow one protocol, so the proofs see them side by side: a
`LaneKey` names an address, a slot or a block number, and
`BackendHandler.listenersAt` reads the matching table. `request_account`,
`request_account_storage` and `request_hash` are then one function,
`BackendHandler.register` (`requestAccount_eq_register` and its siblings), and the
completion branches of `poll` are one shape: write the cache, clear the key's entry,
notify its listeners (`onReady_keyed`).

The inversion lemmas:

* `onRequest_eq_some`: a command is answered from the cache, registers its
  listener on a key, spawns a future that carries its own reply channel, or only
  moves the pin or the cache.
* `register_eq_some`: a listener joins an entry, or starts one with a fresh fetch.
* `onReady_keyed` / `onReady_unkeyed`: a ready future builds its `readyReply`, then
  writes it to the cache (`writeReply`), clears its key and sends it to the key's
  listeners, or answers its own channel.
* `visit_eq_some` with `swapRemove_append_perm`: a poll turn that does not panic keeps
  the multiset of pending futures, less the one that completed; `visit_eq_none_iff`
  says when it panics, and `Reach.panics_eq_false` that no run holds such a turn.
-/

set_option autoImplicit false

namespace MevDesign.ForkDb

open scoped List

/-! ### Association lists -/

section AListFacts
variable {K V : Type} [DecidableEq K]

private theorem lookup_foldl_insert (k : K) :
    ∀ (l : List (Sigma fun _ : K => V)) (m : AList (fun _ : K => V)), l.NodupKeys →
      (l.foldl (fun r a => r.insert a.1 a.2) m).lookup k = (l.dlookup k).or (m.lookup k)
  | [], _, _ => rfl
  | e :: l, m, hnd => by
    rw [List.nodupKeys_cons] at hnd
    rw [List.foldl_cons, lookup_foldl_insert k l _ hnd.2]
    by_cases hk : k = e.1
    · subst hk
      obtain ⟨a, b⟩ := e
      rw [AList.lookup_insert, List.dlookup_eq_none.mpr hnd.1, List.dlookup_cons_eq]
      rfl
    · rw [AList.lookup_insert_ne hk, List.dlookup_cons_ne _ _ hk]

/-- A lookup after a bulk update: the payload's value where it has the key, the old
value elsewhere. -/
theorem lookup_insertAll (map data : AList (fun _ : K => V)) (k : K) :
    (insertAll map data).lookup k = (data.lookup k).or (map.lookup k) :=
  lookup_foldl_insert k data.entries map data.nodupKeys

/-- The listeners of every entry of a listener table. -/
def allListeners (t : AList (fun _ : K => List Sender)) : List Sender :=
  (t.entries.map Sigma.snd).flatten

theorem allListeners_insert (t : AList (fun _ : K => List Sender)) (k : K)
    (v : List Sender) : allListeners (t.insert k v) = v ++ allListeners (t.erase k) := by
  simp only [allListeners, AList.insert_entries, List.map_cons, List.flatten_cons]
  rfl

/-- An entry's listeners and the rest of the table make up the whole table. -/
theorem allListeners_perm_erase (t : AList (fun _ : K => List Sender)) (k : K)
    (ls : List Sender) (h : t.lookup k = some ls) :
    allListeners t ~ ls ++ allListeners (t.erase k) := by
  have hk : k ∈ t.entries.keys := AList.mem_keys.mp (AList.lookup_isSome.mp (by simp [h]))
  obtain ⟨b, l₁, l₂, hk₁, he, hker⟩ := List.exists_of_kerase hk
  have hb : b = ls := by
    have hl : t.entries.dlookup k = some ls := h
    rw [he, List.dlookup_append, List.dlookup_eq_none.mpr hk₁, List.dlookup_cons_eq] at hl
    exact Option.some.inj hl
  show (t.entries.map Sigma.snd).flatten ~ ls ++ ((t.entries.kerase k).map Sigma.snd).flatten
  rw [hker, he, ← hb]
  simpa [List.flatten_append] using
    (List.perm_append_comm : (l₁.map Sigma.snd).flatten ++ b ~ _).append_right
      (l₂.map Sigma.snd).flatten

theorem allListeners_erase_of_lookup_eq_none (t : AList (fun _ : K => List Sender)) {k : K}
    (h : t.lookup k = none) : allListeners (t.erase k) = allListeners t := by
  have hk : k ∉ t.entries.keys := fun hk => AList.lookup_eq_none.mp h (AList.mem_keys.mpr hk)
  show ((t.entries.kerase k).map Sigma.snd).flatten = _
  rw [List.kerase_of_not_mem_keys hk]
  rfl

theorem mem_allListeners {t : AList (fun _ : K => List Sender)} {x : Sender}
    (h : x ∈ allListeners t) : ∃ k ls, t.lookup k = some ls ∧ x ∈ ls := by
  obtain ⟨ls, hls, hx⟩ := List.mem_flatten.mp h
  obtain ⟨⟨k, ls⟩, he, rfl⟩ := List.mem_map.mp hls
  exact ⟨k, ls, AList.mem_lookup_iff.mpr he, hx⟩

end AListFacts

/-! ### `swap_remove` -/

/-- `swap_remove(n)` and the removed element together are the list again. -/
theorem swapRemove_append_perm {α : Type} (l : List α) (n : Nat) (hn : n < l.length) :
    swapRemove l n ++ [l[n]] ~ l := by
  obtain ⟨l', x, rfl⟩ : ∃ l' x, l = l' ++ [x] := by
    rcases List.eq_nil_or_concat l with rfl | ⟨L, b, rfl⟩
    · simp at hn
    · exact ⟨L, b, by simp⟩
  simp only [swapRemove, List.getLast?_concat]
  rcases Nat.lt_or_ge n l'.length with h | h
  · rw [List.set_append_left _ _ h, List.dropLast_concat, List.getElem_append_left h,
      List.set_eq_take_append_cons_drop, if_pos h]
    conv => rhs; rw [← List.take_append_drop n l', List.drop_eq_getElem_cons h]
    simp only [List.append_assoc, List.cons_append, List.nil_append]
    refine List.Perm.append_left _ ?_
    calc x :: (l'.drop (n + 1) ++ [l'[n]])
        ~ x :: l'[n] :: l'.drop (n + 1) := .cons _ (List.perm_append_singleton _ _)
      _ ~ l'[n] :: x :: l'.drop (n + 1) := .swap _ _ _
      _ ~ l'[n] :: (l'.drop (n + 1) ++ [x]) := .cons _ (List.perm_append_singleton _ _).symm
  · have hn' : n = l'.length := by simp at hn; omega
    subst hn'
    simp

/-- The pending futures after a turn that found `r` at `n`, with `r` put back. -/
theorem swapRemove_perm_of_getElem? {α : Type} {l : List α} {n : Nat} {r : α}
    (h : l[n]? = some r) : swapRemove l n ++ [r] ~ l := by
  obtain ⟨hn, rfl⟩ := List.getElem?_eq_some_iff.mp h
  exact swapRemove_append_perm l n hn

/-! ### The three listener tables side by side -/

/-- The key of a coalesced lookup: an address, a storage slot or a block number. -/
inductive LaneKey where
  | account (address : Address)
  | storage (address : Address) (idx : U256)
  | block (number : Nat)
deriving DecidableEq

/-- The key a future fetches, for the three kinds of future that coalesce. -/
def ProviderRequest.key? : ProviderRequest → Option LaneKey
  | .account a _ => some (.account a)
  | .storage a i _ => some (.storage a i)
  | .blockHash n => some (.block n)
  | _ => none

/-- The key a lookup command asks for. -/
def BackendRequest.key? : BackendRequest → Option LaneKey
  | .basic a _ => some (.account a)
  | .storage a i _ => some (.storage a i)
  | .blockHash n _ => some (.block n)
  | _ => none

theorem ProviderRequest.key?_or_sender? (r : ProviderRequest) :
    (∃ k, r.key? = some k ∧ r.sender? = none) ∨
      (∃ x, r.key? = none ∧ r.sender? = some x) := by
  cases r <;> simp [key?, sender?]

section
variable {K V : Type} [DecidableEq K]

theorem lookup_insert_eq_ite (t : AList (fun _ : K => V)) (k k' : K) (v : V) :
    (t.insert k v).lookup k' = if k' = k then some v else t.lookup k' := by
  split
  · subst_vars; exact AList.lookup_insert t
  · exact AList.lookup_insert_ne ‹_›

theorem lookup_erase_eq_ite (t : AList (fun _ : K => V)) (k k' : K) :
    (t.erase k).lookup k' = if k' = k then none else t.lookup k' := by
  split
  · subst_vars; exact AList.lookup_erase k' t
  · exact AList.lookup_erase_ne ‹_›

end

namespace BackendHandler

/-- The listeners registered on a key, from the key's table. -/
def listenersAt (s : BackendHandler) : LaneKey → Option (List Sender)
  | .account a => s.accountRequests.lookup a
  | .storage a i => s.storageRequests.lookup (a, i)
  | .block n => s.blockRequests.lookup n

/-- `table.insert(key, listeners)` in the key's table. -/
def setListeners (s : BackendHandler) : LaneKey → List Sender → BackendHandler
  | .account a, v => { s with accountRequests := s.accountRequests.insert a v }
  | .storage a i, v => { s with storageRequests := s.storageRequests.insert (a, i) v }
  | .block n, v => { s with blockRequests := s.blockRequests.insert n v }

/-- `table.remove(&key)` in the key's table. -/
def clearListeners (s : BackendHandler) : LaneKey → BackendHandler
  | .account a => { s with accountRequests := s.accountRequests.erase a }
  | .storage a i => { s with storageRequests := s.storageRequests.erase (a, i) }
  | .block n => { s with blockRequests := s.blockRequests.erase n }

/-- Every listener of the three tables. -/
def listenerList (s : BackendHandler) : List Sender :=
  allListeners s.accountRequests ++ allListeners s.storageRequests ++
    allListeners s.blockRequests

/-- The reply a cache hit on the key sends. -/
def cacheReply (s : BackendHandler) : LaneKey → Option Reply
  | .account a => (s.db.accounts.lookup a).map (.account ∘ .ok)
  | .storage a i => ((s.db.storage.lookup a).bind (AList.lookup i)).map (.storage ∘ .ok)
  | .block n => (s.db.blockHashes.lookup n).map (.blockHash ∘ .ok)

/-- The future a miss on the key starts; `none` where the source panics. -/
def spawnFor (s : BackendHandler) : LaneKey → Option ProviderRequest
  | .account a => s.getAccountReq a
  | .storage a i => s.source.map (.storage a i)
  | .block n => some (.blockHash n)

/-- The `entry(key)` protocol that `request_account`, `request_account_storage` and
`request_hash` share: join the entry, or start it together with the future
`spawn`. -/
def register (s : BackendHandler) (k : LaneKey) (x : Sender)
    (spawn : Option ProviderRequest) : Option BackendHandler :=
  match s.listenersAt k with
  | some ls => some (s.setListeners k (ls ++ [x]))
  | none => spawn.map fun r =>
      { s.setListeners k [x] with pendingRequests := s.pendingRequests ++ [r] }

section Fields
variable (s : BackendHandler) (k : LaneKey) (v : List Sender)

@[simp] theorem setListeners_db : (s.setListeners k v).db = s.db := by cases k <;> rfl
@[simp] theorem setListeners_pendingRequests :
    (s.setListeners k v).pendingRequests = s.pendingRequests := by cases k <;> rfl
@[simp] theorem setListeners_sent : (s.setListeners k v).sent = s.sent := by cases k <;> rfl
@[simp] theorem setListeners_blockId : (s.setListeners k v).blockId = s.blockId := by
  cases k <;> rfl
@[simp] theorem setListeners_fileDbFactory :
    (s.setListeners k v).fileDbFactory = s.fileDbFactory := by cases k <;> rfl
@[simp] theorem clearListeners_db : (s.clearListeners k).db = s.db := by cases k <;> rfl
@[simp] theorem clearListeners_pendingRequests :
    (s.clearListeners k).pendingRequests = s.pendingRequests := by cases k <;> rfl
@[simp] theorem clearListeners_sent : (s.clearListeners k).sent = s.sent := by cases k <;> rfl
@[simp] theorem clearListeners_blockId : (s.clearListeners k).blockId = s.blockId := by
  cases k <;> rfl
@[simp] theorem clearListeners_fileDbFactory :
    (s.clearListeners k).fileDbFactory = s.fileDbFactory := by cases k <;> rfl
@[simp] theorem setListeners_queuedRequests :
    (s.setListeners k v).queuedRequests = s.queuedRequests := by cases k <;> rfl
@[simp] theorem clearListeners_queuedRequests :
    (s.clearListeners k).queuedRequests = s.queuedRequests := by cases k <;> rfl
@[simp] theorem setListeners_cacheReply (k' : LaneKey) :
    (s.setListeners k v).cacheReply k' = s.cacheReply k' := by cases k <;> cases k' <;> rfl
@[simp] theorem clearListeners_cacheReply (k' : LaneKey) :
    (s.clearListeners k).cacheReply k' = s.cacheReply k' := by cases k <;> cases k' <;> rfl

section Send
variable (x : Sender) (ls : List Sender) (msg : Reply)

@[simp] theorem send_sent : (s.send x msg).sent = s.sent ++ [(x, msg)] := rfl
@[simp] theorem send_db : (s.send x msg).db = s.db := rfl
@[simp] theorem send_pendingRequests : (s.send x msg).pendingRequests = s.pendingRequests :=
  rfl
@[simp] theorem send_blockId : (s.send x msg).blockId = s.blockId := rfl
@[simp] theorem send_queuedRequests : (s.send x msg).queuedRequests = s.queuedRequests := rfl
@[simp] theorem send_fileDbFactory : (s.send x msg).fileDbFactory = s.fileDbFactory := rfl
@[simp] theorem listenersAt_send : (s.send x msg).listenersAt k = s.listenersAt k := by
  cases k <;> rfl
@[simp] theorem notify_sent : (s.notify ls msg).sent = s.sent ++ ls.map (fun x => (x, msg)) :=
  rfl
@[simp] theorem notify_db : (s.notify ls msg).db = s.db := rfl
@[simp] theorem notify_pendingRequests :
    (s.notify ls msg).pendingRequests = s.pendingRequests := rfl
@[simp] theorem notify_blockId : (s.notify ls msg).blockId = s.blockId := rfl
@[simp] theorem notify_queuedRequests :
    (s.notify ls msg).queuedRequests = s.queuedRequests := rfl
@[simp] theorem notify_fileDbFactory : (s.notify ls msg).fileDbFactory = s.fileDbFactory := rfl
@[simp] theorem listenersAt_notify : (s.notify ls msg).listenersAt k = s.listenersAt k := by
  cases k <;> rfl

@[simp] theorem cacheReply_send : (s.send x msg).cacheReply k = s.cacheReply k := by
  cases k <;> rfl
@[simp] theorem cacheReply_notify : (s.notify ls msg).cacheReply k = s.cacheReply k := by
  cases k <;> rfl

end Send

theorem listenersAt_setListeners (k' : LaneKey) :
    (s.setListeners k v).listenersAt k' = if k' = k then some v else s.listenersAt k' := by
  cases k <;> cases k' <;> simp [setListeners, listenersAt, lookup_insert_eq_ite, and_comm]

theorem listenersAt_clearListeners (k' : LaneKey) :
    (s.clearListeners k).listenersAt k' = if k' = k then none else s.listenersAt k' := by
  cases k <;> cases k' <;> simp [clearListeners, listenersAt, lookup_erase_eq_ite, and_comm]

/-- The listeners depend on the three tables only: a record that keeps the tables of
`s` has the listeners of `s`. -/
@[simp] theorem listenersAt_mk (f : Option DBFactory) (db : BlockchainDb)
    (p : List ProviderRequest) (q : List BackendRequest) (b : Option BlockId)
    (sent : List (Sender × Reply)) :
    (BackendHandler.mk f db p s.accountRequests s.storageRequests s.blockRequests q b
      sent).listenersAt k = s.listenersAt k := by
  cases k <;> rfl

@[simp] theorem listenerList_mk (f : Option DBFactory) (db : BlockchainDb)
    (p : List ProviderRequest) (q : List BackendRequest) (b : Option BlockId)
    (sent : List (Sender × Reply)) :
    (BackendHandler.mk f db p s.accountRequests s.storageRequests s.blockRequests q b
      sent).listenerList = s.listenerList := rfl

@[simp] theorem listenerList_clearListeners_mk (f : Option DBFactory) (db : BlockchainDb)
    (p : List ProviderRequest) (q : List BackendRequest) (b : Option BlockId)
    (sent : List (Sender × Reply)) :
    ((BackendHandler.mk f db p s.accountRequests s.storageRequests s.blockRequests q b
      sent).clearListeners k).listenerList = (s.clearListeners k).listenerList := by
  cases k <;> rfl

@[simp] theorem listenerList_send (x : Sender) (msg : Reply) :
    (s.send x msg).listenerList = s.listenerList := rfl

@[simp] theorem listenerList_notify (ls : List Sender) (msg : Reply) :
    (s.notify ls msg).listenerList = s.listenerList := rfl

theorem listenerList_setListeners :
    (s.setListeners k v).listenerList ~ v ++ (s.clearListeners k).listenerList := by
  rw [List.perm_iff_count]; intro x
  cases k <;> simp [setListeners, clearListeners, listenerList, allListeners_insert] <;> omega

/-- A key's listeners and the tables without the key make up all the listeners. -/
theorem listenerList_perm_clear {ls : List Sender} (h : s.listenersAt k = some ls) :
    s.listenerList ~ ls ++ (s.clearListeners k).listenerList := by
  rw [List.perm_iff_count]; intro x
  cases k <;> simp only [listenersAt] at h <;>
    simp [clearListeners, listenerList,
      (allListeners_perm_erase _ _ _ h).count_eq x] <;> omega

/-- The listeners of a key, possibly none, and the tables without the key make up all
the listeners. -/
theorem listenerList_perm_clear' :
    s.listenerList ~ (s.listenersAt k).getD [] ++ (s.clearListeners k).listenerList := by
  cases h : s.listenersAt k with
  | some ls => exact listenerList_perm_clear s k h
  | none =>
    cases k <;> simp only [listenersAt] at h <;>
      simp [clearListeners, listenerList, allListeners_erase_of_lookup_eq_none _ h]

theorem mem_listenerList {x : Sender} (h : x ∈ s.listenerList) :
    ∃ k ls, s.listenersAt k = some ls ∧ x ∈ ls := by
  simp only [listenerList, List.mem_append] at h
  rcases h with (h | h) | h
  · obtain ⟨a, ls, h, hx⟩ := mem_allListeners h; exact ⟨.account a, ls, h, hx⟩
  · obtain ⟨⟨a, i⟩, ls, h, hx⟩ := mem_allListeners h; exact ⟨.storage a i, ls, h, hx⟩
  · obtain ⟨n, ls, h, hx⟩ := mem_allListeners h; exact ⟨.block n, ls, h, hx⟩

end Fields

theorem listenersAt_congr {s s' : BackendHandler}
    (h₁ : s'.accountRequests = s.accountRequests) (h₂ : s'.storageRequests = s.storageRequests)
    (h₃ : s'.blockRequests = s.blockRequests) : s'.listenersAt = s.listenersAt := by
  funext k; cases k <;> simp [listenersAt, *]

theorem listenerList_congr {s s' : BackendHandler}
    (h₁ : s'.accountRequests = s.accountRequests) (h₂ : s'.storageRequests = s.storageRequests)
    (h₃ : s'.blockRequests = s.blockRequests) : s'.listenerList = s.listenerList := by
  simp [listenerList, *]

/-! ### One step -/

theorem requestAccount_eq_register (s : BackendHandler) (a : Address) (x : Sender) :
    s.requestAccount a x = s.register (.account a) x (s.spawnFor (.account a)) := rfl

theorem requestAccountStorage_eq_register (s : BackendHandler) (a : Address) (i : U256)
    (x : Sender) :
    s.requestAccountStorage a i x = s.register (.storage a i) x (s.spawnFor (.storage a i)) := by
  unfold requestAccountStorage register spawnFor
  simp only [listenersAt]
  cases s.storageRequests.lookup (a, i) <;> cases s.source <;> rfl

theorem requestHash_eq_register (s : BackendHandler) (n : Nat) (x : Sender) :
    some (s.requestHash n x) = s.register (.block n) x (s.spawnFor (.block n)) := by
  unfold requestHash register
  simp only [listenersAt]
  cases s.blockRequests.lookup n <;> rfl

/-- A lookup command: a cache hit replies at once, a miss goes through `register`. -/
theorem onRequest_lookup (s : BackendHandler) {req : BackendRequest} {k : LaneKey}
    {x : Sender} (hk : req.key? = some k) (hx : req.sender? = some x) :
    s.onRequest req = match s.cacheReply k with
      | some msg => some (s.send x msg)
      | none => s.register k x (s.spawnFor k) := by
  cases req <;> simp only [BackendRequest.key?, BackendRequest.sender?, Option.some.injEq,
    reduceCtorEq] at hk hx <;> subst hk hx
  · simp only [onRequest, cacheReply]
    cases s.db.accounts.lookup _ <;> rfl
  · simp only [onRequest, cacheReply, requestAccountStorage_eq_register]
    cases (s.db.storage.lookup _).bind (AList.lookup _) <;> rfl
  · simp only [onRequest, cacheReply, requestHash_eq_register]
    cases s.db.blockHashes.lookup _ <;> rfl

theorem spawnFor_eq_some {s : BackendHandler} {k : LaneKey} {r : ProviderRequest}
    (h : s.spawnFor k = some r) : r.key? = some k ∧ r.sender? = none := by
  cases k <;> simp only [spawnFor, getAccountReq, Option.map_eq_some', Option.some.injEq] at h
  · obtain ⟨_, _, rfl⟩ := h; exact ⟨rfl, rfl⟩
  · obtain ⟨_, _, rfl⟩ := h; exact ⟨rfl, rfl⟩
  · subst h; exact ⟨rfl, rfl⟩

/-- `register` joins an entry, or starts it with the future it was given. -/
theorem register_eq_some {s s' : BackendHandler} {k : LaneKey} {x : Sender}
    {spawn : Option ProviderRequest} (h : s.register k x spawn = some s') :
    (∃ ls, s.listenersAt k = some ls ∧ s' = s.setListeners k (ls ++ [x])) ∨
    (s.listenersAt k = none ∧ ∃ r, spawn = some r ∧
      s' = { s.setListeners k [x] with pendingRequests := s.pendingRequests ++ [r] }) := by
  unfold register at h
  split at h
  · exact .inl ⟨_, ‹_›, (Option.some.inj h).symm⟩
  · obtain ⟨r, hr, rfl⟩ := Option.map_eq_some'.mp h
    exact .inr ⟨‹_›, r, hr, rfl⟩

/-- A lookup command either hits the cache or goes through `register`. -/
theorem onRequest_lookup_eq_some {s s' : BackendHandler} (req : BackendRequest)
    {k : LaneKey} {x : Sender} (hk : req.key? = some k) (hx : req.sender? = some x)
    (h : s.onRequest req = some s') :
    (∃ msg, s.cacheReply k = some msg ∧ s' = s.send x msg) ∨
      (s.cacheReply k = none ∧ s.register k x (s.spawnFor k) = some s') := by
  rw [onRequest_lookup s hk hx] at h
  split at h
  · exact .inl ⟨_, ‹_›, (Option.some.inj h).symm⟩
  · exact .inr ⟨‹_›, h⟩

/-- What `on_request` can do: answer a lookup from the cache, register its listener,
spawn a future that carries the command's reply channel, or move only the pin or
the cache. -/
theorem onRequest_eq_some {s s' : BackendHandler} {req : BackendRequest}
    (h : s.onRequest req = some s') :
    (∃ k x, req.key? = some k ∧ req.sender? = some x ∧
      ((∃ msg, s.cacheReply k = some msg ∧ s' = s.send x msg) ∨
        (s.cacheReply k = none ∧ s.register k x (s.spawnFor k) = some s'))) ∨
    (∃ x r, req.key? = none ∧ req.sender? = some x ∧ r.key? = none ∧ r.sender? = some x ∧
      s' = { s with pendingRequests := s.pendingRequests ++ [r] }) ∨
    (req.sender? = none ∧ ∃ db blockId, s' = { s with db := db, blockId := blockId }) := by
  cases req with
  | basic a x => exact .inl ⟨_, _, rfl, rfl, onRequest_lookup_eq_some (.basic a x) rfl rfl h⟩
  | storage a i x =>
    exact .inl ⟨_, _, rfl, rfl, onRequest_lookup_eq_some (.storage a i x) rfl rfl h⟩
  | blockHash n x =>
    exact .inl ⟨_, _, rfl, rfl, onRequest_lookup_eq_some (.blockHash n x) rfl rfl h⟩
  | fullBlock b x =>
    exact .inr (.inl ⟨x, .fullBlock b x, rfl, rfl, rfl, rfl, (Option.some.inj h).symm⟩)
  | transaction t x =>
    exact .inr (.inl ⟨x, .transaction t x, rfl, rfl, rfl, rfl, (Option.some.inj h).symm⟩)
  | anyRequest x =>
    exact .inr (.inl ⟨x, .anyRequest x, rfl, rfl, rfl, rfl, (Option.some.inj h).symm⟩)
  | setPinnedBlock b => exact .inr (.inr ⟨rfl, _, _, (Option.some.inj h).symm⟩)
  | updateAddress d => exact .inr (.inr ⟨rfl, _, _, (Option.some.inj h).symm⟩)
  | updateStorage d => exact .inr (.inr ⟨rfl, _, _, (Option.some.inj h).symm⟩)
  | updateBlockHash d => exact .inr (.inr ⟨rfl, _, _, (Option.some.inj h).symm⟩)

section Ready
variable (keccak256 : Bytes → B256)

/-- The message a ready future sends, to every listener of its key or to its own
channel; `none` where building it panics (`accountInfo`). -/
def readyReply : (r : ProviderRequest) → r.Output → Option Reply
  | .account a _, .error err => some (.account (.error (.getAccount a err)))
  | .account _ _, .ok (balance, nonce, code) =>
    (accountInfo keccak256 balance nonce code).map (.account ∘ .ok)
  | .storage a idx _, .error err => some (.storage (.error (.getStorage a idx err)))
  | .storage _ _ _, .ok value => some (.storage (.ok value))
  | .blockHash number, .error err => some (.blockHash (.error (.getBlockHash number err)))
  | .blockHash _, .ok value => some (.blockHash (.ok value))
  | .fullBlock number _, resp => some <| .fullBlock <| match resp with
    | .ok (some block) => .ok block
    | .ok none => .error (.blockNotFound number)
    | .error err => .error (.getFullBlock number err)
  | .transaction txHash _, resp => some <| .transaction <| match resp with
    | .ok tx => .ok tx
    | .error err => .error (.getTransaction txHash err)
  | .anyRequest _, resp => some (.any resp)

/-- The cache after the listeners of `k` are sent `msg`: an `Ok` account, slot or
block hash is written at the key; an error leaves the cache as it was. -/
def writeReply (db : BlockchainDb) : LaneKey → Reply → BlockchainDb
  | .account a, .account (.ok acc) => { db with accounts := db.accounts.insert a acc }
  | .storage a i, .storage (.ok v) => { db with storage := insertSlot db.storage a i v }
  | .block n, .blockHash (.ok hash) => { db with blockHashes := db.blockHashes.insert n hash }
  | _, _ => db

variable (s : BackendHandler)

/-- A ready account, storage or block-hash future writes its reply to the cache,
clears its key's entry and sends the reply to every listener of the key. -/
theorem onReady_keyed {r : ProviderRequest} (o : r.Output) {k : LaneKey}
    (hk : r.key? = some k) :
    s.onReady keccak256 r o = (readyReply keccak256 r o).map fun msg =>
      ({ s with db := writeReply s.db k msg }.clearListeners k).notify
        ((s.listenersAt k).getD []) msg := by
  cases r with
  | account a src => cases hk; cases o with
    | error e => rfl
    | ok v =>
      obtain ⟨b, n, c⟩ := v
      simp only [onReady, readyReply]
      cases accountInfo keccak256 b n c <;> rfl
  | storage a i src => cases hk; cases o <;> rfl
  | blockHash n => cases hk; cases o <;> rfl
  | _ => cases hk

/-- A ready full-block, transaction or `AnyRequest` future answers its own channel. -/
theorem onReady_unkeyed {r : ProviderRequest} (o : r.Output) {x : Sender}
    (hx : r.sender? = some x) :
    s.onReady keccak256 r o = (readyReply keccak256 r o).map (s.send x) := by
  cases r <;> simp only [ProviderRequest.sender?, Option.some.injEq, reduceCtorEq] at hx <;>
    subst hx <;> rfl

/-- A slot write answers at its slot and leaves every other slot alone. -/
theorem insertSlot_lookup (st : AList (fun _ : Address => StorageInfo)) (a i v a' i' : Nat) :
    ((insertSlot st a i v).lookup a').bind (AList.lookup i') =
      if a = a' ∧ i = i' then some v else (st.lookup a').bind (AList.lookup i') := by
  simp only [insertSlot, lookup_insert_eq_ite]
  by_cases ha : a = a'
  · subst ha
    simp only [if_true, Option.some_bind, lookup_insert_eq_ite, true_and]
    by_cases hi : i = i'
    · simp [hi]
    · rw [if_neg (Ne.symm hi), if_neg hi]; cases st.lookup a <;> rfl
  · simp [ha, Ne.symm ha]

/-- Outside the written key the cache answers as before. -/
theorem cacheReply_writeReply_of_ne {k k' : LaneKey} (msg : Reply) (hk : k ≠ k') :
    ({ s with db := writeReply s.db k msg } : BackendHandler).cacheReply k' =
      s.cacheReply k' := by
  rcases k with a | ⟨a, i⟩ | n <;> rcases k' with a' | ⟨a', i'⟩ | n' <;>
    rcases msg with res | res | res | res | res | res <;> try rfl
  all_goals cases res <;> try rfl
  · simp_all [writeReply, cacheReply, lookup_insert_eq_ite, eq_comm]
  · have hne : ¬(a = a' ∧ i = i') := fun ⟨h₁, h₂⟩ => hk (by rw [h₁, h₂])
    simp only [writeReply, cacheReply, insertSlot_lookup, if_neg hne]
  · simp_all [writeReply, cacheReply, lookup_insert_eq_ite, eq_comm]

/-- A poll turn that does not panic pushes a pending future back, hands a keyed result
to its key's listeners after writing it to the cache, or answers an unkeyed future's
own channel. -/
theorem visit_eq_some {n : Nat} {r : ProviderRequest} {out : Option r.Output}
    {s' : BackendHandler} (h : s.visit keccak256 n r out = some s') :
    (out = none ∧ s' = { s with pendingRequests := swapRemove s.pendingRequests n ++ [r] }) ∨
    ∃ o msg, out = some o ∧ readyReply keccak256 r o = some msg ∧
      ((∃ k, r.key? = some k ∧ r.sender? = none ∧
        s' = ({ s with
          pendingRequests := swapRemove s.pendingRequests n
          db := writeReply s.db k msg }.clearListeners k).notify ((s.listenersAt k).getD []) msg) ∨
       (∃ x, r.key? = none ∧ r.sender? = some x ∧
        s' = { s with pendingRequests := swapRemove s.pendingRequests n }.send x msg)) := by
  cases out with
  | none => exact .inl ⟨rfl, (Option.some.inj h).symm⟩
  | some o =>
    refine .inr ?_
    rcases r.key?_or_sender? with ⟨k, hk, hx⟩ | ⟨x, hk, hx⟩
    · rw [visit, onReady_keyed keccak256 _ o hk] at h
      obtain ⟨msg, hmsg, rfl⟩ := Option.map_eq_some'.mp h
      exact ⟨o, msg, rfl, hmsg, .inl ⟨k, hk, hx, rfl⟩⟩
    · rw [visit, onReady_unkeyed keccak256 _ o hx] at h
      obtain ⟨msg, hmsg, rfl⟩ := Option.map_eq_some'.mp h
      exact ⟨o, msg, rfl, hmsg, .inr ⟨x, hk, hx, rfl⟩⟩

/-- A poll turn panics exactly when the future is ready with a result whose reply cannot
be built. -/
theorem visit_eq_none_iff (n : Nat) (r : ProviderRequest) (out : Option r.Output) :
    s.visit keccak256 n r out = none ↔ ∃ o, out = some o ∧ readyReply keccak256 r o = none := by
  cases out with
  | none => simp [visit]
  | some o =>
    rcases r.key?_or_sender? with ⟨k, hk, -⟩ | ⟨x, -, hx⟩
    · simp [visit, onReady_keyed keccak256 _ o hk]
    · simp [visit, onReady_unkeyed keccak256 _ o hx]

/-- The fields a poll turn leaves alone. -/
theorem visit_frame {n : Nat} {r : ProviderRequest} {out : Option r.Output}
    {s' : BackendHandler} (h : s.visit keccak256 n r out = some s') :
    s'.queuedRequests = s.queuedRequests ∧ s'.blockId = s.blockId ∧
      s'.fileDbFactory = s.fileDbFactory := by
  rcases visit_eq_some keccak256 s h with
    ⟨-, rfl⟩ | ⟨o, msg, -, -, ⟨k, -, -, rfl⟩ | ⟨x, -, -, rfl⟩⟩ <;> simp

/-- A poll turn takes the polled future out of the pending list, and puts it back when
it is still pending. -/
theorem pendingRequests_visit {n : Nat} {r : ProviderRequest} {out : Option r.Output}
    {s' : BackendHandler} (h : s.visit keccak256 n r out = some s') :
    s'.pendingRequests =
      swapRemove s.pendingRequests n ++ if out.isNone then [r] else [] := by
  rcases visit_eq_some keccak256 s h with
    ⟨rfl, rfl⟩ | ⟨o, msg, rfl, -, ⟨k, -, -, rfl⟩ | ⟨x, -, -, rfl⟩⟩ <;> simp

end Ready

end BackendHandler

/-- A poll event whose result the handler cannot handle: the turn panics. -/
def Event.panics (keccak256 : Bytes → B256) : Event → Bool
  | .poll r (some o) => (BackendHandler.readyReply keccak256 r o).isNone
  | _ => false

theorem BackendHandler.visit_eq_none_iff_panics (keccak256 : Bytes → B256)
    (s : BackendHandler) (n : Nat) (r : ProviderRequest) (out : Option r.Output) :
    s.visit keccak256 n r out = none ↔ (Event.poll r out).panics keccak256 := by
  rw [visit_eq_none_iff]
  cases out <;> simp [Event.panics, Option.isNone_iff_eq_none]

/-- A run holds no return the handler cannot handle: a panic ends the task. -/
theorem Reach.panics_eq_false {keccak256 : Bytes → B256} {s₀ s : BackendHandler}
    {evs : List Event} (h : Reach keccak256 s₀ evs s) :
    ∀ e ∈ evs, e.panics keccak256 = false := by
  induction h with
  | nil => simp
  | dispatch req _ _ ih =>
    simp only [List.mem_append, List.mem_singleton]
    rintro e (he | rfl)
    · exact ih e he
    · rfl
  | @poll evs s s' n r out _ _ hv ih =>
    simp only [List.mem_append, List.mem_singleton]
    rintro e (he | rfl)
    · exact ih e he
    · refine Bool.eq_false_iff.2 fun hp => ?_
      rw [(BackendHandler.visit_eq_none_iff_panics keccak256 s n r out).2 hp] at hv
      cases hv

end MevDesign.ForkDb
