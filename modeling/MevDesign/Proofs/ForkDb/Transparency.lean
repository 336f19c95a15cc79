import MevDesign.ForkDb.Futures
import MevDesign.Proofs.ForkDb.Steps

/-!
# `MevDesign.Proofs.ForkDb.Transparency`: the cache answers as the remote does

The handler exists to make a lookup cheaper, not different. Fix the remote's state
at the pin as a `Chain`. Suppose every future that completes computed its result,
by its own body (`Futures.lean`), against a snapshot of the provider in which each
call fails or returns the chain's value (`RemoteProvider.Serves`). Then every reply
the handler sends to a lookup of a key is the chain's value for that key, or the
error of a failed fetch of that key, whether it comes from the cache or from the
fan-out of a fetch that other clients started.

`Transparent` is the invariant, over the run's events as well as the state: the
cache holds the chain's values (`Chain.Caches`), each sent message fits the command
that issued its channel (`Chain.Answers`), and each held channel, in a listener
entry or in a pending future, was issued by a command about that key. The step
lemmas are `Transparent.extend`, `Transparent.onRequest` and `Transparent.visit`;
`transparent_of_reach` runs them along a run. `cache_transparency` reads the
replies off the invariant; the callers' distinct channels tie each reply to the
one command that issued its channel.

The statement needs no local archive (an archive answers from another source), no
bulk update and no `SetPinnedBlock` (both move the cache or the pin away from the
chain), and a cache that starts with the chain's values, as the empty cache of
`EVM::new` does.
-/

set_option autoImplicit false

namespace MevDesign.ForkDb

open BackendHandler

/-- The remote's state at the pin, key by key. -/
structure Chain where
  balance : Address → U256
  nonce : Address → Nat
  code : Address → Bytes
  storage : Address → U256 → U256
  block : Nat → Option AnyRpcBlock

namespace Chain

variable (keccak256 : Bytes → B256) (c : Chain)

/-- The account a lookup should return: the remote balance, nonce and code, with
`code_hash` the keccak-256 hash of non-empty code and `KECCAK_EMPTY` for empty code.
The code is what revm decodes the remote code to; no reply carries code it cannot
decode, since `poll` panics on that. -/
def accountInfo (a : Address) : AccountInfo where
  balance := c.balance a
  nonce := c.nonce a
  codeHash := if (c.code a).isEmpty then KECCAK_EMPTY else keccak256 (c.code a)
  code := Bytecode.newRaw (c.code a)

/-- The hash a block-hash lookup should return: the header hash of the remote's
block, `KECCAK_EMPTY` when the remote has none. -/
def blockHash (n : Nat) : B256 :=
  match c.block n with
  | some block => block.header.hash
  | none => KECCAK_EMPTY

/-- The successful reply the chain gives for a key. -/
def reply : LaneKey → Reply
  | .account a => .account (.ok (c.accountInfo keccak256 a))
  | .storage a i => .storage (.ok (c.storage a i))
  | .block n => .blockHash (.ok (c.blockHash n))

/-- Every entry of the cache holds the chain's value. -/
structure Caches (db : BlockchainDb) : Prop where
  accounts : ∀ a info, db.accounts.lookup a = some info → info = c.accountInfo keccak256 a
  storage : ∀ a i v, (db.storage.lookup a).bind (AList.lookup i) = some v → v = c.storage a i
  blockHashes : ∀ n h, db.blockHashes.lookup n = some h → h = c.blockHash n

theorem caches_empty : c.Caches keccak256 .empty where
  accounts _ _ h := by simp [BlockchainDb.empty, AList.lookup_empty] at h
  storage _ _ _ h := by simp [BlockchainDb.empty, AList.lookup_empty] at h
  blockHashes _ _ h := by simp [BlockchainDb.empty, AList.lookup_empty] at h

/-- The conversion of `poll`, where it does not panic, builds the spec's account from
the chain's fields. -/
theorem accountInfo_chain (a : Address) {acc : AccountInfo}
    (h : ForkDb.BackendHandler.accountInfo keccak256 (c.balance a) (c.nonce a) (c.code a) =
      some acc) : acc = c.accountInfo keccak256 a := by
  cases he : (c.code a).isEmpty
  · simp only [BackendHandler.accountInfo, he, Bool.not_false, if_true,
      Option.map_eq_some'] at h
    obtain ⟨code, hcode, rfl⟩ := h
    simp [Chain.accountInfo, he, hcode]
  · simp only [List.isEmpty_eq_true] at he
    simp only [BackendHandler.accountInfo, he, List.isEmpty_nil, Bool.not_true,
      Bool.false_eq_true, if_false, Option.map_eq_some'] at h
    obtain ⟨code, hcode, rfl⟩ := h
    simp [Chain.accountInfo, he, hcode]

/-- A cache hit on a cache that holds the chain's values is the chain's reply. -/
theorem Caches.cacheReply {c : Chain} {s : BackendHandler} (hc : c.Caches keccak256 s.db)
    {k : LaneKey} {msg : Reply} (h : s.cacheReply k = some msg) : msg = c.reply keccak256 k := by
  cases k <;> simp only [BackendHandler.cacheReply, Option.map_eq_some'] at h <;>
    obtain ⟨v, hv, rfl⟩ := h
  · simp [reply, hc.accounts _ _ hv]
  · simp [reply, hc.storage _ _ _ hv]
  · simp [reply, hc.blockHashes _ _ hv]

end Chain

/-- The message the handler sends the listeners of `k` when its fetch fails with
`err`. -/
def LaneKey.errorReply : LaneKey → Report → Reply
  | .account a, err => .account (.error (.getAccount a err))
  | .storage a i, err => .storage (.error (.getStorage a i err))
  | .block n, err => .blockHash (.error (.getBlockHash n err))

/-- The event of the remote fetch of `k` at `pin` completing with `err`. -/
def LaneKey.failedAt (pin : BlockId) : LaneKey → Report → Event
  | .account a, err => .poll (.account a (.remote pin)) (some (Except.error err))
  | .storage a i, err => .poll (.storage a i (.remote pin)) (some (Except.error err))
  | .block n, err => .poll (.blockHash n) (some (Except.error err))

namespace Chain

variable (keccak256 : Bytes → B256) (c : Chain)

/-- The replies allowed for a command about `k` (`none`: a full block, a transaction
or an `AnyRequest`) in a run `evs` at `pin`: the chain's value, or the error of a
fetch of `k` that failed in the run. -/
def Answers (pin : BlockId) (evs : List Event) : Option LaneKey → Reply → Prop
  | none, _ => True
  | some k, msg =>
    msg = c.reply keccak256 k ∨ ∃ err, msg = k.errorReply err ∧ k.failedAt pin err ∈ evs

variable {keccak256 c}

theorem Answers.mono {pin : BlockId} {evs evs' : List Event} (hsub : evs ⊆ evs')
    {k : Option LaneKey} {msg : Reply} (h : c.Answers keccak256 pin evs k msg) :
    c.Answers keccak256 pin evs' k msg := by
  cases k with
  | none => trivial
  | some k => exact h.imp_right fun ⟨err, he, hm⟩ => ⟨err, he, hsub hm⟩

end Chain

/-- A snapshot of the provider that answers as the chain `c` at `pin`: each call
fails or returns the chain's value. Block hashes are read by number, at no pin. -/
structure RemoteProvider.Serves (p : RemoteProvider) (c : Chain) (pin : BlockId) : Prop where
  balance : ∀ a v, p.getBalance a pin = .ok v → v = c.balance a
  nonce : ∀ a v, p.getTransactionCount a pin = .ok v → v = c.nonce a
  code : ∀ a v, p.getCodeAt a pin = .ok v → v = c.code a
  storage : ∀ a i v, p.getStorageAt a i pin = .ok v → v = c.storage a i
  block : ∀ n v, p.getBlockByNumber n = .ok v → v = c.block n

namespace RemoteProvider.Serves

variable {p : RemoteProvider} {c : Chain} {pin : BlockId} (hp : p.Serves c pin)
include hp

theorem account_ok {a : Address} {v : U256 × Nat × Bytes} (h : p.account a pin = .ok v) :
    v = (c.balance a, c.nonce a, c.code a) := by
  simp only [RemoteProvider.account] at h
  cases hb : p.getBalance a pin <;> cases hn : p.getTransactionCount a pin <;>
    cases hc : p.getCodeAt a pin <;> simp [hb, hn, hc, bind, Except.bind, pure, Except.pure] at h
  subst h
  rw [hp.balance _ _ hb, hp.nonce _ _ hn, hp.code _ _ hc]

theorem blockHash_ok {n : Nat} {h : B256} (hh : p.blockHash n = .ok h) : h = c.blockHash n := by
  simp only [RemoteProvider.blockHash] at hh
  split at hh <;> cases hh <;> simp [Chain.blockHash, ← hp.block _ _ ‹_›]

end RemoteProvider.Serves

/-- A poll event whose future computed its result against a snapshot of the provider
that serves `c` at `pin`; no archive. -/
def Event.ServedBy (c : Chain) (pin : BlockId) : Event → Prop
  | .poll r (some o) => ∃ p : RemoteProvider, p.Serves c pin ∧ r.Resolves none p o
  | _ => True

/-- An account or storage future that reads the remote at `pin`. -/
def ProviderRequest.AtPin (pin : BlockId) : ProviderRequest → Prop
  | .account _ src => src = .remote pin
  | .storage _ _ src => src = .remote pin
  | _ => True

/-- `SetPinnedBlock` and the three bulk updates: the commands that move the pin or
write the cache directly. -/
def BackendRequest.isUpdate : BackendRequest → Bool
  | .setPinnedBlock _ | .updateAddress _ | .updateStorage _ | .updateBlockHash _ => true
  | _ => false

/-- `x` is the reply channel of a command of the run about `k`. -/
def Issued (evs : List Event) (x : Sender) (k : Option LaneKey) : Prop :=
  ∃ req ∈ Event.commands evs, req.sender? = some x ∧ req.key? = k

theorem Issued.mono {evs : List Event} {x : Sender} {k : Option LaneKey} (h : Issued evs x k)
    (evs' : List Event) : Issued (evs ++ evs') x k :=
  let ⟨req, hm, hx, hk⟩ := h
  ⟨req, by simp [hm], hx, hk⟩

/-- With distinct reply channels, a channel is issued by one command only. -/
theorem eq_of_mem_filterMap_nodup {α β : Type} {f : α → Option β} :
    ∀ {l : List α}, (l.filterMap f).Nodup → ∀ {a b : α} {x : β}, a ∈ l → b ∈ l →
      f a = some x → f b = some x → a = b
  | c :: l, hnd, a, b, x, ha, hb, hfa, hfb => by
    have hmem : ∀ {d}, d ∈ l → f d = some x → x ∈ l.filterMap f := fun hd hf =>
      List.mem_filterMap.mpr ⟨_, hd, hf⟩
    rcases List.mem_cons.mp ha with rfl | ha' <;> rcases List.mem_cons.mp hb with rfl | hb'
    · rfl
    · simp only [List.filterMap_cons, hfa, List.nodup_cons] at hnd
      exact absurd (hmem hb' hfb) hnd.1
    · simp only [List.filterMap_cons, hfb, List.nodup_cons] at hnd
      exact absurd (hmem ha' hfa) hnd.1
    · have hnd' : (l.filterMap f).Nodup := by
        simp only [List.filterMap_cons] at hnd; split at hnd
        · exact hnd
        · exact (List.nodup_cons.mp hnd).2
      exact eq_of_mem_filterMap_nodup hnd' ha' hb' hfa hfb

theorem Issued.key_eq {evs : List Event} (hfresh : (Event.senders evs).Nodup)
    {req : BackendRequest} (hreq : req ∈ Event.commands evs) {x : Sender}
    (hx : req.sender? = some x) {k : Option LaneKey} (h : Issued evs x k) : req.key? = k := by
  obtain ⟨req', hm, hx', hk⟩ := h
  rwa [eq_of_mem_filterMap_nodup hfresh hreq hm hx hx']

namespace BackendHandler

/-- Without an archive, every account and storage future reads the remote at the pin. -/
theorem spawnFor_atPin {s : BackendHandler} (hf : s.fileDbFactory = none) {k : LaneKey}
    {r : ProviderRequest} (h : s.spawnFor k = some r) : r.AtPin (s.blockId.getD default) := by
  cases k <;> simp only [spawnFor, getAccountReq, source, hf, Option.map_some',
    Option.some.injEq] at h <;> subst h <;> trivial

end BackendHandler

theorem ProviderRequest.atPin_of_key?_eq_none {r : ProviderRequest} (pin : BlockId)
    (h : r.key? = none) : r.AtPin pin := by
  cases r <;> trivial

theorem BackendRequest.sender?_ne_none {req : BackendRequest} (h : req.isUpdate = false) :
    req.sender? ≠ none := by
  cases req <;> simp_all [isUpdate, sender?]

section Ready
variable {keccak256 : Bytes → B256} {c : Chain} {pin : BlockId} {p : RemoteProvider}

/-- Writing the chain's reply for a key, or an error, keeps the cache the chain's. -/
theorem Chain.Caches.writeReply {db : BlockchainDb} (hc : c.Caches keccak256 db)
    {k : LaneKey} {msg : Reply} (hmsg : msg = c.reply keccak256 k ∨ ∃ err, msg = k.errorReply err) :
    c.Caches keccak256 (writeReply db k msg) := by
  rcases hmsg with rfl | ⟨err, rfl⟩
  · cases k with
    | account a =>
      refine ⟨fun a' info h => ?_, hc.storage, hc.blockHashes⟩
      simp only [Chain.reply, BackendHandler.writeReply, lookup_insert_eq_ite] at h
      split at h
      · subst_vars; exact (Option.some.inj h).symm
      · exact hc.accounts a' info h
    | storage a i =>
      refine ⟨hc.accounts, fun a' i' v' h => ?_, hc.blockHashes⟩
      simp only [Chain.reply, BackendHandler.writeReply, insertSlot_lookup] at h
      split at h
      · obtain ⟨rfl, rfl⟩ := ‹_ ∧ _›; exact (Option.some.inj h).symm
      · exact hc.storage a' i' v' h
    | block n =>
      refine ⟨hc.accounts, hc.storage, fun n' h' h => ?_⟩
      simp only [Chain.reply, BackendHandler.writeReply, lookup_insert_eq_ite] at h
      split at h
      · subst_vars; exact (Option.some.inj h).symm
      · exact hc.blockHashes n' h' h
  · cases k <;> exact hc

/-- A ready keyed future that read the remote at the pin sends the chain's reply, or
the error of its own failed fetch. -/
theorem readyReply_answers {r : ProviderRequest} {k : LaneKey} (hk : r.key? = some k)
    (hr : r.AtPin pin) (hp : p.Serves c pin) {o : r.Output} (ho : r.Resolves none p o)
    {msg : Reply} (hmsg : readyReply keccak256 r o = some msg) :
    msg = c.reply keccak256 k ∨
      ∃ err, msg = k.errorReply err ∧ Event.poll r (some o) = k.failedAt pin err := by
  cases r with
  | account a src =>
    cases hk; simp only [ProviderRequest.AtPin] at hr; subst hr
    cases o with
    | error e => exact .inr ⟨e, (Option.some.inj hmsg).symm, rfl⟩
    | ok v =>
      obtain ⟨b, n, code⟩ := v
      have hv := hp.account_ok ho.symm
      simp only [Prod.mk.injEq] at hv; obtain ⟨rfl, rfl, rfl⟩ := hv
      simp only [readyReply, Option.map_eq_some', Function.comp_apply] at hmsg
      obtain ⟨acc, hacc, rfl⟩ := hmsg
      exact .inl (by rw [c.accountInfo_chain keccak256 a hacc]; rfl)
  | storage a i src =>
    cases hk; simp only [ProviderRequest.AtPin] at hr; subst hr
    cases o with
    | error e => exact .inr ⟨e, (Option.some.inj hmsg).symm, rfl⟩
    | ok v =>
      cases hmsg; exact .inl (by simp [Chain.reply, hp.storage _ _ _ ho.symm])
  | blockHash n =>
    cases hk
    cases o with
    | error e => exact .inr ⟨e, (Option.some.inj hmsg).symm, rfl⟩
    | ok v => cases hmsg; exact .inl (by simp [Chain.reply, hp.blockHash_ok ho.symm])
  | _ => cases hk

end Ready

/-- The invariant of a run that satisfies the hypotheses of `cache_transparency`. -/
structure Transparent (keccak256 : Bytes → B256) (c : Chain) (pin : BlockId)
    (evs : List Event) (s : BackendHandler) : Prop where
  factory : s.fileDbFactory = none
  pinned : s.blockId.getD default = pin
  atPin : ∀ r ∈ s.pendingRequests, r.AtPin pin
  cache : c.Caches keccak256 s.db
  sent : ∀ x msg, (x, msg) ∈ s.sent →
    ∃ k, Issued evs x k ∧ c.Answers keccak256 pin evs k msg
  listeners : ∀ k ls x, s.listenersAt k = some ls → x ∈ ls → Issued evs x (some k)
  carried : ∀ r ∈ s.pendingRequests, ∀ x, r.sender? = some x → Issued evs x none

namespace Transparent

variable {keccak256 : Bytes → B256} {c : Chain} {pin : BlockId} {evs : List Event}
  {s s' : BackendHandler}

theorem new (db : BlockchainDb) (blockId : Option BlockId) (hdb : c.Caches keccak256 db) :
    Transparent keccak256 c (blockId.getD default) [] (BackendHandler.new none db blockId) where
  factory := rfl
  pinned := rfl
  atPin _ h := nomatch h
  cache := hdb
  sent _ _ h := nomatch h
  listeners k _ _ h := by cases k <;> simp [BackendHandler.new, listenersAt] at h
  carried _ h := nomatch h

/-- An event appended to the run: the state is the same, the run only longer. -/
theorem extend (h : Transparent keccak256 c pin evs s) (e : Event) :
    Transparent keccak256 c pin (evs ++ [e]) s where
  factory := h.factory
  pinned := h.pinned
  atPin := h.atPin
  cache := h.cache
  sent x msg hm :=
    let ⟨k, hi, ha⟩ := h.sent x msg hm
    ⟨k, hi.mono _, ha.mono (List.subset_append_left _ _)⟩
  listeners k ls x hk hx := (h.listeners k ls x hk hx).mono _
  carried r hr x hx := (h.carried r hr x hx).mono _

/-! Each state update `on_request` and `poll` are made of keeps the invariant, given
what it needs. -/

/-- Replies to senders of the run, each an answer to the sender's command. -/
theorem notify (h : Transparent keccak256 c pin evs s) {ls : List Sender} {msg : Reply}
    (hls : ∀ x ∈ ls, ∃ k, Issued evs x k ∧ c.Answers keccak256 pin evs k msg) :
    Transparent keccak256 c pin evs (s.notify ls msg) where
  factory := h.factory
  pinned := h.pinned
  atPin := h.atPin
  cache := h.cache
  sent x m hm := by
    simp only [notify_sent, List.mem_append, List.mem_map, Prod.mk.injEq] at hm
    rcases hm with hm | ⟨y, hy, rfl, rfl⟩
    · exact h.sent x m hm
    · exact hls y hy
  listeners := h.listeners
  carried := h.carried

theorem send (h : Transparent keccak256 c pin evs s) {x : Sender} {msg : Reply}
    (hx : ∃ k, Issued evs x k ∧ c.Answers keccak256 pin evs k msg) :
    Transparent keccak256 c pin evs (s.send x msg) :=
  have h' : Transparent keccak256 c pin evs (s.notify [x] msg) :=
    h.notify fun y hy => by rw [List.mem_singleton.1 hy]; exact hx
  h'

/-- An entry whose listeners all asked for its key. -/
theorem setListeners (h : Transparent keccak256 c pin evs s) {k : LaneKey} {ls : List Sender}
    (hls : ∀ x ∈ ls, Issued evs x (some k)) :
    Transparent keccak256 c pin evs (s.setListeners k ls) where
  factory := by simpa using h.factory
  pinned := by simpa using h.pinned
  atPin := by simpa using h.atPin
  cache := by simpa using h.cache
  sent := by simpa using h.sent
  listeners k' ls' x hk' hx := by
    rw [listenersAt_setListeners] at hk'
    split at hk'
    · subst_vars; cases hk'; exact hls x hx
    · exact h.listeners k' ls' x hk' hx
  carried := by simpa using h.carried

theorem clearListeners (h : Transparent keccak256 c pin evs s) (k : LaneKey) :
    Transparent keccak256 c pin evs (s.clearListeners k) where
  factory := by simpa using h.factory
  pinned := by simpa using h.pinned
  atPin := by simpa using h.atPin
  cache := by simpa using h.cache
  sent := by simpa using h.sent
  listeners k' ls' x hk' hx := by
    rw [listenersAt_clearListeners] at hk'
    split at hk'
    · cases hk'
    · exact h.listeners k' ls' x hk' hx
  carried := by simpa using h.carried

/-- Futures that were pending before, or that fetch at the pin and carry the channel
of a command of the run. -/
theorem withPending (h : Transparent keccak256 c pin evs s) {l : List ProviderRequest}
    (hl : ∀ r ∈ l, r ∈ s.pendingRequests ∨
      (r.AtPin pin ∧ ∀ x, r.sender? = some x → Issued evs x none)) :
    Transparent keccak256 c pin evs { s with pendingRequests := l } where
  factory := h.factory
  pinned := h.pinned
  atPin r hr := (hl r hr).elim (h.atPin r) And.left
  cache := h.cache
  sent := h.sent
  listeners := h.listeners
  carried r hr := (hl r hr).elim (h.carried r) And.right

theorem withDb (h : Transparent keccak256 c pin evs s) {db : BlockchainDb}
    (hdb : c.Caches keccak256 db) : Transparent keccak256 c pin evs { s with db := db } :=
  { h with cache := hdb }

/-- A command of the run that is not an update keeps the invariant. -/
theorem onRequest (h : Transparent keccak256 c pin evs s) {req : BackendRequest}
    (hreq : req ∈ Event.commands evs) (hu : req.isUpdate = false)
    (hs : s.onRequest req = some s') : Transparent keccak256 c pin evs s' := by
  rcases onRequest_eq_some hs with ⟨k, x, hk, hx, ⟨msg, hmsg, rfl⟩ | ⟨-, hreg⟩⟩ |
    ⟨x, r, hk, hx, hrk, hr, rfl⟩ | ⟨hx, -⟩
  · -- a cache hit answers with the chain's value
    exact h.send ⟨some k, ⟨req, hreq, hx, hk⟩, .inl (h.cache.cacheReply keccak256 hmsg)⟩
  · have hi : Issued evs x (some k) := ⟨req, hreq, hx, hk⟩
    rcases register_eq_some hreg with ⟨ls, hls, rfl⟩ | ⟨-, r, hr, rfl⟩
    · exact h.setListeners fun y hy =>
        (List.mem_append.1 hy).elim (h.listeners k ls y hls)
          fun hy => List.mem_singleton.1 hy ▸ hi
    · -- the new future fetches at the pin and carries no channel
      refine (h.setListeners fun y hy => List.mem_singleton.1 hy ▸ hi).withPending
        fun r' hr' => ?_
      rcases List.mem_append.1 hr' with hr' | hr'
      · exact .inl (by simpa using hr')
      · obtain rfl := List.mem_singleton.1 hr'
        exact .inr ⟨h.pinned ▸ spawnFor_atPin h.factory hr,
          fun y hy => by rw [(spawnFor_eq_some hr).2] at hy; cases hy⟩
  · -- the future carries the command's channel
    refine h.withPending fun r' hr' => ?_
    rcases List.mem_append.1 hr' with hr' | hr'
    · exact .inl hr'
    · obtain rfl := List.mem_singleton.1 hr'
      exact .inr ⟨ProviderRequest.atPin_of_key?_eq_none pin hrk,
        fun y hy => ⟨req, hreq, hx.trans (hr.symm.trans hy), hk⟩⟩
  · exact absurd hx (BackendRequest.sender?_ne_none hu)

/-- A poll of the run, its result served by the chain, keeps the invariant. -/
theorem visit (h : Transparent keccak256 c pin evs s) {n : Nat} {r : ProviderRequest}
    {out : Option r.Output} (hn : s.pendingRequests[n]? = some r)
    (hv : s.visit keccak256 n r out = some s')
    (hserved : (Event.poll r out).ServedBy c pin) (hmem : Event.poll r out ∈ evs) :
    Transparent keccak256 c pin evs s' := by
  have hperm := swapRemove_perm_of_getElem? hn
  have hr : r ∈ s.pendingRequests := hperm.subset (by simp)
  have hrest : Transparent keccak256 c pin evs
      { s with pendingRequests := swapRemove s.pendingRequests n } :=
    h.withPending fun r' hr' => .inl (hperm.subset (List.mem_append_left _ hr'))
  rcases visit_eq_some keccak256 s hv with
    ⟨-, rfl⟩ | ⟨o, msg, rfl, hmsg, ⟨k, hk, -, rfl⟩ | ⟨x, -, hx, rfl⟩⟩
  · exact h.withPending fun r' hr' => .inl (hperm.subset hr')
  · -- the key's listeners get the chain's value, or the fetch's error
    obtain ⟨p, hp, ho⟩ := hserved
    have hans := readyReply_answers hk (h.atPin r hr) hp ho hmsg
    refine ((hrest.withDb (h.cache.writeReply (hans.imp_right fun ⟨err, he, _⟩ =>
      ⟨err, he⟩))).clearListeners k).notify fun y hy => ⟨some k, ?_, ?_⟩
    · cases hls : s.listenersAt k with
      | none => simp [hls] at hy
      | some ls => exact h.listeners k ls y hls (by simpa [hls] using hy)
    · exact hans.imp_right fun ⟨err, he, hf⟩ => ⟨err, he, hf ▸ hmem⟩
  · exact hrest.send ⟨none, h.carried r hr x hx, trivial⟩

end Transparent

/-- The invariant along every run from `BackendHandler::new` with no archive, a cache
that holds the chain's values, no update command, and every result served by the
chain at the pin. -/
theorem transparent_of_reach {keccak256 : Bytes → B256} {c : Chain} {db : BlockchainDb}
    {blockId : Option BlockId} {evs : List Event} {s : BackendHandler}
    (h : Reach keccak256 (BackendHandler.new none db blockId) evs s)
    (hdb : c.Caches keccak256 db) (hcmds : ∀ req ∈ Event.commands evs, req.isUpdate = false)
    (hserved : ∀ e ∈ evs, e.ServedBy c (blockId.getD default)) :
    Transparent keccak256 c (blockId.getD default) evs s := by
  induction h with
  | nil => exact .new db blockId hdb
  | dispatch req _ hs ih =>
    have ih := ih (fun req h => hcmds req (by simp [h])) (fun e he => hserved e (by simp [he]))
    exact (ih.extend _).onRequest (by simp) (hcmds req (by simp)) hs
  | poll n r out _ hn hv ih =>
    have ih := ih (fun req h => hcmds req (by simpa using h)) (fun e he => hserved e (by simp [he]))
    exact (ih.extend _).visit hn hv (hserved _ (by simp)) (by simp)

/-- Cache transparency. Take a run from `BackendHandler::new` with no local archive,
a cache that holds the remote's values (the empty cache does), no `UpdateAddress`,
`UpdateStorage`, `UpdateBlockHash` or `SetPinnedBlock`, distinct reply channels, and
every future's result computed against a provider whose calls at the pin each fail or
return the chain's value. Every `Ok` reply to a `Basic`, `Storage` or `BlockHash`
lookup is the chain's account (with its code hash), slot value or block hash, and
every `Err` reply to one wraps the error of a fetch of that key that failed in the
run. -/
theorem cache_transparency (keccak256 : Bytes → B256) (c : Chain) (db : BlockchainDb)
    (blockId : Option BlockId) (evs : List Event) (s : BackendHandler)
    (h : Reach keccak256 (BackendHandler.new none db blockId) evs s)
    (hdb : c.Caches keccak256 db)
    (hcmds : ∀ req ∈ Event.commands evs, req.isUpdate = false)
    (hserved : ∀ e ∈ evs, e.ServedBy c (blockId.getD default))
    (hfresh : (Event.senders evs).Nodup) :
    (∀ a x info, .basic a x ∈ Event.commands evs → (x, .account (.ok info)) ∈ s.sent →
      info = c.accountInfo keccak256 a) ∧
    (∀ a i x v, .storage a i x ∈ Event.commands evs → (x, .storage (.ok v)) ∈ s.sent →
      v = c.storage a i) ∧
    (∀ n x hash, .blockHash n x ∈ Event.commands evs →
      (x, .blockHash (.ok hash)) ∈ s.sent → hash = c.blockHash n) ∧
    (∀ a x e, .basic a x ∈ Event.commands evs → (x, .account (.error e)) ∈ s.sent →
      ∃ err, e = .getAccount a err ∧
        Event.poll (.account a (.remote (blockId.getD default)))
          (some (Except.error err)) ∈ evs) ∧
    (∀ a i x e, .storage a i x ∈ Event.commands evs → (x, .storage (.error e)) ∈ s.sent →
      ∃ err, e = .getStorage a i err ∧
        Event.poll (.storage a i (.remote (blockId.getD default)))
          (some (Except.error err)) ∈ evs) ∧
    (∀ n x e, .blockHash n x ∈ Event.commands evs → (x, .blockHash (.error e)) ∈ s.sent →
      ∃ err, e = .getBlockHash n err ∧
        Event.poll (.blockHash n) (some (Except.error err)) ∈ evs) := by
  have ht := transparent_of_reach h hdb hcmds hserved
  have answers : ∀ req x msg, req ∈ Event.commands evs → req.sender? = some x →
      (x, msg) ∈ s.sent → c.Answers keccak256 (blockId.getD default) evs req.key? msg :=
    fun req x msg hreq hx hm => by
      obtain ⟨k, hi, ha⟩ := ht.sent x msg hm
      rwa [hi.key_eq hfresh hreq hx]
  refine ⟨fun a x info hreq hm => ?_, fun a i x v hreq hm => ?_, fun n x hash hreq hm => ?_,
    fun a x e hreq hm => ?_, fun a i x e hreq hm => ?_, fun n x e hreq hm => ?_⟩ <;>
  have ha := answers _ x _ hreq rfl hm <;>
  simpa [Chain.Answers, BackendRequest.key?, Chain.reply, LaneKey.errorReply,
    LaneKey.failedAt] using ha

/-- `cache_transparency` on one lookup of address `1` on channel `7`, fetched from a
remote that holds balance `5`, nonce `0` and no code for every address. -/
theorem cache_transparency_one_lookup :
    let c : Chain := ⟨fun _ => 5, fun _ => 0, fun _ => [], fun _ _ => 0, fun _ => none⟩
    let r : ProviderRequest := .account 1 (.remote default)
    let evs : List Event := [.dispatch (.basic 1 7), .poll r (some (Except.ok (5, 0, [])))]
    ∃ s, ({ BackendHandler.new none .empty none with
      accountRequests := (∅ : AList fun _ : Address => List Sender).insert 1 [7]
      pendingRequests := [r] } : BackendHandler).visit (fun _ => 0) 0 r
        (some (Except.ok (5, 0, []))) = some s ∧
    (∀ a x info, .basic a x ∈ Event.commands evs → (x, .account (.ok info)) ∈ s.sent →
      info = c.accountInfo (fun _ => 0) a) ∧
    (∀ a i x v, .storage a i x ∈ Event.commands evs → (x, .storage (.ok v)) ∈ s.sent →
      v = c.storage a i) ∧
    (∀ n x hash, .blockHash n x ∈ Event.commands evs →
      (x, .blockHash (.ok hash)) ∈ s.sent → hash = c.blockHash n) ∧
    (∀ a x e, .basic a x ∈ Event.commands evs → (x, .account (.error e)) ∈ s.sent →
      ∃ err, e = .getAccount a err ∧
        Event.poll (.account a (.remote default)) (some (Except.error err)) ∈ evs) ∧
    (∀ a i x e, .storage a i x ∈ Event.commands evs → (x, .storage (.error e)) ∈ s.sent →
      ∃ err, e = .getStorage a i err ∧
        Event.poll (.storage a i (.remote default)) (some (Except.error err)) ∈ evs) ∧
    (∀ n x e, .blockHash n x ∈ Event.commands evs → (x, .blockHash (.error e)) ∈ s.sent →
      ∃ err, e = .getBlockHash n err ∧
        Event.poll (.blockHash n) (some (Except.error err)) ∈ evs) :=
  ⟨_, rfl, cache_transparency (fun _ => 0)
    ⟨fun _ => 5, fun _ => 0, fun _ => [], fun _ _ => 0, fun _ => none⟩
    .empty none _ _
    (.poll 0 (.account 1 (.remote default)) (some (Except.ok (5, 0, [])))
      (.dispatch (.basic 1 7) .nil (by rfl)) (by rfl) (by rfl))
    (Chain.caches_empty _ _) (by simp [Event.commands, BackendRequest.isUpdate])
    (by
      intro e he
      simp only [List.nil_append, List.singleton_append, List.mem_cons, List.mem_singleton,
        List.not_mem_nil, or_false] at he
      rcases he with rfl | rfl
      · trivial
      · exact ⟨⟨fun _ _ => .ok 5, fun _ _ => .ok 0, fun _ _ => .ok [], fun _ _ _ => .ok 0,
          fun _ => .ok none, fun _ => .ok none, fun _ => .ok none⟩,
          ⟨fun _ _ h => (Except.ok.inj h).symm, fun _ _ h => (Except.ok.inj h).symm,
            fun _ _ h => (Except.ok.inj h).symm, fun _ _ _ h => (Except.ok.inj h).symm,
            fun _ _ h => (Except.ok.inj h).symm⟩, rfl⟩)
    (by decide)⟩

end MevDesign.ForkDb
