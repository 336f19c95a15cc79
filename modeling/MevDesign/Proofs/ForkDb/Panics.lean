import MevDesign.Proofs.ForkDb.Dispatch
import MevDesign.Proofs.ForkDb.PendingPass

/-!
# `MevDesign.Proofs.ForkDb.Panics`: when the handler's task dies

The handler panics in two places: in `on_request`, and in `poll` where a ready
account future's code goes through `Bytecode::new_raw`.

`on_request` has one way to fail. With a local archive configured,
`get_account_req` and `request_account_storage` start with
`self.block_id.unwrap().as_u64().unwrap()`, before they try the archive: a pin that
is absent, a block hash or a tag panics, and the handler's task dies with it. The
remote branch of the same functions takes `self.block_id.unwrap_or_default()`, and
an archive that cannot open the block falls back to the remote.

`onRequest_eq_none_iff` says exactly when the panic happens: a lookup of an account
or a slot that misses the cache, with no fetch of it in flight, while the archive is
configured and the pin names no block number.
`archive_lookup_panics_without_number_pin` is the failing input of the lookup
itself. `failed_fetch_then_lookup_panics` is the same defect after a failed fetch: the
failure leaves the state as it should (`onReady_failed`: no cache write, the entry
gone, one error with one cause to every listener), but the lookup that should start
a fresh fetch panics when the pin has moved to a block hash in the meantime.

`new_raw` panics on code that starts with `0xEF00` or `0xEF01` and fails its
decoder (`ForkDb/Types.lean`), so a completion panics exactly when an account future
returns such code (`BackendHandler.visit_eq_none_iff_panics`). Futures whose code
decodes (`CodeDecodes`) rule it out (`pendingPass_isSome_of_codeDecodes`).

The panic of `on_request` is ruled out by a pin discipline. `source_isSome_iff` reads
the condition positively: the futures can be built when no archive is configured or
the pin names a block number, and then no command panics
(`onRequest_isSome_of_source`). A command that keeps a block-number pin one
(`BackendRequest.keepsNumberPin`) keeps the futures buildable
(`source_isSome_onRequest`, `Reach.source_isSome`), and the loop of `poll` inherits
this through the drain, the receive loop and the pass (`pollLoop_ne_panicked`). So
along every run from `BackendHandler::new`, whatever the inbox holds, `poll` never
panics when every account future returns code that decodes and, if an archive is
configured, the first pin and every `SetPinnedBlock` name a block number
(`poll_never_panics`).
-/

set_option autoImplicit false

namespace MevDesign.ForkDb

open BackendHandler

namespace BackendHandler

/-- The source is missing, the panic of `self.block_id.unwrap().as_u64().unwrap()`,
exactly when an archive is configured and the pin names no block number. -/
theorem source_eq_none_iff (s : BackendHandler) :
    s.source = none ↔ s.fileDbFactory.isSome ∧ s.blockId.bind BlockId.asU64 = none := by
  unfold source
  split
  · split
    · split <;> simp_all
    · simp_all
  · simp_all

/-- The future a miss would start cannot be built exactly for an account or a slot,
when an archive is configured and the pin names no block number. -/
theorem spawnFor_eq_none_iff (s : BackendHandler) (k : LaneKey) :
    s.spawnFor k = none ↔ (∀ n, k ≠ .block n) ∧ s.fileDbFactory.isSome ∧
      s.blockId.bind BlockId.asU64 = none := by
  cases k <;> simp [spawnFor, getAccountReq, source_eq_none_iff]

/-- `on_request` panics exactly on a lookup of an account or a slot that misses the
cache and has no fetch of its key in flight, while an archive is configured and the
pin names no block number. -/
theorem onRequest_eq_none_iff (s : BackendHandler) (req : BackendRequest) :
    s.onRequest req = none ↔
      ∃ k x, req.key? = some k ∧ req.sender? = some x ∧ (∀ n, k ≠ .block n) ∧
        s.cacheReply k = none ∧ s.listenersAt k = none ∧
        s.fileDbFactory.isSome ∧ s.blockId.bind BlockId.asU64 = none := by
  cases hk : req.key? with
  | none =>
    simp only [reduceCtorEq, false_and, exists_false, iff_false]
    cases req <;> simp_all [BackendRequest.key?, onRequest]
  | some k =>
    obtain ⟨x, hx⟩ : ∃ x, req.sender? = some x := by
      cases req <;> simp_all [BackendRequest.key?, BackendRequest.sender?]
    rw [onRequest_lookup s hk hx]
    simp only [Option.some.injEq, hx, exists_eq_left', true_and]
    cases hc : s.cacheReply k <;> cases hl : s.listenersAt k <;>
      simp [register, hc, hl, spawnFor_eq_none_iff]

/-- A lookup that misses the cache and finds no fetch of its key in flight starts
exactly one fetch, when the fetch can be built. -/
theorem onRequest_lookup_miss (s : BackendHandler) {req : BackendRequest} {k : LaneKey}
    {x : Sender} {r : ProviderRequest} (hk : req.key? = some k) (hx : req.sender? = some x)
    (hc : s.cacheReply k = none) (hl : s.listenersAt k = none) (hr : s.spawnFor k = some r) :
    s.onRequest req =
      some { s.setListeners k [x] with pendingRequests := s.pendingRequests ++ [r] } := by
  rw [onRequest_lookup s hk hx, hc]
  simp [register, hl, hr]

end BackendHandler

section Failed
variable (keccak256 : Bytes → B256) (s : BackendHandler) (e : Report)

/-- A failed fetch writes nothing, drops its key's entry, and sends every listener of
the key one error with the fetch's cause. -/
theorem onReady_failed :
    (∀ a src, s.onReady keccak256 (.account a src) (.error e) =
      some ((s.clearListeners (.account a)).notify ((s.listenersAt (.account a)).getD [])
        (.account (.error (.getAccount a e))))) ∧
    (∀ a i src, s.onReady keccak256 (.storage a i src) (.error e) =
      some ((s.clearListeners (.storage a i)).notify ((s.listenersAt (.storage a i)).getD [])
        (.storage (.error (.getStorage a i e))))) ∧
    (∀ n, s.onReady keccak256 (.blockHash n) (.error e) =
      some ((s.clearListeners (.block n)).notify ((s.listenersAt (.block n)).getD [])
        (.blockHash (.error (.getBlockHash n e))))) :=
  ⟨fun _ _ => rfl, fun _ _ _ => rfl, fun _ => rfl⟩

end Failed

/-! ### The failing inputs -/

/-- An archive that cannot open any block. -/
def prunedArchive : DBFactory := ⟨fun _ => .error (.msg "pruned")⟩

/-- With an archive configured, a lookup miss panics when the pin is absent (as
`EVM::new` spawns the handler), a block hash or a tag; with a block-number pin the
same archive falls back to the remote provider. -/
theorem archive_lookup_panics_without_number_pin :
    (BackendHandler.new (some prunedArchive) .empty none).onRequest (.basic 1 7) = none ∧
    (BackendHandler.new (some prunedArchive) .empty (some (.hash 0))).onRequest
      (.storage 1 0 7) = none ∧
    (BackendHandler.new (some prunedArchive) .empty (some (.number .latest))).onRequest
      (.basic 1 7) = none ∧
    ((BackendHandler.new (some prunedArchive) .empty (some (.number (.number 5)))).onRequest
      (.basic 1 7)).map BackendHandler.pendingRequests =
        some [.account 1 (.remote (.number (.number 5)))] :=
  ⟨rfl, rfl, rfl, rfl⟩

/-- An archive that opens every block, with nothing in it. -/
def emptyArchive : DBFactory :=
  ⟨fun _ => .ok
    ⟨fun _ => .ok none, fun _ => .ok none, fun _ => .ok none, fun _ _ => .ok none⟩⟩

/-- The run of the code-bug report: pinned at block `5` with an archive, a lookup of
address `1` starts a local fetch; the pin moves to a block hash; the fetch fails. -/
def failedFetchRun : List Event :=
  [.dispatch (.basic 1 7), .dispatch (.setPinnedBlock (.hash 0)),
    .poll (.account 1 (.local 5)) (some (Except.error (.msg "archive read failed")))]

/-- After a failed fetch the next lookup of the key panics instead of starting a
fresh fetch. Along `failedFetchRun` the failure leaves the address uncached, with no
entry and no fetch in flight, and sends its one listener the error; the next lookup
of the address then panics on the block-hash pin. -/
theorem failed_fetch_then_lookup_panics :
    ∃ s, Reach (fun _ => 0)
        (BackendHandler.new (some emptyArchive) .empty (some (.number (.number 5))))
        failedFetchRun s ∧
      s.cacheReply (.account 1) = none ∧ s.listenersAt (.account 1) = none ∧
      s.pendingRequests = [] ∧
      s.sent = [(7, .account (.error (.getAccount 1 (.msg "archive read failed"))))] ∧
      s.onRequest (.basic 1 8) = none :=
  ⟨_, .poll 0 (.account 1 (.local 5)) (some (Except.error (.msg "archive read failed")))
      (.dispatch _ (.dispatch (.basic 1 7) .nil (by rfl)) (by rfl)) (by rfl) (by rfl),
    by rfl, by rfl, by rfl, by rfl, by rfl⟩

/-! ### A pin discipline under which the handler never panics -/

/-- The command keeps a block-number pin a block number: a `SetPinnedBlock` of a block
number, or any command that does not move the pin. -/
def BackendRequest.keepsNumberPin : BackendRequest → Bool
  | .setPinnedBlock blockId => (BlockId.asU64 blockId).isSome
  | _ => true

/-- A pin that names a block number still names one after commands that keep it so. -/
theorem lastPin_asU64_isSome :
    ∀ {b : Option BlockId} {reqs : List BackendRequest}, (b.bind BlockId.asU64).isSome →
      (∀ req ∈ reqs, req.keepsNumberPin) → ((lastPin b reqs).bind BlockId.asU64).isSome
  | _, [], hb, _ => hb
  | _, req :: _, hb, hreqs => by
    rw [List.forall_mem_cons] at hreqs
    cases req <;> simp only [lastPin] <;> first
      | exact lastPin_asU64_isSome hb hreqs.2
      | exact lastPin_asU64_isSome (by simpa [BackendRequest.keepsNumberPin] using hreqs.1)
          hreqs.2

namespace BackendHandler

/-- The futures can be built exactly when there is no archive or the pin names a block
number. -/
theorem source_isSome_iff (s : BackendHandler) :
    s.source.isSome ↔ (s.fileDbFactory.isSome → (s.blockId.bind BlockId.asU64).isSome) := by
  simp [Option.isSome_iff_ne_none, source_eq_none_iff]

/-- While the futures can be built, no command panics. -/
theorem onRequest_isSome_of_source {s : BackendHandler} (hsrc : s.source.isSome)
    (req : BackendRequest) : (s.onRequest req).isSome := by
  cases hk : req.key? with
  | none => cases req <;> simp_all [BackendRequest.key?, onRequest]
  | some k =>
    obtain ⟨x, hx⟩ : ∃ x, req.sender? = some x := by
      cases req <;> simp_all [BackendRequest.key?, BackendRequest.sender?]
    obtain ⟨r, hr⟩ : ∃ r, s.spawnFor k = some r := Option.ne_none_iff_exists'.1 fun h => by
      obtain ⟨-, hf, hb⟩ := (spawnFor_eq_none_iff s k).1 h
      simp [source_eq_none_iff, hf, hb, Option.isSome_iff_ne_none] at hsrc
    rw [onRequest_lookup s hk hx]
    cases s.cacheReply k <;> cases hl : s.listenersAt k <;> simp [register, hl, hr]

theorem fileDbFactory_onRequest {s s' : BackendHandler} {req : BackendRequest}
    (h : s.onRequest req = some s') : s'.fileDbFactory = s.fileDbFactory := by
  rcases onRequest_eq_some h with ⟨k, x, -, -, ⟨msg, -, rfl⟩ | ⟨-, hreg⟩⟩ |
    ⟨x, r, -, -, -, -, rfl⟩ | ⟨-, db, b, rfl⟩
  · simp
  · rcases register_eq_some hreg with ⟨ls, -, rfl⟩ | ⟨-, r, -, rfl⟩ <;> simp
  · rfl
  · rfl

/-- A command that keeps a block-number pin, or any command without an archive, leaves
the futures buildable. -/
theorem source_isSome_onRequest {s s' : BackendHandler} {req : BackendRequest}
    (hsrc : s.source.isSome) (hpin : s.fileDbFactory.isSome → req.keepsNumberPin)
    (h : s.onRequest req = some s') : s'.source.isSome := by
  rw [source_isSome_iff] at hsrc ⊢
  rw [fileDbFactory_onRequest h, blockId_onRequest h]
  exact fun hf => lastPin_asU64_isSome (hsrc hf) (List.forall_mem_singleton.2 (hpin hf))

end BackendHandler

section Pins
variable {keccak256 : Bytes → B256}

theorem Reach.fileDbFactory_eq {s₀ s : BackendHandler} {evs : List Event}
    (h : Reach keccak256 s₀ evs s) : s.fileDbFactory = s₀.fileDbFactory :=
  Reach.invariant (fun s => s.fileDbFactory = s₀.fileDbFactory) rfl
    (fun _ _ _ h hs => (fileDbFactory_onRequest hs).trans h)
    (fun _ _ _ _ _ h _ hv => (visit_frame keccak256 _ hv).2.2.trans h) h

/-- Along a run whose pins keep a block number, the futures stay buildable. -/
theorem Reach.source_isSome {s₀ s : BackendHandler} {evs : List Event}
    (h : Reach keccak256 s₀ evs s) (h₀ : s₀.source.isSome)
    (hpins : s₀.fileDbFactory.isSome → ∀ req ∈ Event.commands evs, req.keepsNumberPin) :
    s.source.isSome := by
  rw [source_isSome_iff] at h₀ ⊢
  rw [h.fileDbFactory_eq, h.blockId_eq]
  exact fun hf => lastPin_asU64_isSome (h₀ hf) (hpins hf)

end Pins

/-- The drain does not panic while the futures can be built and each command keeps a
block-number pin, when an archive is configured. -/
theorem drain_isSome :
    ∀ {s : BackendHandler} {reqs : List BackendRequest}, s.source.isSome →
      (s.fileDbFactory.isSome → ∀ req ∈ reqs, req.keepsNumberPin) → (drain s reqs).isSome
  | _, [], _, _ => rfl
  | s, req :: reqs, hsrc, hpins => by
    obtain ⟨s', hs'⟩ := Option.isSome_iff_exists.1 (onRequest_isSome_of_source hsrc req)
    have hpins' : s.fileDbFactory.isSome →
        req.keepsNumberPin ∧ ∀ r ∈ reqs, r.keepsNumberPin :=
      fun hf => List.forall_mem_cons.1 (hpins hf)
    obtain ⟨⟨s'', evs⟩, hd⟩ := Option.isSome_iff_exists.1 <|
      drain_isSome (source_isSome_onRequest hsrc (fun hf => (hpins' hf).1) hs')
        fun hf => (hpins' (fileDbFactory_onRequest hs' ▸ hf)).2
    simp [drain, hs', hd]

/-! ### The panic of `new_raw` -/

/-- The account futures return only code that `Bytecode::new_raw` decodes, whenever a
pass polls them. -/
def CodeDecodes (ready : Nat → Readiness) : Prop :=
  ∀ p n a src balance nonce code,
    ready p n (.account a src) = some (Except.ok (balance, nonce, code)) →
      (Bytecode.newRaw code).isSome

/-- `accountInfo` does not panic on code that `new_raw` decodes. -/
theorem BackendHandler.accountInfo_isSome (keccak256 : Bytes → B256) {balance : U256}
    {nonce : Nat} {code : Bytes} (h : (Bytecode.newRaw code).isSome) :
    (accountInfo keccak256 balance nonce code).isSome := by
  cases hc : code.isEmpty
  · simpa [accountInfo, hc] using h
  · simp [accountInfo, hc, Bytecode.newRaw]

/-- No result of such futures panics. -/
theorem CodeDecodes.panics_eq_false {ready : Nat → Readiness} (h : CodeDecodes ready)
    (keccak256 : Bytes → B256) (p n : Nat) (r : ProviderRequest) :
    (Event.poll r (ready p n r)).panics keccak256 = false := by
  cases ho : ready p n r with
  | none => rfl
  | some o =>
    cases r with
    | account a src =>
      cases o with
      | error e => rfl
      | ok v =>
        obtain ⟨b, nonce, code⟩ := v
        simp [Event.panics, readyReply, accountInfo_isSome keccak256 (h p n a src b nonce code ho)]
    | _ => cases o <;> rfl

/-- A pass over futures whose code decodes does not panic. -/
theorem pendingPass_isSome_of_codeDecodes {ready : Nat → Readiness} (h : CodeDecodes ready)
    (keccak256 : Bytes → B256) (p : Nat) (s : BackendHandler) :
    (pendingPass keccak256 (ready p) s).isSome :=
  (foldlM_passStep keccak256 (ready p) s.pendingRequests [] (s, [])
    (List.append_nil _).symm).1.2 fun e he => by
      obtain ⟨⟨n, r⟩, -, rfl⟩ := List.mem_map.1 he
      exact h.panics_eq_false keccak256 p n r

@[simp] theorem PollOutcome.prepend_eq_panicked {o : PollOutcome} (evs : List Event) :
    o.prepend evs = .panicked ↔ o = .panicked := by
  cases o <;> simp [PollOutcome.prepend]

/-- The loop of `poll` does not panic while the futures can be built, every command
queued or still to come keeps a block-number pin when an archive is configured, and
the futures return code that decodes. -/
theorem pollLoop_ne_panicked (keccak256 : Bytes → B256) (ready : Nat → Readiness)
    (hcode : CodeDecodes ready) :
    ∀ (fuel : Nat) (s : BackendHandler) (inbox : List Incoming), s.source.isSome →
      (s.fileDbFactory.isSome →
        ∀ req ∈ s.queuedRequests ++ Incoming.commands inbox, req.keepsNumberPin) →
      pollLoop keccak256 ready fuel s inbox ≠ .panicked
  | 0, _, _, _, _ => by simp [pollLoop]
  | fuel + 1, s, inbox, hsrc, hpins => by
    have hpins' := fun hf => List.forall_mem_append.1 (hpins hf)
    obtain ⟨⟨s₁, evs₁⟩, hd⟩ := Option.isSome_iff_exists.1 <|
      drain_isSome (s := { s with queuedRequests := [] }) hsrc fun hf => (hpins' hf).1
    cases hrcv : receive s₁ inbox with
    | closed s₂ => simp [pollLoop, hd, hrcv]
    | waiting s₂ rest =>
      obtain ⟨batch, hin, hpanic | ⟨s₃, evs₂, hq₃, hc, hr, heq⟩⟩ :=
        pollLoop_succ_of_waiting keccak256 ready fuel hd hrcv
      · -- the pass does not panic
        exact absurd hpanic.1 (Option.isSome_iff_ne_none.1
          (pendingPass_isSome_of_codeDecodes hcode keccak256 fuel s₂))
      have hf₃ : s₃.fileDbFactory = s.fileDbFactory := hr.fileDbFactory_eq
      have hsrc₃ : s₃.source.isSome := hr.source_isSome hsrc fun hf => by
        rw [Event.commands_append, hc]; exact (hpins' hf).1
      -- the commands queued for the next iteration are the batch just received
      have hnext : ∀ req ∈ s₃.queuedRequests ++ Incoming.commands rest,
          req ∈ Incoming.commands inbox := by
        rw [hq₃]
        rcases hin with rfl | ⟨rfl, rfl⟩ <;> simp [Incoming.commands]
      rw [heq]
      split
      · simp
      · rw [Ne, PollOutcome.prepend_eq_panicked]
        exact pollLoop_ne_panicked keccak256 ready hcode fuel s₃ rest hsrc₃
          fun hf req hreq => (hpins' (hf₃ ▸ hf)).2 req (hnext req hreq)

/-- The handler's task never dies when every pin names a block number and every
fetched code decodes. Along every run from `BackendHandler::new`, a call of `poll`
does not panic, whatever the inbox holds, if every account future returns code that
`Bytecode::new_raw` decodes, and if no archive is configured or the first pin and
every `SetPinnedBlock` of the run and of the inbox name a block number. -/
theorem poll_never_panics (keccak256 : Bytes → B256) (ready : Nat → Readiness)
    (fileDbFactory : Option DBFactory) (db : BlockchainDb) (blockId : Option BlockId)
    (evs : List Event) (s : BackendHandler)
    (h : Reach keccak256 (BackendHandler.new fileDbFactory db blockId) evs s)
    (inbox : List Incoming)
    (hpins : fileDbFactory.isSome → (blockId.bind BlockId.asU64).isSome ∧
      ∀ req ∈ Event.commands evs ++ Incoming.commands inbox, req.keepsNumberPin)
    (hcode : CodeDecodes ready) :
    poll keccak256 ready s inbox ≠ .panicked := by
  have hsrc : s.source.isSome :=
    h.source_isSome ((source_isSome_iff _).2 fun hf => (hpins hf).1)
      fun hf req hreq => (hpins hf).2 req (List.mem_append_left _ hreq)
  refine pollLoop_ne_panicked keccak256 ready hcode _ s inbox hsrc fun hf req hreq => ?_
  rw [h.queuedRequests_eq] at hreq
  rw [h.fileDbFactory_eq] at hf
  exact (hpins hf).2 req
    (List.mem_append_right _ (by simpa [BackendHandler.new] using hreq))

/-- Futures that return at once with the given code for every account, balance `5` and
nonce `0`; the other futures stay pending. -/
def accountsWithCode (code : Bytes) : Nat → Readiness := fun _ _ r =>
  match r with
  | .account .. => some (Except.ok (5, 0, code))
  | _ => none

/-- With an archive that cannot open any block and a pin at block `5`: two lookups and a
move of the pin to block `6`, in one call of `poll` whose account futures return the
legacy code `PUSH1 1`, do not panic. -/
theorem number_pins_never_panic :
    let inbox : List Incoming :=
      [.ready (.basic 1 7), .ready (.setPinnedBlock (.number (.number 6))),
        .ready (.storage 1 0 8)]
    ((some prunedArchive).isSome →
        ((some (BlockId.number (.number 5))).bind BlockId.asU64).isSome ∧
        ∀ req ∈ Event.commands [] ++ Incoming.commands inbox, req.keepsNumberPin) ∧
      CodeDecodes (accountsWithCode [0x60, 0x01]) ∧
      poll (fun _ => 0) (accountsWithCode [0x60, 0x01])
        (BackendHandler.new (some prunedArchive) .empty (some (.number (.number 5)))) inbox ≠
        .panicked :=
  have hpins : (some prunedArchive).isSome →
      ((some (BlockId.number (.number 5))).bind BlockId.asU64).isSome ∧
      ∀ req ∈ Event.commands [] ++ Incoming.commands [.ready (.basic 1 7),
        .ready (.setPinnedBlock (.number (.number 6))), .ready (.storage 1 0 8)],
        req.keepsNumberPin := fun _ => ⟨rfl, by decide⟩
  have hcode : CodeDecodes (accountsWithCode [0x60, 0x01]) := fun _ _ _ _ _ _ _ h => by
    cases h; decide
  ⟨hpins, hcode, poll_never_panics _ _ _ _ _ [] _ .nil _ hpins hcode⟩

/-- Code that fails its decoder kills the task: a lookup whose account future returns
the EOF magic alone panics the call. -/
example : poll (fun _ => 0) (accountsWithCode [0xEF, 0x00])
    (BackendHandler.new none .empty none) [.ready (.basic 1 7)] = .panicked := rfl

end MevDesign.ForkDb
