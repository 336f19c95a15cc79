import MevDesign.ForkDb.Poll
import MevDesign.Proofs.ForkDb.Steps

/-!
# `MevDesign.Proofs.ForkDb.Dispatch`: what a call of `poll` dispatches

A call of `BackendHandler::poll` (`ForkDb/Poll.lean`) passes commands from the
inbox to `on_request` in batches: a batch is what one receive loop moved onto
`queued_requests`, and it is dispatched at the top of the next iteration of the
loop. The batch of the receive loop that sees the channel closed has no next
iteration: `poll` returns `Poll::Ready(())` with the batch still queued, and those
commands are never dispatched (`closing_drops_received_command`).

`poll_dispatches_received` states what a call does, from a state with an empty
queue (the initial state has one, and so does every state a call leaves when it
returns `Poll::Pending`): it terminates; its events form a run of the handler
(`Reach`), so every run invariant of the other modules holds of it; it dispatches,
once each and in receive order, every command it received except the batch that
met the closed channel; and it leaves the pin set by the last `SetPinnedBlock` it
dispatched (`lastPin`).

Every account or storage future that a lookup of the call starts reads at the pin
left by the commands before that lookup: the last `SetPinnedBlock` received before
it, in the call or before it (`Reach.dispatch_readsAt`).

The proof is a loop invariant, `pollLoop_spec`, by induction on the fuel, over
three phase lemmas: `drain_eq_some`, `receive_closed` / `receive_waiting` and
`pendingPass_reach`. The run facts come from `Reach.withQueue`: `on_request` and a
poll turn neither read nor write `queued_requests`. For the same reason the source's
drain, which pops one command at a time, is `drain` of the whole queue
(`popQueued_eq_drain`).
-/

set_option autoImplicit false

namespace MevDesign.ForkDb

open BackendHandler

/-- The pin after the commands `reqs`, from the pin `b`: the last `SetPinnedBlock`. -/
def lastPin (b : Option BlockId) : List BackendRequest → Option BlockId
  | [] => b
  | .setPinnedBlock b' :: reqs => lastPin (some b') reqs
  | _ :: reqs => lastPin b reqs

@[simp] theorem lastPin_append (b : Option BlockId) (l₁ l₂ : List BackendRequest) :
    lastPin b (l₁ ++ l₂) = lastPin (lastPin b l₁) l₂ := by
  induction l₁ generalizing b with
  | nil => rfl
  | cons req l₁ ih => cases req <;> exact ih _

@[simp] theorem Incoming.commands_append (l₁ l₂ : List Incoming) :
    Incoming.commands (l₁ ++ l₂) = Incoming.commands l₁ ++ Incoming.commands l₂ := by
  induction l₁ with
  | nil => rfl
  | cons i l₁ ih => cases i <;> simp [Incoming.commands, ih]

@[simp] theorem Incoming.commands_map_ready (reqs : List BackendRequest) :
    Incoming.commands (reqs.map .ready) = reqs := by
  induction reqs with
  | nil => rfl
  | cons req reqs ih => simp [Incoming.commands, ih]

/-- An account or storage future's source reads at the pin `b`: the archive at `b`'s
block number, or the remote provider at `b`, `latest` when no block is pinned. -/
def Source.ReadsAt (b : Option BlockId) : Source → Prop
  | .local n => b.bind BlockId.asU64 = some n
  | .remote blockId => blockId = b.getD default

instance (b : Option BlockId) : (src : Source) → Decidable (src.ReadsAt b)
  | .local n => inferInstanceAs (Decidable (b.bind BlockId.asU64 = some n))
  | .remote blockId => inferInstanceAs (Decidable (blockId = b.getD default))

/-- An account or storage future reads at the pin `b`; the other futures read at no
pin. -/
def ProviderRequest.ReadsAt (b : Option BlockId) : ProviderRequest → Prop
  | .account _ src | .storage _ _ src => src.ReadsAt b
  | _ => True

instance (b : Option BlockId) : (r : ProviderRequest) → Decidable (r.ReadsAt b)
  | .account _ src | .storage _ _ src => inferInstanceAs (Decidable (src.ReadsAt b))
  | .blockHash _ | .fullBlock .. | .transaction .. | .anyRequest _ => isTrue trivial

namespace BackendHandler

/-- The source a future is built on reads at the pin. -/
theorem source_readsAt {s : BackendHandler} {src : Source} (h : s.source = some src) :
    src.ReadsAt s.blockId := by
  unfold source at h
  split at h
  · split at h
    · next n hn => split at h <;> cases h <;> first | exact hn | rfl
    · cases h
  · cases h; rfl

/-- A future a miss starts reads at the pin. -/
theorem spawnFor_readsAt {s : BackendHandler} {k : LaneKey} {r : ProviderRequest}
    (h : s.spawnFor k = some r) : r.ReadsAt s.blockId := by
  cases k <;> simp only [spawnFor, getAccountReq, Option.map_eq_some', Option.some.injEq] at h
  · obtain ⟨src, hsrc, rfl⟩ := h; exact source_readsAt hsrc
  · obtain ⟨src, hsrc, rfl⟩ := h; exact source_readsAt hsrc
  · subst h; trivial

/-- `on_request` neither reads nor writes `queued_requests`. -/
theorem onRequest_withQueue (s : BackendHandler) (q : List BackendRequest)
    (req : BackendRequest) :
    ({ s with queuedRequests := q } : BackendHandler).onRequest req =
      (s.onRequest req).map ({ · with queuedRequests := q }) := by
  cases req <;> simp only [onRequest, requestAccount, requestAccountStorage, requestHash,
    getAccountReq, source, Option.map_some']
  all_goals (repeat' split) <;> simp_all [send, requestFullBlock, requestTransaction]

/-- Nor does a poll turn. -/
theorem visit_withQueue (keccak256 : Bytes → B256) (s : BackendHandler)
    (q : List BackendRequest) (n : Nat) (r : ProviderRequest) (out : Option r.Output) :
    ({ s with queuedRequests := q } : BackendHandler).visit keccak256 n r out =
      (s.visit keccak256 n r out).map ({ · with queuedRequests := q }) := by
  cases out with
  | none => rfl
  | some o =>
    cases r <;> cases o <;> try rfl
    rename_i v
    obtain ⟨b, n, c⟩ := v
    simp only [visit, onReady]
    cases accountInfo keccak256 b n c <;> rfl

theorem queuedRequests_onRequest {s s' : BackendHandler} {req : BackendRequest}
    (h : s.onRequest req = some s') : s'.queuedRequests = s.queuedRequests := by
  rcases onRequest_eq_some h with ⟨k, x, -, -, ⟨msg, -, rfl⟩ | ⟨-, hreg⟩⟩ |
    ⟨x, r, -, -, -, -, rfl⟩ | ⟨-, db, b, rfl⟩
  · rfl
  · rcases register_eq_some hreg with ⟨ls, -, rfl⟩ | ⟨-, r, -, rfl⟩ <;> simp
  · rfl
  · rfl

/-- `on_request` moves the pin only for `SetPinnedBlock`. -/
theorem blockId_onRequest {s s' : BackendHandler} {req : BackendRequest}
    (h : s.onRequest req = some s') : s'.blockId = lastPin s.blockId [req] := by
  cases hx : req.sender? with
  | some x =>
    have hpin : lastPin s.blockId [req] = s.blockId := by
      cases req <;> first | rfl | cases hx
    rw [hpin]
    rcases onRequest_eq_some h with ⟨k, x, -, -, ⟨msg, -, rfl⟩ | ⟨-, hreg⟩⟩ |
      ⟨x, r, -, -, -, -, rfl⟩ | ⟨hx', -⟩
    · rfl
    · rcases register_eq_some hreg with ⟨ls, -, rfl⟩ | ⟨-, r, -, rfl⟩ <;> simp
    · rfl
    · rw [hx] at hx'; cases hx'
  | none =>
    cases req <;> simp only [BackendRequest.sender?, reduceCtorEq] at hx <;>
      simp only [onRequest, Option.some.injEq] at h <;> subst h <;> rfl

end BackendHandler

section Runs
variable {keccak256 : Bytes → B256}

theorem Reach.cons {s₀ s₁ s : BackendHandler} {e : Event} {evs : List Event}
    (h₁ : Reach keccak256 s₀ [e] s₁) (h : Reach keccak256 s₁ evs s) :
    Reach keccak256 s₀ (e :: evs) s :=
  h₁.append h

/-- Along a run the queue stays as it was. -/
theorem Reach.queuedRequests_eq {s₀ s : BackendHandler} {evs : List Event}
    (h : Reach keccak256 s₀ evs s) : s.queuedRequests = s₀.queuedRequests := by
  induction h with
  | nil => rfl
  | dispatch req _ hs ih => rw [queuedRequests_onRequest hs, ih]
  | poll n r out _ _ hv ih => rw [(visit_frame keccak256 _ hv).1, ih]

/-- Along a run the pin is the last `SetPinnedBlock` dispatched, or the first pin. -/
theorem Reach.blockId_eq {s₀ s : BackendHandler} {evs : List Event}
    (h : Reach keccak256 s₀ evs s) : s.blockId = lastPin s₀.blockId (Event.commands evs) := by
  induction h with
  | nil => rfl
  | dispatch req _ hs ih => rw [blockId_onRequest hs, ih]; simp
  | poll n r out _ _ hv ih => rw [(visit_frame keccak256 _ hv).2.1, ih]; simp

/-- A run is a run whatever the queue holds. -/
theorem Reach.withQueue {s₀ s : BackendHandler} {evs : List Event}
    (h : Reach keccak256 s₀ evs s) (q : List BackendRequest) :
    Reach keccak256 { s₀ with queuedRequests := q } evs { s with queuedRequests := q } := by
  induction h with
  | nil => exact .nil
  | dispatch req _ hs ih =>
    exact .dispatch req ih (by rw [onRequest_withQueue, hs]; rfl)
  | poll n r out _ hn hv ih => exact .poll n r out ih hn (by rw [visit_withQueue, hv]; rfl)

theorem Reach.nil_inv {s₀ s : BackendHandler} (h : Reach keccak256 s₀ [] s) : s = s₀ := by
  generalize he : ([] : List Event) = evs at h
  cases h with
  | nil => rfl
  | dispatch => simp at he
  | poll => simp at he

/-- The step of `Reach.split`: a split of a run that ends with the step `e` from `s`
either falls after `e`, or it splits the run before `e`. -/
theorem Reach.split_snoc {s₀ s s' : BackendHandler} {evs : List Event} {e : Event}
    (ih : ∀ {evs₁ evs₂ : List Event}, evs = evs₁ ++ evs₂ →
      ∃ s₁, Reach keccak256 s₀ evs₁ s₁ ∧ Reach keccak256 s₁ evs₂ s)
    (h : Reach keccak256 s₀ (evs ++ [e]) s') (hstep : Reach keccak256 s [e] s') :
    ∀ {evs₁ evs₂ : List Event}, evs ++ [e] = evs₁ ++ evs₂ →
      ∃ s₁, Reach keccak256 s₀ evs₁ s₁ ∧ Reach keccak256 s₁ evs₂ s' := by
  intro evs₁ evs₂ he
  rcases List.eq_nil_or_concat evs₂ with rfl | ⟨evs₂, e', rfl⟩
  · rw [List.append_nil] at he; subst he
    exact ⟨s', h, .nil⟩
  · rw [List.concat_eq_append, ← List.append_assoc] at he
    obtain ⟨rfl, he'⟩ := List.append_inj' he rfl
    obtain rfl := List.singleton_inj.mp he'
    obtain ⟨s₁, h₁, h₂⟩ := ih rfl
    exact ⟨s₁, h₁, List.concat_eq_append evs₂ e ▸ h₂.append hstep⟩

/-- A run splits at any point into two runs. -/
theorem Reach.split {s₀ s : BackendHandler} {evs : List Event}
    (h : Reach keccak256 s₀ evs s) :
    ∀ {evs₁ evs₂ : List Event}, evs = evs₁ ++ evs₂ →
      ∃ s₁, Reach keccak256 s₀ evs₁ s₁ ∧ Reach keccak256 s₁ evs₂ s := by
  induction h with
  | nil =>
    intro evs₁ evs₂ he
    obtain ⟨rfl, rfl⟩ := List.append_eq_nil.mp he.symm
    exact ⟨_, .nil, .nil⟩
  | dispatch req h hs ih => exact Reach.split_snoc ih (.dispatch req h hs) (.dispatch req .nil hs)
  | poll n r out h hn hv ih =>
    exact Reach.split_snoc ih (.poll n r out h hn hv) (.poll n r out .nil hn hv)

/-- A run of one dispatch is one call of `on_request`. -/
theorem Reach.single_dispatch {s₀ s : BackendHandler} {req : BackendRequest}
    (h : Reach keccak256 s₀ [.dispatch req] s) : s₀.onRequest req = some s := by
  generalize he : [Event.dispatch req] = evs at h
  cases h with
  | nil => cases he
  | @dispatch evs s₁ _ req' h hs =>
    rcases evs with _ | ⟨e, evs⟩
    · obtain rfl : req = req' := by simpa using he
      rwa [h.nil_inv] at hs
    · simp at he
  | @poll evs _ _ _ _ _ _ _ _ =>
    rcases evs with _ | ⟨e, evs⟩ <;> simp at he

/-- A future that a command starts after a run reads at the pin the run's commands
left. -/
theorem Reach.readsAt_onRequest {s₀ s s' : BackendHandler} {evs : List Event}
    (h : Reach keccak256 s₀ evs s) {req : BackendRequest} (hs : s.onRequest req = some s')
    {r : ProviderRequest} (hr : s'.pendingRequests = s.pendingRequests ++ [r]) :
    r.ReadsAt (lastPin s₀.blockId (Event.commands evs)) := by
  rw [← h.blockId_eq]
  rcases onRequest_eq_some hs with ⟨k, x, -, -, ⟨msg, -, rfl⟩ | ⟨-, hreg⟩⟩ |
    ⟨x, r', -, -, hrk, -, rfl⟩ | ⟨-, db, b, rfl⟩
  · simp at hr
  · rcases register_eq_some hreg with ⟨ls, -, rfl⟩ | ⟨-, r', hr', rfl⟩
    · simp at hr
    · obtain rfl : r' = r := by simpa using hr
      exact spawnFor_readsAt hr'
  · -- an unkeyed future reads at no pin
    obtain rfl : r' = r := by simpa using hr
    cases r' <;> trivial
  · simp at hr

/-- Each dispatch of a run: the run up to it, its `on_request`, and the pin at which a
future it starts reads, the one the commands before it left. -/
theorem Reach.dispatch_readsAt {s₀ s : BackendHandler} {evs pre post : List Event}
    {req : BackendRequest} (h : Reach keccak256 s₀ evs s)
    (he : evs = pre ++ Event.dispatch req :: post) :
    ∃ s₁ s₂, Reach keccak256 s₀ pre s₁ ∧ s₁.onRequest req = some s₂ ∧
      ∀ r, s₂.pendingRequests = s₁.pendingRequests ++ [r] →
        r.ReadsAt (lastPin s₀.blockId (Event.commands pre)) := by
  obtain ⟨s₁, h₁, h₂⟩ := h.split he
  obtain ⟨s₂, h₂, -⟩ := h₂.split List.singleton_append.symm
  have hs := h₂.single_dispatch
  exact ⟨s₁, s₂, h₁, hs, fun r hr => h₁.readsAt_onRequest hs hr⟩

theorem withQueue_self {s : BackendHandler} {q : List BackendRequest}
    (h : s.queuedRequests = q) : ({ s with queuedRequests := q } : BackendHandler) = s := by
  cases s; cases h; rfl

end Runs

/-! ### The three phases -/

theorem drain_eq_some (keccak256 : Bytes → B256) {s s' : BackendHandler}
    {reqs : List BackendRequest} {evs : List Event} (h : drain s reqs = some (s', evs)) :
    Event.commands evs = reqs ∧ Reach keccak256 s evs s' := by
  induction reqs generalizing s s' evs with
  | nil =>
    simp only [drain, Option.some.injEq, Prod.mk.injEq] at h
    obtain ⟨rfl, rfl⟩ := h
    exact ⟨rfl, .nil⟩
  | cons req reqs ih =>
    simp only [drain, Option.bind_eq_bind, Option.bind_eq_some] at h
    obtain ⟨s₁, h₁, ⟨s₂, evs₂⟩, h₂, h⟩ := h
    simp only [pure, Option.some.injEq, Prod.mk.injEq] at h
    obtain ⟨rfl, rfl⟩ := h
    obtain ⟨hc, hr⟩ := ih h₂
    exact ⟨by simp [Event.commands, hc], Reach.cons (.dispatch req .nil h₁) hr⟩

/-- The source's drain, one `pop_front` at a time, is `drain` of the queue taken out at
once, whenever the fuel covers the queue: `on_request` neither reads nor writes the
queue, so popping a command before or after it makes no difference. -/
theorem popQueued_eq_drain :
    ∀ (l : List BackendRequest) (s : BackendHandler) (fuel : Nat), s.queuedRequests = l →
      l.length ≤ fuel → popQueued s fuel = drain { s with queuedRequests := [] } l
  | [], s, fuel, hq, _ => by
    cases fuel <;> simp [popQueued, drain, hq, withQueue_self hq]
  | req :: rest, s, fuel + 1, hq, hlen => by
    rw [popQueued, hq, drain]
    dsimp only
    rw [onRequest_withQueue s rest req, onRequest_withQueue s [] req]
    cases s.onRequest req with
    | none => rfl
    | some s' =>
      simp only [Option.map_some', Option.bind_eq_bind, Option.some_bind]
      rw [popQueued_eq_drain rest _ fuel rfl (by simpa using hlen)]

/-- A queue of a lookup and a `SetPinnedBlock`, drained both ways. -/
theorem popQueued_lookup_then_pin :
    let q : List BackendRequest := [.basic 1 7, .setPinnedBlock (.number (.number 7))]
    let s : BackendHandler := { BackendHandler.new none .empty none with queuedRequests := q }
    s.queuedRequests = q ∧ q.length ≤ 2 ∧
      popQueued s 2 = drain { s with queuedRequests := [] } q :=
  ⟨rfl, by decide, popQueued_eq_drain _ _ 2 rfl (by decide)⟩

theorem receive_closed {s s' : BackendHandler} {inbox : List Incoming}
    (h : receive s inbox = .closed s') :
    ∃ batch rest, inbox = batch.map .ready ++ .closed :: rest ∧
      s' = { s with queuedRequests := s.queuedRequests ++ batch } := by
  induction inbox generalizing s with
  | nil => cases h
  | cons i inbox ih =>
    cases i with
    | ready req =>
      obtain ⟨batch, rest, rfl, rfl⟩ := ih h
      exact ⟨req :: batch, rest, rfl, by simp⟩
    | closed => cases h; exact ⟨[], inbox, rfl, by simp⟩
    | pending => cases h

theorem receive_waiting {s s' : BackendHandler} {inbox rest : List Incoming}
    (h : receive s inbox = .waiting s' rest) :
    ∃ batch, (inbox = batch.map .ready ++ .pending :: rest ∨
        (inbox = batch.map .ready ∧ rest = [])) ∧
      s' = { s with queuedRequests := s.queuedRequests ++ batch } := by
  induction inbox generalizing s with
  | nil => cases h; exact ⟨[], .inr ⟨rfl, rfl⟩, by simp⟩
  | cons i inbox ih =>
    cases i with
    | ready req =>
      obtain ⟨batch, hin, rfl⟩ := ih h
      refine ⟨req :: batch, ?_, by simp⟩
      rcases hin with rfl | ⟨rfl, rfl⟩
      · exact .inl rfl
      · exact .inr ⟨rfl, rfl⟩
    | closed => cases h
    | pending => cases h; exact ⟨[], .inl rfl, by simp⟩

/-- A pass that does not panic is a run of poll turns: it dispatches nothing. -/
theorem pendingPass_reach (keccak256 : Bytes → B256) (ready : Readiness) (s : BackendHandler)
    {s' : BackendHandler} {evs : List Event} (h : pendingPass keccak256 ready s = some (s', evs)) :
    Reach keccak256 s evs s' ∧ Event.commands evs = [] := by
  suffices ∀ (ns : List Nat) (acc acc' : BackendHandler × List Event),
      Reach keccak256 s acc.2 acc.1 → Event.commands acc.2 = [] →
      ns.foldlM (passStep keccak256 ready) acc = some acc' →
      Reach keccak256 s acc'.2 acc'.1 ∧ Event.commands acc'.2 = [] from
    this _ (s, []) (s', evs) .nil rfl h
  intro ns
  induction ns with
  | nil => intro acc acc' h hc he; cases he; exact ⟨h, hc⟩
  | cons n ns ih =>
    intro acc acc' h hc he
    obtain ⟨acc₁, h₁, he⟩ := Option.bind_eq_some.mp he
    refine ih acc₁ acc' ?_ ?_ he <;>
      rcases passStep_eq_some h₁ with rfl | ⟨r, hn, hv, he₁⟩
    · exact h
    · rw [he₁]; exact .poll n r _ h hn hv
    · exact hc
    · simp [he₁, hc]

/-! ### The loop -/

theorem PollOutcome.prepend_eq_pending {o : PollOutcome} {evs evs' : List Event}
    {s : BackendHandler} {rest : List Incoming} (h : o.prepend evs = .pending s evs' rest) :
    ∃ evs'', o = .pending s evs'' rest ∧ evs' = evs ++ evs'' := by
  cases o <;> simp_all [PollOutcome.prepend]

theorem PollOutcome.prepend_eq_ready {o : PollOutcome} {evs evs' : List Event}
    {s : BackendHandler} (h : o.prepend evs = .ready s evs') :
    ∃ evs'', o = .ready s evs'' ∧ evs' = evs ++ evs'' := by
  cases o <;> simp_all [PollOutcome.prepend]

theorem PollOutcome.prepend_ne_outOfFuel {o : PollOutcome} (evs : List Event)
    (h : o ≠ .outOfFuel) : o.prepend evs ≠ .outOfFuel := by
  cases o <;> simp_all [PollOutcome.prepend]

/-- An iteration that drained the queue and found the channel pending. The pass
panics, or: the batch it received stays queued through the pass, and the drain and
the pass form a run from the queue taken out that dispatches the old queue. On an
empty batch the call returns `Poll::Pending`; otherwise the loop goes on. -/
theorem pollLoop_succ_of_waiting (keccak256 : Bytes → B256) (ready : Nat → Readiness)
    (fuel : Nat) {s s₁ s₂ : BackendHandler} {evs₁ : List Event} {inbox rest : List Incoming}
    (hd : drain { s with queuedRequests := [] } s.queuedRequests = some (s₁, evs₁))
    (hrcv : receive s₁ inbox = .waiting s₂ rest) :
    ∃ batch, (inbox = batch.map .ready ++ .pending :: rest ∨
        (inbox = batch.map .ready ∧ rest = [])) ∧
      (pendingPass keccak256 (ready fuel) s₂ = none ∧
          pollLoop keccak256 ready (fuel + 1) s inbox = .panicked ∨
        ∃ s₃ evs₂, s₃.queuedRequests = batch ∧
          Event.commands evs₁ ++ Event.commands evs₂ = s.queuedRequests ∧
          Reach keccak256 { s with queuedRequests := [] } (evs₁ ++ evs₂)
            { s₃ with queuedRequests := [] } ∧
          pollLoop keccak256 ready (fuel + 1) s inbox =
            if batch.isEmpty then .pending s₃ (evs₁ ++ evs₂) rest
            else (pollLoop keccak256 ready fuel s₃ rest).prepend (evs₁ ++ evs₂)) := by
  obtain ⟨hc₁, hr₁⟩ := drain_eq_some keccak256 hd
  have hq₁ : s₁.queuedRequests = [] := hr₁.queuedRequests_eq
  obtain ⟨batch, hin, rfl⟩ := receive_waiting hrcv
  refine ⟨batch, hin, ?_⟩
  cases hp : pendingPass keccak256 (ready fuel)
    { s₁ with queuedRequests := s₁.queuedRequests ++ batch } with
  | none => exact .inl ⟨rfl, by simp only [pollLoop, hd, hrcv, hp]⟩
  | some p =>
    obtain ⟨s₃, evs₂⟩ := p
    obtain ⟨hr₂, hc₂⟩ := pendingPass_reach keccak256 (ready fuel) _ hp
    have hq₃ : s₃.queuedRequests = batch := by rw [hr₂.queuedRequests_eq, hq₁]; rfl
    -- the pass starts from the drained state with the batch queued
    have hs₁ : s₁ = { ({ s₁ with queuedRequests := s₁.queuedRequests ++ batch } :
        BackendHandler) with queuedRequests := [] } := (withQueue_self hq₁).symm
    refine .inr ⟨s₃, evs₂, hq₃, by rw [hc₁, hc₂, List.append_nil],
      hr₁.append (hs₁ ▸ hr₂.withQueue []), ?_⟩
    simp only [pollLoop, hd, hrcv, hp, hq₃]

/-- The loop invariant of `pollLoop`, from any queue: the commands dispatched are the
queue and then the commands received, except the batch that met the closed channel;
the events form a run, the queue taken out. -/
theorem pollLoop_spec (keccak256 : Bytes → B256) (ready : Nat → Readiness) :
    ∀ (fuel : Nat) (s : BackendHandler) (inbox : List Incoming),
      (∀ s' evs rest, pollLoop keccak256 ready fuel s inbox = .pending s' evs rest →
        ∃ consumed, inbox = consumed ++ rest ∧
          Event.commands evs = s.queuedRequests ++ Incoming.commands consumed ∧
          s'.queuedRequests = [] ∧ Reach keccak256 { s with queuedRequests := [] } evs s') ∧
      (∀ s' evs, pollLoop keccak256 ready fuel s inbox = .ready s' evs →
        ∃ consumed lost rest, inbox = consumed ++ lost.map .ready ++ .closed :: rest ∧
          (consumed = [] ∨ consumed.getLast? = some .pending) ∧
          Event.commands evs = s.queuedRequests ++ Incoming.commands consumed ∧
          s'.queuedRequests = lost ∧
          Reach keccak256 { s with queuedRequests := [] } evs
            { s' with queuedRequests := [] }) := by
  intro fuel
  induction fuel with
  | zero => intro s inbox; exact ⟨(fun _ _ _ h => nomatch h), (fun _ _ h => nomatch h)⟩
  | succ fuel ih =>
    intro s inbox
    cases hd : drain { s with queuedRequests := [] } s.queuedRequests with
    | none =>
      simp only [pollLoop, hd]; exact ⟨(fun _ _ _ h => nomatch h), (fun _ _ h => nomatch h)⟩
    | some p =>
      obtain ⟨s₁, evs₁⟩ := p
      cases hrcv : receive s₁ inbox with
      | closed s₂ =>
        -- the channel closed: the batch received stays queued
        obtain ⟨hc₁, hr₁⟩ := drain_eq_some keccak256 hd
        have hq₁ : s₁.queuedRequests = [] := hr₁.queuedRequests_eq
        obtain ⟨batch, rest, rfl, rfl⟩ := receive_closed hrcv
        simp only [pollLoop, hd, hrcv]
        refine ⟨(fun _ _ _ h => nomatch h), fun s' evs h => ?_⟩
        simp only [PollOutcome.ready.injEq] at h
        obtain ⟨rfl, rfl⟩ := h
        refine ⟨[], batch, rest, rfl, .inl rfl, by simp [hc₁, Incoming.commands],
          by simp [hq₁], ?_⟩
        exact (withQueue_self hq₁).symm ▸ hr₁
      | waiting s₂ rest =>
        obtain ⟨batch, hin, hpanic | ⟨s₃, evs₂, hq₃, hc₁₂, hr₁₂, heq⟩⟩ :=
          pollLoop_succ_of_waiting keccak256 ready fuel hd hrcv
        · rw [hpanic.2]; exact ⟨(fun _ _ _ h => nomatch h), (fun _ _ h => nomatch h)⟩
        rw [heq]
        by_cases hb : batch = []
        · -- an empty batch: the call returns `Poll::Pending`
          subst hb
          simp only [List.isEmpty_nil, if_true]
          refine ⟨fun s' evs rest' h => ?_, (fun _ _ h => nomatch h)⟩
          simp only [PollOutcome.pending.injEq] at h
          obtain ⟨rfl, rfl, rfl⟩ := h
          have hc : Event.commands (evs₁ ++ evs₂) =
              s.queuedRequests ++ Incoming.commands [] := by
            simp [hc₁₂, Incoming.commands]
          rcases hin with rfl | ⟨rfl, rfl⟩
          · exact ⟨[.pending], rfl, hc, hq₃, withQueue_self hq₃ ▸ hr₁₂⟩
          · exact ⟨[], rfl, hc, hq₃, withQueue_self hq₃ ▸ hr₁₂⟩
        · -- a batch: the loop goes on, and the next iteration dispatches it first
          have hne : batch.isEmpty = false := by simpa using hb
          simp only [hne, Bool.false_eq_true, if_false]
          constructor
          · intro s' evs rest' h
            obtain ⟨evs', hpl, rfl⟩ := PollOutcome.prepend_eq_pending h
            obtain ⟨consumed', rfl, hc', hq', hr'⟩ := (ih s₃ rest).1 _ _ _ hpl
            have hcmd : Event.commands (evs₁ ++ evs₂ ++ evs') =
                s.queuedRequests ++ (batch ++ Incoming.commands consumed') := by
              simp [← hc₁₂, hc', hq₃]
            rcases hin with rfl | ⟨hin, hrest⟩
            · exact ⟨batch.map .ready ++ .pending :: consumed', by simp,
                by rw [hcmd]; simp [Incoming.commands], hq', hr₁₂.append hr'⟩
            · obtain ⟨rfl, rfl⟩ := List.append_eq_nil.mp hrest
              exact ⟨batch.map .ready, by simp [hin], by simpa [Incoming.commands] using hcmd,
                hq', hr₁₂.append hr'⟩
          · intro s' evs h
            obtain ⟨evs', hpl, rfl⟩ := PollOutcome.prepend_eq_ready h
            obtain ⟨consumed', lost, rest', rfl, hlast, hc', hq', hr'⟩ :=
              (ih s₃ rest).2 _ _ hpl
            rcases hin with rfl | ⟨-, hrest⟩
            · refine ⟨batch.map .ready ++ .pending :: consumed', lost, rest', by simp, .inr ?_,
                by simp [← hc₁₂, hc', hq₃, Incoming.commands], hq', hr₁₂.append hr'⟩
              rcases hlast with rfl | hlast
              · simp
              · simp [List.getLast?_cons, hlast]
            · simp at hrest

/-- Each iteration that loops consumed a command, so more iterations than inbox
answers always suffice. -/
theorem pollLoop_ne_outOfFuel (keccak256 : Bytes → B256) (ready : Nat → Readiness) :
    ∀ (fuel : Nat) (s : BackendHandler) (inbox : List Incoming), inbox.length < fuel →
      pollLoop keccak256 ready fuel s inbox ≠ .outOfFuel := by
  intro fuel
  induction fuel with
  | zero => intro s inbox h; omega
  | succ fuel ih =>
    intro s inbox hlen
    cases hd : drain { s with queuedRequests := [] } s.queuedRequests with
    | none => simp [pollLoop, hd]
    | some p =>
      obtain ⟨s₁, evs₁⟩ := p
      cases hrcv : receive s₁ inbox with
      | closed s₂ => simp [pollLoop, hd, hrcv]
      | waiting s₂ rest =>
        obtain ⟨batch, hin, hpanic | ⟨s₃, evs₂, -, -, -, heq⟩⟩ :=
          pollLoop_succ_of_waiting keccak256 ready fuel hd hrcv
        · rw [hpanic.2]; exact nofun
        rw [heq]
        split
        · simp
        · -- the batch is not empty, so the rest of the inbox is shorter
          have hb : batch ≠ [] := by rintro rfl; simp_all
          have hlt : rest.length < fuel := by
            rcases hin with rfl | ⟨rfl, rfl⟩
            · simp at hlen; omega
            · simp
              cases batch with
              | nil => exact absurd rfl hb
              | cons _ _ => simp at hlen; omega
          exact PollOutcome.prepend_ne_outOfFuel _ (ih s₃ rest hlt)

/-- A call of `poll` on a closed inbox with one command received in the same tick:
`poll` returns `Poll::Ready(())` with the `SetPinnedBlock` still queued and no
event at all. The command was taken from `incoming` and never dispatched. -/
theorem closing_drops_received_command :
    poll (fun _ => 0) (fun _ _ _ => none) (BackendHandler.new none .empty none)
        [.ready (.setPinnedBlock (.number (.number 7))), .closed] =
      .ready { BackendHandler.new none .empty none with
        queuedRequests := [.setPinnedBlock (.number (.number 7))] } [] := rfl

/-- What one call of `poll` does, from an empty queue (as every call starts). It
terminates. If it returns `Poll::Pending`, it dispatched every command it received,
once each and in receive order, left the queue empty, and its events form a run. If
it returns `Poll::Ready(())`, the inbox answers it read are `consumed`, then a batch
`lost` of commands, then the closed channel, where `consumed` is empty or ends with a
`Poll::Pending` answer; it dispatched the commands of `consumed` in order, once each,
and `lost` is left in the queue, never dispatched. In both cases the pin after the
call is the last `SetPinnedBlock` dispatched, and each account or storage future a
dispatched lookup starts reads at the pin left by the commands dispatched before that
lookup: the last `SetPinnedBlock` received before it, or the pin the call started
with. -/
theorem poll_dispatches_received (keccak256 : Bytes → B256) (ready : Nat → Readiness)
    (s : BackendHandler) (inbox : List Incoming) (hq : s.queuedRequests = []) :
    poll keccak256 ready s inbox ≠ .outOfFuel ∧
    (∀ s' evs rest, poll keccak256 ready s inbox = .pending s' evs rest →
      ∃ consumed, inbox = consumed ++ rest ∧ Event.commands evs = Incoming.commands consumed ∧
        s'.queuedRequests = [] ∧ Reach keccak256 s evs s' ∧
        s'.blockId = lastPin s.blockId (Incoming.commands consumed) ∧
        ∀ pre req post, evs = pre ++ Event.dispatch req :: post →
          ∃ s₁ s₂, Reach keccak256 s pre s₁ ∧ s₁.onRequest req = some s₂ ∧
            ∀ r, s₂.pendingRequests = s₁.pendingRequests ++ [r] →
              r.ReadsAt (lastPin s.blockId (Event.commands pre))) ∧
    (∀ s' evs, poll keccak256 ready s inbox = .ready s' evs →
      ∃ consumed lost rest, inbox = consumed ++ lost.map .ready ++ .closed :: rest ∧
        (consumed = [] ∨ consumed.getLast? = some .pending) ∧
        Event.commands evs = Incoming.commands consumed ∧ s'.queuedRequests = lost ∧
        Reach keccak256 s evs { s' with queuedRequests := [] } ∧
        s'.blockId = lastPin s.blockId (Incoming.commands consumed) ∧
        ∀ pre req post, evs = pre ++ Event.dispatch req :: post →
          ∃ s₁ s₂, Reach keccak256 s pre s₁ ∧ s₁.onRequest req = some s₂ ∧
            ∀ r, s₂.pendingRequests = s₁.pendingRequests ++ [r] →
              r.ReadsAt (lastPin s.blockId (Event.commands pre))) := by
  have hspec := pollLoop_spec keccak256 ready (inbox.length + 1) s inbox
  rw [withQueue_self hq, hq] at hspec
  refine ⟨pollLoop_ne_outOfFuel keccak256 ready _ s inbox (Nat.lt_succ_self _),
    fun s' evs rest h => ?_, fun s' evs h => ?_⟩
  · obtain ⟨consumed, hin, hc, hq', hr⟩ := hspec.1 s' evs rest h
    refine ⟨consumed, hin, by simpa using hc, hq', hr, ?_, fun _ _ _ he => hr.dispatch_readsAt he⟩
    rw [hr.blockId_eq, hc, List.nil_append]
  · obtain ⟨consumed, lost, rest, hin, hlast, hc, hq', hr⟩ := hspec.2 s' evs h
    refine ⟨consumed, lost, rest, hin, hlast, by simpa using hc, hq', hr, ?_,
      fun _ _ _ he => hr.dispatch_readsAt he⟩
    rw [show s'.blockId = ({ s' with queuedRequests := [] } : BackendHandler).blockId from rfl,
      hr.blockId_eq, hc, List.nil_append]

/-- `poll_dispatches_received` on a fresh handler whose inbox holds a lookup, a
pending answer, a `SetPinnedBlock` and the closed channel. -/
theorem poll_dispatches_lookup_then_closes :
    let inbox : List Incoming := [.ready (.basic 1 7), .pending,
      .ready (.setPinnedBlock (.number (.number 7))), .closed]
    let s : BackendHandler := BackendHandler.new none .empty none
    poll (fun _ => 0) (fun _ _ _ => none) s inbox ≠ .outOfFuel ∧
    (∀ s' evs rest, poll (fun _ => 0) (fun _ _ _ => none) s inbox = .pending s' evs rest →
      ∃ consumed, inbox = consumed ++ rest ∧ Event.commands evs = Incoming.commands consumed ∧
        s'.queuedRequests = [] ∧ Reach (fun _ => 0) s evs s' ∧
        s'.blockId = lastPin s.blockId (Incoming.commands consumed) ∧
        ∀ pre req post, evs = pre ++ Event.dispatch req :: post →
          ∃ s₁ s₂, Reach (fun _ => 0) s pre s₁ ∧ s₁.onRequest req = some s₂ ∧
            ∀ r, s₂.pendingRequests = s₁.pendingRequests ++ [r] →
              r.ReadsAt (lastPin s.blockId (Event.commands pre))) ∧
    (∀ s' evs, poll (fun _ => 0) (fun _ _ _ => none) s inbox = .ready s' evs →
      ∃ consumed lost rest, inbox = consumed ++ lost.map .ready ++ .closed :: rest ∧
        (consumed = [] ∨ consumed.getLast? = some .pending) ∧
        Event.commands evs = Incoming.commands consumed ∧ s'.queuedRequests = lost ∧
        Reach (fun _ => 0) s evs { s' with queuedRequests := [] } ∧
        s'.blockId = lastPin s.blockId (Incoming.commands consumed) ∧
        ∀ pre req post, evs = pre ++ Event.dispatch req :: post →
          ∃ s₁ s₂, Reach (fun _ => 0) s pre s₁ ∧ s₁.onRequest req = some s₂ ∧
            ∀ r, s₂.pendingRequests = s₁.pendingRequests ++ [r] →
              r.ReadsAt (lastPin s.blockId (Event.commands pre))) :=
  poll_dispatches_received (fun _ => 0) (fun _ _ _ => none) _ _ rfl

end MevDesign.ForkDb
