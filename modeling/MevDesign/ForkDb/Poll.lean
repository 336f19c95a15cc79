import MevDesign.ForkDb.Run

/-!
# `MevDesign.ForkDb.Poll`: `BackendHandler::poll`

One call of `Future::poll` on the handler loops over three phases until a pass
leaves no command queued:

1. `drain`: pop every queued command and pass it to `on_request`;
2. `receive`: take commands from `incoming` onto `queued_requests` until the channel
   is pending (the loop goes on) or closed (`poll` returns `Poll::Ready(())`, at once);
3. `pendingPass`: `for n in (0..pending_requests.len()).rev()`, take the future at
   `n` out with `swap_remove` and handle it (`BackendHandler.visit`).

A panic in `on_request` or in the handling of a ready future ends the call: `poll`
returns `panicked`.

The environment is an input. `inbox` lists what `poll_next` returns, in order; when
the list runs out the channel is pending. `ready p n r` is what the future `r` at
index `n` returns when the pass numbered `p` polls it. The loop is bounded by a
fuel: each iteration after the first consumes a command from the inbox, so
`inbox.length + 1` iterations suffice (`Proofs/ForkDb/Dispatch.lean`), and `poll`
runs `pollLoop` with that fuel. The outcome records the events of the call, the
steps `Reach` is made of.

`drain` clears `queued_requests` before it dispatches the commands it held; the
source pops them one at a time (`popQueued`). Both pass the same commands in the same
order, and `on_request` neither reads nor writes the queue, so the two agree
(`Proofs/ForkDb/Dispatch.lean`).
-/

set_option autoImplicit false

namespace MevDesign.ForkDb

/-- What `Pin::new(&mut pin.incoming).poll_next(cx)` returns. -/
inductive Incoming where
  /-- `Poll::Ready(Some(req))`. -/
  | ready (req : BackendRequest)
  /-- `Poll::Ready(None)`: every `SharedBackend` was dropped. -/
  | closed
  /-- `Poll::Pending`. -/
  | pending

/-- The commands among the inbox's answers, in order. -/
def Incoming.commands : List Incoming → List BackendRequest
  | [] => []
  | .ready req :: rest => req :: Incoming.commands rest
  | _ :: rest => Incoming.commands rest

/-- What the futures return when a pass polls them: the result of the future `r` at
index `n`, `none` for `Poll::Pending`. -/
abbrev Readiness := (n : Nat) → (r : ProviderRequest) → Option r.Output

/-- The queued commands passed to `on_request` in order, with the events; `none` where
`on_request` panics. -/
def drain (s : BackendHandler) : List BackendRequest → Option (BackendHandler × List Event)
  | [] => some (s, [])
  | req :: reqs => do
    let s' ← s.onRequest req
    let (s'', evs) ← drain s' reqs
    pure (s'', .dispatch req :: evs)

/-- `while let Some(req) = pin.queued_requests.pop_front() { pin.on_request(req) }`, as
the source runs it: take the front command off the queue, then pass it to
`on_request`, with at most `fuel` iterations. `drain` is this loop with the queue taken
out at once (`popQueued_eq_drain`). -/
def popQueued (s : BackendHandler) : Nat → Option (BackendHandler × List Event)
  | 0 => some (s, [])
  | fuel + 1 =>
    match s.queuedRequests with
    | [] => some (s, [])
    | req :: rest => do
      let s' ← ({ s with queuedRequests := rest } : BackendHandler).onRequest req
      let (s'', evs) ← popQueued s' fuel
      pure (s'', .dispatch req :: evs)

/-- Where the receive loop stopped. -/
inductive Received where
  /-- `poll_next` returned `Poll::Ready(None)`. -/
  | closed (s : BackendHandler)
  /-- `poll_next` returned `Poll::Pending`, with the answers still to come. -/
  | waiting (s : BackendHandler) (rest : List Incoming)

/-- The receive loop: `Poll::Ready(Some(req))` is pushed onto `queued_requests`. -/
def receive (s : BackendHandler) : List Incoming → Received
  | [] => .waiting s []
  | .ready req :: rest => receive { s with queuedRequests := s.queuedRequests ++ [req] } rest
  | .closed :: _ => .closed s
  | .pending :: rest => .waiting s rest

/-- One turn of the pass, at index `n`; `none` where the turn panics. The index is
always in range (the pass walks down from the last index and each turn shortens the
list by at most one); the out-of-range branch keeps the function total. -/
def passStep (keccak256 : Bytes → B256) (ready : Readiness) (acc : BackendHandler × List Event)
    (n : Nat) : Option (BackendHandler × List Event) :=
  match acc.1.pendingRequests[n]? with
  | some r =>
    (acc.1.visit keccak256 n r (ready n r)).map fun s => (s, acc.2 ++ [.poll r (ready n r)])
  | none => some acc

/-- A turn that does not panic skips an index out of range, or polls the future there. -/
theorem passStep_eq_some {keccak256 : Bytes → B256} {ready : Readiness}
    {acc acc' : BackendHandler × List Event} {n : Nat}
    (h : passStep keccak256 ready acc n = some acc') :
    acc' = acc ∨ ∃ r, acc.1.pendingRequests[n]? = some r ∧
      acc.1.visit keccak256 n r (ready n r) = some acc'.1 ∧
      acc'.2 = acc.2 ++ [.poll r (ready n r)] := by
  unfold passStep at h
  split at h
  · obtain ⟨s', hs', rfl⟩ := Option.map_eq_some'.mp h
    exact .inr ⟨_, ‹_›, hs', rfl⟩
  · exact .inl (Option.some.inj h).symm

/-- `for n in (0..pin.pending_requests.len()).rev() { ... }`, with the events; `none`
where a turn panics. -/
def pendingPass (keccak256 : Bytes → B256) (ready : Readiness) (s : BackendHandler) :
    Option (BackendHandler × List Event) :=
  (List.range s.pendingRequests.length).reverse.foldlM (passStep keccak256 ready) (s, [])

/-- How a call of `poll` ends. -/
inductive PollOutcome where
  /-- `Poll::Ready(())`: the inbox closed. -/
  | ready (s : BackendHandler) (evs : List Event)
  /-- `Poll::Pending`, with the inbox answers not yet read. -/
  | pending (s : BackendHandler) (evs : List Event) (rest : List Incoming)
  /-- `on_request` panicked, or the handling of a ready future did. -/
  | panicked
  /-- The model's bound on iterations was reached. -/
  | outOfFuel

/-- Put the events `evs` in front of an outcome's events. -/
def PollOutcome.prepend (evs : List Event) : PollOutcome → PollOutcome
  | .ready s evs' => .ready s (evs ++ evs')
  | .pending s evs' rest => .pending s (evs ++ evs') rest
  | o => o

/-- The `loop` of `poll`, with at most `fuel` iterations. -/
def pollLoop (keccak256 : Bytes → B256) (ready : Nat → Readiness) :
    Nat → BackendHandler → List Incoming → PollOutcome
  | 0, _, _ => .outOfFuel
  | fuel + 1, s, inbox =>
    match drain { s with queuedRequests := [] } s.queuedRequests with
    | none => .panicked
    | some (s₁, evs₁) =>
      match receive s₁ inbox with
      | .closed s₂ => .ready s₂ evs₁
      | .waiting s₂ rest =>
        match pendingPass keccak256 (ready fuel) s₂ with
        | none => .panicked
        | some (s₃, evs₂) =>
          if s₃.queuedRequests.isEmpty then .pending s₃ (evs₁ ++ evs₂) rest
          else (pollLoop keccak256 ready fuel s₃ rest).prepend (evs₁ ++ evs₂)

/-- One call of `BackendHandler::poll` on the inbox answers `inbox`. -/
def poll (keccak256 : Bytes → B256) (ready : Nat → Readiness) (s : BackendHandler)
    (inbox : List Incoming) : PollOutcome :=
  pollLoop keccak256 ready (inbox.length + 1) s inbox

end MevDesign.ForkDb
