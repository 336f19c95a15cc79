import MevDesign.Proofs.ForkDb.Replies
import MevDesign.Proofs.ForkDb.Dispatch
import MevDesign.Proofs.ForkDb.PendingPass

/-!
# `MevDesign.Proofs.ForkDb.Progress`: an idle handler has answered every caller

A `SharedBackend` call blocks until its channel is written. `Replies.lean` accounts for
the channels along every run: those answered and those the handler holds make up,
as a multiset, those passed to `on_request`. This module says when nothing is held.

A channel waits in a listener entry or in a pending future of its own, and by the
coalescing invariant a listener entry exists only while its key's fetch is pending.
So a handler with no future pending holds no channel (`Coalesced.heldSenders_eq_nil`),
and every channel passed to it has been answered, once for each time it was passed
(`answered_perm_senders_of_idle`).

A call of `poll` returns `Poll::Pending` right after a pass over `pending_requests`
(`pollLoop_pending_of_pass`), and that pass keeps exactly the futures that returned
`Poll::Pending` (`foldlM_passStep`). When the provider answers every future the first
time it is polled, as the archive's account and storage futures do (they have nothing
to await), a call that returns `Poll::Pending` therefore leaves no future pending, and
every caller, from before the call or during it, has its reply
(`poll_answers_all_when_ready`).
-/

set_option autoImplicit false

namespace MevDesign.ForkDb

open scoped List

open BackendHandler

/-! ### No future pending, no channel held -/

namespace Coalesced

variable {s : BackendHandler}

/-- With no future pending, no key has a listener entry. -/
theorem listenerList_eq_nil (h : Coalesced s) (hidle : s.pendingRequests = []) :
    s.listenerList = [] :=
  List.eq_nil_iff_forall_not_mem.2 fun _ hx => by
    obtain ⟨k, ls, hls, -⟩ := mem_listenerList s hx
    have := h.count k
    simp [hidle, hls] at this

theorem heldSenders_eq_nil (h : Coalesced s) (hidle : s.pendingRequests = []) :
    s.heldSenders = [] := by
  simp [heldSenders, h.listenerList_eq_nil hidle, hidle]

end Coalesced

/-- An idle handler has answered every caller. Along every run from
`BackendHandler::new`, in a state with no provider future pending, the channels written
to are, as a multiset, the channels passed to `on_request`: each one was answered as
many times as it was passed, so exactly once when the callers' channels are distinct,
and no other channel was written. -/
theorem answered_perm_senders_of_idle (keccak256 : Bytes → B256)
    (fileDbFactory : Option DBFactory) (db : BlockchainDb) (blockId : Option BlockId)
    (evs : List Event) (s : BackendHandler)
    (h : Reach keccak256 (BackendHandler.new fileDbFactory db blockId) evs s)
    (hidle : s.pendingRequests = []) :
    s.sent.map Prod.fst ~ Event.senders evs := by
  simpa [(coalesced_of_reach h).heldSenders_eq_nil hidle] using answered_heldSenders_perm h

/-- A lookup of address `1` on channel `7`, and the fetch it started, which fails:
nothing is pending and channel `7` got its one reply. -/
theorem idle_after_failed_lookup :
    let r : ProviderRequest := .account 1 (.remote default)
    let o : r.Output := .error (.msg "down")
    let s₁ : BackendHandler := { BackendHandler.new none .empty none with
      accountRequests := (∅ : AList fun _ : Address => List Sender).insert 1 [7]
      pendingRequests := [r] }
    ∃ s, s₁.visit (fun _ => 0) 0 r (some o) = some s ∧ s.pendingRequests = [] ∧
      s.sent.map Prod.fst ~ Event.senders [.dispatch (.basic 1 7), .poll r (some o)] :=
  have h : Reach (fun _ => 0) (BackendHandler.new none .empty none)
      [.dispatch (.basic 1 7), .poll (.account 1 (.remote default)) (some (.error (.msg "down")))]
      _ :=
    .poll 0 _ _ (.dispatch (.basic 1 7) .nil (by rfl)) (by rfl) (by rfl)
  ⟨_, rfl, rfl, answered_perm_senders_of_idle (fun _ => 0) none .empty none _ _ h rfl⟩

/-! ### A `poll` call whose futures all complete -/

section Poll
variable (keccak256 : Bytes → B256)

/-- `poll` returns `Poll::Pending` only right after a pass over `pending_requests`. -/
theorem pollLoop_pending_of_pass (ready : Nat → Readiness) :
    ∀ (fuel : Nat) (s : BackendHandler) (inbox : List Incoming) (s' : BackendHandler)
      (evs : List Event) (rest : List Incoming),
      pollLoop keccak256 ready fuel s inbox = .pending s' evs rest →
      ∃ p s₂ evs₂, pendingPass keccak256 (ready p) s₂ = some (s', evs₂)
  | 0, _, _, _, _, _, h => nomatch h
  | fuel + 1, s, inbox, s', evs, rest, h => by
    simp only [pollLoop] at h
    split at h
    · cases h
    · split at h
      · cases h
      · split at h
        · cases h
        · split_ifs at h
          · cases h; exact ⟨fuel, _, _, by assumption⟩
          · obtain ⟨_, hpl, -⟩ := PollOutcome.prepend_eq_pending h
            exact pollLoop_pending_of_pass ready fuel _ _ _ _ _ hpl

/-- A pass in which every future completes leaves none pending. -/
theorem pendingPass_pendingRequests_of_ready {ready : Readiness}
    (hready : ∀ n r, (ready n r).isSome) {s s' : BackendHandler} {evs : List Event}
    (h : pendingPass keccak256 ready s = some (s', evs)) : s'.pendingRequests = [] := by
  have hnil : stillPending ready s.pendingRequests = [] := by
    simp only [stillPending, List.map_eq_nil_iff, List.filter_eq_nil_iff, Option.isNone_iff_eq_none]
    exact fun p _ => Option.ne_none_iff_isSome.2 (hready p.1 p.2)
  have := ((foldlM_passStep keccak256 ready s.pendingRequests [] (s, [])
    (List.append_nil _).symm).2 _ h).2
  rw [hnil, List.append_nil] at this
  exact this.eq_nil

/-- A call of `poll` in which the provider answers every future the first time it is
polled. Along a run from `BackendHandler::new`, if the call returns `Poll::Pending`, it
leaves no future pending, and every channel passed to `on_request`, before the call or
during it, has been answered as many times as it was passed, and no other channel. -/
theorem poll_answers_all_when_ready (ready : Nat → Readiness)
    (hready : ∀ p n r, (ready p n r).isSome) (fileDbFactory : Option DBFactory)
    (db : BlockchainDb) (blockId : Option BlockId) (evs : List Event) (s : BackendHandler)
    (h : Reach keccak256 (BackendHandler.new fileDbFactory db blockId) evs s)
    (inbox : List Incoming) :
    ∀ s' evs' rest, poll keccak256 ready s inbox = .pending s' evs' rest →
      s'.pendingRequests = [] ∧ s'.sent.map Prod.fst ~ Event.senders (evs ++ evs') := by
  intro s' evs' rest hpoll
  obtain ⟨p, s₂, evs₂, hp⟩ := pollLoop_pending_of_pass keccak256 ready _ _ _ _ _ _ hpoll
  have hidle := pendingPass_pendingRequests_of_ready keccak256 (hready p) hp
  obtain ⟨-, -, -, -, hr⟩ := (pollLoop_spec keccak256 ready _ s inbox).1 _ _ _ hpoll
  have hq : s.queuedRequests = [] := h.queuedRequests_eq
  rw [withQueue_self hq] at hr
  have hrun := h.append hr
  exact ⟨hidle, by
    simpa [(coalesced_of_reach hrun).heldSenders_eq_nil hidle] using
      answered_heldSenders_perm hrun⟩

end Poll

/-- A provider that fails every request, with the cause `cause`. -/
def ProviderRequest.failing (cause : Report) : (r : ProviderRequest) → r.Output
  | .account .. | .storage .. | .blockHash _ | .fullBlock .. | .transaction .. | .anyRequest _ =>
    .error cause

/-- A fresh handler, one lookup received, and a provider that fails at once: the call
returns `Poll::Pending`, and it has answered the lookup's channel. -/
theorem poll_answers_failed_lookup :
    let ready : Nat → Readiness := fun _ _ r => some (ProviderRequest.failing (.msg "down") r)
    (∀ p n r, (ready p n r).isSome) ∧
    (∃ s' evs', poll (fun _ => 0) ready (BackendHandler.new none .empty none)
      [.ready (.basic 1 7)] = .pending s' evs' []) ∧
    ∀ s' evs' rest, poll (fun _ => 0) ready (BackendHandler.new none .empty none)
        [.ready (.basic 1 7)] = .pending s' evs' rest →
      s'.pendingRequests = [] ∧ s'.sent.map Prod.fst ~ Event.senders ([] ++ evs') :=
  have hready : ∀ p n r, ((fun _ _ r => some (ProviderRequest.failing (.msg "down") r) :
      Nat → Readiness) p n r).isSome := fun _ _ _ => rfl
  ⟨hready, ⟨_, _, rfl⟩,
    poll_answers_all_when_ready (fun _ => 0) _ hready none .empty none [] _ .nil _⟩

end MevDesign.ForkDb
