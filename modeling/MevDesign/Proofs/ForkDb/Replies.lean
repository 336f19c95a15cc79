import MevDesign.Proofs.ForkDb.Coalescing

/-!
# `MevDesign.Proofs.ForkDb.Replies`: every reply channel is answered at most once

Each `SharedBackend` call makes a fresh one-shot channel and blocks on it. The
handler must write into each channel at most once and must not lose one while it
waits: a lost channel is a caller blocked forever, a second write is a reply to the
wrong question.

The bookkeeping is one multiset equation. `BackendHandler.answered` lists the
channels written to, one entry per message; `BackendHandler.heldSenders` lists the
channels the handler still holds, in the listener tables and inside the pending
full-block, transaction and `AnyRequest` futures. `answered_heldSenders_perm` proves,
along every run from `BackendHandler::new`,

    answered ++ heldSenders ~ the channels passed to on_request

with no hypothesis at all; the step lemmas `accounted_onRequest` and
`accounted_visit` say that a command adds its own channel and a poll moves channels
from held to answered. When the callers' channels are distinct, as
`SharedBackend` makes them, the equation gives `exactly_once_replies`: no channel
gets two messages, and one still waiting sits in exactly one place, a listener
entry whose key has its fetch in flight, or a pending future of its own.
-/

set_option autoImplicit false

namespace MevDesign.ForkDb

open scoped List

open BackendHandler

namespace BackendHandler

/-- The reply channels written to, one entry per message. -/
def answered (s : BackendHandler) : List Sender := s.sent.map Prod.fst

/-- The reply channels the handler holds. -/
def heldSenders (s : BackendHandler) : List Sender :=
  s.listenerList ++ s.pendingRequests.filterMap ProviderRequest.sender?

end BackendHandler

section
variable {s s' : BackendHandler}

/-- `on_request` adds the command's channel, to the answered ones or the held ones. -/
theorem accounted_onRequest {req : BackendRequest} (h : s.onRequest req = some s') :
    s'.answered ++ s'.heldSenders ~ s.answered ++ s.heldSenders ++ req.sender?.toList := by
  rw [List.perm_iff_count]
  intro y
  rcases onRequest_eq_some h with ⟨k, x, -, hx, ⟨msg, -, rfl⟩ | ⟨-, hreg⟩⟩ |
    ⟨x, r, -, hx, -, hr, rfl⟩ | ⟨hx, db, b, rfl⟩
  · simp [answered, heldSenders, hx, List.count_cons]; omega
  · rcases register_eq_some hreg with ⟨ls, hls, rfl⟩ | ⟨hnone, r, hr, rfl⟩
    · have h₁ := (listenerList_setListeners s k (ls ++ [x])).count_eq y
      have h₂ := (listenerList_perm_clear s k hls).count_eq y
      simp [answered, heldSenders, hx, h₁, h₂, List.count_cons]; omega
    · have h₁ := (listenerList_setListeners s k [x]).count_eq y
      have h₂ := (listenerList_perm_clear' s k).count_eq y
      simp only [hnone, Option.getD_none, List.nil_append] at h₂
      simp [answered, heldSenders, hx, h₁, h₂, (spawnFor_eq_some hr).2, List.count_cons]; omega
  · simp [answered, heldSenders, hx, hr, List.count_cons]
  · simp [answered, heldSenders, hx]

variable (keccak256 : Bytes → B256)

/-- Polling a future moves channels from held to answered: a ready key's listeners,
or a ready future's own channel. -/
theorem accounted_visit {n : Nat} {r : ProviderRequest} {out : Option r.Output}
    (hn : s.pendingRequests[n]? = some r) (hv : s.visit keccak256 n r out = some s') :
    s'.answered ++ s'.heldSenders ~ s.answered ++ s.heldSenders := by
  have hperm := (swapRemove_perm_of_getElem? hn).filterMap ProviderRequest.sender?
  rw [List.perm_iff_count]
  intro y
  have hp := hperm.count_eq y
  simp only [List.filterMap_append, List.count_append] at hp
  rcases visit_eq_some keccak256 s hv with
    ⟨rfl, rfl⟩ | ⟨o, msg, rfl, -, ⟨k, -, hs, rfl⟩ | ⟨x, -, hx, rfl⟩⟩
  · simp [answered, heldSenders, ← hp]
  · have hc := (listenerList_perm_clear' s k).count_eq y
    simp [answered, heldSenders, hs, Function.comp_def] at hp hc ⊢
    omega
  · simp [answered, heldSenders, hx, List.count_cons] at hp ⊢
    omega

end

/-- Along every run from `BackendHandler::new`, the channels answered and the
channels held are, as a multiset, the channels passed to `on_request`. -/
theorem answered_heldSenders_perm {keccak256 : Bytes → B256} {fileDbFactory : Option DBFactory}
    {db : BlockchainDb} {blockId : Option BlockId} {evs : List Event} {s : BackendHandler}
    (h : Reach keccak256 (BackendHandler.new fileDbFactory db blockId) evs s) :
    s.answered ++ s.heldSenders ~ Event.senders evs := by
  induction h with
  | nil => exact .refl _
  | dispatch req _ hs ih =>
    simpa using (accounted_onRequest hs).trans (ih.append_right _)
  | poll n r out _ hn hv ih => simpa using (accounted_visit keccak256 hn hv).trans ih

/-- Exactly-once replies. Along any run from `BackendHandler::new` whose commands carry
distinct reply channels: no channel receives two messages, and a channel passed to
`on_request` and not yet answered is held in exactly one place, which is either the
listener entry of a key whose one fetch is in flight or a pending future that carries
it. -/
theorem exactly_once_replies (keccak256 : Bytes → B256) (fileDbFactory : Option DBFactory)
    (db : BlockchainDb) (blockId : Option BlockId) (evs : List Event) (s : BackendHandler)
    (h : Reach keccak256 (BackendHandler.new fileDbFactory db blockId) evs s)
    (hfresh : (Event.senders evs).Nodup) :
    (s.sent.map Prod.fst).Nodup ∧
    ∀ x ∈ Event.senders evs, x ∉ s.sent.map Prod.fst →
      s.heldSenders.count x = 1 ∧
      ((∃ k ls, s.listenersAt k = some ls ∧ x ∈ ls ∧
          s.pendingRequests.countP (fun r => r.key? == some k) = 1) ∨
        ∃ r ∈ s.pendingRequests, r.sender? = some x) := by
  have hperm := answered_heldSenders_perm h
  have hnd : (s.answered ++ s.heldSenders).Nodup := hperm.nodup_iff.mpr hfresh
  refine ⟨(List.nodup_append.mp hnd).1, fun x hx hna => ⟨?_, ?_⟩⟩
  · have hmem : x ∈ s.heldSenders := by
      have := hperm.mem_iff.mpr hx
      simp only [List.mem_append] at this
      exact this.resolve_left hna
    exact List.count_eq_one_of_mem (List.nodup_append.mp hnd).2.1 hmem
  · have hmem := hperm.mem_iff.mpr hx
    simp only [List.mem_append, heldSenders, List.mem_filterMap] at hmem
    rcases hmem with hmem | hmem | ⟨r, hr, hrx⟩
    · exact absurd hmem hna
    · obtain ⟨k, ls, hls, hxls⟩ := mem_listenerList s hmem
      refine .inl ⟨k, ls, hls, hxls, ?_⟩
      rw [(coalesced_of_reach h).count k, hls]
      rfl
    · exact .inr ⟨r, hr, hrx⟩

/-- `exactly_once_replies` after two lookups of address `1` on channels `7` and `8`:
nothing is answered yet, and both channels wait in the address's one entry. -/
theorem exactly_once_replies_two_lookups :
    let s : BackendHandler := { BackendHandler.new none .empty none with
      accountRequests := (∅ : AList fun _ : Address => List Sender).insert 1 [7, 8]
      pendingRequests := [.account 1 (.remote default)] }
    (s.sent.map Prod.fst).Nodup ∧
    ∀ x ∈ Event.senders [.dispatch (.basic 1 7), .dispatch (.basic 1 8)],
      x ∉ s.sent.map Prod.fst →
      s.heldSenders.count x = 1 ∧
      ((∃ k ls, s.listenersAt k = some ls ∧ x ∈ ls ∧
          s.pendingRequests.countP (fun r => r.key? == some k) = 1) ∨
        ∃ r ∈ s.pendingRequests, r.sender? = some x) :=
  exactly_once_replies (fun _ => 0) none .empty none
    [.dispatch (.basic 1 7), .dispatch (.basic 1 8)] _
    (.dispatch (.basic 1 8) (.dispatch (.basic 1 7) .nil (by rfl)) (by rfl)) (by decide)

end MevDesign.ForkDb
