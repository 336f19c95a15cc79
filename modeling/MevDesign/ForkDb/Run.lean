import MevDesign.ForkDb.Handler

/-!
# `MevDesign.ForkDb.Run`: the runs of the handler

Between two observations the handler's task does one of two things: it passes a
command to `on_request`, or it polls one pending future (`BackendHandler.visit`). A
run is any sequence of these, in any order, none of which panicked: a panic ends the
task, and nothing follows it. `poll` (`ForkDb/Poll.lean`) drives one
particular order: drain the queue, receive, then one pass over the pending futures
from the last index down; `Reach` allows every order, so what holds of every `Reach`
run holds of every run `poll` makes.

`Reach keccak256 s₀ evs s` records the events oldest first. A future's result is
whatever its `Output` admits: a statement that needs the provider to answer in a
particular way says so through a predicate on the `poll` events.

`Reach.induct_on` packages the induction: an invariant that holds at the start and
is kept by every allowed dispatch and every allowed poll holds along every run whose
events are all allowed.
-/

set_option autoImplicit false

namespace MevDesign.ForkDb

/-- One step of the handler's task: a command passed to `on_request`, or the future
`r` polled, with its result (`none` for `Poll::Pending`). -/
inductive Event where
  | dispatch (req : BackendRequest)
  | poll (r : ProviderRequest) (out : Option r.Output)

/-- The commands passed to `on_request` along a run, in order. -/
def Event.commands : List Event → List BackendRequest
  | [] => []
  | .dispatch req :: evs => req :: Event.commands evs
  | .poll .. :: evs => Event.commands evs

@[simp] theorem Event.commands_nil : Event.commands [] = [] := rfl

@[simp] theorem Event.commands_append (evs evs' : List Event) :
    Event.commands (evs ++ evs') = Event.commands evs ++ Event.commands evs' := by
  induction evs with
  | nil => rfl
  | cons e evs ih => cases e <;> simp [Event.commands, ih]

@[simp] theorem Event.commands_dispatch (req : BackendRequest) :
    Event.commands [.dispatch req] = [req] := rfl

@[simp] theorem Event.commands_poll (r : ProviderRequest) (out : Option r.Output) :
    Event.commands [.poll r out] = [] := rfl

/-- The reply channels handed to `on_request` along a run, in order. -/
def Event.senders (evs : List Event) : List Sender :=
  (Event.commands evs).filterMap BackendRequest.sender?

@[simp] theorem Event.senders_append (evs evs' : List Event) :
    Event.senders (evs ++ evs') = Event.senders evs ++ Event.senders evs' := by
  simp [Event.senders]

@[simp] theorem Event.senders_dispatch (req : BackendRequest) :
    Event.senders [.dispatch req] = req.sender?.toList := by
  cases h : req.sender? <;> simp [Event.senders, h]

@[simp] theorem Event.senders_poll (r : ProviderRequest) (out : Option r.Output) :
    Event.senders [.poll r out] = [] := rfl

section
variable (keccak256 : Bytes → B256)

/-- The runs of the handler from `s₀`, events oldest first. -/
inductive Reach (s₀ : BackendHandler) : List Event → BackendHandler → Prop where
  | nil : Reach s₀ [] s₀
  | dispatch {evs : List Event} {s s' : BackendHandler} (req : BackendRequest) :
      Reach s₀ evs s → s.onRequest req = some s' → Reach s₀ (evs ++ [.dispatch req]) s'
  | poll {evs : List Event} {s s' : BackendHandler} (n : Nat) (r : ProviderRequest)
      (out : Option r.Output) :
      Reach s₀ evs s → s.pendingRequests[n]? = some r → s.visit keccak256 n r out = some s' →
      Reach s₀ (evs ++ [.poll r out]) s'

variable {keccak256}

/-- A run followed by a run is a run. -/
theorem Reach.append {s₀ s₁ s : BackendHandler} {evs evs' : List Event}
    (h₁ : Reach keccak256 s₀ evs s₁) (h : Reach keccak256 s₁ evs' s) :
    Reach keccak256 s₀ (evs ++ evs') s := by
  induction h with
  | nil => simpa using h₁
  | dispatch req _ hs ih => rw [← List.append_assoc]; exact .dispatch req ih hs
  | poll n r out _ hn hv ih => rw [← List.append_assoc]; exact .poll n r out ih hn hv

/-- The induction along a run, once. `P` says which events the run may contain. -/
theorem Reach.induct_on (P : Event → Prop) (Inv : BackendHandler → Prop)
    {s₀ s : BackendHandler} {evs : List Event} (h₀ : Inv s₀)
    (hd : ∀ s s' req, P (.dispatch req) → Inv s → s.onRequest req = some s' → Inv s')
    (hp : ∀ s s' n r out, P (.poll r out) → Inv s → s.pendingRequests[n]? = some r →
      s.visit keccak256 n r out = some s' → Inv s')
    (h : Reach keccak256 s₀ evs s) (hP : ∀ e ∈ evs, P e) : Inv s := by
  induction h with
  | nil => exact h₀
  | dispatch req _ hs ih =>
    exact hd _ _ req (hP _ (by simp)) (ih fun e he => hP e (by simp [he])) hs
  | poll n r out _ hn hv ih =>
    exact hp _ _ n r out (hP _ (by simp)) (ih fun e he => hP e (by simp [he])) hn hv

/-- `Reach.induct_on` for a run with no restriction on its events. -/
theorem Reach.invariant (Inv : BackendHandler → Prop) {s₀ s : BackendHandler}
    {evs : List Event} (h₀ : Inv s₀)
    (hd : ∀ s s' req, Inv s → s.onRequest req = some s' → Inv s')
    (hp : ∀ s s' n r out, Inv s → s.pendingRequests[n]? = some r →
      s.visit keccak256 n r out = some s' → Inv s')
    (h : Reach keccak256 s₀ evs s) : Inv s :=
  Reach.induct_on (fun _ => True) Inv h₀ (fun s s' req _ => hd s s' req)
    (fun s s' n r out _ => hp s s' n r out) h (fun _ _ => trivial)

end

end MevDesign.ForkDb
