import RustyRuntime.Server.TaskLife

/-!
# Fencing of activations

An agent's turns are run by one host at a time, under an activation lease. Every lease carries
a fencing ordinal, and the operations of a holder name the ordinal they hold. `FencingLog`
runs a history of the queue and keeps the holders that were granted an activation, newest
first, and those that have lost or released theirs.

A release deletes the lease, and with it the ordinal that the next claim would have counted
from.

Main results:

* **Fencing.** If no agent is claimed again after its lease was released, the ordinals of an
  agent strictly increase and a holder that is gone is refused by every operation that takes
  an ordinal, from then on (`fenced_of_neverReleased`).
* After a release the next claim is granted ordinal 1 again, and the host that released can
  renew the lease of its successor (`released_ordinal_returns`).
-/

namespace RustyRuntime

open Library Library.Durable

/-! ## Histories with their holders -/

/-- Who was granted an activation, and with which ordinal. -/
structure Holder where
  agentId : String
  owner : String
  fencing : Nat
  deriving DecidableEq

def ActivationLease.holder (lease : ActivationLease) : Holder :=
  ⟨lease.agentId, lease.owner, lease.fencing⟩

def ofAgent (agentId : String) (holders : List Holder) : List Holder :=
  holders.filter (·.agentId = agentId)

structure FencingLog where
  store : JsonFileStore := {}
  issued : List Holder := []
  gone : List Holder := []

/-- A claim that is granted supersedes the earlier holders of the agent; a release that is
applied ends its own holder. -/
def FencingLog.next (log : FencingLog) (event : QueueEvent) : FencingLog :=
  let store := log.store.next event
  match event.op with
  | .claimActivation agentId owner leaseMs =>
    match (claimActivation agentId owner leaseMs event.now).answer event.writes log.store with
    | .ok (.claimed lease) =>
      { store, issued := lease.holder :: log.issued
        gone := ofAgent agentId log.issued ++ log.gone }
    | _ => { log with store }
  | .releaseActivation agentId owner fencing =>
    match (releaseActivation agentId owner fencing event.now).answer event.writes log.store with
    | .ok (.applied _) => { log with store, gone := ⟨agentId, owner, fencing⟩ :: log.gone }
    | _ => { log with store }
  | _ => { log with store }

/-- No operation accepts the ordinal of the holder, at any time. -/
structure Holder.Refused (holder : Holder) (store : JsonFileStore) : Prop where
  renew : ∀ leaseMs now writes lease,
    (renewActivation holder.agentId holder.owner holder.fencing leaseMs now).answer writes store ≠
      .ok (.applied lease)
  release : ∀ now writes lease,
    (releaseActivation holder.agentId holder.owner holder.fencing now).answer writes store ≠
      .ok (.applied lease)
  claim : ∀ tenant recipient leaseMs now writes task,
    (claimAgentTask tenant ⟨holder.agentId, recipient, holder.owner, holder.fencing⟩ leaseMs
      now).answer writes store ≠ .ok (.claimed task)

structure FencingLog.Fenced (log : FencingLog) : Prop where
  increasing : ∀ agentId, (ofAgent agentId log.issued).Pairwise fun later earlier =>
    earlier.fencing < later.fencing
  refused : ∀ holder ∈ log.gone, holder.Refused log.store

/-- The condition: an agent without a lease is claimed only if it never had one. -/
def FencingLog.neverReleased (log : FencingLog) : QueueOp → Bool
  | .claimActivation agentId _ _ =>
    (log.store.agentLeases.get? agentId).isSome || (ofAgent agentId log.issued).isEmpty
  | _ => true

abbrev NeverReleased (log : FencingLog) (event : QueueEvent) : Prop :=
  log.neverReleased event.op

/-! ## The invariant -/

structure FencingLog.Ordered (log : FencingLog) : Prop where
  increasing : ∀ agentId, (ofAgent agentId log.issued).Pairwise fun later earlier =>
    earlier.fencing < later.fencing
  newest : ∀ agentId lease, log.store.agentLeases.get? agentId = some lease →
    ∃ earlier, ofAgent agentId log.issued = lease.holder :: earlier
  gone : ∀ lease, log.store.agentLeases.get? lease.agentId = some lease →
    ∀ holder ∈ log.gone, holder.agentId = lease.agentId → holder.fencing < lease.fencing
  known : ∀ holder ∈ log.gone, ofAgent holder.agentId log.issued ≠ []

variable {holder : Holder} {store : JsonFileStore} {log : FencingLog} {now : Instant}
  {event : QueueEvent} {agentId owner : String} {lease : ActivationLease}
  {leaseMs writes fencing : Nat}

theorem refused_of_not_held (h : ∀ lease, store.agentLeases.get? holder.agentId = some lease →
      lease.fencing ≠ holder.fencing) : holder.Refused store := by
  have hNotHeld : ∀ lease, store.agentLeases.get? holder.agentId = some lease → ∀ now,
      lease.heldBy holder.owner holder.fencing now = false := by
    intro lease hIn now
    simp [ActivationLease.heldBy, h lease hIn]
  refine ⟨?_, ?_, ?_⟩
  · intro leaseMs now writes lease hApplied
    simp only [answer, renewActivation, get_bind] at hApplied
    cases hIn : store.agentLeases.get? holder.agentId with
    | none =>
      rw [hIn] at hApplied
      cases hApplied
    | some current =>
      simp only [hIn, hNotHeld current hIn now] at hApplied
      cases hApplied
  · intro now writes lease hApplied
    rcases releaseActivation_cases holder.agentId holder.owner holder.fencing now writes store
      with ⟨-, hNot⟩ | ⟨current, hIn, hHeld, -⟩
    · exact hNot lease hApplied
    · rw [hNotHeld current hIn now] at hHeld
      cases hHeld
  · intro tenant recipient leaseMs now writes task hClaimed
    obtain ⟨swept, -, ⟨-, hNot⟩ | ⟨t, hHeld, -⟩⟩ := claimAgentTask_cases tenant
      ⟨holder.agentId, recipient, holder.owner, holder.fencing⟩ leaseMs now writes store
    · exact hNot task hClaimed
    · obtain ⟨current, hIn, hHeld⟩ := (Option.any_eq_true _ _).mp hHeld
      rw [hNotHeld current hIn now] at hHeld
      cases hHeld

theorem FencingLog.Ordered.fenced (h : log.Ordered) : log.Fenced := by
  refine ⟨h.increasing, fun holder hGone => refused_of_not_held fun lease hIn => ?_⟩
  have hAgent : lease.agentId = holder.agentId := Index.key_of_get? hIn
  have hLt := h.gone lease (hAgent ▸ hIn) holder hGone hAgent.symm
  omega

/-! ## One event -/

theorem StoreStep.agentLeases_eq {op : QueueOp} {store' : JsonFileStore}
    (h : StoreStep now op store store') (hOp : op.isActivation = false) :
    store'.agentLeases = store.agentLeases := by
  cases h with
  | leaseChanged hActivation =>
    rw [hOp] at hActivation
    cases hActivation
  | _ => rfl

theorem agentLeases_next (hOp : event.op.isActivation = false) :
    (store.next event).agentLeases = store.agentLeases := by
  have hSteps := store.steps_next event
  generalize store.next event = store' at hSteps ⊢
  induction hSteps with
  | refl => rfl
  | tail _ hStep ih => exact (hStep.agentLeases_eq hOp).trans ih

theorem FencingLog.Ordered.of_eq (h : log.Ordered)
    (hLeases : store.agentLeases = log.store.agentLeases) : ({ log with store }).Ordered where
  increasing := h.increasing
  newest agentId lease hIn := h.newest agentId lease (hLeases ▸ hIn)
  gone lease hIn := h.gone lease (hLeases ▸ hIn)
  known := h.known

theorem FencingLog.Ordered.next_ordinal (h : log.Ordered)
    (hCondition : (log.store.agentLeases.get? agentId).isSome ∨ ofAgent agentId log.issued = []) :
    ∀ holder ∈ ofAgent agentId log.issued,
      holder.fencing < (log.store.agentLeases.get? agentId).elim 1 (·.fencing + 1) := by
  intro holder hIn
  cases hLease : log.store.agentLeases.get? agentId with
  | none =>
    rw [hLease] at hCondition
    have hEmpty := hCondition.resolve_left (by simp)
    rw [hEmpty] at hIn
    cases hIn
  | some lease =>
    obtain ⟨earlier, hIssued⟩ := h.newest agentId lease hLease
    have hSorted := h.increasing agentId
    rw [hIssued] at hIn hSorted
    rcases List.mem_cons.mp hIn with hNewest | hEarlier
    · rw [hNewest]
      exact Nat.lt_succ_self lease.fencing
    · have hLt : holder.fencing < lease.fencing := (List.pairwise_cons.mp hSorted).1 holder hEarlier
      exact Nat.lt_succ_of_lt hLt

theorem mem_ofAgent {holders : List Holder} :
    holder ∈ ofAgent agentId holders ↔ holder ∈ holders ∧ holder.agentId = agentId := by
  simp [ofAgent]

theorem ofAgent_cons (agentId : String) (holder : Holder) (holders : List Holder) :
    ofAgent agentId (holder :: holders) =
      if holder.agentId = agentId then holder :: ofAgent agentId holders
      else ofAgent agentId holders := by
  simp [ofAgent, List.filter_cons]

theorem FencingLog.Ordered.granted (h : log.Ordered)
    (hStore : store.agentLeases = log.store.agentLeases.insert lease)
    (hAbove : ∀ holder ∈ ofAgent lease.agentId log.issued, holder.fencing < lease.fencing)
    (hGone : ∀ holder ∈ log.gone, holder.agentId = lease.agentId → holder.fencing < lease.fencing) :
    (FencingLog.mk store (lease.holder :: log.issued)
      (ofAgent lease.agentId log.issued ++ log.gone)).Ordered where
  increasing agentId := by
    rw [ofAgent_cons]
    split
    · next hAgent =>
      refine List.pairwise_cons.mpr ⟨?_, h.increasing agentId⟩
      rw [← hAgent]
      exact hAbove
    · exact h.increasing agentId
  newest agentId current hIn := by
    simp only [hStore, Index.get?_insert] at hIn
    rw [ofAgent_cons]
    by_cases hAgent : lease.agentId = agentId
    · rw [if_pos hAgent] at hIn
      cases hIn
      exact ⟨_, if_pos hAgent⟩
    · rw [if_neg hAgent] at hIn
      obtain ⟨earlier, hIssued⟩ := h.newest agentId current hIn
      exact ⟨earlier, (if_neg hAgent).trans hIssued⟩
  gone current hIn holder hHolder hAgent := by
    simp only [hStore, Index.get?_insert] at hIn
    by_cases hSame : lease.agentId = current.agentId
    · rw [if_pos hSame] at hIn
      cases hIn
      rcases List.mem_append.mp hHolder with hIssued | hBefore
      · exact hAbove holder hIssued
      · exact hGone holder hBefore hAgent
    · rw [if_neg hSame] at hIn
      rcases List.mem_append.mp hHolder with hIssued | hBefore
      · exact absurd ((mem_ofAgent.mp hIssued).2.symm.trans hAgent) hSame
      · exact h.gone current hIn holder hBefore hAgent
  known holder hHolder := by
    rw [ofAgent_cons]
    split
    · exact List.cons_ne_nil _ _
    · rcases List.mem_append.mp hHolder with hIssued | hBefore
      · have hAgent := (mem_ofAgent.mp hIssued).2
        rw [hAgent]
        exact List.ne_nil_of_mem hIssued
      · exact h.known holder hBefore

theorem FencingLog.Ordered.renewed {log : FencingLog} (h : log.Ordered) {agentId : String}
    {lease : ActivationLease} (hIn : log.store.agentLeases.get? agentId = some lease)
    (expiresAt : Instant) {store : JsonFileStore}
    (hStore : store.agentLeases = log.store.agentLeases.insert { lease with expiresAt }) :
    ({ log with store }).Ordered := by
  have hAgent : lease.agentId = agentId := Index.key_of_get? hIn
  refine ⟨h.increasing, fun id current hGet => ?_, fun current hGet holder hHolder hSame => ?_,
    h.known⟩
  · simp only [hStore, Index.get?_insert] at hGet
    split at hGet
    · next hId =>
      cases hGet
      have hId' : lease.agentId = id := hId
      exact h.newest id lease (hId' ▸ hAgent ▸ hIn)
    · exact h.newest id current hGet
  · simp only [hStore, Index.get?_insert] at hGet
    split at hGet
    · cases hGet
      exact h.gone lease (hAgent ▸ hIn) holder hHolder hSame
    · exact h.gone current hGet holder hHolder hSame

theorem FencingLog.Ordered.released (h : log.Ordered)
    (hIn : log.store.agentLeases.get? agentId = some lease)
    (hStore : store.agentLeases = log.store.agentLeases.erase agentId) (gone : List Holder)
    (hGone : ∀ holder ∈ gone, holder ∈ log.gone ∨ holder.agentId = agentId) :
    ({ log with store, gone }).Ordered := by
  refine ⟨h.increasing, fun id current hGet => ?_, fun current hGet holder hHolder hSame => ?_,
    fun holder hHolder => ?_⟩
  · simp only [hStore, Index.get?_erase] at hGet
    split at hGet
    · cases hGet
    · exact h.newest id current hGet
  · simp only [hStore, Index.get?_erase] at hGet
    split at hGet
    · cases hGet
    · next hOther =>
      rcases hGone holder hHolder with hBefore | hAgent
      · exact h.gone current hGet holder hBefore hSame
      · exact absurd (hAgent.symm.trans hSame) hOther
  · rcases hGone holder hHolder with hBefore | hAgent
    · exact h.known holder hBefore
    · obtain ⟨earlier, hIssued⟩ := h.newest agentId lease hIn
      rw [hAgent]
      exact hIssued ▸ List.cons_ne_nil _ _

theorem FencingLog.Ordered.claimActivation (h : log.Ordered)
    (hCondition : log.neverReleased (.claimActivation agentId owner leaseMs)) :
    (log.next ⟨now, .claimActivation agentId owner leaseMs, writes⟩).Ordered := by
  simp only [FencingLog.next, JsonFileStore.next, QueueOp.run, state_bind_pure]
  rcases claimActivation_cases agentId owner leaseMs now writes log.store with
    ⟨hSame, hNot⟩ | ⟨lease, hAgent, -, hFencing, hGranted, hAnswer⟩
  · rw [hSame]
    split
    · next lease hClaimed => exact absurd hClaimed (hNot lease)
    · exact h.of_eq rfl
  · rw [hGranted, hAnswer]
    subst hAgent
    simp only [FencingLog.neverReleased, Bool.or_eq_true, List.isEmpty_iff] at hCondition
    have hAbove := h.next_ordinal hCondition
    rw [← hFencing] at hAbove
    refine h.granted rfl hAbove ?_
    intro holder hGone hSame
    cases hLease : log.store.agentLeases.get? lease.agentId with
    | none =>
      -- No lease and never claimed: nobody of this agent can be gone.
      rw [hLease] at hCondition
      have hNever := hCondition.resolve_left (by simp)
      exact absurd (hSame ▸ hNever) (h.known holder hGone)
    | some current =>
      have hCurrent : current.agentId = lease.agentId := Index.key_of_get? hLease
      have hLt := h.gone current (hCurrent ▸ hLease) holder hGone (hSame.trans hCurrent.symm)
      rw [hLease] at hFencing
      have hNext : lease.fencing = current.fencing + 1 := hFencing
      omega

theorem FencingLog.Ordered.renewActivation (h : log.Ordered) :
    (log.next ⟨now, .renewActivation agentId owner fencing leaseMs, writes⟩).Ordered := by
  simp only [FencingLog.next, JsonFileStore.next, QueueOp.run, state_bind_pure]
  rcases renewActivation_cases agentId owner fencing leaseMs now writes log.store with
    hSame | ⟨lease, expiresAt, hIn, hRenewed⟩
  · rw [hSame]
    exact h.of_eq rfl
  · rw [hRenewed]
    exact h.renewed hIn expiresAt rfl

theorem FencingLog.Ordered.releaseActivation (h : log.Ordered) :
    (log.next ⟨now, .releaseActivation agentId owner fencing, writes⟩).Ordered := by
  simp only [FencingLog.next, JsonFileStore.next, QueueOp.run, state_bind_pure]
  rcases releaseActivation_cases agentId owner fencing now writes log.store with
    ⟨hSame, hNot⟩ | ⟨lease, hIn, -, hErased⟩
  · rw [hSame]
    split
    · next lease hApplied => exact absurd hApplied (hNot lease)
    · exact h.of_eq rfl
  · rw [hErased]
    split
    · refine h.released hIn rfl _ ?_
      intro holder hHolder
      rcases List.mem_cons.mp hHolder with hNew | hBefore
      · exact .inr (hNew ▸ rfl)
      · exact .inl hBefore
    · exact h.released hIn rfl _ fun holder hHolder => .inl hHolder

theorem ordered_next (h : log.Ordered) (hCondition : NeverReleased log event) :
    (log.next event).Ordered := by
  obtain ⟨now, op, writes⟩ := event
  cases op with
  | claimActivation agentId owner leaseMs => exact h.claimActivation hCondition
  | renewActivation agentId owner fencing leaseMs => exact h.renewActivation
  | releaseActivation agentId owner fencing => exact h.releaseActivation
  | _ => exact h.of_eq (agentLeases_next rfl)

theorem ordered_empty : ({} : FencingLog).Ordered where
  increasing _ := .nil
  newest agentId lease hIn := by
    cases hIn
  gone _ _ holder hHolder := by cases hHolder
  known holder hHolder := by cases hHolder

/-- **Fencing**, after every history that claims no agent again once its lease was released. -/
theorem fenced_of_neverReleased (history : List QueueEvent)
    (hHistory : Admissible FencingLog.next NeverReleased {} history) :
    (run FencingLog.next {} history).Fenced := by
  have hOrdered : (run FencingLog.next {} history).Ordered :=
    run_invariant (fun _ _ h hCondition => ordered_next h hCondition) ordered_empty hHistory
  exact hOrdered.fenced

/-- The lease of the first host expires and a second one takes over. -/
def takeoverHistory : List QueueEvent :=
  [⟨0, .claimActivation "acme--bot" "host-1" 1, 1⟩,
    ⟨5000000, .claimActivation "acme--bot" "host-2" 1000, 1⟩]

theorem fenced_takeover :
    (run FencingLog.next {} takeoverHistory).gone = [⟨"acme--bot", "host-1", 1⟩] ∧
      (run FencingLog.next {} takeoverHistory).Fenced :=
  ⟨by decide,
    fenced_of_neverReleased takeoverHistory ⟨by decide, by decide, trivial⟩⟩

def returnHistory : List QueueEvent :=
  [⟨0, .claimActivation "acme--bot" "host-1" 1000, 1⟩,
    ⟨1, .releaseActivation "acme--bot" "host-1" 1, 1⟩,
    ⟨2, .claimActivation "acme--bot" "host-1" 1000, 1⟩]

/-- Both grants carry ordinal 1, and the ordinal that was released renews the new lease. -/
theorem released_ordinal_returns :
    (run FencingLog.next {} returnHistory).issued =
        [⟨"acme--bot", "host-1", 1⟩, ⟨"acme--bot", "host-1", 1⟩] ∧
      (⟨"acme--bot", "host-1", 1⟩ : Holder) ∈ (run FencingLog.next {} returnHistory).gone ∧
      (renewActivation "acme--bot" "host-1" 1 1000 3).answer 1
          (run FencingLog.next {} returnHistory).store =
        .ok (.applied ⟨"acme--bot", "host-1", 1, 1000000003, 2⟩) ∧
      ¬ (run FencingLog.next {} returnHistory).Fenced := by
  refine ⟨by decide, by decide, by decide, fun h => ?_⟩
  have hIncreasing := h.increasing "acme--bot"
  have hIssued : ofAgent "acme--bot" (run FencingLog.next {} returnHistory).issued =
      [⟨"acme--bot", "host-1", 1⟩, ⟨"acme--bot", "host-1", 1⟩] := by decide
  rw [hIssued] at hIncreasing
  simp at hIncreasing

end RustyRuntime
