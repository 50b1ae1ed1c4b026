import RustyRuntime.Executor.Commit

/-!
# Where the messages of an inbox go

An accepted message is queued in the inbox until a boundary or a turn extension drains it.
Here each function that touches the inbox is described by what it does to the queued
messages, as a multiset: settling keeps them, a drain splits them, a clear empties them.
-/

namespace RustyRuntime

variable {σ : Type}

/-! ## Queued messages -/

namespace Inbox

variable (inbox : Inbox)

def queued : Multiset InboxMessage :=
  ↑inbox.pending + ↑inbox.steering + ↑inbox.followups + ↑inbox.staged

/-- The parts of an inbox that settling and draining leave alone. -/
structure SameIntake (before after : Inbox) : Prop where
  source : after.source = before.source
  nextSeq : after.nextSeq = before.nextSeq

theorem SameIntake.trans {a b c : Inbox} (h : a.SameIntake b) (h' : b.SameIntake c) :
    a.SameIntake c :=
  ⟨h'.source.trans h.source, h'.nextSeq.trans h.nextSeq⟩

theorem queued_enqueue (m : InboxMessage) : (inbox.enqueue m).queued = {m} + inbox.queued := by
  have hSingle : ((inbox.queue m.kind ++ [m] : List InboxMessage) : Multiset InboxMessage) =
      {m} + ↑(inbox.queue m.kind) := by
    rw [← Multiset.coe_add, add_comm]
    rfl
  unfold enqueue queued
  cases hKind : m.kind with
  | steering | followUp | injected =>
    rw [hKind] at hSingle
    simp only [queue] at hSingle
    simp only [hSingle]
    abel

theorem sameIntake_enqueue (m : InboxMessage) :
    inbox.SameIntake (inbox.enqueue m) ∧ (inbox.enqueue m).cancel = inbox.cancel ∧
      (inbox.enqueue m).pending = inbox.pending := by
  unfold enqueue
  split <;> exact ⟨⟨rfl, rfl⟩, rfl, rfl⟩

/-- The parts of a recorder that recording leaves alone. -/
structure SameIds (before after : Recorder) : Prop where
  rng : after.rng = before.rng
  draws : after.draws = before.draws

theorem foldl_settleOne (codec : Codec) (parent : Option String) (arrivals : List InboxMessage)
    (s : Settling) :
    let settled := arrivals.foldl (settleOne codec parent) s
    settled.inbox.queued = ↑arrivals + s.inbox.queued ∧ s.inbox.SameIntake settled.inbox ∧
      settled.inbox.cancel = s.inbox.cancel ∧ settled.inbox.pending = s.inbox.pending ∧
      SameIds s.recorder settled.recorder := by
  induction arrivals generalizing s with
  | nil => exact ⟨by simp, ⟨rfl, rfl⟩, rfl, rfl, ⟨rfl, rfl⟩⟩
  | cons m rest ih =>
    obtain ⟨hQueued, hIntake, hCancel, hPending, hIds⟩ := ih (settleOne codec parent s m)
    obtain ⟨hOne, hOneCancel, hOnePending⟩ := sameIntake_enqueue s.inbox m
    have hEnqueue : (settleOne codec parent s m).inbox.queued = {m} + s.inbox.queued :=
      queued_enqueue s.inbox m
    refine ⟨?_, hOne.trans hIntake, hCancel.trans hOneCancel, hPending.trans hOnePending,
      ⟨hIds.rng, hIds.draws⟩⟩
    rw [List.foldl_cons, hQueued, hEnqueue, ← Multiset.cons_coe, ← Multiset.singleton_add]
    abel

/-- **Settling** moves every unsettled message into its queue. -/
theorem settle_live (codec : Codec) {inbox : Inbox} (hLive : inbox.source = .live)
    (recorder : Recorder) (parent : Option String) :
    let settled := inbox.settle codec recorder parent
    settled.inbox.queued = inbox.queued ∧ inbox.SameIntake settled.inbox ∧
      settled.inbox.cancel = inbox.cancel ∧ settled.inbox.pending = [] ∧
      SameIds recorder settled.recorder := by
  have hSettle : inbox.settle codec recorder parent = inbox.pending.foldl (settleOne codec parent)
      ⟨{ inbox with pending := [] }, recorder, none⟩ := by
    unfold settle
    split
    · rfl
    · next hReplay => cases hLive.symm.trans hReplay
  obtain ⟨hQueued, hIntake, hRest⟩ := foldl_settleOne codec parent inbox.pending
    ⟨{ inbox with pending := [] }, recorder, none⟩
  rw [hSettle]
  refine ⟨?_, ⟨hIntake.source, hIntake.nextSeq⟩, hRest⟩
  rw [hQueued]
  simp only [queued, Multiset.coe_nil]
  abel

theorem queued_clear : inbox.clear.2.queued = 0 := by
  simp [clear, queued]

end Inbox

theorem drainBoundary_spec (inbox : Inbox) (beginsTurn : Bool) :
    (↑(drainBoundary inbox beginsTurn).1 : Multiset InboxMessage) +
        (drainBoundary inbox beginsTurn).2.queued = inbox.queued ∧
      inbox.SameIntake (drainBoundary inbox beginsTurn).2 := by
  unfold drainBoundary Inbox.drainSteering Inbox.drainStaged Inbox.queued
  dsimp only
  split
  · refine ⟨?_, ⟨rfl, rfl⟩⟩
    simp only [Multiset.coe_nil, ← Multiset.coe_add]
    abel
  · refine ⟨?_, ⟨rfl, rfl⟩⟩
    abel

variable {inbox : Inbox}

/-- **A turn extension** moves follow-ups and staged messages into its batch. -/
theorem extendTurn_live (codec : Codec) (graph : Graph) (step : Nat) (next : List ActiveTask)
    (endEvent : String) {env : Env σ} (hInbox : env.inbox = some inbox)
    (hLive : inbox.source = .live) :
    let turn := extendTurn codec graph step next endEvent env
    ∃ inbox', turn.env.inbox = some inbox' ∧
      (↑turn.extension : Multiset InboxMessage) + inbox'.queued = inbox.queued ∧
      inbox.SameIntake inbox' ∧ turn.env.stored = env.stored ∧
      Inbox.SameIds env.recorder turn.env.recorder := by
  cases next with
  | cons task rest =>
    exact ⟨inbox, hInbox, by simp [extendTurn], ⟨rfl, rfl⟩, rfl, ⟨rfl, rfl⟩⟩
  | nil =>
    obtain ⟨hQueued, hIntake, -, hPending, hIds⟩ :=
      Inbox.settle_live codec hLive env.recorder (some endEvent)
    unfold extendTurn
    rw [hInbox]
    rw [← hQueued]
    unfold Inbox.drainFollowups Inbox.drainStaged
    dsimp only
    split
    · next hEmpty =>
      refine ⟨_, rfl, ?_, ⟨hIntake.source, hIntake.nextSeq⟩, rfl, hIds⟩
      simp only [Inbox.queued, List.isEmpty_iff.mp hEmpty, Multiset.coe_nil]
      abel
    · refine ⟨_, rfl, ?_, ⟨hIntake.source, hIntake.nextSeq⟩, rfl, ⟨hIds.rng, hIds.draws⟩⟩
      simp only [Inbox.queued, Multiset.coe_nil, ← Multiset.coe_add]
      abel

/-! ## Stamps of the latest checkpoint -/

structure Checkpointer.Lawful (checkpointer : Checkpointer σ) : Prop where
  getLatest_put : ∀ stored checkpoint, (checkpointer.put stored checkpoint).1 = .ok () →
    checkpointer.getLatest (checkpointer.put stored checkpoint).2 checkpoint.threadId =
      .ok (some checkpoint)

def stampOf (checkpointer : Checkpointer σ) (thread : String) (stored : σ) :
    Option InboxSnapshot :=
  match checkpointer.getLatest stored thread with
  | .ok (some checkpoint) => checkpoint.header.inbox
  | _ => none

def pendingIn (stamp : Option InboxSnapshot) : List InboxMessage :=
  stamp.elim [] InboxSnapshot.pendingDelivery

def NextIdFree (checkpointer : Checkpointer σ) (config : RunConfig) (env : Env σ) : Prop :=
  ∀ checkpoint : Checkpoint, checkpoint.threadId = config.threadId →
    checkpoint.id = env.recorder.rng env.recorder.draws →
    (checkpointer.put env.stored checkpoint).1 = .ok ()

theorem pendingIn_inboxStamp {delivery : List InboxMessage} (h : inbox.nextSeq = 0 → delivery = []) :
    pendingIn (inboxStamp (some inbox) delivery) = delivery := by
  by_cases hUnused : inbox.nextSeq = 0
  · simp [pendingIn, inboxStamp, Inbox.snapshot, hUnused, h hUnused]
  · simp [pendingIn, inboxStamp, Inbox.snapshot, hUnused]

theorem pendingIn_snapshot (inbox : Inbox) : pendingIn inbox.snapshot = [] := by
  unfold Inbox.snapshot
  split <;> rfl

section Stored

variable {ex : Executor σ} {checkpointer : Checkpointer σ} {config : RunConfig}

variable {env : Env σ} {loop : LoopState σ} {inbox : Inbox}

theorem stampOf_put (hLawful : checkpointer.Lawful) (hFree : NextIdFree checkpointer config env)
    (checkpoint : Checkpoint) (hThread : checkpoint.threadId = config.threadId)
    (hId : checkpoint.id = env.recorder.rng env.recorder.draws) :
    (checkpointer.put env.stored checkpoint).1 = .ok () ∧
      stampOf checkpointer config.threadId (checkpointer.put env.stored checkpoint).2 =
        checkpoint.header.inbox := by
  have hPut := hFree checkpoint hThread hId
  refine ⟨hPut, ?_⟩
  unfold stampOf
  rw [← hThread, hLawful.getLatest_put env.stored checkpoint hPut]

theorem NextIdFree.of_same {env' : Env σ} (hFree : NextIdFree checkpointer config env)
    (hStored : env'.stored = env.stored) (hIds : Inbox.SameIds env.recorder env'.recorder) :
    NextIdFree checkpointer config env' := by
  intro checkpoint hThread hId
  rw [hStored]
  exact hFree checkpoint hThread (by rw [hId, hIds.rng, hIds.draws])

variable (hStore : ex.checkpointer = some checkpointer) (hLawful : checkpointer.Lawful)

include hStore hLawful

theorem checkpointLoop_spec {stamp : Option InboxSnapshot} {fields : List (String × Json)}
    {parent : Option String} (hFree : NextIdFree checkpointer config env)
    {out : Result String × Env σ} (h : checkpointLoop ex config loop stamp fields parent env = out) :
    out.2.inbox = env.inbox ∧ stampOf checkpointer config.threadId out.2.stored = stamp := by
  subst h
  unfold checkpointLoop
  rw [hStore, if_neg (by simp)]
  dsimp only
  split
  · next e env' hPersist =>
    obtain ⟨hPut, hStored, hInbox⟩ := persist_spec hStore hPersist
    obtain ⟨hOk, -⟩ := stampOf_put hLawful hFree (env.recorder.mintCheckpoint
      config.threadId loop.step loop.state (taskNames loop.active) stamp).1 rfl rfl
    cases hPut.symm.trans hOk
  · next env' hPersist =>
    obtain ⟨-, hStored, hInbox⟩ := persist_spec hStore hPersist
    obtain ⟨-, hStamp⟩ := stampOf_put hLawful hFree (env.recorder.mintCheckpoint
      config.threadId loop.step loop.state (taskNames loop.active) stamp).1 rfl rfl
    refine ⟨hInbox, ?_⟩
    rw [hStored]
    exact hStamp

/-! ## What a step does to the messages -/

/-- The messages of a step: it fails and touches nothing, it stamps its delivery at an
interrupt, or it commits and may extend the turn with a batch that it stamps. -/
inductive StepFlow (checkpointer : Checkpointer σ) (config : RunConfig) (sound : Prop)
    (delivery : List InboxMessage) (inbox : Inbox) (env : Env σ) : StepOutput σ → Prop
  | failed {out : StepOutput σ} {e : RustyError} (hResult : out.result = .error e)
      (hFault : ¬ sound) (hStores : env.SameStores out.env) :
      StepFlow checkpointer config sound delivery inbox env out
  | suspended {out : StepOutput σ} {value : Json} {state : State} {id : String}
      (hResult : out.result = .ok (.finish (.interrupted value state id)))
      (hInbox : out.env.inbox = some inbox)
      (hStamp : stampOf checkpointer config.threadId out.env.stored =
        inboxStamp (some inbox) delivery) :
      StepFlow checkpointer config sound delivery inbox env out
  | committed {out : StepOutput σ} {next : List ActiveTask} {merged : State}
      {routeEvent : String} {extension : List InboxMessage} {after : Inbox}
      (hResult : out.result = .ok (transition next merged routeEvent extension))
      (hInbox : out.env.inbox = some after)
      (hQueued : (↑extension : Multiset InboxMessage) + after.queued = inbox.queued)
      (hIntake : inbox.SameIntake after)
      (hStamp : stampOf checkpointer config.threadId out.env.stored =
        inboxStamp (some after) extension) :
      StepFlow checkpointer config sound delivery inbox env out

theorem stepFlow (graph : Graph) (spec : StateSpec) (join : List Invocation → List Joined)
    (input : StepInput)
    (hInbox : env.inbox = some inbox) (hLive : inbox.source = .live)
    (hFree : NextIdFree checkpointer config env) :
    StepFlow checkpointer config (StepSound ex graph spec config join input env) input.delivery
      inbox env (executeSuperStep ex graph spec config join input env) := by
  have hCase := stepCase ex graph spec config join input env
  generalize executeSuperStep ex graph spec config join input env = out at hCase ⊢
  cases hCase with
  | failed hSame hFault => exact .failed rfl hFault hSame
  | @suspended invocations task value env' hSpawn hJoin hSame =>
    have hFree' := hFree.of_same hSame.stored ⟨hSame.rng, hSame.draws⟩
    obtain ⟨env'', hSuspend, hStored, hInbox'⟩ :=
      suspend_eq hStore config input invocations task value env'
    obtain ⟨hPut, hStamp⟩ := stampOf_put hLawful hFree'
      (suspensionCheckpoint ex.codec config input invocations task value env') rfl rfl
    rw [hSuspend, hPut]
    refine .suspended rfl (hInbox'.trans (hSame.inbox.trans hInbox)) ?_
    rw [hStored, hStamp, ← hInbox, ← hSame.inbox]
    rfl
  | @closed invocations merged next endEvent env' hSpawn hAll hMerge hRoute hSame =>
    obtain ⟨after, hAfter, hQueued, hIntake, hTurn, hIds⟩ := extendTurn_live ex.codec graph
      input.step next endEvent (hSame.inbox.trans hInbox) hLive
    have hFree' := (hFree.of_same hSame.stored ⟨hSame.rng, hSame.draws⟩).of_same hTurn hIds
    obtain ⟨env'', hClose, hStored, hInbox'⟩ := closeStep_eq hStore graph config input.step merged
      (Barrier.ofOutputs (outputs (join invocations))).commands next endEvent env'
    obtain ⟨hPut, hStamp⟩ := stampOf_put hLawful hFree'
      (boundaryCheckpoint ex.codec config input.step merged
        (extendTurn ex.codec graph input.step next endEvent env')
        (Barrier.ofOutputs (outputs (join invocations))).commands) rfl rfl
    rw [hClose, hPut]
    refine .committed rfl (hInbox'.trans hAfter) hQueued hIntake ?_
    rw [hStored, hStamp, ← hAfter]
    rfl

/-! ## What a boundary does to the messages -/

def drainedAt (codec : Codec) (loop : LoopState σ) (inbox : Inbox) : List InboxMessage :=
  (drainBoundary (inbox.settle codec loop.env.recorder loop.stepParent).inbox
    (loop.turnStart || !loop.carriedDelivery.isEmpty)).1

/-- The messages at a boundary. A ceiling stamps the queues alone. A typed cancellation keeps
the queues and stamps the carried batch, or clears them and stamps nothing. A cancellation
token ends the run after the drain; otherwise the step gets the carried batch and the drain. -/
inductive BoundaryFlow (checkpointer : Checkpointer σ) (codec : Codec) (config : RunConfig)
    (loop : LoopState σ) (inbox : Inbox) : AtBoundary σ → Prop
  | ceiling {result : Result ExecutionOutcome} {env : Env σ}
      (hCeiling : ceiling config loop ≠ none) (hInbox : env.inbox = some inbox)
      (hStamp : stampOf checkpointer config.threadId env.stored = inbox.snapshot) :
      BoundaryFlow checkpointer codec config loop inbox (.stop (.finished result env))
  | kept {cause : CancelCause} {result : Result ExecutionOutcome} {env : Env σ} {after : Inbox}
      (hCeiling : ceiling config loop = none) (hCancel : inbox.cancel = some (cause, true))
      (hInbox : env.inbox = some after) (hQueued : after.queued = inbox.queued)
      (hIntake : inbox.SameIntake after)
      (hStamp : stampOf checkpointer config.threadId env.stored =
        inboxStamp (some after) loop.carriedDelivery) :
      BoundaryFlow checkpointer codec config loop inbox (.stop (.finished result env))
  | cleared {cause : CancelCause} {result : Result ExecutionOutcome} {env : Env σ}
      {after : Inbox} (hCeiling : ceiling config loop = none)
      (hCancel : inbox.cancel = some (cause, false)) (hInbox : env.inbox = some after)
      (hQueued : after.queued = 0) (hIntake : inbox.SameIntake after)
      (hStamp : stampOf checkpointer config.threadId env.stored = after.snapshot) :
      BoundaryFlow checkpointer codec config loop inbox (.stop (.finished result env))
  | token {result : Result ExecutionOutcome} {env : Env σ} {after : Inbox}
      (hCeiling : ceiling config loop = none) (hCancel : inbox.cancel = none)
      (hToken : config.cancelled loop.stepsRun = true) (hInbox : env.inbox = some after)
      (hQueued : (↑(drainedAt codec loop inbox) : Multiset InboxMessage) + after.queued =
        inbox.queued)
      (hIntake : inbox.SameIntake after) (hStored : env.stored = loop.env.stored) :
      BoundaryFlow checkpointer codec config loop inbox (.stop (.finished result env))
  | go {before : LoopState σ} {after : Inbox} (hCeiling : ceiling config loop = none)
      (hCancel : inbox.cancel = none) (hCarried : before.carriedDelivery = [])
      (hInbox : before.env.inbox = some after)
      (hQueued : (↑(drainedAt codec loop inbox) : Multiset InboxMessage) + after.queued =
        inbox.queued)
      (hIntake : inbox.SameIntake after) (hStored : before.env.stored = loop.env.stored) :
      BoundaryFlow checkpointer codec config loop inbox
        (.go (loop.carriedDelivery ++ drainedAt codec loop inbox) before)

omit hStore hLawful in
theorem deliver_spec (ex : Executor σ) (loop : LoopState σ) (inbox : Inbox)
    (parent : Option String) (recorder : Recorder) :
    let drained := drainBoundary inbox (loop.turnStart || !loop.carriedDelivery.isEmpty)
    let delivered := deliver ex loop inbox parent recorder
    delivered.1 = loop.carriedDelivery ++ drained.1 ∧ delivered.2.carriedDelivery = [] ∧
      delivered.2.env.inbox = some drained.2 ∧ delivered.2.env.stored = loop.env.stored ∧
      delivered.2.stepsRun = loop.stepsRun := by
  unfold deliver
  dsimp only
  refine ⟨rfl, rfl, ?_, ?_, rfl⟩
  · split <;> rfl
  · split <;> rfl

theorem cancelRun_spec {recorder : Recorder}
    (hFree : NextIdFree checkpointer config loop.env)
    (hIds : Inbox.SameIds loop.env.recorder recorder) (inbox : Inbox) (cause : CancelCause)
    (keepInbox : Bool) (parent : Option String) :
    ∃ result env, cancelRun ex config loop inbox cause keepInbox parent recorder =
        .finished result env ∧
      env.inbox = some (if keepInbox then inbox else inbox.clear.2) ∧
      stampOf checkpointer config.threadId env.stored =
        if keepInbox then inboxStamp (some inbox) loop.carriedDelivery
        else inbox.clear.2.snapshot := by
  have hFree' (inbox : Option Inbox) (draft : EventDraft) : NextIdFree checkpointer config
      ({ loop.env with inbox, recorder }.record ex.codec draft).2 :=
    hFree.of_same rfl ⟨hIds.rng, hIds.draws⟩
  unfold cancelRun
  cases keepInbox with
  | true | false =>
    dsimp only
    split
    all_goals
      rename_i hLoop
      exact ⟨_, _, rfl, checkpointLoop_spec hStore hLawful (hFree' _ _) hLoop⟩

theorem boundaryFlow (hInbox : loop.env.inbox = some inbox) (hLive : inbox.source = .live)
    (hFree : NextIdFree checkpointer config loop.env) :
    BoundaryFlow checkpointer ex.codec config loop inbox (atBoundary ex config loop) := by
  unfold atBoundary
  cases hCeiling : ceiling config loop with
  | some reached =>
    dsimp only
    unfold haltAtCeiling
    split
    all_goals
      rename_i hLoop
      obtain ⟨hSame, hStamp⟩ := checkpointLoop_spec hStore hLawful hFree hLoop
      refine .ceiling (by simp [hCeiling]) (hSame.trans hInbox) ?_
      rw [hStamp, hInbox]
      rfl
  | none =>
    obtain ⟨hQueued, hIntake, hCancel, hPending, hIds⟩ :=
      Inbox.settle_live ex.codec hLive loop.env.recorder loop.stepParent
    have hTake (n : Nat) : (inbox.settle ex.codec loop.env.recorder loop.stepParent).inbox.takeCancel
        n = (inbox.cancel, { (inbox.settle ex.codec loop.env.recorder loop.stepParent).inbox with
          cancel := none }) := by
      simp only [Inbox.takeCancel, hIntake.source.trans hLive, hCancel]
    unfold boundaryInbox
    rw [hInbox]
    dsimp only
    rw [hTake]
    generalize hSettled : inbox.settle ex.codec loop.env.recorder loop.stepParent = settled
      at hQueued hIntake hIds ⊢
    cases hLatched : inbox.cancel with
    | some request =>
      obtain ⟨cause, keepInbox⟩ := request
      dsimp only
      obtain ⟨result, env, hRun, hAfter, hStamp⟩ := cancelRun_spec hStore hLawful hFree hIds
        { settled.inbox with cancel := none } cause keepInbox (settled.lastEvent.or loop.stepParent)
      rw [hRun]
      cases keepInbox with
      | true =>
        exact .kept hCeiling hLatched hAfter hQueued ⟨hIntake.source, hIntake.nextSeq⟩ hStamp
      | false =>
        exact .cleared hCeiling hLatched hAfter (Inbox.queued_clear _)
          ⟨hIntake.source, hIntake.nextSeq⟩ hStamp
    | none =>
      dsimp only
      have hDrained : drainedAt ex.codec loop inbox = (drainBoundary
          { settled.inbox with cancel := none }
          (loop.turnStart || !loop.carriedDelivery.isEmpty)).1 := by
        unfold drainedAt drainBoundary Inbox.drainSteering Inbox.drainStaged
        rw [hSettled]
        dsimp only
        split <;> rfl
      obtain ⟨hSplit, hKept⟩ := drainBoundary_spec { settled.inbox with cancel := none }
        (loop.turnStart || !loop.carriedDelivery.isEmpty)
      obtain ⟨hBatch, hCarried, hAfter, hStored, hRun⟩ := deliver_spec ex loop
        { settled.inbox with cancel := none } (settled.lastEvent.or loop.stepParent)
        settled.recorder
      rw [← hDrained] at hBatch hSplit
      rw [hBatch]
      have hParts := hSplit.trans hQueued
      have hSame : inbox.SameIntake _ :=
        ⟨hKept.source.trans hIntake.source, hKept.nextSeq.trans hIntake.nextSeq⟩
      split
      · next hToken =>
        exact .token hCeiling hLatched hToken hAfter hParts hSame hStored
      · exact .go hCeiling hLatched hCarried hAfter hParts hSame hStored

end Stored

end RustyRuntime
