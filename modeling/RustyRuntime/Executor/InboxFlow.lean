import RustyRuntime.Executor.Delivery
import RustyRuntime.Checkpoint.Refinement

/-!
# Every accepted message is in one place

The history of one inbox: sends and cancellation requests at any time, the boundaries and
steps of a run, and resumes of the thread with the same handle or a new one. `InboxRun` is
the run with a ledger of the messages that were accepted, delivered to a committed step, or
reported as dropped. The other places are the queues of the inbox and the batch that is held
for a step: the delivery of the running step, the carried batch of the loop, or, once the
run has ended, the pending delivery of the latest checkpoint.

`onePlace_of_admissible`: where every operation meets `KeepsMessages`, each accepted message
is in exactly one place after every history. `same_handle_resume_loses` is a history that
violates the condition: the batch of an interrupted step is in the stamp, and a resume with
the handle that sent it does not take it back.
-/

namespace RustyRuntime

variable {σ : Type}

/-! ## Histories -/

inductive Phase (σ : Type) where
  | idle (env : Env σ)
  | boundary (loop : LoopState σ)
  | step (delivery : List InboxMessage) (loop : LoopState σ)

namespace Phase

def env : Phase σ → Env σ
  | idle env => env
  | boundary loop => loop.env
  | step _ loop => loop.env

def withInbox (inbox : Inbox) : Phase σ → Phase σ
  | idle env => idle { env with inbox := some inbox }
  | boundary loop => boundary { loop with env := { loop.env with inbox := some inbox } }
  | step delivery loop => step delivery { loop with env := { loop.env with inbox := some inbox } }

def ofIteration : Iteration σ → Phase σ
  | .continue loop => boundary loop
  | .finished _ env => idle env

def held (checkpointer : Checkpointer σ) (thread : String) : Phase σ → List InboxMessage
  | idle env => pendingIn (stampOf checkpointer thread env.stored)
  | boundary loop => loop.carriedDelivery
  | step delivery _ => delivery

end Phase

structure InboxRun (σ : Type) where
  config : RunConfig
  phase : Phase σ
  accepted : Multiset InboxMessage := 0
  committed : Multiset InboxMessage := 0
  dropped : Multiset InboxMessage := 0

inductive InboxOp where
  | send (sender : String) (target : InboxTarget) (wakeup : Bool) (content : Json)
  | cancel (cause : CancelCause) (keepInbox : Bool)
  | boundary
  | step (join : List Invocation → List Joined)
  | resume (config : RunConfig) (value : Json) (handle : Option InboxBounds)

def StepOutput.committed (out : StepOutput σ) : Bool :=
  match out.result with
  | .error _ => false
  | .ok (.finish (.interrupted _ _ _)) => false
  | .ok _ => true

def reportedAt (config : RunConfig) (loop : LoopState σ) : Multiset InboxMessage :=
  match ceiling config loop, loop.env.inbox with
  | none, some inbox =>
    match inbox.cancel with
    | some (_, false) => inbox.queued
    | _ => 0
  | _, _ => 0

def resumeConfig (thread : String) (config : RunConfig) (value : Json) : RunConfig :=
  { config with threadId := thread, checkpointId := none, resume := some value }

def resumeInbox (inbox : Option Inbox) : Option InboxBounds → Option Inbox
  | none => inbox
  | some bounds => some { bounds }

section Histories

variable (ex : Executor σ) (graph : Graph) (spec : StateSpec)

namespace InboxRun

def send (run : InboxRun σ) (sender : String) (target : InboxTarget) (wakeup : Bool)
    (content : Json) : InboxRun σ :=
  match run.phase.env.inbox with
  | none => run
  | some inbox =>
    match inbox.send sender target wakeup content with
    | (.error _, inbox) => { run with phase := run.phase.withInbox inbox }
    | (.ok seq, inbox) =>
      { run with
        phase := run.phase.withInbox inbox
        accepted := {⟨seq, Inbox.kindOf target wakeup, sender, content⟩} + run.accepted }

def next (run : InboxRun σ) : InboxOp → InboxRun σ
  | .send sender target wakeup content => run.send sender target wakeup content
  | .cancel cause keepInbox =>
    match run.phase.env.inbox with
    | none => run
    | some inbox => { run with phase := run.phase.withInbox (inbox.requestCancel cause keepInbox) }
  | .boundary =>
    match run.phase with
    | .boundary loop =>
      match atBoundary ex run.config loop with
      | .go delivery loop => { run with phase := .step delivery loop }
      | .stop iteration =>
        { run with
          phase := .ofIteration iteration, dropped := run.dropped + reportedAt run.config loop }
    | _ => run
  | .step join =>
    match run.phase with
    | .step delivery loop =>
      let out := executeSuperStep ex graph spec run.config join (loop.stepInput delivery) loop.env
      { run with
        phase := .ofIteration (afterStep run.config loop out)
        committed := run.committed + if out.committed then ↑delivery else 0 }
    | _ => run
  | .resume config value handle =>
    match run.phase with
    | .idle env =>
      let config := resumeConfig run.config.threadId config value
      { run with
        config
        phase := .ofIteration (begin ex graph config .new
          { env with inbox := resumeInbox env.inbox handle }) }
    | _ => run

/-- The first run of an inbox: a new handle on the thread of `config`. -/
def start (config : RunConfig) (initialState : State) (bounds : InboxBounds) (env : Env σ) :
    InboxRun σ :=
  let config := { config with checkpointId := none, resume := none }
  { config
    phase := .ofIteration (begin ex graph config initialState
      { env with inbox := some { bounds } }) }

def queued (run : InboxRun σ) : Multiset InboxMessage :=
  run.phase.env.inbox.elim 0 Inbox.queued

/-- **Every accepted message is in exactly one place.** -/
def OnePlace (checkpointer : Checkpointer σ) (run : InboxRun σ) : Prop :=
  ∀ message ∈ run.accepted,
    (run.queued + ↑(run.phase.held checkpointer run.config.threadId) + run.committed +
      run.dropped).count message = 1

end InboxRun

end Histories

/-! ## The condition -/

/-- A boundary keeps its messages: the checkpoint id is new, a ceiling and a cancellation
that clears the queues meet no carried batch, the token is not set where a batch is drained. -/
structure BoundaryKeeps (checkpointer : Checkpointer σ) (codec : Codec) (config : RunConfig)
    (loop : LoopState σ) (inbox : Inbox) : Prop where
  free : NextIdFree checkpointer config loop.env
  ceiling : ceiling config loop ≠ none → loop.carriedDelivery = []
  cleared : ∀ cause, inbox.cancel = some (cause, false) → loop.carriedDelivery = []
  token : config.cancelled loop.stepsRun = true → drainedAt codec loop inbox = []

structure StepKeeps (ex : Executor σ) (checkpointer : Checkpointer σ) (graph : Graph)
    (spec : StateSpec) (config : RunConfig) (join : List Invocation → List Joined)
    (delivery : List InboxMessage) (loop : LoopState σ) : Prop where
  free : NextIdFree checkpointer config loop.env
  ends : StepSound ex graph spec config join (loop.stepInput delivery) loop.env ∨
    delivery = pendingIn (stampOf checkpointer config.threadId loop.env.stored)

/-- A resume keeps its messages: with the same handle there is no pending delivery to adopt,
and a new handle is given when every send was settled and stamped. -/
def ResumeKeeps (checkpointer : Checkpointer σ) (thread : String) (env : Env σ) (inbox : Inbox) :
    Option InboxBounds → Prop
  | none => pendingIn (stampOf checkpointer thread env.stored) = []
  | some _ => inbox.pending = [] ∧
      (stampOf checkpointer thread env.stored).map (fun stamp => { stamp with pendingDelivery := [] }) =
        inbox.snapshot

def KeepsMessages (ex : Executor σ) (checkpointer : Checkpointer σ) (graph : Graph)
    (spec : StateSpec) (run : InboxRun σ) : InboxOp → Prop
  | .send _ _ _ _ => True
  | .cancel _ _ => True
  | .boundary => ∀ loop inbox, run.phase = .boundary loop → loop.env.inbox = some inbox →
      BoundaryKeeps checkpointer ex.codec run.config loop inbox
  | .step join => ∀ delivery loop, run.phase = .step delivery loop →
      StepKeeps ex checkpointer graph spec run.config join delivery loop
  | .resume _ _ handle => ∀ env inbox, run.phase = .idle env → env.inbox = some inbox →
      ResumeKeeps checkpointer run.config.threadId env inbox handle

/-! ## The invariant -/

/-- What the latest checkpoint and the loop say about the held batch. -/
def Phase.Stamped (checkpointer : Checkpointer σ) (thread : String) : Phase σ → Prop
  | idle _ => True
  | boundary loop =>
    pendingIn (stampOf checkpointer thread loop.env.stored) = loop.carriedDelivery
  | step _ loop => loop.carriedDelivery = []

/-- The ledger of the messages balances, and no sequence number is given twice. -/
structure Accounted (checkpointer : Checkpointer σ) (run : InboxRun σ) (inbox : Inbox) : Prop where
  attached : run.phase.env.inbox = some inbox
  live : inbox.source = .live
  ledger : inbox.queued + ↑(run.phase.held checkpointer run.config.threadId) + run.committed +
    run.dropped = run.accepted
  below : ∀ message ∈ run.accepted, message.seq < inbox.nextSeq
  nodup : run.accepted.Nodup
  unused : inbox.nextSeq = 0 →
    stampOf checkpointer run.config.threadId run.phase.env.stored = none
  stamped : run.phase.Stamped checkpointer run.config.threadId

namespace Accounted

variable {checkpointer : Checkpointer σ} {run run' : InboxRun σ} {inbox inbox' : Inbox}

theorem onePlace (h : Accounted checkpointer run inbox) : run.OnePlace checkpointer := by
  intro message hMem
  rw [InboxRun.queued, h.attached, Option.elim_some, h.ledger]
  exact Multiset.count_eq_one_of_mem h.nodup hMem

theorem accepted_eq_zero (h : Accounted checkpointer run inbox) (hUnused : inbox.nextSeq = 0) :
    run.accepted = 0 := by
  refine Multiset.eq_zero_of_forall_notMem fun message hMem => ?_
  have hBelow := h.below message hMem
  omega

theorem held_eq_nil (h : Accounted checkpointer run inbox) (hUnused : inbox.nextSeq = 0) :
    run.phase.held checkpointer run.config.threadId = [] := by
  have hLedger := h.ledger
  rw [h.accepted_eq_zero hUnused] at hLedger
  simp only [add_eq_zero, Multiset.coe_eq_zero] at hLedger
  exact hLedger.1.1.2

/-- An operation that accepts no message moves messages from one place to another. -/
theorem advance (h : Accounted checkpointer run inbox)
    (hInbox : run'.phase.env.inbox = some inbox') (hIntake : inbox.SameIntake inbox')
    (hAccepted : run'.accepted = run.accepted)
    (hLedger : inbox'.queued + ↑(run'.phase.held checkpointer run'.config.threadId) +
        run'.committed + run'.dropped =
      inbox.queued + ↑(run.phase.held checkpointer run.config.threadId) + run.committed +
        run.dropped)
    (hUnused : inbox'.nextSeq = 0 →
      stampOf checkpointer run'.config.threadId run'.phase.env.stored = none)
    (hStamped : run'.phase.Stamped checkpointer run'.config.threadId) :
    Accounted checkpointer run' inbox' where
  attached := hInbox
  live := hIntake.source.trans h.live
  ledger := by rw [hLedger, hAccepted, h.ledger]
  below := by rw [hAccepted, hIntake.nextSeq]; exact h.below
  nodup := by rw [hAccepted]; exact h.nodup
  unused := hUnused
  stamped := hStamped

end Accounted

/-! ## Sends and cancellation requests -/

theorem Phase.withInbox_spec (checkpointer : Checkpointer σ) (thread : String) (phase : Phase σ)
    (inbox : Inbox) :
    (phase.withInbox inbox).env.inbox = some inbox ∧
      (phase.withInbox inbox).env.stored = phase.env.stored ∧
      (phase.withInbox inbox).held checkpointer thread = phase.held checkpointer thread ∧
      ((phase.withInbox inbox).Stamped checkpointer thread ↔ phase.Stamped checkpointer thread) := by
  cases phase <;> exact ⟨rfl, rfl, rfl, Iff.rfl⟩

/-- A send is refused and changes nothing, or its message waits under the next number. -/
theorem Inbox.send_live {inbox : Inbox} (hLive : inbox.source = .live) (sender : String)
    (target : InboxTarget) (wakeup : Bool) (content : Json) :
    (∃ e, inbox.send sender target wakeup content = (.error e, inbox)) ∨
      inbox.send sender target wakeup content = (.ok inbox.nextSeq,
        { inbox with
          nextSeq := inbox.nextSeq + 1
          pending := inbox.pending ++ [⟨inbox.nextSeq, kindOf target wakeup, sender, content⟩] }) := by
  unfold send
  rw [hLive]
  dsimp only
  split
  · exact .inl ⟨_, rfl⟩
  · split
    · exact .inl ⟨_, rfl⟩
    · exact .inr rfl

section Steps

variable {ex : Executor σ} {checkpointer : Checkpointer σ} {graph : Graph} {spec : StateSpec}
  {run : InboxRun σ} {inbox : Inbox}

namespace Accounted

variable (h : Accounted checkpointer run inbox)
include h

theorem withInbox {inbox' : Inbox} (hIntake : inbox.SameIntake inbox')
    (hQueued : inbox'.queued = inbox.queued) :
    Accounted checkpointer { run with phase := run.phase.withInbox inbox' } inbox' := by
  obtain ⟨hInbox, hStored, hHeld, hStamped⟩ :=
    run.phase.withInbox_spec checkpointer run.config.threadId inbox'
  refine h.advance hInbox hIntake rfl ?_ ?_ (hStamped.mpr h.stamped)
  · dsimp only
    rw [hHeld, hQueued]
  · intro hUnused
    rw [hStored]
    exact h.unused (hIntake.nextSeq ▸ hUnused)

theorem send (sender : String) (target : InboxTarget) (wakeup : Bool) (content : Json) :
    ∃ inbox', Accounted checkpointer (run.send sender target wakeup content) inbox' := by
  unfold InboxRun.send
  rw [h.attached]
  dsimp only
  rcases Inbox.send_live h.live sender target wakeup content with ⟨e, hSend⟩ | hSend
  · rw [hSend]
    exact ⟨inbox, h.withInbox ⟨rfl, rfl⟩ rfl⟩
  · rw [hSend]
    dsimp only
    generalize hMessage : (⟨inbox.nextSeq, Inbox.kindOf target wakeup, sender, content⟩ :
      InboxMessage) = message
    have hSeq : message.seq = inbox.nextSeq := by rw [← hMessage]
    refine ⟨{ inbox with
      nextSeq := inbox.nextSeq + 1, pending := inbox.pending ++ [message] }, ?_⟩
    obtain ⟨hInbox, hStored, hHeld, hStamped⟩ :=
      run.phase.withInbox_spec checkpointer run.config.threadId
        { inbox with nextSeq := inbox.nextSeq + 1, pending := inbox.pending ++ [message] }
    refine ⟨hInbox, h.live, ?_, ?_, ?_, ?_, hStamped.mpr h.stamped⟩
    · dsimp only
      rw [hHeld, ← h.ledger]
      simp only [Inbox.queued, ← Multiset.coe_add, Multiset.coe_singleton]
      abel
    · intro other hOther
      rcases Multiset.mem_add.mp hOther with hNew | hOld
      · rw [Multiset.mem_singleton.mp hNew, hSeq]
        exact Nat.lt_succ_self _
      · exact Nat.lt_succ_of_lt (h.below other hOld)
    · -- the number is new, so the message is
      refine Multiset.nodup_cons.mpr ⟨fun hOld => ?_, h.nodup⟩
      have hBelow := h.below message hOld
      omega
    · intro hUnused
      exact absurd hUnused (Nat.succ_ne_zero _)

theorem cancel (cause : CancelCause) (keepInbox : Bool) :
    ∃ inbox', Accounted checkpointer (run.next ex graph spec (.cancel cause keepInbox)) inbox' := by
  simp only [InboxRun.next, h.attached]
  refine ⟨_, h.withInbox ?_ ?_⟩
  · unfold Inbox.requestCancel
    split <;> exact ⟨rfl, rfl⟩
  · unfold Inbox.requestCancel
    split <;> rfl

end Accounted

/-! ## Boundaries -/

theorem stampOf_eq_none {thread : String} {stored : σ} {delivery : List InboxMessage}
    (hStamp : stampOf checkpointer thread stored = inboxStamp (some inbox) delivery)
    (hUnused : inbox.nextSeq = 0) : stampOf checkpointer thread stored = none := by
  rw [hStamp]
  simp [inboxStamp, Inbox.snapshot, hUnused]

theorem snapshot_eq_none (hUnused : inbox.nextSeq = 0) : inbox.snapshot = none := by
  simp [Inbox.snapshot, hUnused]

namespace Accounted

theorem boundary (hStore : ex.checkpointer = some checkpointer) (hLawful : checkpointer.Lawful)
    (h : Accounted checkpointer run inbox)
    (hKeeps : KeepsMessages ex checkpointer graph spec run .boundary) :
    ∃ inbox', Accounted checkpointer (run.next ex graph spec .boundary) inbox' := by
  obtain ⟨config, phase, accepted, committed, dropped⟩ := run
  cases phase with
  | idle env | step delivery loop => exact ⟨inbox, h⟩
  | boundary loop =>
    have hInbox : loop.env.inbox = some inbox := h.attached
    have hStamped : pendingIn (stampOf checkpointer config.threadId loop.env.stored) =
      loop.carriedDelivery := h.stamped
    have hCarried : inbox.nextSeq = 0 → loop.carriedDelivery = [] := h.held_eq_nil
    have hKeep : BoundaryKeeps checkpointer ex.codec config loop inbox :=
      hKeeps loop inbox rfl hInbox
    have hFlow := boundaryFlow hStore hLawful hInbox h.live hKeep.free
    simp only [InboxRun.next]
    generalize atBoundary ex config loop = decided at hFlow
    cases hFlow with
    | ceiling hCeiling hAfter hStamp =>
      refine ⟨inbox, h.advance hAfter ⟨rfl, rfl⟩ rfl ?_ ?_ trivial⟩
      · simp only [Phase.ofIteration, Phase.held, hStamp, pendingIn_snapshot,
          hKeep.ceiling hCeiling]
        cases hReached : RustyRuntime.ceiling config loop with
        | none => exact absurd hReached hCeiling
        | some reached => simp [reportedAt, hReached]
      · intro hUnused
        exact hStamp.trans (snapshot_eq_none hUnused)
    | @kept cause result env after hCeiling hCancel hAfter hQueued hIntake hStamp =>
      refine ⟨after, h.advance hAfter hIntake rfl ?_ (stampOf_eq_none hStamp) trivial⟩
      have hPending : pendingIn (inboxStamp (some after) loop.carriedDelivery) =
          loop.carriedDelivery :=
        pendingIn_inboxStamp fun hUnused => hCarried (hIntake.nextSeq ▸ hUnused)
      simp [Phase.ofIteration, Phase.held, hStamp, hPending, hQueued, reportedAt, hCeiling, hInbox,
        hCancel]
    | @cleared cause result env after hCeiling hCancel hAfter hQueued hIntake hStamp =>
      refine ⟨after, h.advance hAfter hIntake rfl ?_
        (fun hUnused => hStamp.trans (snapshot_eq_none hUnused)) trivial⟩
      -- the queues move to the report, and there is no carried batch
      simp only [Phase.ofIteration, Phase.held, hStamp, pendingIn_snapshot, hQueued, reportedAt,
        hCeiling, hInbox, hCancel, hKeep.cleared cause hCancel, Multiset.coe_nil]
      abel
    | @token result env after hCeiling hCancel hToken hAfter hQueued hIntake hStored =>
      have hSame : stampOf checkpointer config.threadId env.stored =
          stampOf checkpointer config.threadId loop.env.stored := by rw [hStored]
      refine ⟨after, h.advance hAfter hIntake rfl ?_
        (fun hUnused => hSame.trans (h.unused (hIntake.nextSeq ▸ hUnused))) trivial⟩
      rw [hKeep.token hToken, Multiset.coe_nil, zero_add] at hQueued
      simp [Phase.ofIteration, Phase.held, hSame, hStamped, hQueued, reportedAt, hCeiling, hInbox,
        hCancel]
    | @go before after hCeiling hCancel hGiven hAfter hQueued hIntake hStored =>
      refine ⟨after, h.advance hAfter hIntake rfl ?_ ?_ hGiven⟩
      · simp only [Phase.held, ← hQueued, ← Multiset.coe_add]
        abel
      · intro hUnused
        have hNone := h.unused (hIntake.nextSeq ▸ hUnused)
        simpa only [Phase.env, hStored] using hNone

end Accounted

/-! ## Steps -/

variable {out : StepOutput σ} {next : List ActiveTask} {merged : State} {routeEvent : String}
  {extension : List InboxMessage}

theorem ofIteration_afterStep_of_committed {config : RunConfig} {loop : LoopState σ}
    (hResult : out.result = .ok (transition next merged routeEvent extension))
    (hCarried : loop.carriedDelivery = [])
    (hPending : pendingIn (stampOf checkpointer config.threadId out.env.stored) = extension) :
    let phase := Phase.ofIteration (afterStep config loop out)
    phase.env = out.env ∧ phase.held checkpointer config.threadId = extension ∧
      phase.Stamped checkpointer config.threadId := by
  unfold afterStep transition at *
  rw [hResult]
  cases checkSpend config out.env with
  | some crossed => exact ⟨rfl, hPending, trivial⟩
  | none =>
    cases next with
    | nil => exact ⟨rfl, hPending, trivial⟩
    | cons task rest =>
      have hHeld : (if extension.isEmpty then loop.carriedDelivery else extension) = extension := by
        rw [hCarried]
        cases extension <;> rfl
      exact ⟨rfl, hHeld, hPending.trans hHeld.symm⟩

theorem committed_of_transition
    (hResult : out.result = .ok (transition next merged routeEvent extension)) :
    out.committed := by
  unfold StepOutput.committed transition at *
  rw [hResult]
  cases next <;> rfl

namespace Accounted

theorem step (hStore : ex.checkpointer = some checkpointer) (hLawful : checkpointer.Lawful)
    (h : Accounted checkpointer run inbox) {join : List Invocation → List Joined}
    (hKeeps : KeepsMessages ex checkpointer graph spec run (.step join)) :
    ∃ inbox', Accounted checkpointer (run.next ex graph spec (.step join)) inbox' := by
  obtain ⟨config, phase, accepted, committed, dropped⟩ := run
  cases phase with
  | idle env | boundary loop => exact ⟨inbox, h⟩
  | step delivery loop =>
    have hInbox : loop.env.inbox = some inbox := h.attached
    have hCarried : loop.carriedDelivery = [] := h.stamped
    have hNothing : inbox.nextSeq = 0 → delivery = [] := h.held_eq_nil
    have hKeep : StepKeeps ex checkpointer graph spec config join delivery loop :=
      hKeeps delivery loop rfl
    have hFlow := stepFlow hStore hLawful graph spec join (loop.stepInput delivery) hInbox h.live
      hKeep.free
    simp only [InboxRun.next]
    generalize executeSuperStep ex graph spec config join (loop.stepInput delivery) loop.env = out
      at hFlow
    cases hFlow with
    | failed hResult hFault hStores =>
      have hAfter : Phase.ofIteration (afterStep config loop out) = .idle out.env := by
        simp only [afterStep, hResult]
        rfl
      have hCommitted : out.committed = false := by simp [StepOutput.committed, hResult]
      have hSame : stampOf checkpointer config.threadId out.env.stored =
          stampOf checkpointer config.threadId loop.env.stored := by rw [hStores.stored]
      have hPreserved : delivery =
          pendingIn (stampOf checkpointer config.threadId loop.env.stored) :=
        hKeep.ends.resolve_left hFault
      rw [hAfter, hCommitted]
      refine ⟨inbox, h.advance (hStores.inbox.trans hInbox) ⟨rfl, rfl⟩ rfl ?_
        (fun hUnused => hSame.trans (h.unused hUnused)) trivial⟩
      simp [Phase.held, hSame, ← hPreserved]
    | suspended hResult hAfterInbox hStamp =>
      have hCommitted : out.committed = false := by simp [StepOutput.committed, hResult]
      have hAfter : Phase.ofIteration (afterStep config loop out) = .idle out.env := by
        simp only [afterStep, hResult]
        split <;> rfl
      have hPending : pendingIn (inboxStamp (some inbox) delivery) = delivery :=
        pendingIn_inboxStamp hNothing
      rw [hAfter, hCommitted]
      refine ⟨inbox, h.advance hAfterInbox ⟨rfl, rfl⟩ rfl ?_ (stampOf_eq_none hStamp) trivial⟩
      simp [Phase.held, hStamp, LoopState.stepInput, hPending]
    | @committed next merged routeEvent extension after hResult hAfterInbox hQueued hIntake hStamp =>
      -- an unused inbox has no message that the turn could be extended with
      have hNone : after.nextSeq = 0 → extension = [] := by
        intro hUnused
        have hLedger := h.ledger
        rw [h.accepted_eq_zero (hIntake.nextSeq ▸ hUnused), ← hQueued] at hLedger
        simp only [add_eq_zero, Multiset.coe_eq_zero] at hLedger
        exact hLedger.1.1.1.1
      have hPending : pendingIn (stampOf checkpointer config.threadId out.env.stored) =
          extension := by
        rw [hStamp]
        exact pendingIn_inboxStamp hNone
      obtain ⟨hEnv, hHeld, hStamped⟩ :=
        ofIteration_afterStep_of_committed hResult hCarried hPending
      refine ⟨after, h.advance (by rw [hEnv]; exact hAfterInbox) hIntake rfl ?_ ?_ hStamped⟩
      · dsimp only
        rw [hHeld, committed_of_transition hResult, if_pos rfl, ← hQueued]
        simp only [Phase.held]
        abel
      · intro hUnused
        rw [hEnv]
        exact stampOf_eq_none hStamp hUnused

end Accounted

/-! ## Resumes -/

theorem resume_spec (hStore : ex.checkpointer = some checkpointer) (graph : Graph)
    (thread : String) (config : RunConfig) (value : Json) (env : Env σ) :
    let stamp := stampOf checkpointer thread env.stored
    let phase := Phase.ofIteration (begin ex graph (resumeConfig thread config value) .new env)
    phase.env.inbox = restoredInbox env.inbox stamp ∧ phase.env.stored = env.stored ∧
      (phase = .idle phase.env ∨ ∃ loop, phase = .boundary loop ∧
        loop.carriedDelivery = restoredDelivery env.inbox stamp) := by
  unfold begin resumeConfig lookupCheckpoint stampOf
  rw [hStore]
  simp only [Option.isSome_none, Option.isSome_some, Bool.or_true, if_true]
  cases checkpointer.getLatest env.stored thread with
  | error e => exact ⟨rfl, rfl, .inl rfl⟩
  | ok latest =>
    cases latest with
    | none => exact ⟨rfl, rfl, .inl rfl⟩
    | some checkpoint =>
      dsimp only
      split
      · exact ⟨rfl, rfl, .inl rfl⟩
      · unfold declare
        cases config.declaration with
        | none | some declaration => exact ⟨rfl, rfl, .inr ⟨_, rfl, rfl⟩⟩

theorem isFresh_eq_false {inbox : Inbox} (h : inbox.nextSeq ≠ 0) : inbox.isFresh = false := by
  simp [Inbox.isFresh, h]

namespace Accounted

variable {config : RunConfig} {handle : Option InboxBounds}

/-- The handle that a resume is given ends with the queues it had, and the loop with the
batch that was pending. -/
theorem restored {env : Env σ} {accepted committed dropped : Multiset InboxMessage}
    (h : Accounted checkpointer ⟨config, .idle env, accepted, committed, dropped⟩ inbox)
    (hKeep : ResumeKeeps checkpointer config.threadId env inbox handle) :
    let stamp := stampOf checkpointer config.threadId env.stored
    let given := resumeInbox env.inbox handle
    ∃ inbox', restoredInbox given stamp = some inbox' ∧ inbox.SameIntake inbox' ∧
      inbox'.queued = inbox.queued ∧ restoredDelivery given stamp = pendingIn stamp := by
  have hInbox : env.inbox = some inbox := h.attached
  have hUnused : inbox.nextSeq = 0 → stampOf checkpointer config.threadId env.stored = none :=
    h.unused
  have hEmpty : inbox.nextSeq = 0 → inbox.queued = 0 := by
    intro hZero
    have hLedger := h.ledger
    rw [h.accepted_eq_zero hZero] at hLedger
    simp only [add_eq_zero] at hLedger
    exact hLedger.1.1.1
  cases handle with
  | none =>
    have hNone : pendingIn (stampOf checkpointer config.threadId env.stored) = [] := hKeep
    generalize stampOf checkpointer config.threadId env.stored = stamp at hUnused hNone ⊢
    dsimp only [resumeInbox]
    rw [hInbox]
    cases stamp with
    | none => exact ⟨inbox, rfl, ⟨rfl, rfl⟩, rfl, rfl⟩
    | some stamp =>
      have hUsed : inbox.isFresh = false :=
        isFresh_eq_false fun hZero => by cases hUnused hZero
      refine ⟨inbox, by simp [restoredInbox, Inbox.seed, hUsed], ⟨rfl, rfl⟩, rfl, ?_⟩
      rw [hNone]
      simp [restoredDelivery, hUsed]
  | some bounds =>
    obtain ⟨hSettled, hStamp⟩ := hKeep
    generalize stampOf checkpointer config.threadId env.stored = stamp at hUnused hStamp ⊢
    cases stamp with
    | none =>
      have hZero : inbox.nextSeq = 0 := by
        by_contra hUsed
        simp [Inbox.snapshot, hUsed] at hStamp
      exact ⟨_, rfl, ⟨h.live.symm, hZero.symm⟩, by rw [hEmpty hZero]; rfl, rfl⟩
    | some stamp =>
      have hUsed : inbox.nextSeq ≠ 0 := fun hZero => by cases hUnused hZero
      simp only [Inbox.snapshot, if_neg hUsed, Option.map_some, Option.some.injEq,
        InboxSnapshot.mk.injEq] at hStamp
      obtain ⟨hSteering, hFollowups, hStaged, hNext, -⟩ := hStamp
      refine ⟨{ bounds, steering := stamp.steering, followups := stamp.followups
                staged := stamp.staged, nextSeq := stamp.nextSeq },
        rfl, ⟨h.live.symm, hNext⟩, ?_, rfl⟩
      simp only [Inbox.queued, hSettled, hSteering, hFollowups, hStaged]

theorem resume (hStore : ex.checkpointer = some checkpointer) (h : Accounted checkpointer run inbox)
    {value : Json}
    (hKeeps : KeepsMessages ex checkpointer graph spec run (.resume config value handle)) :
    ∃ inbox', Accounted checkpointer (run.next ex graph spec (.resume config value handle))
      inbox' := by
  obtain ⟨current, phase, accepted, committed, dropped⟩ := run
  cases phase with
  | boundary loop | step delivery loop => exact ⟨inbox, h⟩
  | idle env =>
    obtain ⟨inbox', hInbox, hIntake, hQueued, hDelivery⟩ :=
      h.restored (hKeeps env inbox rfl h.attached)
    obtain ⟨hRestored, hStored, hPhase⟩ := resume_spec hStore graph current.threadId config
      value { env with inbox := resumeInbox env.inbox handle }
    simp only [InboxRun.next]
    generalize Phase.ofIteration (begin ex graph (resumeConfig current.threadId config value) .new
      { env with inbox := resumeInbox env.inbox handle }) = phase at hRestored hStored hPhase ⊢
    have hSame : stampOf checkpointer current.threadId phase.env.stored =
        stampOf checkpointer current.threadId env.stored := by rw [hStored]
    have hHeld : phase.held checkpointer current.threadId =
        pendingIn (stampOf checkpointer current.threadId env.stored) ∧
        phase.Stamped checkpointer current.threadId := by
      rcases hPhase with hIdle | ⟨loop, rfl, hCarried⟩
      · rw [hIdle]
        exact ⟨congrArg pendingIn hSame, trivial⟩
      · exact ⟨hCarried.trans hDelivery,
          (congrArg pendingIn hSame).trans (hCarried.trans hDelivery).symm⟩
    refine ⟨inbox', h.advance (hRestored.trans hInbox) hIntake rfl ?_ ?_ hHeld.2⟩
    · change inbox'.queued + ↑(phase.held checkpointer current.threadId) + committed + dropped = _
      rw [hHeld.1, hQueued]
      rfl
    · intro hUnused
      exact hSame.trans (h.unused (hIntake.nextSeq ▸ hUnused))

end Accounted

/-! ## Whole histories -/

theorem accounted_start (ex : Executor σ) (graph : Graph) (config : RunConfig)
    (initialState : State) (bounds : InboxBounds) {env : Env σ}
    (hNew : stampOf checkpointer config.threadId env.stored = none) :
    Accounted checkpointer (InboxRun.start ex graph config initialState bounds env) { bounds } := by
  have hStart : (InboxRun.start ex graph config initialState bounds env).phase = .boundary
      (declare ex { config with checkpointId := none, resume := none }
        { state := initialState, active := [⟨graph.entryPoint, none⟩]
          env := { env with inbox := some { bounds } } }) := rfl
  have hDeclare (loop : LoopState σ) (config : RunConfig) :
      (declare ex config loop).env.inbox = loop.env.inbox ∧
        (declare ex config loop).env.stored = loop.env.stored ∧
        (declare ex config loop).carriedDelivery = loop.carriedDelivery := by
    unfold declare
    split <;> exact ⟨rfl, rfl, rfl⟩
  obtain ⟨hInbox, hStored, hCarried⟩ := hDeclare
    { state := initialState, active := [⟨graph.entryPoint, none⟩]
      env := { env with inbox := some { bounds } } }
    { config with checkpointId := none, resume := none }
  have hStamp : stampOf checkpointer config.threadId
      (InboxRun.start ex graph config initialState bounds env).phase.env.stored = none := by
    rw [hStart]
    simpa only [Phase.env, hStored] using hNew
  refine ⟨by rw [hStart]; exact hInbox, rfl, ?_, ?_, Multiset.nodup_zero, fun _ => hStamp, ?_⟩
  · rw [hStart]
    simp only [Phase.held, hCarried]
    rfl
  · intro message hMem
    exact absurd hMem (Multiset.notMem_zero message)
  · rw [hStart] at hStamp ⊢
    simp only [Phase.Stamped, hCarried]
    exact congrArg pendingIn hStamp

theorem accounted_next (hStore : ex.checkpointer = some checkpointer)
    (hLawful : checkpointer.Lawful) {op : InboxOp} (h : ∃ inbox, Accounted checkpointer run inbox)
    (hKeeps : KeepsMessages ex checkpointer graph spec run op) :
    ∃ inbox, Accounted checkpointer (run.next ex graph spec op) inbox := by
  obtain ⟨inbox, h⟩ := h
  cases op with
  | send sender target wakeup content => exact h.send sender target wakeup content
  | cancel cause keepInbox => exact h.cancel cause keepInbox
  | boundary => exact h.boundary hStore hLawful hKeeps
  | step join => exact h.step hStore hLawful hKeeps
  | resume config value handle => exact h.resume hStore hKeeps

end Steps

/-- **No message is lost or doubled.** Over every history of a new inbox whose operations
all meet the condition, each accepted message is in exactly one place. -/
theorem onePlace_of_admissible {ex : Executor σ} {checkpointer : Checkpointer σ} {graph : Graph}
    {spec : StateSpec} (hStore : ex.checkpointer = some checkpointer)
    (hLawful : checkpointer.Lawful) (config : RunConfig) (initialState : State)
    (bounds : InboxBounds) {env : Env σ}
    (hNew : stampOf checkpointer config.threadId env.stored = none) {ops : List InboxOp}
    (hOps : Library.Admissible (InboxRun.next ex graph spec)
      (KeepsMessages ex checkpointer graph spec)
      (InboxRun.start ex graph config initialState bounds env) ops) :
    (Library.run (InboxRun.next ex graph spec)
      (InboxRun.start ex graph config initialState bounds env) ops).OnePlace checkpointer := by
  obtain ⟨inbox, h⟩ := Library.run_invariant
    (fun run op => accounted_next hStore hLawful)
    ⟨_, accounted_start ex graph config initialState bounds hNew⟩ hOps
  exact h.onePlace

/-! ## Runs on the in-memory store -/

theorem lawful_memoryCheckpointer : memoryCheckpointer.Lawful := by
  refine ⟨fun stored checkpoint hPut => ?_⟩
  by_cases hMem : checkpoint.id ∈ (stored.history checkpoint.threadId).checkpoints.map Checkpoint.id
  · cases (InMemoryCheckpointer.put_of_mem hMem).1.symm.trans hPut
  · have hHistory := (InMemoryCheckpointer.put_of_not_mem hMem).2 checkpoint.threadId
    rw [if_pos rfl] at hHistory
    change InMemoryCheckpointer.getLatest (stored.put checkpoint).2 checkpoint.threadId = _
    rw [InMemoryCheckpointer.getLatest, hHistory, List.getLast?_concat]

theorem nextIdFree_memory {config : RunConfig} {env : Env InMemoryCheckpointer}
    (h : env.recorder.rng env.recorder.draws ∉
      (env.stored.history config.threadId).checkpoints.map Checkpoint.id) :
    NextIdFree memoryCheckpointer config env := by
  intro checkpoint hThread hId
  rw [← hThread, ← hId] at h
  exact (InMemoryCheckpointer.put_of_not_mem h).1

/-- `ask` interrupts until the run is resumed with an answer. -/
def pauseBuilder : GraphBuilder :=
  ({ : GraphBuilder }.addNode "ask" ⟨.pure, fun context =>
    match context.config.resume with
    | none => .error (.interrupt (.str "approve?"))
    | some answer =>
      .ok { updates := ⟨[("log", answer)], List.nodup_singleton _⟩ }⟩).setEntryPoint "ask"

def pauseGraph : Graph := pauseBuilder.freeze "ask" (by decide +kernel)

def pauseStep : InboxOp := .step (pauseGraph.runTasks fun _ => 1)

/-- One message steers the run, and the step that gets it is interrupted. -/
def steered : List InboxOp :=
  [.send "user" .nextStep true (.str "hurry"), .boundary, pauseStep]

def pauseNext : InboxRun InMemoryCheckpointer → InboxOp → InboxRun InMemoryCheckpointer :=
  InboxRun.next sampleExecutor pauseGraph (StateSpec.new.channel "log" .overwrite)

def pauseStart : InboxRun InMemoryCheckpointer :=
  .start sampleExecutor pauseGraph { threadId := "t" } .new {} (sampleEnv writerCodec)

/-- **The same handle loses the batch of an interrupted step.** The message is in the stamp
of the suspension, and a resume with the handle that sent it does not take it back. -/
theorem same_handle_resume_loses :
    (Library.run pauseNext pauseStart steered).OnePlace memoryCheckpointer ∧
      ¬ (Library.run pauseNext pauseStart
        (steered ++ [.resume { threadId := "t" } (.str "yes") none])).OnePlace
          memoryCheckpointer := by
  unfold InboxRun.OnePlace
  decide +kernel

def idIsNew (run : InboxRun InMemoryCheckpointer) : Bool :=
  run.phase.env.recorder.rng run.phase.env.recorder.draws ∉
    (run.phase.env.stored.history run.config.threadId).checkpoints.map Checkpoint.id

def quietBoundary (run : InboxRun InMemoryCheckpointer) : Bool :=
  match run.phase with
  | .boundary loop => idIsNew run && (ceiling run.config loop).isNone &&
      loop.env.inbox.all (·.cancel.isNone) && !run.config.cancelled loop.stepsRun
  | _ => true

variable {spec : StateSpec} {run : InboxRun InMemoryCheckpointer}

theorem keepsMessages_of_quietBoundary {ex : Executor InMemoryCheckpointer} {graph : Graph}
    (h : quietBoundary run) :
    KeepsMessages ex memoryCheckpointer graph spec run .boundary := by
  intro loop inbox hPhase hInbox
  simp only [quietBoundary, hPhase, hInbox, idIsNew, Option.all_some, Bool.and_eq_true,
    decide_eq_true_eq, Bool.not_eq_true', Option.isNone_iff_eq_none] at h
  obtain ⟨⟨⟨hFree, hCeiling⟩, hCancel⟩, hToken⟩ := h
  refine ⟨nextIdFree_memory hFree, fun hReached => absurd hCeiling hReached, ?_, ?_⟩
  · intro cause hCleared
    cases hCancel.symm.trans hCleared
  · intro hSet
    cases hToken.symm.trans hSet

def quietStep (run : InboxRun InMemoryCheckpointer) : Bool :=
  match run.phase with
  | .step delivery loop => idIsNew run &&
      ((match (startStep sampleExecutor pauseGraph run.config (loop.stepInput delivery)
          loop.env).2.1 with
        | .ok invocations =>
          match joinAll (pauseGraph.runTasks (fun _ => 1) invocations) {} with
          | .interrupted _ _ => true
          | _ => false
        | .error _ => false) ||
      delivery = pendingIn (stampOf memoryCheckpointer run.config.threadId loop.env.stored))
  | _ => true

theorem keepsMessages_of_quietStep (h : quietStep run) :
    KeepsMessages sampleExecutor memoryCheckpointer pauseGraph spec run pauseStep := by
  intro delivery loop hPhase
  simp only [quietStep, hPhase, idIsNew, Bool.and_eq_true, decide_eq_true_eq, Bool.or_eq_true] at h
  obtain ⟨hFree, hEnds⟩ := h
  refine ⟨nextIdFree_memory hFree, hEnds.imp (fun hInterrupts => ?_) id⟩
  split at hInterrupts
  · next invocations hSpawn =>
    split at hInterrupts
    · next task value hJoin => exact ⟨invocations, hSpawn, .inl ⟨task, value, hJoin⟩⟩
    · cases hInterrupts
  · cases hInterrupts

/-- The same history resumed with a new handle: the message is delivered again and commits. -/
theorem onePlace_steered_anew :
    (Library.run pauseNext pauseStart (steered ++
      [.resume { threadId := "t" } (.str "yes") (some {}), .boundary, pauseStep])).OnePlace
        memoryCheckpointer := by
  refine onePlace_of_admissible rfl lawful_memoryCheckpointer { threadId := "t" } .new {} rfl
    ⟨trivial, keepsMessages_of_quietBoundary ?_, keepsMessages_of_quietStep ?_, ?_,
      keepsMessages_of_quietBoundary ?_, keepsMessages_of_quietStep ?_, trivial⟩
  · decide
  · decide +kernel
  · intro env inbox hPhase hInbox
    have hFacts : (match (Library.run pauseNext pauseStart steered).phase with
        | .idle env => env.inbox.all fun inbox => inbox.pending.isEmpty &&
            (stampOf memoryCheckpointer "t" env.stored).map
              (fun stamp => { stamp with pendingDelivery := [] }) = inbox.snapshot
        | _ => true) = true := by decide +kernel
    change (Library.run pauseNext pauseStart steered).phase = .idle env at hPhase
    rw [hPhase] at hFacts
    simp only [hInbox, Option.all_some, Bool.and_eq_true, List.isEmpty_iff,
      decide_eq_true_eq] at hFacts
    exact hFacts
  · decide +kernel
  · decide +kernel

end RustyRuntime
