import RustyRuntime.Server.Deploy.Handlers

/-!
# Rollbacks

One move after the other, each possibly cut short between its two writes. `servingHistory` is what an
environment is to roll back through: the revisions that served, the newest first, one more with
every promotion and one less with every rollback.

The target of a rollback is not stored but read off the chain. `Follows` is a chain whose moves
replay to the history; after a crash the chain has one move more (`OnChain`), and the target is
still the right one, so that the same move again completes the one that was cut short.

**When rollbacks restore the history** (`rollback_restores`): in every sequence of moves in which
the payload of every move fits into its event, and in which the move after a crash is the one that
was cut short, by the same author. Another move buries the one that was cut short in the replay,
and a later rollback then finds nothing to do (`rollback_stuck_after_crash`).
-/

namespace RustyRuntime

open Library

/-! ## Turns -/

/-- A move of an environment, and whether the process stops between its two writes. -/
structure DeployTurn where
  scope : DeployScope
  move : MoveRequest
  now : Instant
  crashed : Bool

def MoveRequest.blank : MoveRequest → Bool
  | .rollback cause _ => trim cause = ""
  | _ => false

section Serve

variable (payloadBytes : DeploymentAct → Nat) (store : DeployStore) (scope : DeployScope)

variable (move : MoveRequest)

/-- One attempt of `move_pointer`: an answer, or what serves after a lost race. -/
def DeployStore.attemptMove (now : Instant) : DeployStore × Except (Option RevisionId) MoveAnswer :=
  let base := store.pointers scope
  match move.build scope now base store.chain with
  | .error e => (store, .ok (.refused e))
  | .ok (act, next, converged) =>
    if converged then (store, .ok (.converged base))
    else
      match store.transition payloadBytes base.active next act with
      | (store', .applied journaled) => (store', .ok (.applied journaled next))
      | (store', .conflict live) => (store', .error live)

/-- `move_pointer`, with nothing between its reads and its commit. -/
def DeployStore.movePointer (now : Instant) : DeployStore × MoveAnswer :=
  match store.attemptMove payloadBytes scope move now with
  | (store', .ok answer) => (store', answer)
  | (store', .error _) =>
    match store'.attemptMove payloadBytes scope move now with
    | (store'', .ok answer) => (store'', answer)
    | (store'', .error live) => (store'', .refused (movedUnder scope live))

/-- The move when it is cut short; it has no answer. -/
def DeployStore.movePointerCrashed (now : Instant) : DeployStore :=
  let base := store.pointers scope
  match move.build scope now base store.chain with
  | .ok (act, _, false) => store.transitionCrashed payloadBytes base.active act
  | _ => store

/-- The routes `promote_revision` and `rollback_revision` from the checks of the payload on, and
those of the canary. -/
def DeployStore.serve (turn : DeployTurn) : DeployStore × Option MoveAnswer :=
  if turn.move.blank then
    (store, some (.refused (.badRequest
      "a rollback names its cause — the operator's note, the incident id")))
  else if turn.crashed then
    (store.movePointerCrashed payloadBytes turn.scope turn.move turn.now, none)
  else
    let moved := store.movePointer payloadBytes turn.scope turn.move turn.now
    (moved.1, some moved.2)

def DeployStore.serveStep (turn : DeployTurn) : DeployStore :=
  (store.serve payloadBytes turn).1

theorem movePointer_of_build {store : DeployStore} {scope : DeployScope} {move : MoveRequest}
    {now : Instant} {act : DeploymentAct} {next : DeploymentPointer}
    (h : move.build scope now (store.pointers scope) store.chain = .ok (act, next, false)) :
    store.movePointer payloadBytes scope move now =
      (⟨Function.update store.pointers scope next, store.journal payloadBytes act⟩,
        .applied (!act.isLastForEnvironment store.chain) next) := by
  obtain ⟨rfl, -⟩ := apply_of_build h
  simp [DeployStore.movePointer, DeployStore.attemptMove, h, DeployStore.transition]

end Serve

/-! ## The moves on a chain -/

section

variable (fromId : RevisionId) (moves : List DeploymentAct) (scope : DeployScope)
  (chain : List ChainEvent)

/-- The promotion or rollback of an event, if it is one of a scope that the scans can read. -/
def ChainEvent.moveIn : ChainEvent → Option DeploymentAct
  | .act recorded true =>
    if recorded.movesActive = true ∧ recorded.scope = scope then some recorded else none
  | _ => none

def movesOf : List DeploymentAct :=
  chain.filterMap (·.moveIn scope)

/-- What serves after a move. -/
def DeploymentAct.installs : DeploymentAct → Option RevisionId
  | .promotion act => some act.revisionId
  | .rollback act => act.toId
  | _ => none

def lastInstalled : Option RevisionId :=
  moves.getLast?.bind DeploymentAct.installs

def RollbackReplay.move (replay : RollbackReplay) (act : DeploymentAct) : RollbackReplay :=
  let stack := match act with
    | .promotion promotion => promotion.previous :: replay.stack
    | _ => replay.stack.tail
  ⟨act.installs, stack, if act.installs = some fromId then some stack else replay.installedStack⟩

def replayMoves : RollbackReplay :=
  moves.foldl (RollbackReplay.move fromId) ⟨none, [], none⟩

def targetOf (fromId : RevisionId) : Option (Option RevisionId) :=
  let replay := replayMoves fromId moves
  if replay.active = some fromId then replay.stack.head?
  else replay.installedStack.bind List.head?

theorem replayMoves_append (act : DeploymentAct) :
    replayMoves fromId (moves ++ [act]) = (replayMoves fromId moves).move fromId act :=
  List.foldl_append

theorem rollbackTarget_eq (fromId : RevisionId) :
    rollbackTarget chain scope.1 scope.2 fromId = targetOf (movesOf scope chain) fromId := by
  have hStep (replay : RollbackReplay) (event : ChainEvent) :
      replay.step scope.1 scope.2 fromId event =
        match event.moveIn scope with
        | some act => replay.move fromId act
        | none => replay := by
    have hScope (tenant environment : String) :
        (tenant = scope.1 ∧ environment = scope.2) ↔ (tenant, environment) = scope :=
      ⟨fun h => Prod.ext h.1 h.2, fun h => by cases h; exact ⟨rfl, rfl⟩⟩
    cases event with
    | gate record => rfl
    | act recorded inline =>
      cases inline with
      | false => cases recorded <;> rfl
      | true =>
        cases recorded with
        | promotion act | rollback act =>
          simp only [RollbackReplay.step, hScope, ChainEvent.moveIn, DeploymentAct.movesActive,
            DeploymentAct.scope, true_and]
          split <;> first | rfl | simp [RollbackReplay.move, DeploymentAct.installs]
        | canaryDeclare act | canaryClear act => rfl
  have hFold : chain.foldl (RollbackReplay.step scope.1 scope.2 fromId) ⟨none, [], none⟩ =
      replayMoves fromId (movesOf scope chain) := by
    rw [replayMoves, movesOf, List.foldl_filterMap]
    congr 1
    funext replay event
    rw [hStep]
    cases event.moveIn scope <;> rfl
  rw [rollbackTarget, hFold]
  rfl

end

theorem isLastForEnvironment_eq {act : DeploymentAct} (hMoves : act.movesActive)
    (chain : List ChainEvent) :
    act.isLastForEnvironment chain = (movesOf act.scope chain).getLast?.any act.same := by
  have hCompare : act.compareEvent = fun event => (event.moveIn act.scope).map act.same := by
    funext event
    rcases event with ⟨recorded, inline⟩ | record
    · cases inline with
      | false => rfl
      | true =>
        simp only [DeploymentAct.compareEvent, ChainEvent.moveIn, hMoves, eq_comm]
        split <;> rfl
    · rfl
  rw [DeploymentAct.isLastForEnvironment, hCompare, ← List.head?_filterMap, ← List.map_filterMap,
    List.head?_map, List.filterMap_reverse, ← List.getLast?_eq_head?_reverse, ← movesOf]
  cases (movesOf act.scope chain).getLast? <;> rfl

theorem movesOf_journal (payloadBytes : DeploymentAct → Nat) (store : DeployStore)
    (act : DeploymentAct) (scope : DeployScope) :
    movesOf scope (store.journal payloadBytes act) =
      if act.isLastForEnvironment store.chain = false ∧ payloadBytes act ≤ inlinePayloadMaxBytes ∧
          act.movesActive ∧ act.scope = scope then
        movesOf scope store.chain ++ [act]
      else movesOf scope store.chain := by
  unfold DeployStore.journal
  cases hLast : act.isLastForEnvironment store.chain with
  | true => simp
  | false =>
    rw [if_neg Bool.false_ne_true, movesOf, List.filterMap_append, ← movesOf]
    by_cases hInline : payloadBytes act ≤ inlinePayloadMaxBytes
    · by_cases hMove : act.movesActive ∧ act.scope = scope
      · simp [ChainEvent.moveIn, hInline, hMove]
      · simp [ChainEvent.moveIn, hInline, hMove]
    · simp [ChainEvent.moveIn, hInline]

/-! ## Histories -/

/-- The entries of the replayed stack for a history: what each revision took over from. -/
def undo : List RevisionId → List (Option RevisionId)
  | [] => []
  | _ :: rest => rest.head? :: undo rest

structure Follows (served : List RevisionId) (moves : List DeploymentAct) : Prop where
  active : lastInstalled moves = served.head?
  stack : ∀ fromId, (replayMoves fromId moves).stack = undo served
  distinct : served.IsChain (· ≠ ·)

/-- A move that takes one history to the next. -/
inductive Moves : List RevisionId → DeploymentAct → List RevisionId → Prop
  | promotion {served : List RevisionId} {act : RevisionPromotion}
      (hPrevious : act.previous = served.head?) (hNew : served.head? ≠ some act.revisionId) :
    Moves served (.promotion act) (act.revisionId :: served)
  | rollback {revisionId : RevisionId} {rest : List RevisionId} {act : RevisionRollback}
      (hTo : act.toId = rest.head?) : Moves (revisionId :: rest) (.rollback act) rest

/-- The moves are those of the history, with one more at most, which was cut short. -/
inductive OnChain (served : List RevisionId) : List DeploymentAct → Prop
  | settled {moves : List DeploymentAct} (h : Follows served moves) : OnChain served moves
  | cutShort {front : List DeploymentAct} {act : DeploymentAct} {served' : List RevisionId}
      (h : Follows served front) (hMove : Moves served act served') :
    OnChain served (front ++ [act])

variable {served served' : List RevisionId} {moves : List DeploymentAct} {act : DeploymentAct}

@[simp] theorem lastInstalled_append (moves : List DeploymentAct) (act : DeploymentAct) :
    lastInstalled (moves ++ [act]) = act.installs := by
  simp [lastInstalled]

theorem active_replayMoves (fromId : RevisionId) (moves : List DeploymentAct) :
    (replayMoves fromId moves).active = lastInstalled moves := by
  induction moves using List.reverseRecOn with
  | nil => rfl
  | append_singleton moves act ih =>
    rw [replayMoves_append, lastInstalled_append]
    rfl

variable {fromId revisionId : RevisionId}

theorem installedStack_replayMoves {moves : List DeploymentAct}
    (h : lastInstalled moves = some fromId) :
    (replayMoves fromId moves).installedStack = some (replayMoves fromId moves).stack := by
  induction moves using List.reverseRecOn with
  | nil => cases h
  | append_singleton moves act ih =>
    rw [lastInstalled_append] at h
    rw [replayMoves_append]
    exact if_pos h

theorem Moves.installs (h : Moves served act served') : act.installs = served'.head? := by
  cases h with
  | promotion hPrevious hNew => rfl
  | rollback hTo => exact hTo

theorem Moves.installs_ne (h : Moves served act served') (hDistinct : served.IsChain (· ≠ ·)) :
    act.installs ≠ served.head? := by
  cases h with
  | promotion hPrevious hNew => exact hNew.symm
  | @rollback revisionId rest act hTo =>
    intro hSame
    exact (List.isChain_cons.mp hDistinct).1 revisionId (hTo.symm.trans hSame) rfl

theorem Moves.movesActive (h : Moves served act served') : act.movesActive := by
  cases h <;> rfl

variable {recorded : DeploymentAct} {payloadBytes : DeploymentAct → Nat} {turn : DeployTurn}
  {scope : DeployScope}

theorem Moves.same_installs (hSame : act.same recorded) :
    act.installs = recorded.installs := by
  cases act <;> cases recorded <;>
    simp_all [DeploymentAct.same, DeploymentAct.installs]

variable {served'' rest : List RevisionId}

theorem Moves.eq_of_same (h : Moves served act served') (hRecorded : Moves served recorded served'')
    (hSame : act.same recorded) : served' = served'' := by
  cases h with
  | promotion hPrevious hNew =>
    cases hRecorded with
    | promotion hPrevious' hNew' =>
      have hRevision := same_installs hSame
      simp only [DeploymentAct.installs, Option.some.injEq] at hRevision
      rw [hRevision]
    | rollback hTo => cases hSame
  | rollback hTo =>
    cases hRecorded with
    | promotion hPrevious hNew => cases hSame
    | rollback hTo' => rfl

theorem Follows.nil : Follows [] [] := ⟨rfl, fun _ => rfl, List.isChain_nil⟩

theorem Follows.move (h : Follows served moves) (hMove : Moves served act served') :
    Follows served' (moves ++ [act]) := by
  refine ⟨(lastInstalled_append _ _).trans hMove.installs, fun fromId => ?_, ?_⟩
  · rw [replayMoves_append]
    cases hMove with
    | promotion hPrevious hNew =>
      simp only [RollbackReplay.move, h.stack, hPrevious]
      rfl
    | rollback hTo =>
      simp only [RollbackReplay.move, h.stack]
      rfl
  · cases hMove with
    | promotion hPrevious hNew =>
      refine List.isChain_cons.mpr ⟨?_, h.distinct⟩
      rintro r hR rfl
      exact hNew hR
    | rollback hTo => exact (List.isChain_cons.mp h.distinct).2

theorem OnChain.distinct (h : OnChain served moves) : served.IsChain (· ≠ ·) := by
  cases h with
  | settled h | cutShort h hMove => exact h.distinct

theorem OnChain.target (h : OnChain (revisionId :: rest) moves) :
    targetOf moves revisionId = some rest.head? := by
  cases h with
  | settled h =>
    have hActive : (replayMoves revisionId moves).active = some revisionId :=
      (active_replayMoves _ _).trans h.active
    rw [targetOf, if_pos hActive, h.stack]
    rfl
  | @cutShort front act served' h hMove =>
    have hInstalls : act.installs ≠ some revisionId := hMove.installs_ne h.distinct
    rw [targetOf, if_neg]
    · rw [replayMoves_append]
      simp only [RollbackReplay.move, if_neg hInstalls]
      rw [installedStack_replayMoves h.active, h.stack]
      rfl
    · rw [active_replayMoves, lastInstalled_append]
      exact hInstalls

theorem OnChain.settled_of_not_last (h : OnChain served moves)
    (hRetry : lastInstalled moves ≠ served.head? → moves.getLast?.any act.same)
    (hLast : moves.getLast?.any act.same = false) : Follows served moves := by
  cases h with
  | settled h => exact h
  | @cutShort front recorded served'' h hRecorded =>
    have hRetried := hRetry (by
      rw [lastInstalled_append]
      exact hRecorded.installs_ne h.distinct)
    rw [hLast] at hRetried
    cases hRetried

theorem OnChain.follows_of_last (h : OnChain served moves) (hMove : Moves served act served')
    (hLast : moves.getLast?.any act.same) : Follows served' moves := by
  obtain ⟨recorded, hRecorded, hSame⟩ := (Option.any_eq_true _ _).mp hLast
  cases h with
  | settled h =>
    -- the last move left the revision that serves now, and this one does not
    have hActive := h.active
    rw [lastInstalled, hRecorded, Option.bind_some, ← Moves.same_installs hSame] at hActive
    exact absurd hActive (hMove.installs_ne h.distinct)
  | @cutShort front act' served'' h hAct =>
    rw [List.getLast?_concat, Option.some.injEq] at hRecorded
    subst hRecorded
    rw [hMove.eq_of_same hAct hSame]
    exact h.move hAct

/-- The moves with one more, unless it is the last already: if the move is also applied they
replay to its history, and if not they still track the one before it. -/
theorem OnChain.journal (h : OnChain served moves) (hMove : Moves served act served')
    (hRetry : lastInstalled moves ≠ served.head? → moves.getLast?.any act.same) :
    Follows served' (if moves.getLast?.any act.same = false then moves ++ [act] else moves) ∧
      OnChain served (if moves.getLast?.any act.same = false then moves ++ [act] else moves) := by
  cases hLast : moves.getLast?.any act.same with
  | true => exact ⟨h.follows_of_last hMove hLast, h⟩
  | false =>
    have hFollows := h.settled_of_not_last hRetry hLast
    exact ⟨hFollows.move hMove, .cutShort hFollows hMove⟩

/-! ## Serving -/

/-- The history after a move. -/
def MoveRequest.serves (served : List RevisionId) : MoveRequest → List RevisionId
  | .promote revisionId _ => if served.head? = some revisionId then served else revisionId :: served
  | .rollback cause _ => if trim cause = "" then served else served.tail
  | _ => served

theorem serves_blank {move : MoveRequest} (h : move.blank) (served : List RevisionId) :
    move.serves served = served := by
  cases move with
  | rollback cause author => exact if_pos (of_decide_eq_true h)
  | promote revisionId author | declare canary author | clear author => cases h

/-- A move that was cut short leaves the history. -/
def DeployTurn.serves (turn : DeployTurn) (served : List RevisionId) : List RevisionId :=
  if turn.crashed then served else turn.move.serves served

def DeployTurn.servesIn (scope : DeployScope) (served : List RevisionId) (turn : DeployTurn) :
    List RevisionId :=
  if turn.scope = scope then turn.serves served else served

/-- The revisions that an environment can be rolled back through, the one that serves first. -/
def servingHistory (scope : DeployScope) (turns : List DeployTurn) : List RevisionId :=
  turns.foldl (DeployTurn.servesIn scope) []

/-- The move that a turn commits: its payload stays in its event, and if the last move on the
chain was cut short, it is that one. -/
def DeployStore.orderly (payloadBytes : DeploymentAct → Nat) (store : DeployStore)
    (turn : DeployTurn) : Bool :=
  match turn.move.build turn.scope turn.now (store.pointers turn.scope) store.chain with
  | .ok (act, _, false) =>
    decide (act.movesActive = true → payloadBytes act ≤ inlinePayloadMaxBytes ∧
      (lastInstalled (movesOf turn.scope store.chain) ≠ (store.pointers turn.scope).active →
        act.isLastForEnvironment store.chain = true))
  | _ => true

structure AllOnChain (store : DeployStore) (histories : DeployScope → List RevisionId) : Prop where
  active : ∀ scope, (store.pointers scope).active = (histories scope).head?
  moves : ∀ scope, OnChain (histories scope) (movesOf scope store.chain)

section Build

variable {scope : DeployScope} {base : DeploymentPointer} {chain : List ChainEvent} {now : Instant}
  (hActive : base.active = served.head?) (hOnChain : OnChain served (movesOf scope chain))

include hActive hOnChain

variable {cause : String} {author : ProvenanceAuthor}

theorem build_rollback (hServed : served = revisionId :: rest) :
    ∃ act next, (MoveRequest.rollback cause author).build scope now base chain =
        .ok (.rollback act, next, false) ∧
      Moves served (.rollback act) rest ∧ next.active = rest.head? := by
  subst hServed
  have hNew : ¬ some revisionId = rest.head? := fun hSame =>
    (List.isChain_cons.mp hOnChain.distinct).1 revisionId hSame.symm rfl
  simp only [List.head?_cons] at hActive
  simp only [MoveRequest.build, hActive, rollbackTarget_eq, hOnChain.target,
    decide_eq_false hNew]
  refine ⟨_, _, rfl, .rollback rfl, ?_⟩
  rw [DeploymentPointer.rolledBack, hActive, if_pos rfl]

omit hOnChain in
theorem build_rollback_nothing (hServed : served = []) :
    ∃ message, (MoveRequest.rollback cause author).build scope now base chain =
      .error (.conflict message) := by
  subst hServed
  simp only [MoveRequest.build, hActive]
  exact ⟨_, rfl⟩

theorem build_cases {move : MoveRequest} (hBlank : move.blank = false) :
    ((∀ act next, move.build scope now base chain ≠ .ok (act, next, false)) ∧
        move.serves served = served) ∨
      ∃ act next, move.build scope now base chain = .ok (act, next, false) ∧
        ((act.movesActive = false ∧ next.active = base.active ∧ move.serves served = served) ∨
          (Moves served act (move.serves served) ∧
            next.active = (move.serves served).head?)) := by
  have hMoves {act : DeploymentAct} {next : DeploymentPointer} {c : Prop} [Decidable c]
      (hNew : ¬c) : (.ok (act, next, decide c) : Except ApiError _) = .ok (act, next, false) := by
    rw [decide_eq_false hNew]
  cases move with
  | promote revisionId author =>
    by_cases hSame : served.head? = some revisionId
    · refine .inl ⟨fun act next hBuild => ?_, if_pos hSame⟩
      simp only [MoveRequest.build, hActive, hSame, decide_true] at hBuild
      cases hBuild
    · have hServes : (MoveRequest.promote revisionId author).serves served =
          revisionId :: served := if_neg hSame
      have hNew : base.active ≠ some revisionId := hActive ▸ hSame
      rw [hServes]
      exact .inr ⟨_, _, hMoves hNew, .inr ⟨.promotion hActive hSame, rfl⟩⟩
  | rollback cause author =>
    have hServes : (MoveRequest.rollback cause author).serves served = served.tail :=
      if_neg (of_decide_eq_false hBlank)
    rw [hServes]
    cases hServed : served with
    | nil =>
      obtain ⟨message, hBuild⟩ := build_rollback_nothing hActive hServed
      refine .inl ⟨fun act next hOk => ?_, rfl⟩
      rw [hBuild] at hOk
      cases hOk
    | cons revisionId rest =>
      obtain ⟨act, next, hBuild, hMove, hNext⟩ := build_rollback hActive hOnChain hServed
      rw [hServed] at hMove
      exact .inr ⟨_, next, hBuild, .inr ⟨hMove, hNext⟩⟩
  | declare canary author =>
    by_cases hSame : base.canary = some canary
    · refine .inl ⟨fun act next hBuild => ?_, rfl⟩
      simp only [MoveRequest.build, hSame, decide_true] at hBuild
      cases hBuild
    · exact .inr ⟨_, _, hMoves hSame, .inl ⟨rfl, rfl, rfl⟩⟩
  | clear author =>
    cases hCanary : base.canary with
    | none =>
      refine .inl ⟨fun act next hBuild => ?_, rfl⟩
      simp only [MoveRequest.build, hCanary] at hBuild
      cases hBuild
    | some canary =>
      simp only [MoveRequest.build, hCanary]
      exact .inr ⟨_, _, rfl, .inl ⟨rfl, rfl, rfl⟩⟩

end Build

section Step

abbrev DeployTurn.builds (turn : DeployTurn) (store : DeployStore) :=
  turn.move.build turn.scope turn.now (store.pointers turn.scope) store.chain

variable {payloadBytes : DeploymentAct → Nat} {store : DeployStore} {turn : DeployTurn}

theorem serveStep_idle
    (h : turn.move.blank ∨ ∀ act next, turn.builds store ≠ .ok (act, next, false)) :
    store.serveStep payloadBytes turn = store := by
  unfold DeployStore.serveStep DeployStore.serve
  split
  · rfl
  · rename_i hBlank
    have hBuild := h.resolve_left hBlank
    have hAttempt : ∃ answer, store.attemptMove payloadBytes turn.scope turn.move turn.now =
        (store, .ok answer) := by
      unfold DeployStore.attemptMove
      match hBuilt : turn.builds store with
      | .error e | .ok (act, next, true) =>
        simp only [hBuilt]
        exact ⟨_, rfl⟩
      | .ok (act, next, false) => exact absurd hBuilt (hBuild act next)
    obtain ⟨answer, hAnswer⟩ := hAttempt
    split
    · simp only [DeployStore.movePointerCrashed]
    · simp only [DeployStore.movePointer, hAnswer]

variable {next : DeploymentPointer} {histories : DeployScope → List RevisionId}

theorem serveStep_crashed (hBlank : turn.move.blank = false) (hCrashed : turn.crashed)
    (hBuild : turn.builds store = .ok (act, next, false)) :
    store.serveStep payloadBytes turn = { store with chain := store.journal payloadBytes act } := by
  obtain ⟨hScope, -⟩ := apply_of_build hBuild
  simp [DeployStore.serveStep, DeployStore.serve, hBlank, hCrashed, DeployStore.movePointerCrashed,
    hBuild, DeployStore.transitionCrashed, hScope]

theorem serveStep_applied (hBlank : turn.move.blank = false) (hCrashed : turn.crashed = false)
    (hBuild : turn.builds store = .ok (act, next, false)) :
    store.serveStep payloadBytes turn =
      ⟨Function.update store.pointers turn.scope next, store.journal payloadBytes act⟩ := by
  simp [DeployStore.serveStep, DeployStore.serve, hBlank, hCrashed, movePointer_of_build _ hBuild]

theorem AllOnChain.update (h : AllOnChain store histories) {store' : DeployStore}
    (hOther : ∀ scope, scope ≠ turn.scope →
      (store'.pointers scope).active = (store.pointers scope).active ∧
      movesOf scope store'.chain = movesOf scope store.chain)
    (hActive : (store'.pointers turn.scope).active = (turn.serves (histories turn.scope)).head?)
    (hMoves : OnChain (turn.serves (histories turn.scope)) (movesOf turn.scope store'.chain)) :
    AllOnChain store' (fun scope => turn.servesIn scope (histories scope)) := by
  refine ⟨fun scope => ?_, fun scope => ?_⟩
  · by_cases hScope : turn.scope = scope
    · subst hScope
      simpa only [DeployTurn.servesIn, if_pos] using hActive
    · simp only [DeployTurn.servesIn, if_neg hScope, (hOther scope (Ne.symm hScope)).1, h.active]
  · by_cases hScope : turn.scope = scope
    · subst hScope
      simpa only [DeployTurn.servesIn, if_pos] using hMoves
    · simp only [DeployTurn.servesIn, if_neg hScope, (hOther scope (Ne.symm hScope)).2]
      exact h.moves scope

theorem AllOnChain.serve (h : AllOnChain store histories)
    (hOrderly : store.orderly payloadBytes turn) :
    AllOnChain (store.serveStep payloadBytes turn)
      (fun scope => turn.servesIn scope (histories scope)) := by
  have hActive := h.active turn.scope
  have hOnChain := h.moves turn.scope
  have hIdle (hStep : store.serveStep payloadBytes turn = store)
      (hSame : turn.move.serves (histories turn.scope) = histories turn.scope) :
      AllOnChain (store.serveStep payloadBytes turn)
        (fun scope => turn.servesIn scope (histories scope)) := by
    rw [hStep]
    refine h.update (fun _ _ => ⟨rfl, rfl⟩) ?_ ?_
    · rw [DeployTurn.serves, hSame, ite_self, hActive]
    · rw [DeployTurn.serves, hSame, ite_self]
      exact hOnChain
  cases hBlank : turn.move.blank with
  | true => exact hIdle (serveStep_idle (.inl hBlank)) (serves_blank hBlank _)
  | false =>
    rcases build_cases hActive hOnChain hBlank with ⟨hNone, hSame⟩ | ⟨act, next, hBuild, hAct⟩
    · exact hIdle (serveStep_idle (.inr hNone)) hSame
    · obtain ⟨hScope, -⟩ := apply_of_build hBuild
      have hJournal := movesOf_journal payloadBytes store act
      have hOther (scope : DeployScope) (hNe : scope ≠ turn.scope) :
          movesOf scope (store.journal payloadBytes act) = movesOf scope store.chain := by
        rw [hJournal, if_neg]
        rintro ⟨-, -, -, rfl⟩
        exact hNe hScope
      -- the moves of the environment, for the history before the turn and the one after it
      have hMoved : next.active = (turn.move.serves (histories turn.scope)).head? ∧
          OnChain (turn.move.serves (histories turn.scope))
            (movesOf turn.scope (store.journal payloadBytes act)) ∧
          OnChain (histories turn.scope)
            (movesOf turn.scope (store.journal payloadBytes act)) := by
        rcases hAct with ⟨hCanary, hNext, hSame⟩ | ⟨hMove, hNext⟩
        · have hKept : movesOf turn.scope (store.journal payloadBytes act) =
              movesOf turn.scope store.chain := by
            rw [hJournal, hCanary, if_neg (by simp)]
          rw [hSame, hKept, hNext]
          exact ⟨hActive, hOnChain, hOnChain⟩
        · simp only [DeployStore.orderly, hBuild, decide_eq_true_iff] at hOrderly
          obtain ⟨hInline, hRetry⟩ := hOrderly hMove.movesActive
          have hLast := isLastForEnvironment_eq hMove.movesActive store.chain
          rw [hScope] at hLast
          rw [hActive, hLast] at hRetry
          have hGrown := hOnChain.journal hMove hRetry
          rw [hJournal]
          simp only [hLast, hInline, hMove.movesActive, hScope, and_self, and_true]
          exact ⟨hNext, .settled hGrown.1, hGrown.2⟩
      cases hCrashed : turn.crashed with
      | true =>
        rw [serveStep_crashed hBlank hCrashed hBuild]
        refine h.update (fun scope hNe => ⟨rfl, hOther scope hNe⟩) ?_ ?_
        · rw [DeployTurn.serves, if_pos hCrashed]
          exact hActive
        · rw [DeployTurn.serves, if_pos hCrashed]
          exact hMoved.2.2
      | false =>
        rw [serveStep_applied hBlank hCrashed hBuild]
        have hServes : turn.serves (histories turn.scope) =
            turn.move.serves (histories turn.scope) := by
          simp [DeployTurn.serves, hCrashed]
        refine h.update (fun scope hNe => ⟨?_, hOther scope hNe⟩) ?_ ?_
        · simp only [Function.update_of_ne hNe]
        · simp only [Function.update_self, hServes, hMoved.1]
        · rw [hServes]
          exact hMoved.2.1

end Step

theorem allOnChain_run {turns : List DeployTurn}
    (h : Admissible (DeployStore.serveStep payloadBytes)
      (fun store turn => store.orderly payloadBytes turn) .empty turns) :
    AllOnChain (run (DeployStore.serveStep payloadBytes) .empty turns)
      (fun scope => servingHistory scope turns) := by
  induction turns using List.reverseRecOn with
  | nil => exact ⟨fun _ => rfl, fun _ => .settled .nil⟩
  | append_singleton turns turn ih =>
    obtain ⟨hTurns, hTurn⟩ := admissible_append.mp h
    rw [run_append]
    have hNext : (fun scope => servingHistory scope (turns ++ [turn])) =
        fun scope => turn.servesIn scope (servingHistory scope turns) := by
      funext scope
      exact List.foldl_append
    rw [hNext]
    exact (ih hTurns).serve hTurn.1

/-! ## Rolling back -/

/-- A rollback that names its cause and is not cut short. -/
def DeployTurn.RollsBack (turn : DeployTurn) (scope : DeployScope) : Prop :=
  turn.scope = scope ∧ turn.crashed = false ∧ turn.move.blank = false ∧
    ∃ cause author, turn.move = .rollback cause author

/-- What a rollback is to answer: the environment on the revision before, or that nothing
serves. -/
def Restores : List RevisionId → MoveAnswer → Prop
  | [], answer => ∃ message, answer = .refused (.conflict message)
  | _ :: rest, answer =>
    ∃ journaled pointer, answer = .applied journaled pointer ∧ pointer.active = rest.head?

theorem serves_of_rollsBack (h : turn.RollsBack scope) (served : List RevisionId) :
    turn.servesIn scope served = served.tail := by
  obtain ⟨rfl, hCrashed, hBlank, cause, author, hMove⟩ := h
  rw [hMove] at hBlank
  have hCause : ¬ trim cause = "" := of_decide_eq_false hBlank
  simp [DeployTurn.servesIn, DeployTurn.serves, hCrashed, hMove, MoveRequest.serves, hCause]

theorem servingHistory_rollbacks (scope : DeployScope) (turns : List DeployTurn)
    {rollbacks : List DeployTurn} (h : ∀ turn ∈ rollbacks, turn.RollsBack scope) :
    servingHistory scope (turns ++ rollbacks) = (servingHistory scope turns).drop rollbacks.length := by
  induction rollbacks using List.reverseRecOn with
  | nil => simp
  | append_singleton rollbacks turn ih =>
    have hHistory : servingHistory scope (turns ++ (rollbacks ++ [turn])) =
        turn.servesIn scope (servingHistory scope (turns ++ rollbacks)) := by
      simp only [servingHistory, ← List.append_assoc, List.foldl_append, List.foldl_cons, List.foldl_nil]
    rw [hHistory, serves_of_rollsBack (h turn (by simp)), ih (fun t hT => h t (by simp [hT])),
      List.tail_drop]
    simp

theorem AllOnChain.restores {store : DeployStore} {histories : DeployScope → List RevisionId}
    (h : AllOnChain store histories) (hTurn : turn.RollsBack scope) :
    ∃ answer, (store.serve payloadBytes turn).2 = some answer ∧ Restores (histories scope) answer := by
  obtain ⟨rfl, hCrashed, hBlank, cause, author, hMove⟩ := hTurn
  have hAnswer : (store.serve payloadBytes turn).2 =
      some (store.movePointer payloadBytes turn.scope turn.move turn.now).2 := by
    simp [DeployStore.serve, hBlank, hCrashed]
  refine ⟨_, hAnswer, ?_⟩
  rw [hMove]
  cases hServed : histories turn.scope with
  | nil =>
    obtain ⟨message, hBuild⟩ : ∃ message, (MoveRequest.rollback cause author).build turn.scope
        turn.now (store.pointers turn.scope) store.chain = .error (.conflict message) :=
      build_rollback_nothing (h.active turn.scope) hServed
    simp only [DeployStore.movePointer, DeployStore.attemptMove, hBuild]
    exact ⟨message, rfl⟩
  | cons revisionId rest =>
    obtain ⟨act, next, hBuild, -, hNext⟩ :=
      build_rollback (h.active turn.scope) (h.moves turn.scope) hServed
    rw [movePointer_of_build payloadBytes hBuild]
    exact ⟨_, next, rfl, hNext⟩

/-- **When rollbacks restore the history.** -/
theorem rollback_restores {payloadBytes : DeploymentAct → Nat} {scope : DeployScope}
    {turns rollbacks : List DeployTurn} (hRollbacks : ∀ turn ∈ rollbacks, turn.RollsBack scope)
    (h : Admissible (DeployStore.serveStep payloadBytes)
      (fun store turn => store.orderly payloadBytes turn = true) .empty (turns ++ rollbacks)) :
    ((run (DeployStore.serveStep payloadBytes) .empty (turns ++ rollbacks)).pointers scope).active =
        ((servingHistory scope turns).drop rollbacks.length).head? ∧
      ∀ turn : DeployTurn, turn.RollsBack scope →
        ∃ answer,
          ((run (DeployStore.serveStep payloadBytes) .empty (turns ++ rollbacks)).serve
            payloadBytes turn).2 = some answer ∧
          Restores ((servingHistory scope turns).drop rollbacks.length) answer := by
  have hAll := allOnChain_run h
  rw [← servingHistory_rollbacks scope turns hRollbacks]
  exact ⟨hAll.active scope, fun turn hTurn => hAll.restores hTurn⟩

def promoteTurn (revisionId : RevisionId) (crashed : Bool) : DeployTurn :=
  ⟨devScope, .promote revisionId (.human "h"), 0, crashed⟩

def rollbackTurn : DeployTurn := ⟨devScope, .rollback "x" (.human "h"), 0, false⟩

/-- Two promotions, and one more that is cut short and comes again. -/
def retriedTurns : List DeployTurn :=
  [promoteTurn "z" false, promoteTurn "a" false, promoteTurn "b" true, promoteTurn "b" false]

theorem rollback_restores_retried :
    ((run (DeployStore.serveStep fun _ => 100) .empty
        (retriedTurns ++ [rollbackTurn, rollbackTurn])).pointers devScope).active = some "z" ∧
      ∃ answer, ((run (DeployStore.serveStep fun _ => 100) .empty
        (retriedTurns ++ [rollbackTurn, rollbackTurn])).serve (fun _ => 100) rollbackTurn).2 =
          some answer ∧ Restores ["z"] answer := by
  have hRollsBack : rollbackTurn.RollsBack devScope := ⟨rfl, rfl, by decide, _, _, rfl⟩
  have hBoth : ∀ turn ∈ [rollbackTurn, rollbackTurn], turn.RollsBack devScope := by
    intro turn hTurn
    rcases List.mem_pair.mp hTurn with rfl | rfl <;> exact hRollsBack
  have hOrderly : Admissible (DeployStore.serveStep fun _ => 100)
      (fun store turn => store.orderly (fun _ => 100) turn = true) .empty
      (retriedTurns ++ [rollbackTurn, rollbackTurn]) := by decide
  have hRestores := rollback_restores hBoth hOrderly
  exact ⟨hRestores.1, hRestores.2 rollbackTurn hRollsBack⟩

/-- Two promotions, one that is cut short, another in its place, and a rollback. -/
def buriedTurns : List DeployTurn :=
  [promoteTurn "z" false, promoteTurn "a" false, promoteTurn "b" true, promoteTurn "c" false,
    rollbackTurn]

/-- The environment serves `a`, and `z` served before it; a rollback has nothing to do. -/
theorem rollback_stuck_after_crash :
    servingHistory devScope buriedTurns = ["a", "z"] ∧
      ((run (DeployStore.serveStep fun _ => 100) .empty buriedTurns).serve (fun _ => 100)
        rollbackTurn).2 = some (.converged ⟨"deployment:dev", some "a", none⟩) := by
  decide

end RustyRuntime
