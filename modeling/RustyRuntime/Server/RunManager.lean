import RustyRuntime.Library.Lanes
import RustyRuntime.Library.TreeMap
import RustyRuntime.Server.Tenant

/-!
# The run manager

`RunManager` of `runs.rs`: the runs of the process by id, and for each thread its active run
and the queue behind it. `insert`, `cancel_run`, `forget` and `finish` run under one lock, so
a history of the manager is a sequence of them.

The manager is a machine of `Lanes`: a thread is a lane, a run is a member, and the attempt
number a run is stamped with is its ticket (`view_next`). Eviction and `forget` only touch
runs that have ended, which have no seat.
-/

namespace RustyRuntime

open Library

/-! ## Runs -/

inductive MultitaskStrategy where
  | enqueue
  | reject
  deriving DecidableEq, Repr

inductive RunStatus where
  | pending
  | running
  | success
  | interrupted
  | error
  | cancelled
  deriving DecidableEq, Repr

def RunStatus.isTerminal : RunStatus → Bool
  | .success | .interrupted | .error | .cancelled => true
  | .pending | .running => false

/-- `RunHandle`; `cancel` says whether the run's cancellation token has fired. -/
structure RunHandle where
  runId : String
  threadId : String
  wireThreadId : String
  attempt : Nat
  status : RunStatus
  terminal : Option Json
  cancel : Bool

/-- `RunManagerInner`. -/
structure RunManager where
  runs : Std.ExtTreeMap String RunHandle := ∅
  activeByThread : Std.ExtTreeMap String String := ∅
  queues : Std.ExtTreeMap String (List String) := ∅
  attempts : Std.ExtTreeMap String Nat := ∅
  queueSeq : Nat := 0
  order : List String := []

inductive ScheduleDecision where
  | started
  | queued (seq : Nat)
  deriving DecidableEq, Repr

inductive RunCancel where
  | signalled
  | cancelledQueued
  | terminal
  | unknown
  deriving DecidableEq, Repr

/-- `MAX_RETAINED_RUNS`. -/
def maxRetainedRuns : Nat := 1024

namespace RunManager

variable (s : RunManager)

def queueOf (threadId : String) : List String := s.queues[threadId]?.getD []

def attemptsOf (threadId : String) : Nat := s.attempts[threadId]?.getD 0

/-! ## The operations -/

/-- What every insert does, also one that is turned away: the thread's attempt number and the
queue sequence are counted and the id joins the order. -/
def stamp (handle : RunHandle) : RunManager :=
  { s with
    attempts := s.attempts.insert handle.threadId (s.attemptsOf handle.threadId + 1)
    queueSeq := s.queueSeq + 1
    order := s.order ++ [handle.runId] }

def insert (given : RunHandle) (strategy : MultitaskStrategy) (queueCap : Nat) :
    Except ApiError ScheduleDecision × RunManager :=
  let busy := s.activeByThread.contains given.threadId
  let handle := { given with attempt := s.attemptsOf given.threadId + 1 }
  let stamped := s.stamp given
  if busy then
    match strategy with
    | .reject =>
      (.error (.conflict s!"thread `{given.threadId}` already has an active run"), stamped)
    | .enqueue =>
      let queue := s.queueOf given.threadId
      if queue.length ≥ queueCap then
        (.error (.conflict s!"thread `{given.threadId}` run queue is full (cap {queueCap})"),
          -- the entry of the queue was made before its length was read
          { stamped with queues := s.queues.insert given.threadId queue })
      else
        (.ok (.queued stamped.queueSeq),
          { stamped with
            queues := s.queues.insert given.threadId (queue ++ [given.runId])
            runs := s.runs.insert given.runId handle })
  else
    (.ok .started,
      { stamped with
        activeByThread := s.activeByThread.insert given.threadId given.runId
        runs := s.runs.insert given.runId { handle with status := .running } })

def cancelledTerminal (handle : RunHandle) (runId : String) : Json :=
  .object [("run_id", .str runId), ("thread_id", .str handle.wireThreadId),
    ("status", .str "cancelled"),
    ("message", .str "cancelled while queued, before its first step")]

def cancelRun (runId : String) : RunCancel × RunManager :=
  match s.runs[runId]? with
  | none => (.unknown, s)
  | some handle =>
    match handle.status with
    | .running =>
      (.signalled, { s with runs := s.runs.insert runId { handle with cancel := true } })
    | .pending =>
      (.cancelledQueued,
        { s with
          queues := match s.queues[handle.threadId]? with
            | some queue => s.queues.insert handle.threadId (queue.filter (· ≠ runId))
            | none => s.queues
          runs := s.runs.insert runId
            { handle with
              status := .cancelled
              terminal := some (cancelledTerminal handle runId) } })
    | _ => (.terminal, s)

def forget (runId : String) : Bool × RunManager :=
  match s.runs[runId]? with
  | none => (false, s)
  | some handle =>
    if handle.status = .pending ∨ handle.status = .running then (false, s)
    else (true, { s with runs := s.runs.erase runId, order := s.order.filter (· ≠ runId) })

/-- The eviction loop of `finish`: the runs kept and the order left, from the excess, the
order still to look at and the ids passed over. -/
def evict (runs : Std.ExtTreeMap String RunHandle) (excess : Nat) :
    List String → List String → Std.ExtTreeMap String RunHandle × List String
  | [], skipped => (runs, skipped)
  | candidate :: rest, skipped =>
    match excess with
    | 0 => (runs, candidate :: rest ++ skipped)
    | excess + 1 =>
      if runs[candidate]?.any (·.status.isTerminal) then
        evict (runs.erase candidate) excess rest skipped
      else evict runs (excess + 1) rest (skipped ++ [candidate])

def release (runId threadId : String) (draining : Bool) : Option String × RunManager :=
  let freed :=
    if s.activeByThread[threadId]? = some runId then
      { s with activeByThread := s.activeByThread.erase threadId }
    else s
  if draining then (none, freed)
  else
    match s.queueOf threadId with
    | [] => (none, freed)
    | nextId :: rest =>
      (some nextId,
        { freed with
          queues := s.queues.insert threadId rest
          runs := match s.runs[nextId]? with
            | some handle => s.runs.insert nextId { handle with status := .running }
            | none => s.runs
          activeByThread := freed.activeByThread.insert threadId nextId })

def finish (runId : String) (status : RunStatus) (terminal : Json) (draining : Bool) :
    Option String × RunManager :=
  match s.runs[runId]? with
  | none => (none, s)
  | some handle =>
    let ended :=
      { s with runs := s.runs.insert runId { handle with status, terminal := some terminal } }
    let (next, s') := ended.release runId handle.threadId draining
    let kept := evict s'.runs (s'.runs.size - maxRetainedRuns) s'.order []
    (next, { s' with runs := kept.1, order := kept.2 })

/-! ## Histories -/

end RunManager

inductive RunOp where
  | insert (given : RunHandle) (strategy : MultitaskStrategy)
  | finish (runId : String) (status : RunStatus) (terminal : Json) (draining : Bool)
  | cancel (runId : String)
  | forget (runId : String)

namespace RunManager

def next (cap : Nat) (s : RunManager) : RunOp → RunManager
  | .insert given strategy => (s.insert given strategy cap).2
  | .finish runId status terminal draining => (s.finish runId status terminal draining).2
  | .cancel runId => (s.cancelRun runId).2
  | .forget runId => (s.forget runId).2

/-- A run is inserted under a fresh id and as `schedule` builds it, pending. What is finished
is the active run of its thread, with a terminal status. -/
def allowed (s : RunManager) : RunOp → Prop
  | .insert given _ => s.runs[given.runId]?.isNone ∧ given.status = .pending
  | .finish runId status _ _ =>
    status.isTerminal ∧
      s.runs[runId]?.any fun handle => s.activeByThread[handle.threadId]? = some runId
  | .cancel _ | .forget _ => True

instance (s : RunManager) (op : RunOp) : Decidable (s.allowed op) := by
  cases op <;> unfold allowed <;> infer_instance

def promotion (s : RunManager) : RunOp → Option (Promotion String String)
  | .finish runId status terminal draining =>
    (s.finish runId status terminal draining).1.bind fun nextId =>
      s.runs[nextId]?.map fun handle => ⟨handle.threadId, nextId, handle.attempt⟩
  | _ => none

def promotions (cap : Nat) (s : RunManager) : List RunOp → List (Promotion String String)
  | [] => []
  | op :: rest => (s.promotion op).toList ++ promotions cap (s.next cap op) rest

/-! ## The manager as lanes -/

end RunManager

def RunHandle.seat (handle : RunHandle) : Option (Seat String) :=
  match handle.status with
  | .pending => some ⟨handle.threadId, handle.attempt, true⟩
  | .running => some ⟨handle.threadId, handle.attempt, false⟩
  | _ => none

variable {handle : RunHandle}

theorem RunHandle.seat_of_isTerminal (h : handle.status.isTerminal) : handle.seat = none := by
  unfold seat
  cases hStatus : handle.status <;> rw [hStatus] at h <;> first | rfl | cases h

theorem RunHandle.seat_eq_some_iff {seat : Seat String} :
    handle.seat = some seat ↔ seat.lane = handle.threadId ∧ seat.ticket = handle.attempt ∧
      handle.status = if seat.waiting then .pending else .running := by
  obtain ⟨lane, ticket, waiting⟩ := seat
  unfold RunHandle.seat
  cases hStatus : handle.status <;> cases waiting <;> simp [eq_comm]

namespace RunManager

def view (s : RunManager) : Lanes String String where
  seat := fun runId => s.runs[runId]?.bind RunHandle.seat
  active := fun threadId => s.activeByThread[threadId]?
  queue := s.queueOf
  tickets := s.attemptsOf

def laneOp (cap : Nat) (s : RunManager) : RunOp → LaneOp String String
  | .insert given strategy =>
    if s.activeByThread.contains given.threadId then
      if strategy = .reject ∨ (s.queueOf given.threadId).length ≥ cap then .draw given.threadId
      else .enqueue given.threadId given.runId
    else .start given.threadId given.runId
  | .finish runId _ _ draining =>
    match s.runs[runId]? with
    | some handle => .finish handle.threadId (!draining)
    | none => .stay
  | .cancel runId =>
    match s.runs[runId]? with
    | some handle =>
      if handle.status = .pending then .leave handle.threadId runId else .stay
    | none => .stay
  | .forget _ => .stay

/-! ### What each map looks like after a write -/

theorem seat_insert (runs : Std.ExtTreeMap String RunHandle) (runId : String) (handle : RunHandle) :
    (fun id => (runs.insert runId handle)[id]?.bind RunHandle.seat) =
      Function.update (fun id => runs[id]?.bind RunHandle.seat) runId handle.seat := by
  funext id
  rw [getElem?_insert_ite, Function.update_apply]
  split <;> rfl

variable {runId threadId : String} {s : RunManager} {handle : RunHandle} {cap : Nat}
  {status : RunStatus} {terminal : Json} {draining : Bool} {op : RunOp}

theorem seat_erase {runs : Std.ExtTreeMap String RunHandle}
    (hEnded : runs[runId]?.bind RunHandle.seat = none) (id : String) :
    (runs.erase runId)[id]?.bind RunHandle.seat = runs[id]?.bind RunHandle.seat := by
  rw [getElem?_erase_ite]
  split
  · rename_i hId
    rw [hId, hEnded]
    rfl
  · rfl

section

variable (s : RunManager) (active : Std.ExtTreeMap String String)

theorem queueOf_insert (queues : Std.ExtTreeMap String (List String)) (threadId : String)
    (queue : List String) :
    (fun id => (queues.insert threadId queue)[id]?.getD []) =
      Function.update (fun id => queues[id]?.getD []) threadId queue := by
  funext id
  rw [getElem?_insert_ite, Function.update_apply]
  split <;> rfl

theorem attemptsOf_stamp (handle : RunHandle) :
    (s.stamp handle).attemptsOf =
      Function.update s.attemptsOf handle.threadId (s.attemptsOf handle.threadId + 1) := by
  funext id
  simp only [attemptsOf, stamp]
  rw [getElem?_insert_ite, Function.update_apply]
  split <;> rfl

theorem active_insert (threadId runId : String) :
    (fun id => (active.insert threadId runId)[id]?) =
      Function.update (fun id => active[id]?) threadId (some runId) := by
  funext id
  rw [getElem?_insert_ite, Function.update_apply]

theorem active_erase (threadId : String) :
    (fun id => (active.erase threadId)[id]?) =
      Function.update (fun id => active[id]?) threadId none := by
  funext id
  rw [getElem?_erase_ite, Function.update_apply]

/-! ### Simulation -/

theorem view_insert (given : RunHandle) (strategy : MultitaskStrategy) (cap : Nat)
    (hStatus : given.status = .pending) :
    (s.insert given strategy cap).2.view = s.view.next (s.laneOp cap (.insert given strategy)) := by
  have hTickets := attemptsOf_stamp s given
  unfold insert laneOp
  by_cases hBusy : s.activeByThread.contains given.threadId
  · simp only [hBusy, if_true]
    cases strategy with
    | reject =>
      exact Lanes.ext rfl rfl rfl hTickets
    | enqueue =>
      by_cases hFull : (s.queueOf given.threadId).length ≥ cap
      · rw [if_pos hFull, if_pos (.inr hFull)]
        refine Lanes.ext rfl rfl ?_ hTickets
        -- the entry made for the queue leaves the queue as it was
        exact (queueOf_insert s.queues given.threadId _).trans (Function.update_eq_self _ _)
      · rw [if_neg hFull, if_neg (by simp [hFull])]
        refine Lanes.ext ?_ rfl (queueOf_insert s.queues given.threadId _) hTickets
        refine (seat_insert s.runs given.runId _).trans ?_
        simp only [RunHandle.seat, hStatus]
        rfl
  · simp only [hBusy]
    exact Lanes.ext (seat_insert s.runs given.runId _)
      (active_insert s.activeByThread given.threadId given.runId) rfl hTickets

theorem view_cancelRun (cap : Nat) (runId : String) :
    (s.cancelRun runId).2.view = s.view.next (s.laneOp cap (.cancel runId)) := by
  cases hRun : s.runs[runId]? with
  | none =>
    simp only [cancelRun, laneOp, hRun]
    rfl
  | some handle =>
    have hSeat : s.view.seat runId = handle.seat := by
      show s.runs[runId]?.bind RunHandle.seat = handle.seat
      rw [hRun]
      rfl
    cases hStatus : handle.status with
    | running =>
      simp only [cancelRun, laneOp, hRun, hStatus, reduceCtorEq, if_false]
      refine Lanes.ext ?_ rfl rfl rfl
      refine (seat_insert s.runs runId _).trans ?_
      have hSame : RunHandle.seat { handle with status := .running, cancel := true } =
          handle.seat := by
        simp only [RunHandle.seat, hStatus]
      rw [hSame, ← hSeat]
      exact Function.update_eq_self _ _
    | pending =>
      simp only [cancelRun, laneOp, hRun, hStatus, if_true]
      refine Lanes.ext (seat_insert s.runs runId _) rfl ?_ rfl
      show (fun id => _) = Function.update s.queueOf handle.threadId
        ((s.queueOf handle.threadId).filter (· ≠ runId))
      cases hQueue : s.queues[handle.threadId]? with
      | some queue =>
        have hOf : s.queueOf handle.threadId = queue := by rw [queueOf, hQueue]; rfl
        rw [hOf]
        exact queueOf_insert s.queues handle.threadId _
      | none =>
        have hOf : s.queueOf handle.threadId = [] := by rw [queueOf, hQueue]; rfl
        rw [hOf]
        exact (Function.update_eq_self_iff.mpr hOf.symm).symm
    | _ =>
      simp only [cancelRun, laneOp, hRun, hStatus, reduceCtorEq, if_false]
      rfl

end

theorem seat_of_ended (hRun : s.runs[runId]? = some handle)
    (hEnded : ¬(handle.status = .pending ∨ handle.status = .running)) :
    s.runs[runId]?.bind RunHandle.seat = none := by
  rw [hRun]
  refine RunHandle.seat_of_isTerminal ?_
  cases hStatus : handle.status <;> simp_all [RunStatus.isTerminal]

theorem view_forget (s : RunManager) (runId : String) : (s.forget runId).2.view = s.view := by
  unfold forget
  cases hRun : s.runs[runId]? with
  | none => rfl
  | some handle =>
    by_cases hGoing : handle.status = .pending ∨ handle.status = .running
    · simp only [if_pos hGoing]
    · simp only [if_neg hGoing]
      exact Lanes.ext (funext (seat_erase (seat_of_ended hRun hGoing))) rfl rfl rfl

theorem seat_evict (order skipped : List String) (excess : Nat)
    (runs : Std.ExtTreeMap String RunHandle) (id : String) :
    (evict runs excess order skipped).1[id]?.bind RunHandle.seat =
      runs[id]?.bind RunHandle.seat := by
  induction order generalizing skipped excess runs with
  | nil =>
    rw [evict]
  | cons candidate rest ih =>
    cases excess with
    | zero => rw [evict]
    | succ excess =>
      rw [evict]
      split
      · rename_i hEvict
        obtain ⟨handle, hRun, hTerminal⟩ := (Option.any_eq_true _ _).mp hEvict
        rw [ih, seat_erase]
        rw [hRun]
        exact RunHandle.seat_of_isTerminal hTerminal
      · exact ih _ _ _

theorem view_release (hActive : s.activeByThread[threadId]? = some runId)
    (hFair : (s.view.setActive threadId none).Fair cap) (draining : Bool) :
    (s.release runId threadId draining).2.view =
      if !draining then (s.view.setActive threadId none).promote threadId
      else s.view.setActive threadId none := by
  have hFreed := active_erase s.activeByThread threadId
  cases draining with
  | true =>
    simp only [release, if_pos hActive, if_true]
    exact Lanes.ext rfl hFreed rfl rfl
  | false =>
    have hQueue : (s.view.setActive threadId none).queue threadId = s.queueOf threadId := rfl
    simp only [release, if_pos hActive, Bool.false_eq_true, if_false, Bool.not_false, if_true]
    cases hNext : s.queueOf threadId with
    | nil =>
      rw [Lanes.promote, hQueue, hNext]
      exact Lanes.ext rfl hFreed rfl rfl
    | cons nextId rest =>
      have hPlace := hFair.place_head (hQueue.trans hNext)
      obtain ⟨seat, hSeat, -⟩ := Option.map_eq_some_iff.mp hPlace
      obtain ⟨handle, hRun, hHandle⟩ := Option.bind_eq_some_iff.mp hSeat
      rw [Lanes.promote, hQueue, hNext]
      refine Lanes.ext ?_ ?_ ?_ rfl
      · show (fun id => _) = Function.update s.view.seat nextId _
        rw [hSeat]
        simp only [hRun]
        refine (seat_insert s.runs nextId _).trans ?_
        have hPromoted : RunHandle.seat { handle with status := .running } =
            some { seat with waiting := false } := by
          obtain ⟨hLane, hTicket, -⟩ := RunHandle.seat_eq_some_iff.mp hHandle
          exact RunHandle.seat_eq_some_iff.mpr ⟨hLane, hTicket, rfl⟩
        rw [hPromoted]
        rfl
      · refine (active_insert _ threadId nextId).trans ?_
        rw [hFreed]
        rfl
      · exact queueOf_insert s.queues threadId rest

theorem view_finish (hFair : s.view.Fair cap)
    (hAllowed : s.allowed (.finish runId status terminal draining)) :
    (s.finish runId status terminal draining).2.view =
      s.view.next (s.laneOp cap (.finish runId status terminal draining)) := by
  obtain ⟨hTerminal, hAny⟩ := hAllowed
  obtain ⟨handle, hRun, hActive⟩ := (Option.any_eq_true _ _).mp hAny
  replace hActive : s.activeByThread[handle.threadId]? = some runId := by simpa using hActive
  have hRetire : s.view.retire handle.threadId =
      (s.view.sit runId none).setActive handle.threadId none := by
    have hView : s.view.active handle.threadId = some runId := hActive
    rw [Lanes.retire, hView]
  simp only [finish, laneOp, hRun, Lanes.next, hRetire]
  set ended : RunManager :=
    { s with runs := s.runs.insert runId { handle with status, terminal := some terminal } }
  have hView : ended.view = s.view.sit runId none := by
    refine Lanes.ext ((seat_insert s.runs runId _).trans ?_) rfl rfl rfl
    have hNone : RunHandle.seat { handle with status, terminal := some terminal } = none :=
      RunHandle.seat_of_isTerminal hTerminal
    rw [hNone]
    rfl
  have hFree : (ended.view.setActive handle.threadId none).Fair cap := by
    rw [hView, ← hRetire]
    exact Lanes.fair_retire hFair handle.threadId
  have hRelease := view_release (s := ended) hActive hFree draining
  rw [hView] at hRelease
  rw [← hRelease]
  refine Lanes.ext (funext ?_) rfl rfl rfl
  intro id
  exact seat_evict _ _ _ _ id

/-- **The run manager is a machine of lanes.** -/
theorem view_next (hFair : s.view.Fair cap) (hAllowed : s.allowed op) :
    (s.next cap op).view = s.view.next (s.laneOp cap op) := by
  cases op with
  | insert given strategy => exact view_insert s given strategy cap hAllowed.2
  | finish runId status terminal draining => exact view_finish hFair hAllowed
  | cancel runId => exact view_cancelRun s cap runId
  | forget runId => exact view_forget s runId

theorem laneOp_allowed (hAllowed : s.allowed op) : s.view.allowed cap (s.laneOp cap op) := by
  cases op with
  | insert given strategy =>
    have hNone : s.runs[given.runId]? = none := Option.isNone_iff_eq_none.mp hAllowed.1
    have hNew : s.view.seat given.runId = none := by
      show s.runs[given.runId]?.bind RunHandle.seat = none
      rw [hNone]
      rfl
    simp only [laneOp]
    by_cases hBusy : s.activeByThread.contains given.threadId
    · rw [if_pos hBusy]
      by_cases hFull : strategy = .reject ∨ (s.queueOf given.threadId).length ≥ cap
      · rw [if_pos hFull]
        trivial
      · rw [if_neg hFull]
        rw [not_or, not_le] at hFull
        refine ⟨?_, hNew, hFull.2⟩
        show s.activeByThread[given.threadId]? ≠ none
        rwa [Option.ne_none_iff_isSome, ← Std.ExtTreeMap.contains_eq_isSome_getElem?]
    · rw [if_neg hBusy]
      refine ⟨?_, hNew⟩
      rwa [Std.ExtTreeMap.contains_eq_isSome_getElem?, Option.not_isSome_iff_eq_none] at hBusy
  | finish runId status terminal draining =>
    simp only [laneOp]
    split <;> trivial
  | cancel runId =>
    cases hRun : s.runs[runId]? with
    | none =>
      simp only [laneOp, hRun]
      trivial
    | some handle =>
      simp only [laneOp, hRun]
      by_cases hPending : handle.status = .pending
      · rw [if_pos hPending]
        show (s.runs[runId]?.bind RunHandle.seat).map _ = _
        rw [hRun]
        simp only [Option.bind_some, RunHandle.seat, hPending, Option.map_some]
      · rw [if_neg hPending]
        trivial
  | forget runId => trivial

/-! ### Promotions -/

theorem release_answer (s : RunManager) (runId threadId : String) (draining : Bool) :
    (s.release runId threadId draining).1 =
      if draining then none else (s.queueOf threadId).head? := by
  unfold release
  cases draining with
  | true => rfl
  | false => cases s.queueOf threadId <;> rfl

theorem finish_answer (hRun : s.runs[runId]? = some handle) :
    (s.finish runId status terminal draining).1 =
      if draining then none else (s.queueOf handle.threadId).head? := by
  simp only [finish, hRun]
  exact release_answer _ runId handle.threadId draining

theorem place_view_iff {waiting : Bool} :
    s.view.place runId = some (threadId, waiting) ↔ ∃ handle, s.runs[runId]? = some handle ∧
      handle.threadId = threadId ∧ handle.status = if waiting then .pending else .running := by
  constructor
  · intro hPlace
    obtain ⟨seat, hSeat, hEq⟩ := Option.map_eq_some_iff.mp hPlace
    obtain ⟨handle, hRun, hHandle⟩ := Option.bind_eq_some_iff.mp hSeat
    obtain ⟨hLane, -, hStatus⟩ := RunHandle.seat_eq_some_iff.mp hHandle
    cases hEq
    exact ⟨handle, hRun, hLane.symm, hStatus⟩
  · rintro ⟨handle, hRun, rfl, hStatus⟩
    have hSeat : handle.seat = some ⟨handle.threadId, handle.attempt, waiting⟩ :=
      RunHandle.seat_eq_some_iff.mpr ⟨rfl, rfl, hStatus⟩
    simp only [Lanes.place, view, hRun, Option.bind_some, hSeat, Option.map_some]

theorem ticket_view (hRun : s.runs[runId]? = some handle) (hPending : handle.status = .pending) :
    s.view.ticket runId = handle.attempt := by
  simp only [Lanes.ticket, view, hRun, Option.bind_some, RunHandle.seat, hPending,
    Option.map_some, Option.getD_some]

theorem promotion_view (hFair : s.view.Fair cap) (op : RunOp) :
    s.promotion op = s.view.promotion (s.laneOp cap op) := by
  cases op with
  | insert given strategy =>
    simp only [laneOp, promotion]
    split
    · split <;> rfl
    · rfl
  | finish runId status terminal draining =>
    cases hRun : s.runs[runId]? with
    | none => simp only [laneOp, promotion, finish, hRun, Option.bind_none, Lanes.promotion]
    | some handle =>
      simp only [laneOp, promotion, finish_answer hRun, hRun]
      cases draining with
      | true => rfl
      | false =>
        cases hQueue : s.queueOf handle.threadId with
        | nil =>
          have hNone : s.view.queue handle.threadId = [] := hQueue
          simp [Lanes.promotion, hNone]
        | cons nextId rest =>
          have hHead : s.view.queue handle.threadId = nextId :: rest := hQueue
          obtain ⟨queued, hQueued, hThread, hPending⟩ :=
            place_view_iff.mp (hFair.place_head hHead)
          simp [Lanes.promotion, hHead, hQueued, hThread, ticket_view hQueued hPending]
  | cancel runId =>
    simp only [laneOp, promotion]
    split
    · split <;> rfl
    · rfl
  | forget runId => rfl

/-! ### Whole histories -/

section Histories

variable {cap : Nat} {s : RunManager} {ops : List RunOp}

theorem view_run (hFair : s.view.Fair cap) (hOps : Admissible (next cap) allowed s ops) :
    (run (next cap) s ops).view = run Lanes.next s.view (translate (next cap) (laneOp cap) s ops) ∧
      Admissible Lanes.next (Lanes.allowed cap) s.view
        (translate (next cap) (laneOp cap) s ops) := by
  have hInv : ∀ (l : Lanes String String) op, l.Fair cap → l.allowed cap op →
      (l.next op).Fair cap := fun l op h hOp => Lanes.fair_next h hOp
  have hStep : ∀ (s : RunManager) op, s.view.Fair cap → s.allowed op →
      (s.next cap op).view = s.view.next (s.laneOp cap op) ∧
        s.view.allowed cap (s.laneOp cap op) :=
    fun s op h hOp => ⟨view_next h hOp, laneOp_allowed hOp⟩
  exact run_simulation hInv hStep hFair hOps

theorem fair_run (hFair : s.view.Fair cap) (hOps : Admissible (next cap) allowed s ops) :
    (run (next cap) s ops).view.Fair cap := by
  have hStep : ∀ (s : RunManager) op, s.view.Fair cap → s.allowed op →
      (s.next cap op).view.Fair cap := by
    intro s op h hOp
    rw [view_next h hOp]
    exact Lanes.fair_next h (laneOp_allowed hOp)
  exact run_invariant hStep hFair hOps

theorem promotions_view (hFair : s.view.Fair cap) (hOps : Admissible (next cap) allowed s ops) :
    s.promotions cap ops = s.view.promotions (translate (next cap) (laneOp cap) s ops) := by
  induction ops generalizing s with
  | nil => rfl
  | cons op rest ih =>
    have hNext := view_next hFair hOps.1
    have hFair' : (s.next cap op).view.Fair cap := by
      rw [hNext]
      exact Lanes.fair_next hFair (laneOp_allowed hOps.1)
    rw [promotions, promotion_view hFair op, ih hFair' hOps.2, hNext]
    rfl

end Histories

theorem fair_empty (cap : Nat) : (view {}).Fair cap := by
  refine ⟨fun lane member => ?_, fun lane member => ?_, fun lane => .nil,
    fun member lane waiting hPlace => ?_, fun lane => Nat.zero_le _⟩
  · exact iff_of_false nofun nofun
  · exact iff_of_false nofun nofun
  · cases hPlace

/-! ## Attempt numbers count the inserts of a thread -/

end RunManager

def RunOp.insertsOn (threadId : String) : RunOp → Bool
  | .insert given _ => given.threadId = threadId
  | _ => false

def RunOp.drains : RunOp → Bool
  | .finish _ _ _ draining => draining
  | _ => false

namespace RunManager


theorem release_attempts (s : RunManager) (runId threadId : String) (draining : Bool) :
    (s.release runId threadId draining).2.attempts = s.attempts := by
  have hFreed : (if s.activeByThread[threadId]? = some runId then
      { s with activeByThread := s.activeByThread.erase threadId } else s).attempts =
      s.attempts := by
    split <;> rfl
  fun_cases release s runId threadId draining <;> exact hFreed

theorem attemptsOf_next (cap : Nat) (s : RunManager) (op : RunOp) (threadId : String) :
    (s.next cap op).attemptsOf threadId =
      s.attemptsOf threadId + if op.insertsOn threadId then 1 else 0 := by
  cases op with
  | insert given strategy =>
    have hStamp : (s.insert given strategy cap).2.attempts = (s.stamp given).attempts := by
      fun_cases insert s given strategy cap <;> rfl
    have hUpdate := congrFun (attemptsOf_stamp s given) threadId
    rw [attemptsOf, next, hStamp]
    refine hUpdate.trans ?_
    by_cases hThread : threadId = given.threadId
    · simp [hThread, RunOp.insertsOn]
    · simp [hThread, RunOp.insertsOn, Ne.symm hThread]
  | finish runId status terminal draining =>
    have hSame : (s.next cap (.finish runId status terminal draining)).attempts = s.attempts := by
      simp only [next, finish]
      cases s.runs[runId]? with
      | none => rfl
      | some handle => exact release_attempts _ runId handle.threadId draining
    simp [attemptsOf, hSame, RunOp.insertsOn]
  | cancel runId =>
    have hSame : (s.cancelRun runId).2.attempts = s.attempts := by
      fun_cases cancelRun s runId <;> rfl
    simp [attemptsOf, next, hSame, RunOp.insertsOn]
  | forget runId =>
    have hSame : (s.forget runId).2.attempts = s.attempts := by
      fun_cases forget s runId <;> rfl
    simp [attemptsOf, next, hSame, RunOp.insertsOn]

theorem attemptsOf_run (cap : Nat) (ops : List RunOp) (threadId : String) :
    (run (next cap) {} ops).attemptsOf threadId = ops.countP (·.insertsOn threadId) := by
  induction ops using List.reverseRecOn with
  | nil => rfl
  | append_singleton ops op ih =>
    rw [run_append, List.countP_append, ← ih]
    exact (attemptsOf_next cap _ op threadId).trans (by rw [List.countP_singleton])

def Keeps (before after : Std.ExtTreeMap String RunHandle) : Prop :=
  ∀ (id : String) (handle' : RunHandle), after[id]? = some handle' →
    ∃ handle : RunHandle, before[id]? = some handle ∧ handle.threadId = handle'.threadId ∧
      handle.attempt = handle'.attempt

variable (runs : Std.ExtTreeMap String RunHandle)

theorem Keeps.refl : Keeps runs runs :=
  fun _ handle hRun => ⟨handle, hRun, rfl, rfl⟩

theorem Keeps.trans {a b c : Std.ExtTreeMap String RunHandle} (hAb : Keeps a b) (hBc : Keeps b c) :
    Keeps a c := by
  intro id handle hRun
  obtain ⟨handle', hRun', hThread', hAttempt'⟩ := hBc id handle hRun
  obtain ⟨handle'', hRun'', hThread'', hAttempt''⟩ := hAb id handle' hRun'
  exact ⟨handle'', hRun'', hThread''.trans hThread', hAttempt''.trans hAttempt'⟩

theorem keeps_erase (runId : String) : Keeps runs (runs.erase runId) := by
  intro id handle hRun
  rw [getElem?_erase_ite] at hRun
  split at hRun
  · cases hRun
  · exact ⟨handle, hRun, rfl, rfl⟩

variable {runId id threadId : String} {handle handle' : RunHandle} {s : RunManager} {cap : Nat}
  {op : RunOp}

theorem keeps_insert {runs : Std.ExtTreeMap String RunHandle} (hRun : runs[runId]? = some handle)
    (hThread : handle.threadId = handle'.threadId) (hAttempt : handle.attempt = handle'.attempt) :
    Keeps runs (runs.insert runId handle') := by
  intro id other hOther
  rw [getElem?_insert_ite] at hOther
  split at hOther
  · rename_i hId
    cases hOther
    exact ⟨handle, by rw [hId]; exact hRun, hThread, hAttempt⟩
  · exact ⟨other, hOther, rfl, rfl⟩

theorem keeps_evict (order skipped : List String) (excess : Nat)
    (runs : Std.ExtTreeMap String RunHandle) : Keeps runs (evict runs excess order skipped).1 := by
  induction order generalizing skipped excess runs with
  | nil =>
    exact Keeps.refl runs
  | cons candidate rest ih =>
    cases excess with
    | zero =>
      exact Keeps.refl runs
    | succ excess =>
      rw [evict]
      split
      · exact (keeps_erase runs candidate).trans (ih _ _ _)
      · exact ih _ _ _

section

variable (s : RunManager)

theorem keeps_release (runId threadId : String) (draining : Bool) :
    Keeps s.runs (s.release runId threadId draining).2.runs := by
  have hFreed : Keeps s.runs (if s.activeByThread[threadId]? = some runId then
      { s with activeByThread := s.activeByThread.erase threadId } else s).runs := by
    split <;> exact Keeps.refl s.runs
  fun_cases release s runId threadId draining with
  | case3 =>
    split
    · rename_i hRun
      exact keeps_insert hRun rfl rfl
    · exact Keeps.refl s.runs
  | _ => exact hFreed

variable (runId : String)

theorem keeps_finish (status : RunStatus) (terminal : Json) (draining : Bool) :
    Keeps s.runs (s.finish runId status terminal draining).2.runs := by
  simp only [finish]
  cases hRun : s.runs[runId]? with
  | none => exact Keeps.refl s.runs
  | some handle =>
    have hEnded : Keeps s.runs (s.runs.insert runId
        { handle with status, terminal := some terminal }) := keeps_insert hRun rfl rfl
    exact (hEnded.trans (keeps_release _ runId handle.threadId draining)).trans
      (keeps_evict _ _ _ _)

theorem keeps_cancelRun : Keeps s.runs (s.cancelRun runId).2.runs := by
  fun_cases cancelRun s runId with
  | case2 handle hRun | case3 handle hRun => exact keeps_insert hRun rfl rfl
  | _ => exact Keeps.refl s.runs

theorem keeps_forget : Keeps s.runs (s.forget runId).2.runs := by
  fun_cases forget s runId with
  | case3 => exact keeps_erase s.runs runId
  | _ => exact Keeps.refl s.runs

theorem runs_next (cap : Nat) (s : RunManager) (op : RunOp)
    (hRun' : (s.next cap op).runs[id]? = some handle') :
    (∃ handle, s.runs[id]? = some handle ∧ handle.threadId = handle'.threadId ∧
      handle.attempt = handle'.attempt) ∨
    ∃ given strategy, op = .insert given strategy ∧ given.runId = id ∧
      given.threadId = handle'.threadId ∧ handle'.attempt = s.attemptsOf given.threadId + 1 := by
  cases op with
  | insert given strategy =>
    have hNew : ∀ handle : RunHandle, handle.threadId = given.threadId →
        handle.attempt = s.attemptsOf given.threadId + 1 →
        (s.runs.insert given.runId handle)[id]? = some handle' →
        s.runs[id]? = some handle' ∨ given.runId = id ∧ given.threadId = handle'.threadId ∧
          handle'.attempt = s.attemptsOf given.threadId + 1 := by
      intro handle hThread hAttempt hGet
      rw [getElem?_insert_ite] at hGet
      split at hGet
      · rename_i hId
        cases hGet
        exact .inr ⟨hId.symm, hThread.symm, hAttempt⟩
      · exact .inl hGet
    have hCases : s.runs[id]? = some handle' ∨ given.runId = id ∧
        given.threadId = handle'.threadId ∧
        handle'.attempt = s.attemptsOf given.threadId + 1 := by
      revert hRun'
      simp only [next]
      fun_cases insert s given strategy cap with
      | case1 | case2 => exact .inl
      | case3 | case4 => exact hNew _ rfl rfl
    rcases hCases with hOld | ⟨hId, hThread, hAttempt⟩
    · exact .inl ⟨handle', hOld, rfl, rfl⟩
    · exact .inr ⟨given, strategy, rfl, hId, hThread, hAttempt⟩
  | finish runId status terminal draining =>
    exact .inl (keeps_finish s runId status terminal draining id handle' hRun')
  | cancel runId => exact .inl (keeps_cancelRun s runId id handle' hRun')
  | forget runId => exact .inl (keeps_forget s runId id handle' hRun')

theorem attempt_eq_place (cap : Nat) (ops : List RunOp)
    (hRun : (run (next cap) {} ops).runs[id]? = some handle) :
    ∃ earlier given strategy later, ops = earlier ++ .insert given strategy :: later ∧
      given.runId = id ∧ given.threadId = handle.threadId ∧
      handle.attempt = earlier.countP (·.insertsOn handle.threadId) + 1 := by
  induction ops using List.reverseRecOn generalizing handle with
  | nil => cases hRun
  | append_singleton ops op ih =>
    rw [run_append] at hRun
    rcases runs_next cap _ op hRun with ⟨old, hOld, hThread, hAttempt⟩ |
      ⟨given, strategy, rfl, hId, hThread, hAttempt⟩
    · obtain ⟨earlier, given, strategy, later, rfl, hId, hGiven, hPlace⟩ := ih hOld
      refine ⟨earlier, given, strategy, later ++ [op], ?_, hId, hGiven.trans hThread, ?_⟩
      · rw [List.append_assoc, List.cons_append]
      · rw [← hAttempt, ← hThread]
        exact hPlace
    · refine ⟨ops, given, strategy, [], rfl, hId, hThread, ?_⟩
      rw [hAttempt, attemptsOf_run, hThread]

/-! ## The manager keeps the order of its threads -/

def Has (runId threadId : String) (status : RunStatus) : Prop :=
  ∃ handle, s.runs[runId]? = some handle ∧ handle.threadId = threadId ∧ handle.status = status

def attemptOf : Nat := (s.runs[runId]?.map (·.attempt)).getD 0

end

structure Consistent (cap : Nat) (s : RunManager) : Prop where
  active_iff : ∀ threadId runId,
    s.activeByThread[threadId]? = some runId ↔ s.Has runId threadId .running
  queue_iff : ∀ threadId runId, runId ∈ s.queueOf threadId ↔ s.Has runId threadId .pending
  ordered : ∀ threadId, (s.queueOf threadId).Pairwise fun a b => s.attemptOf a < s.attemptOf b
  within : ∀ threadId, (s.queueOf threadId).length ≤ cap

theorem ticket_of_waiting (hPlace : s.view.place runId = some (threadId, true)) :
    s.view.ticket runId = s.attemptOf runId := by
  obtain ⟨handle, hRun, -, hPending⟩ := place_view_iff.mp hPlace
  rw [ticket_view hRun hPending, attemptOf, hRun]
  rfl

theorem consistent_of_fair (hFair : s.view.Fair cap) : s.Consistent cap := by
  refine ⟨fun threadId runId => ?_, fun threadId runId => ?_, fun threadId => ?_, hFair.within⟩
  · exact (hFair.active_iff threadId runId).trans place_view_iff
  · exact (hFair.queue_iff threadId runId).trans place_view_iff
  · refine (hFair.ordered threadId).imp_of_mem ?_
    intro a b hA hB hLt
    rw [ticket_of_waiting ((hFair.queue_iff threadId a).mp hA),
      ticket_of_waiting ((hFair.queue_iff threadId b).mp hB)] at hLt
    exact hLt

theorem cancel_of_leave (hOp : s.laneOp cap op = .leave threadId runId) : op = .cancel runId := by
  revert hOp
  fun_cases laneOp cap s op <;> intro hOp <;> cases hOp
  rfl

theorem drains_of_finish (hOp : s.laneOp cap op = .finish threadId false) : op.drains := by
  revert hOp
  fun_cases laneOp cap s op with
  | case4 =>
    intro hOp
    simpa [RunOp.drains] using (LaneOp.finish.inj hOp).2
  | _ => exact nofun

theorem pending_run (hFair : s.view.Fair cap) {ops : List RunOp}
    (hOps : Admissible (next cap) allowed s ops) (hPending : s.Has runId threadId .pending) :
    (run (next cap) s ops).Has runId threadId .pending ∧
        (run (next cap) s ops).attemptOf runId = s.attemptOf runId ∨
      ⟨threadId, runId, s.attemptOf runId⟩ ∈ s.promotions cap ops ∨ .cancel runId ∈ ops := by
  have hPlace : s.view.place runId = some (threadId, true) := place_view_iff.mpr hPending
  obtain ⟨hRun, hAdmissible⟩ := view_run hFair hOps
  rw [promotions_view hFair hOps, ← ticket_of_waiting hPlace]
  rcases Lanes.waiting_run hFair hAdmissible hPlace with ⟨hStays, hTicket⟩ | hPromoted | hLeft
  · rw [← hRun] at hStays hTicket
    rw [ticket_of_waiting hStays] at hTicket
    exact .inl ⟨place_view_iff.mp hStays, hTicket⟩
  · exact .inr (.inl hPromoted)
  · obtain ⟨s', op, hOp, hEq⟩ := mem_translate hLeft
    rw [cancel_of_leave hEq] at hOp
    exact .inr (.inr hOp)

/-- **The run manager keeps every thread in order.** After every history of inserts, finishes
of the active run, cancels and forgets: the state is consistent, an attempt number is the
place of the run among the inserts of its thread, the next promotion is of the head of the
queue, the promotions of a thread come by attempt numbers, a pending run stays so until it is
promoted or cancelled, and unless a finish drained, a thread with pending runs has an active
one. -/
theorem threads_in_order (cap : Nat) {ops more : List RunOp}
    (hOps : Admissible (next cap) allowed {} (ops ++ more)) :
    (run (next cap) {} ops).Consistent cap ∧
    (∀ runId handle, (run (next cap) {} ops).runs[runId]? = some handle →
      ∃ earlier given strategy later, ops = earlier ++ .insert given strategy :: later ∧
        given.runId = runId ∧ given.threadId = handle.threadId ∧
        handle.attempt = earlier.countP (·.insertsOn handle.threadId) + 1) ∧
    (∀ op p, (run (next cap) {} ops).promotion op = some p →
      ((run (next cap) {} ops).queueOf p.lane).head? = some p.member) ∧
    ((promotions cap {} (ops ++ more)).Pairwise fun a b =>
      a.lane = b.lane → a.ticket < b.ticket) ∧
    (∀ runId threadId, (run (next cap) {} ops).Has runId threadId .pending →
      (run (next cap) {} (ops ++ more)).Has runId threadId .pending ∧
          (run (next cap) {} (ops ++ more)).attemptOf runId =
            (run (next cap) {} ops).attemptOf runId ∨
        ⟨threadId, runId, (run (next cap) {} ops).attemptOf runId⟩ ∈
          (run (next cap) {} ops).promotions cap more ∨
        .cancel runId ∈ more) ∧
    ((∀ op ∈ ops, ¬op.drains) → ∀ threadId, (run (next cap) {} ops).queueOf threadId ≠ [] →
      ∃ runId, (run (next cap) {} ops).activeByThread[threadId]? = some runId) := by
  obtain ⟨hBefore, hAfter⟩ := admissible_append.mp hOps
  have hFair := fair_run (fair_empty cap) hBefore
  refine ⟨consistent_of_fair hFair, fun runId handle hRun => attempt_eq_place cap ops hRun,
    fun op p hP => ?_, ?_, fun runId threadId hPending => ?_, fun hDrains threadId hQueue => ?_⟩
  · rw [promotion_view hFair op] at hP
    obtain ⟨-, -, rest, hHead⟩ := Lanes.promotion_eq_some hP
    exact List.head?_eq_some_iff.mpr ⟨rest, hHead⟩
  · rw [promotions_view (fair_empty cap) hOps]
    exact Lanes.promotions_pairwise (fair_empty cap) (view_run (fair_empty cap) hOps).2
  · rw [run_append]
    exact pending_run hFair hAfter hPending
  · obtain ⟨hRun, hAdmissible⟩ := view_run (fair_empty cap) hBefore
    have hEmpty : (view {}).Staffed := fun _ _ => rfl
    have hStaffed := Lanes.staffed_run hEmpty hAdmissible fun lane hMem => by
      obtain ⟨s', op, hOp, hEq⟩ := mem_translate hMem
      exact hDrains op hOp (drains_of_finish hEq)
    rw [← hRun] at hStaffed
    exact Option.ne_none_iff_exists'.mp fun hNone => hQueue (hStaffed threadId hNone)

/-- A run as `schedule` builds it. -/
def scheduled (runId threadId : String) : RunHandle :=
  ⟨runId, threadId, threadId, 0, .pending, none, false⟩

/-- Three runs on one thread and one that finds the queue full; the second is cancelled in the
queue. -/
def oneThread : List RunOp :=
  [.insert (scheduled "a" "t") .enqueue, .insert (scheduled "b" "t") .enqueue,
    .insert (scheduled "c" "t") .enqueue, .insert (scheduled "d" "t") .enqueue, .cancel "b"]

theorem threads_in_order_one_thread :
    (run (next 2) {} oneThread).Consistent 2 ∧
      (run (next 2) {} oneThread).promotions 2 [.finish "a" .success .null false, .forget "a"] =
        [⟨"t", "c", 3⟩] := by
  have hOps : Admissible (next 2) allowed {}
      (oneThread ++ [.finish "a" .success .null false, .forget "a"]) := by
    decide
  refine ⟨(threads_in_order 2 hOps).1, ?_⟩
  decide

end RunManager

end RustyRuntime
