import RustyRuntime.Server.Postgres

/-!
# The Postgres backend: settling

A completion, a failure, a cancellation and the finalization of a due task are transitions of
`TaskRecord`. The file backend stores the record that the transition makes; Postgres assigns
the columns that its statement lists. The statements are compared with the transitions row by
row: read back, the updated row should be the record that the transition makes.

Only the re-drive statement assigns `status_category`, so the category that a transition sets
is lost unless the row has it already.

Main results:

* **When a statement does what the transition does** (`settles_alike_iff`): always for a
  scheduled retry and for a cancellation that only signals a holder, else if the category of
  the row is the one that the transition sets.
* A completed row keeps the category of an open task (`completed_row_stays_todo`).
-/

namespace RustyRuntime

open Library

/-! ## Statements -/

section

variable (task : TaskRecord) (now : Instant) (row : TaskRow)

def isTask (tenant taskId : String) (row : TaskRow) : Truth :=
  (Truth.ofBool (row.taskId = taskId)).and (.ofBool (row.tenant = tenant))

/-- `COMPLETE_TASK_SQL`. -/
def completeWhere (tenant taskId workerId : String) (row : TaskRow) : Truth :=
  (isTask tenant taskId row).and <|
    (Truth.compare (fun a b => a = b) row.leaseOwner (some workerId)).and (row.hasStatus .leased)

def completeSet (report : CompletionReport) (now : Instant) (row : TaskRow) : TaskRow :=
  { row with
    status := .completed
    result := some report.result
    leaseOwner := none
    leaseExpiresAt := none
    nextAttemptAt := none
    updatedAt := now
    receipt := report.receipt
    tokens := report.cost.tokens
    costUsd := report.cost.costUsd }

/-- `FAIL_UPDATE_SQL`, with the columns bound from the failed record. -/
def failUpdateSet : TaskRow :=
  { row with
    status := task.status
    errorClass := task.errorClass
    lastError := task.lastError
    leaseOwner := none
    leaseExpiresAt := none
    nextAttemptAt := task.nextAttemptAt
    updatedAt := now
    tokens := task.tokens
    costUsd := task.costUsd }

/-- `CANCEL_UPDATE_SQL`, with the columns bound from the cancelled record. -/
def cancelUpdateSet : TaskRow :=
  { row with
    status := task.status
    errorClass := task.errorClass
    cancelRequested := task.cancelRequested
    leaseOwner := task.lease.map TaskLease.owner
    leaseExpiresAt := task.lease.map TaskLease.expiresAt
    nextAttemptAt := task.nextAttemptAt
    updatedAt := now }

/-- The status part of `CANCEL_RUN_FINALIZE_SQL` and `CANCEL_AGENT_FINALIZE_SQL`. Their
assignments are those of `CLAIM_FINALIZE_SQL`. -/
def cancelFinalizeWhere : Truth :=
  (row.hasStatus .queued).or ((row.hasStatus .failed).and (Truth.isNotNull row.nextAttemptAt))

/-- `CANCEL_RUN_SIGNAL_SQL` and `CANCEL_AGENT_SIGNAL_SQL`. -/
def cancelSignalSet : TaskRow :=
  { row with cancelRequested := true, updatedAt := now }

end

/-! ## Settlements -/

/-- The updates that both backends make of one record. -/
inductive Settlement where
  | complete (taskId workerId : String) (report : CompletionReport)
  | fail (taskId workerId : String) (report : FailureReport)
  | cancel (taskId : String)
  | cancelRun (runId : String)
  | cancelAgent (recipient : String)
  | finalize

def updateRow (condition : Truth) (set : TaskRow → TaskRow) (row : TaskRow) : Option TaskRow :=
  if condition.holds then some (set row) else none

/-- The two statements of a run or mailbox cancellation, which share the selecting part. -/
def cancelSelectedRow (selected : Truth) (now : Instant) (row : TaskRow) : Option TaskRow :=
  (updateRow (selected.and (cancelFinalizeWhere row)) (claimFinalizeSet now) row).or
    (updateRow (selected.and (row.hasStatus .leased)) (cancelSignalSet now) row)

/-- What Postgres makes of a row; `none` leaves it as it is. -/
def Settlement.onRow (tenant : String) (now : Instant) (row : TaskRow) :
    Settlement → Except String (Option TaskRow)
  | .complete taskId workerId report =>
    .ok (updateRow (completeWhere tenant taskId workerId row) (completeSet report now) row)
  | .fail taskId workerId report =>
    if !(isTask tenant taskId row).holds then .ok none
    else do
      let task ← taskFromRow row
      if !task.leasedTo workerId then return none
      return some (failUpdateSet (task.fail report now) now row)
  | .cancel taskId =>
    if !(isTask tenant taskId row).holds then .ok none
    else do
      let task ← taskFromRow row
      return (task.cancel now).map fun (_, task) => cancelUpdateSet task now row
  | .cancelRun runId =>
    .ok (cancelSelectedRow ((Truth.ofBool (row.tenant = tenant)).and
      (.compare (fun a b => a = b) row.runId (some runId))) now row)
  | .cancelAgent recipient =>
    .ok (cancelSelectedRow ((Truth.ofBool (row.tenant = tenant)).and
      (.compare (fun a b => a = b) row.recipient (some recipient))) now row)
  | .finalize => .ok (updateRow (claimFinalizeWhere tenant now row) (claimFinalizeSet now) row)

/-- The transition that the file backend applies to the record. -/
def Settlement.onRecord (now : Instant) (t : TaskRecord) : Settlement → Option TaskRecord
  | .complete _ _ report => some (t.complete report now)
  | .fail _ _ report => some (t.fail report now)
  | .cancel _ | .cancelRun _ | .cancelAgent _ => (t.cancel now).map Prod.snd
  | .finalize => some (t.applyCancellation now)

/-- The condition: the transition sets no category, or the row has the one it sets. -/
def Settlement.keepsCategory (t : TaskRecord) : Settlement → Prop
  | .complete _ _ _ => t.statusCategory = .done
  | .fail _ _ report =>
    (∃ afterMs, t.retryDecision report = .retry afterMs) ∨ t.statusCategory = .cancelled
  | .cancel _ | .cancelRun _ | .cancelAgent _ =>
    t.status = .leased ∨ t.statusCategory = .cancelled
  | .finalize => t.statusCategory = .cancelled

/-! ## Row by row -/

theorem updateRow_eq_some {condition : Truth} {set : TaskRow → TaskRow} {row row' : TaskRow} :
    updateRow condition set row = some row' ↔ condition.holds ∧ set row = row' := by
  simp [updateRow]

variable {row : TaskRow} {now : Instant}

theorem completeSet_record_eq_iff (report : CompletionReport) :
    (completeSet report now row).record = row.record.complete report now ↔
      row.statusCategory = .done := by
  constructor
  · intro h
    exact congrArg TaskRecord.statusCategory h
  · intro hCategory
    simp [completeSet, TaskRow.record, TaskRecord.complete, TaskRow.lease, hCategory]

theorem claimFinalizeSet_record_eq_iff :
    (claimFinalizeSet now row).record = row.record.applyCancellation now ↔
      row.statusCategory = .cancelled := by
  constructor
  · intro h
    exact congrArg TaskRecord.statusCategory h
  · intro hCategory
    simp [claimFinalizeSet, TaskRow.record, TaskRecord.applyCancellation, TaskRow.lease, hCategory]

theorem failUpdateSet_record_eq_iff (report : FailureReport) :
    (failUpdateSet (row.record.fail report now) now row).record = row.record.fail report now ↔
      (∃ afterMs, row.record.retryDecision report = .retry afterMs) ∨
        row.statusCategory = .cancelled := by
  have hRecord : (failUpdateSet (row.record.fail report now) now row).record =
      { row.record.fail report now with statusCategory := row.statusCategory } := by
    unfold TaskRecord.fail
    cases row.record.retryDecision report <;> rfl
  have hCategory : (failUpdateSet (row.record.fail report now) now row).record =
      row.record.fail report now ↔
        (row.record.fail report now).statusCategory = row.statusCategory := by
    rw [hRecord]
    constructor
    · intro h
      exact (congrArg TaskRecord.statusCategory h).symm
    · intro h
      rw [← h]
  rw [hCategory]
  rcases TaskRecord.fail_cases row.record report now with ⟨afterMs, hRetry, -, -, hKept⟩ |
    ⟨hDead, -, -, hSet⟩ | ⟨hFail, -, hSet, -⟩
  · rw [hKept]
    exact ⟨fun _ => .inl ⟨afterMs, hRetry⟩, fun _ => rfl⟩
  · rw [hSet, hDead]
    simp [eq_comm]
  · rw [hSet, hFail]
    simp [eq_comm]

theorem cancelUpdateSet_record_eq_iff {transition : CancelTransition} {t' : TaskRecord}
    (hCancel : row.record.cancel now = some (transition, t')) :
    (cancelUpdateSet t' now row).record = t' ↔
      row.status = .leased ∨ row.statusCategory = .cancelled := by
  obtain ⟨-, ⟨-, hLeased, rfl⟩ | ⟨-, hOpen, rfl⟩⟩ := TaskRecord.cancel_eq_some hCancel
  · refine ⟨fun _ => .inl hLeased, fun _ => ?_⟩
    simp only [cancelUpdateSet, TaskRow.record, TaskRow.lease]
    cases row.leaseOwner <;> cases row.leaseExpiresAt <;> rfl
  · have hSame : cancelUpdateSet (row.record.applyCancellation now) now row =
        claimFinalizeSet now row := rfl
    rw [hSame, claimFinalizeSet_record_eq_iff]
    exact ⟨.inr, fun h => h.resolve_left hOpen⟩

/-- The statements of a run or mailbox cancellation make the transition of the record, up to
its category. -/
theorem cancelSelectedRow_spec {selected : Truth} {row' : TaskRow}
    (h : cancelSelectedRow selected now row = some row') :
    ∃ transition t', row.record.cancel now = some (transition, t') ∧
      (row'.attempt = row.attempt ∧ row'.maxAttempts = row.maxAttempts ∧
        row'.stage = row.stage) ∧
      (row'.record = t' ↔ row.status = .leased ∨ row.statusCategory = .cancelled) := by
  have hOpenCases : row.status = .queued ∨ row.status = .failed ∧ row.nextAttemptAt.isSome →
      row.record.cancel now = some (.cancelled, row.record.applyCancellation now) ∧
        row.status ≠ .leased := by
    rintro (hStatus | ⟨hStatus, hNext⟩)
    · simp [TaskRecord.cancel, TaskRecord.isTerminal, TaskRow.record, hStatus]
    · obtain ⟨at', hAt⟩ := Option.isSome_iff_exists.mp hNext
      simp [TaskRecord.cancel, TaskRecord.isTerminal, TaskRow.record, hStatus, hAt]
  rcases Option.or_eq_some_iff.mp h with hFinalized | ⟨-, hSignalled⟩
  · obtain ⟨hWhere, rfl⟩ := updateRow_eq_some.mp hFinalized
    simp only [cancelFinalizeWhere, TaskRow.hasStatus, Truth.holds_and, Truth.holds_or,
      Truth.holds_ofBool, Truth.holds_isNotNull, Bool.and_eq_true, Bool.or_eq_true,
      decide_eq_true_eq] at hWhere
    obtain ⟨hCancel, hNot⟩ := hOpenCases hWhere.2
    refine ⟨_, _, hCancel, ⟨rfl, rfl, rfl⟩, ?_⟩
    rw [claimFinalizeSet_record_eq_iff]
    exact ⟨.inr, fun h => h.resolve_left hNot⟩
  · obtain ⟨hWhere, rfl⟩ := updateRow_eq_some.mp hSignalled
    simp only [TaskRow.hasStatus, Truth.holds_and, Truth.holds_ofBool, Bool.and_eq_true,
      decide_eq_true_eq] at hWhere
    have hLeased : row.status = .leased := hWhere.2
    refine ⟨.signalled, { row.record with cancelRequested := true, updatedAt := now }, ?_,
      ⟨rfl, rfl, rfl⟩, fun _ => .inl hLeased, fun _ => rfl⟩
    simp [TaskRecord.cancel, TaskRecord.isTerminal, TaskRow.record, hLeased]

/-! ## Comparison -/

theorem taskFromRow_of_counts {t t' : TaskRecord} (hRow : taskFromRow row = .ok t) (row' : TaskRow)
    (hCounts : row'.attempt = row.attempt ∧ row'.maxAttempts = row.maxAttempts ∧
      row'.stage = row.stage) :
    taskFromRow row' = .ok t' ↔ row'.record = t' := by
  rw [taskFromRow_eq_ok, hCounts.1, hCounts.2.1, hCounts.2.2]
  exact and_iff_right (taskFromRow_eq_ok.mp hRow).1

/-- **When a statement does what the transition does.** -/
theorem settles_alike_iff (settlement : Settlement) (tenant : String) (now : Instant)
    (row row' : TaskRow) (t : TaskRecord) (hRow : taskFromRow row = .ok t)
    (hAccepted : settlement.onRow tenant now row = .ok (some row')) :
    ∃ t', settlement.onRecord now t = some t' ∧
      (taskFromRow row' = .ok t' ↔ settlement.keepsCategory t) := by
  obtain ⟨-, rfl⟩ := taskFromRow_eq_ok.mp hRow
  cases settlement with
  | complete taskId workerId report =>
    obtain ⟨-, rfl⟩ := updateRow_eq_some.mp (Except.ok.inj hAccepted)
    refine ⟨_, rfl, ?_⟩
    exact (taskFromRow_of_counts hRow (completeSet report now row) ⟨rfl, rfl, rfl⟩).trans
      (completeSet_record_eq_iff report)
  | fail taskId workerId report =>
    simp only [Settlement.onRow, hRow] at hAccepted
    split at hAccepted
    · cases hAccepted
    · simp only [bind, Except.bind, pure, Except.pure] at hAccepted
      split at hAccepted
      · cases hAccepted
      · cases hAccepted
        refine ⟨_, rfl, ?_⟩
        exact (taskFromRow_of_counts hRow (failUpdateSet (row.record.fail report now) now row)
          ⟨rfl, rfl, rfl⟩).trans (failUpdateSet_record_eq_iff report)
  | cancel taskId =>
    simp only [Settlement.onRow, hRow] at hAccepted
    split at hAccepted
    · cases hAccepted
    · simp only [bind, Except.bind, pure, Except.pure, Except.ok.injEq] at hAccepted
      obtain ⟨⟨transition, t'⟩, hCancel, rfl⟩ := Option.map_eq_some_iff.mp hAccepted
      refine ⟨t', by simp [Settlement.onRecord, hCancel], ?_⟩
      exact (taskFromRow_of_counts hRow (cancelUpdateSet t' now row) ⟨rfl, rfl, rfl⟩).trans
        (cancelUpdateSet_record_eq_iff hCancel)
  | cancelRun runId | cancelAgent recipient =>
    obtain ⟨transition, t', hCancel, hCounts, hIff⟩ :=
      cancelSelectedRow_spec (Except.ok.inj hAccepted)
    refine ⟨t', by simp [Settlement.onRecord, hCancel], ?_⟩
    exact (taskFromRow_of_counts hRow row' hCounts).trans hIff
  | finalize =>
    obtain ⟨-, rfl⟩ := updateRow_eq_some.mp (Except.ok.inj hAccepted)
    refine ⟨_, rfl, ?_⟩
    exact (taskFromRow_of_counts hRow (claimFinalizeSet now row) ⟨rfl, rfl, rfl⟩).trans
      claimFinalizeSet_record_eq_iff

/-- The row of the task that `jobClaim` leases. -/
def leasedRow : TaskRow :=
  .ofRecord ((TaskRecord.new jobTask 0).claim "worker-1" 1000 1)

/-- The first attempt fails with a transient error; a retry is scheduled. -/
def transientFailure : FailureReport :=
  { errorClass := .transient, message := "try again", retryable := true
    retry := .floor 3, jitter := id }

theorem settles_alike_transientFailure :
    ∃ row' t', (Settlement.fail "job" "worker-1" transientFailure).onRow "acme" 2 leasedRow =
        .ok (some row') ∧ row'.status = .failed ∧
      (Settlement.fail "job" "worker-1" transientFailure).onRecord 2 leasedRow.record = some t' ∧
      (taskFromRow row' = .ok t' ↔
        (Settlement.fail "job" "worker-1" transientFailure).keepsCategory leasedRow.record) := by
  obtain ⟨t', hRecord, hIff⟩ := settles_alike_iff (.fail "job" "worker-1" transientFailure) "acme"
    2 leasedRow (failUpdateSet (leasedRow.record.fail transientFailure 2) 2 leasedRow)
    leasedRow.record (by decide) (by decide)
  exact ⟨_, t', by decide, by decide, hRecord, hIff⟩

/-- The statement completes the row and leaves its category open; the transition sets it to
done. -/
theorem completed_row_stays_todo :
    ∃ row', (Settlement.complete "job" "worker-1" { result := .str "done" }).onRow "acme" 2
        leasedRow = .ok (some row') ∧
      row'.status = .completed ∧ row'.statusCategory = .todo ∧
      (leasedRow.record.complete { result := .str "done" } 2).statusCategory = .done ∧
      taskFromRow row' ≠ .ok (leasedRow.record.complete { result := .str "done" } 2) :=
  ⟨completeSet { result := .str "done" } 2 leasedRow, by decide⟩

end RustyRuntime
