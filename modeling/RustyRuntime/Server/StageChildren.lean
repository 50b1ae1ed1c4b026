import RustyRuntime.Server.StageBarrier

/-!
# The children of a parent task

The children of a parent are those that its caller has submitted and the wakes of the barrier.
Wakes are known by their ids and keys, which end in the number of the stage, so that no other
name of the tenant is taken for one of them (`numbered_wakeTaskId`).

An operation without a hook is calm: it ends no child of the caller and brings no wake, as long
as nobody submits a record in the place of a wake (`calm_steps`).
-/

namespace RustyRuntime

open Library Library.Durable

/-! ## Names of wakes -/

/-- The text before a number that ends the string. -/
def numbered (stem s : String) : Bool :=
  stem.toList.isPrefixOf s.toList && (s.toList.drop stem.toList.length).all Char.isDigit

variable {stem s : String}

theorem numbered_iff :
    numbered stem s ↔ ∃ digits : List Char, digits.all Char.isDigit ∧
      s.toList = stem.toList ++ digits := by
  simp only [numbered, Bool.and_eq_true, List.isPrefixOf_iff_prefix]
  constructor
  · rintro ⟨⟨rest, hRest⟩, hDigits⟩
    rw [← hRest, List.drop_left] at hDigits
    exact ⟨rest, hDigits, hRest.symm⟩
  · rintro ⟨digits, hDigits, hList⟩
    rw [hList]
    exact ⟨List.prefix_append _ _, by rw [List.drop_left]; exact hDigits⟩

theorem toString_stage (stage : UInt32) : toString stage = stage.toNat.repr := rfl

theorem digits_stage (stage : UInt32) : (toString stage).toList.all Char.isDigit := by
  rw [toString_stage, Nat.toList_repr, List.all_eq_true]
  intro c hC
  exact Nat.isDigit_of_mem_toDigits (by decide) (by decide) hC

theorem not_mem_of_digits {digits : List Char} {c : Char} (hDigits : digits.all Char.isDigit)
    (hC : c.isDigit = false) : c ∉ digits := by
  intro hMem
  rw [List.all_eq_true.mp hDigits c hMem] at hC
  cases hC

/-- The number that ends a string is read back if the text before it ends in no digit. -/
theorem numbered_iff_of_split {front left left' digits : List Char} {sep : Char}
    (hSep : sep.isDigit = false) (hStem : stem.toList = front ++ (left ++ [sep]))
    (hS : s.toList = front ++ (left' ++ sep :: digits)) (hDigits : digits.all Char.isDigit) :
    numbered stem s ↔ left' = left := by
  rw [numbered_iff, hStem, hS]
  constructor
  · rintro ⟨digits', hDigits', hList⟩
    simp only [List.append_assoc, List.cons_append, List.nil_append,
      List.append_cancel_left_eq] at hList
    exact ((append_cons_inj_right (not_mem_of_digits hDigits hSep)
      (not_mem_of_digits hDigits' hSep)).mp hList).1
  · rintro rfl
    exact ⟨digits, hDigits, by simp⟩

structure ParentTask where
  tenant : String
  taskId : String

namespace ParentTask

variable (p : ParentTask)

/-- The text with which the ids of the parent's wakes begin. -/
def wakeIdStem : String := s!"{p.tenant}--barrier--{p.taskId}--"

/-- The text with which the keys of the parent's wakes begin. -/
def wakeKeyStem : String := s!"stage-barrier:{p.taskId}:"

variable (parentId : String)

theorem numbered_wakeTaskId (stage : UInt32) :
    numbered p.wakeIdStem (wakeTaskId p.tenant parentId stage) ↔ parentId = p.taskId := by
  have hStem : p.wakeIdStem.toList =
      (p.tenant.toList ++ "--barrier--".toList) ++ ((p.taskId.toList ++ ['-']) ++ ['-']) := by
    simp [wakeIdStem, toString]
  have hId : (wakeTaskId p.tenant parentId stage).toList =
      (p.tenant.toList ++ "--barrier--".toList) ++
        ((parentId.toList ++ ['-']) ++ '-' :: (toString stage).toList) := by
    simp [wakeTaskId, toString]
  rw [numbered_iff_of_split rfl hStem hId (digits_stage stage), List.append_cancel_right_eq,
    String.toList_inj]

theorem toList_wakeIdempotencyKey (stage : UInt32) :
    (wakeIdempotencyKey parentId stage).toList =
      "stage-barrier:".toList ++ (parentId.toList ++ ':' :: (toString stage).toList) := by
  simp [wakeIdempotencyKey, toString]

theorem numbered_wakeIdempotencyKey (stage : UInt32) :
    numbered p.wakeKeyStem (wakeIdempotencyKey parentId stage) ↔ parentId = p.taskId := by
  have hStem : p.wakeKeyStem.toList =
      "stage-barrier:".toList ++ (p.taskId.toList ++ [':']) := by
    simp [wakeKeyStem, toString]
  rw [numbered_iff_of_split rfl hStem (toList_wakeIdempotencyKey parentId stage)
    (digits_stage stage), String.toList_inj]

theorem wakeIdempotencyKey_inj {parentId : String} {stage stage' : UInt32}
    (h : wakeIdempotencyKey parentId stage = wakeIdempotencyKey parentId stage') :
    stage = stage' := by
  have hList := congrArg String.toList h
  rw [toList_wakeIdempotencyKey, toList_wakeIdempotencyKey, List.append_cancel_left_eq,
    List.append_cancel_left_eq, List.cons.injEq, String.toList_inj, toString_stage,
    toString_stage, Nat.repr_inj] at hList
  exact UInt32.toNat_inj.mp hList.2

/-! ## Children -/

variable (t : TaskRecord)

def hasChild : Bool :=
  t.tenant = p.tenant && t.parentTaskId = some p.taskId

def ofCaller : Bool := p.hasChild t && t.kind ≠ stageBarrierWakeKind

def isWake (stage : UInt32) (t : TaskRecord) : Bool :=
  t.tenant = p.tenant && t.idempotencyKey = some (wakeIdempotencyKey p.taskId stage)

/-- Names that are left to the barrier. -/
def reserves : Bool :=
  numbered p.wakeIdStem t.taskId ||
    (t.tenant = p.tenant && t.idempotencyKey.any (numbered p.wakeKeyStem)) ||
    (p.hasChild t && t.kind = stageBarrierWakeKind)

/-- What others may submit: no name of a wake, and children with an open category. -/
def welcomes : Bool :=
  !p.reserves t && !(p.hasChild t && t.statusCategory.isTerminal)

end ParentTask

def JsonFileStore.Has (store : JsonFileStore) (t : TaskRecord) : Prop :=
  store.tasks.get? t.taskId = some t

def QueueOp.submits (now : Instant) : QueueOp → Option TaskRecord
  | .enqueue task => some (.new task now)
  | .deadLetter task lastError => some (.deadLettered task lastError now)
  | .outboxEnqueue task => some (.new task now)
  | _ => none

/-- The operation may end the task without a hook: a claim that finalizes it, or the
cancellation of a run or a mailbox. -/
def QueueOp.ends (now : Instant) (op : QueueOp) (t : TaskRecord) : Bool :=
  (op.claimsFor = some t.tenant && t.cancellationDue now) ||
    (op.settles.isNone && op.cancels t && !t.isTerminal && t.status ≠ .leased)

namespace ParentTask

variable (p : ParentTask)

/-- The operation submits nothing in the place of a wake, and it ends no child of the caller
without its hook. -/
def spares (now : Instant) (store : JsonFileStore) (op : QueueOp) : Bool :=
  (op.submits now).all p.welcomes &&
    store.tasks.values.all fun t => !(p.ofCaller t && op.ends now t)

end ParentTask

/-! ## Records that keep their place -/

section

variable {p : ParentTask} {store store' : JsonFileStore} {t t' : TaskRecord} {now : Instant}
  {op : QueueOp}

theorem has_unique (h : store.Has t) (h' : store.Has t') (hId : t.taskId = t'.taskId) :
    t = t' := by
  unfold JsonFileStore.Has at h h'
  rw [hId, h'] at h
  exact (Option.some.inj h).symm

theorem has_putTask {record : TaskRecord} :
    (store.putTask record).Has t ↔ record = t ∨ record.taskId ≠ t.taskId ∧ store.Has t := by
  unfold JsonFileStore.Has
  rw [get?_putTask]
  by_cases hId : record.taskId = t.taskId
  · simp [hId]
  · have hNe : record ≠ t := fun h => hId (congrArg _ h)
    simp [hId, hNe]

theorem hasChild_eq (h : t.SameTask t') : p.hasChild t' = p.hasChild t := by
  simp [ParentTask.hasChild, h.tenant, h.parentTaskId]

theorem ofCaller_eq (h : t.SameTask t') : p.ofCaller t' = p.ofCaller t := by
  simp [ParentTask.ofCaller, hasChild_eq h, h.kind]

theorem isWake_eq (h : t.SameTask t') (stage : UInt32) : p.isWake stage t' = p.isWake stage t := by
  simp [ParentTask.isWake, h.tenant, h.idempotencyKey]

theorem reserves_eq (h : t.SameTask t') : p.reserves t' = p.reserves t := by
  simp [ParentTask.reserves, hasChild_eq h, h.taskId, h.tenant, h.idempotencyKey, h.kind]

theorem reserves_of_isWake {stage : UInt32} (h : p.isWake stage t) : p.reserves t := by
  simp only [ParentTask.isWake, Bool.and_eq_true, decide_eq_true_eq] at h
  simp [ParentTask.reserves, h.1, h.2, (p.numbered_wakeIdempotencyKey _ _).mpr]

theorem welcomes_iff : p.welcomes t ↔
    p.reserves t = false ∧ (p.hasChild t → t.statusCategory.isTerminal = false) := by
  cases h : p.hasChild t <;> simp [ParentTask.welcomes, h]

theorem ofCaller_of_welcomes (h : p.welcomes t) (hChild : p.hasChild t) : p.ofCaller t := by
  have hReserved := (welcomes_iff.mp h).1
  simp only [ParentTask.reserves, hChild, Bool.true_and, Bool.or_eq_false_iff,
    decide_eq_false_iff_not] at hReserved
  simp [ParentTask.ofCaller, hChild, hReserved.2]

theorem hasChild_of_ofCaller (h : p.ofCaller t) : p.hasChild t := by
  simp only [ParentTask.ofCaller, Bool.and_eq_true] at h
  exact h.1

theorem kept_putTask (hIn : store.Has t) (hSame : t.SameTask t') (s : TaskRecord)
    (hS : store.Has s) : ∃ s', (store.putTask t').Has s' ∧ s.SameTask s' := by
  by_cases hId : t'.taskId = s.taskId
  · rw [← has_unique hIn hS (hSame.taskId.symm.trans hId)]
    exact ⟨t', has_putTask.mpr (.inl rfl), hSame⟩
  · exact ⟨s, has_putTask.mpr (.inr ⟨hId, hS⟩), .refl s⟩

/-- Between two stores no child of the caller has ended and no wake has come. -/
structure ParentTask.Calm (p : ParentTask) (store store' : JsonFileStore) : Prop where
  kept : ∀ t, store.Has t → ∃ t', store'.Has t' ∧ t.SameTask t'
  entered : ∀ t', store'.Has t' → (∃ t, store.Has t ∧ t.SameTask t') ∨ p.welcomes t'
  spared : ∀ t t', store.Has t → store'.Has t' → t.SameTask t' → p.ofCaller t →
    t'.statusCategory.isTerminal → t.statusCategory.isTerminal

namespace ParentTask.Calm

theorem of_tasks_eq (h : store'.tasks = store.tasks) : p.Calm store store' := by
  have hHas : ∀ t, store'.Has t ↔ store.Has t := by
    intro t
    unfold JsonFileStore.Has
    rw [h]
  refine ⟨fun t hIn => ⟨t, (hHas t).mpr hIn, .refl t⟩,
    fun t hIn => .inl ⟨t, (hHas t).mp hIn, .refl t⟩, fun t t' hIn hIn' hSame _ hEnd => ?_⟩
  rw [has_unique hIn ((hHas t').mp hIn') hSame.taskId.symm]
  exact hEnd

theorem trans {store'' : JsonFileStore} (h : p.Calm store store') (h' : p.Calm store' store'') :
    p.Calm store store'' where
  kept t hIn := by
    obtain ⟨t', hIn', hSame⟩ := h.kept t hIn
    obtain ⟨t'', hIn'', hSame'⟩ := h'.kept t' hIn'
    exact ⟨t'', hIn'', hSame.trans hSame'⟩
  entered t'' hIn'' := by
    rcases h'.entered t'' hIn'' with ⟨t', hIn', hSame'⟩ | hWelcome
    · rcases h.entered t' hIn' with ⟨t, hIn, hSame⟩ | hWelcome
      · exact .inl ⟨t, hIn, hSame.trans hSame'⟩
      · refine .inr (welcomes_iff.mpr ⟨?_, fun hChild => ?_⟩)
        · rw [reserves_eq hSame']
          exact (welcomes_iff.mp hWelcome).1
        · rw [hasChild_eq hSame'] at hChild
          have hOpen := (welcomes_iff.mp hWelcome).2 hChild
          by_contra hEnd
          have hEnd' := h'.spared t' t'' hIn' hIn'' hSame' (ofCaller_of_welcomes hWelcome hChild)
            (by simpa using hEnd)
          rw [hOpen] at hEnd'
          cases hEnd'
    · exact .inr hWelcome
  spared t t'' hIn hIn'' hSame hCaller hEnd := by
    obtain ⟨t', hIn', hFirst⟩ := h.kept t hIn
    obtain ⟨other, hOther, hSecond⟩ := h'.kept t' hIn'
    have hEq : other = t'' :=
      has_unique hOther hIn'' ((hSecond.taskId.trans hFirst.taskId).trans hSame.taskId.symm)
    rw [hEq] at hSecond
    have hEnd' := h'.spared t' t'' hIn' hIn'' hSecond ((ofCaller_eq hFirst).trans hCaller) hEnd
    exact h.spared t t' hIn hIn' hFirst hCaller hEnd'

theorem of_entered {record : TaskRecord}
    (hNew : ∀ t, store.tasks.get? record.taskId = some t → t = record)
    (hWelcome : p.welcomes record) : p.Calm store (store.putTask record) where
  kept t hIn := by
    by_cases hId : record.taskId = t.taskId
    · refine ⟨record, has_putTask.mpr (.inl rfl), ?_⟩
      rw [hNew t (hId ▸ hIn)]
      exact .refl record
    · exact ⟨t, has_putTask.mpr (.inr ⟨hId, hIn⟩), .refl t⟩
  entered t' hIn' := by
    rcases has_putTask.mp hIn' with rfl | ⟨-, hIn⟩
    · exact .inr hWelcome
    · exact .inl ⟨t', hIn, .refl t'⟩
  spared t t' hIn hIn' hSame _ hEnd := by
    rcases has_putTask.mp hIn' with rfl | ⟨-, hOld⟩
    · rw [hNew t (hSame.taskId ▸ hIn)]
      exact hEnd
    · rw [has_unique hIn hOld hSame.taskId.symm]
      exact hEnd

theorem of_changed (hIn : store.Has t) (hSame : t.SameTask t')
    (hSpared : p.ofCaller t → t'.statusCategory.isTerminal → t.statusCategory.isTerminal) :
    p.Calm store (store.putTask t') where
  kept := kept_putTask hIn hSame
  entered s hS := by
    rcases has_putTask.mp hS with rfl | ⟨-, hOld⟩
    · exact .inl ⟨t, hIn, hSame⟩
    · exact .inl ⟨s, hOld, .refl s⟩
  spared s s' hS hS' hBoth hCaller hEnd := by
    rcases has_putTask.mp hS' with rfl | ⟨-, hOld⟩
    · have hEq := has_unique hIn hS (hSame.taskId.symm.trans hBoth.taskId)
      rw [← hEq] at hCaller ⊢
      exact hSpared hCaller hEnd
    · rw [has_unique hS hOld hBoth.taskId.symm]
      exact hEnd

end ParentTask.Calm

/-! ## One write -/

theorem spares_iff : p.spares now store op ↔ (∀ t, op.submits now = some t → p.welcomes t) ∧
    ∀ t, store.Has t → p.ofCaller t → op.ends now t = false := by
  simp only [ParentTask.spares, Bool.and_eq_true, Option.all_eq_true, List.all_eq_true,
    Index.mem_values_iff, Bool.not_eq_true', Bool.and_eq_false_imp]
  rfl

theorem TaskChange.spared (h : TaskChange now store op t t') (hOp : op.settles = none)
    (hEnds : op.ends now t = false) :
    (t'.statusCategory.isTerminal → t.statusCategory.isTerminal) ∧ op.ends now t' = false := by
  cases h with
  | finalized hFor hDue => simp [QueueOp.ends, hFor, hDue] at hEnds
  | @claimed _ _ _ _ _ hCandidate =>
    obtain ⟨hTenant, -, hClaimable⟩ := claimable_spec (claimCandidate_spec hCandidate).2
    simp_all [QueueOp.ends, QueueOp.cancels, TaskRecord.cancellationDue, TaskRecord.claim]
  | mailboxClaimed hTurn hCandidate =>
    obtain ⟨-, hTenant, -, hClaimable⟩ := mailboxCandidate_spec hCandidate
    simp_all [QueueOp.ends, QueueOp.cancels, TaskRecord.cancellationDue, TaskRecord.claim]
  | renewed => exact ⟨id, rfl⟩
  | completed | failed => cases hOp
  | cancelled hFor hCancel =>
    obtain ⟨hOpen, ⟨-, hLeased, rfl⟩ | ⟨-, hLeased, rfl⟩⟩ := TaskRecord.cancel_eq_some hCancel
    · refine ⟨id, ?_⟩
      have hClaims : op.claimsFor = none := by
        cases op <;> first | rfl | cases hFor
      simp [QueueOp.ends, hClaims, hLeased]
    · simp [QueueOp.ends, hOp, hFor, hOpen, hLeased] at hEnds
  | redriven hRedrive =>
    obtain ⟨-, rfl⟩ := TaskRecord.redrive_eq_some hRedrive
    refine ⟨fun hEnd => ?_, rfl⟩
    cases hEnd

structure ParentTask.Filed (p : ParentTask) (store : JsonFileStore) : Prop where
  form : StoreForm store
  rows : ∀ id row, store.outbox.get? id = some row → p.welcomes row.task
  names : ∀ t, store.Has t →
    p.reserves t = false ∨ ∃ stage, IsWakeTask p.tenant p.taskId stage t

/-- **The step lemma** of the operations without a hook. -/
theorem StoreStep.calm (h : StoreStep now op store store') (hOp : op.settles = none)
    (hFiled : p.Filed store) (hFresh : op.entersFresh now store)
    (hSpares : p.spares now store op) :
    p.Calm store store' ∧ p.spares now store' op ∧
      ∀ id row, store'.outbox.get? id = some row → p.welcomes row.task := by
  obtain ⟨hSubmits, hEnds⟩ := spares_iff.mp hSpares
  have hSpares' : (∀ t, store'.Has t → p.ofCaller t → op.ends now t = false) →
      p.spares now store' op := fun h => spares_iff.mpr ⟨hSubmits, h⟩
  cases h with
  | enqueued hRecord hNone =>
    have hNew := new_of_enqueued hRecord hNone hFresh
    refine ⟨.of_entered hNew (hSubmits _ ?_), hSpares' fun t _ _ => ?_, hFiled.rows⟩
    · cases op <;> first | exact hRecord | cases hRecord
    · cases op <;> first | rfl | cases hRecord
  | relayed hRow hPending hNone =>
    have hNew := new_of_relayed hRow hPending hNone hFresh
    exact ⟨.of_entered hNew (hFiled.rows _ _ hRow), hSpares' fun t _ _ => rfl, hFiled.rows⟩
  | @changed _ _ t t' hIn hChange =>
    have hSame := (hChange.progress (hFiled.form.tasks _ _ hIn)).1.same
    refine ⟨.of_changed hIn hSame fun hCaller => (hChange.spared hOp (hEnds t hIn hCaller)).1,
      hSpares' fun s hS hCaller => ?_, hFiled.rows⟩
    rcases has_putTask.mp hS with rfl | ⟨-, hOld⟩
    · rw [ofCaller_eq hSame] at hCaller
      exact (hChange.spared hOp (hEnds t hIn hCaller)).2
    · exact hEnds s hOld hCaller
  | rowAdded =>
    refine ⟨.of_tasks_eq rfl, hSpares' hEnds, fun id row hRow => ?_⟩
    simp only [JsonFileStore.putRow, Index.get?_insert] at hRow
    split at hRow
    · cases hRow
      exact hSubmits _ rfl
    · exact hFiled.rows id row hRow
  | rowMarked hRow =>
    refine ⟨.of_tasks_eq rfl, hSpares' hEnds, fun id other hOther => ?_⟩
    simp only [JsonFileStore.putRow, Index.get?_insert] at hOther
    split at hOther
    · cases hOther
      have hWelcome := hFiled.rows _ _ hRow
      exact hWelcome
    · exact hFiled.rows id other hOther
  | leaseChanged => exact ⟨.of_tasks_eq rfl, hSpares' hEnds, hFiled.rows⟩

theorem ParentTask.Calm.filed (h : p.Calm store store') (hFiled : p.Filed store)
    (hForm : StoreForm store')
    (hRows : ∀ id row, store'.outbox.get? id = some row → p.welcomes row.task) :
    p.Filed store' := by
  refine ⟨hForm, hRows, fun t' hIn' => ?_⟩
  rcases h.entered t' hIn' with ⟨t, hIn, hSame⟩ | hWelcome
  · rw [reserves_eq hSame]
    rcases hFiled.names t hIn with hFree | ⟨stage, hWake⟩
    · exact .inl hFree
    · exact .inr ⟨stage, hWake.of_sameTask hSame⟩
  · exact .inl (welcomes_iff.mp hWelcome).1

theorem calm_steps (hSteps : StoreSteps now op store store')
    (hOp : op.settles = none) (hFiled : p.Filed store) (hFresh : op.entersFresh now store)
    (hSpares : p.spares now store op) :
    p.Calm store store' ∧ p.Filed store' ∧ op.entersFresh now store' ∧
      p.spares now store' op := by
  induction hSteps with
  | refl => exact ⟨.of_tasks_eq rfl, hFiled, hFresh, hSpares⟩
  | tail _ hStep ih =>
    obtain ⟨hCalm, hFiled', hFresh', hSpares'⟩ := ih
    obtain ⟨hCalm', hSpares'', hRows⟩ := hStep.calm hOp hFiled' hFresh' hSpares'
    exact ⟨hCalm.trans hCalm', hCalm'.filed hFiled' (hStep.storeForm hFiled'.form) hRows,
      hStep.entersFresh hFiled'.form hFresh', hSpares''⟩

end

end RustyRuntime
