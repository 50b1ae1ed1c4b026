import RustyRuntime.Server.StageChildren

/-!
# Wakes of a parent task

Each stage of a parent's children should give one wake, once the stage and all lower ones have
closed. The hook looks at one stage, that of the child which has just settled, and it counts
wakes as children of stage 0. So a stage that closes while a lower one, or a wake of one, is
open never gets its wake, and the settlement of a wake can give one for stage 0 although the
caller has no child there.

Main results:

* **In a history whose stages close in turn every closed stage has one wake, and no wake comes
  early** (`woken_of_inTurn`).
* A second stage that closes while the wake of the first is open stays without a wake, and a
  parent without a child of stage 0 is woken for it (`stage_without_wake`).
-/

namespace RustyRuntime

open Library Library.Durable

/-! ## One wake for each stage -/

/-- **Woken.** Each stage of the caller that has closed with all lower ones has one wake. -/
def ParentTask.Woken (p : ParentTask) (store : JsonFileStore) : Prop :=
  ∀ stage, (∃ t, store.Has t ∧ p.ofCaller t ∧ t.stage = stage) →
    (∀ t, store.Has t → p.ofCaller t → t.stage ≤ stage → t.statusCategory.isTerminal) →
    ∃! wake, store.Has wake ∧ p.isWake stage wake

/-- **No early wake.** A wake that has just come is for a stage of the caller that has closed
with all lower ones. -/
def ParentTask.WokenOnTime (p : ParentTask) (before after : JsonFileStore) : Prop :=
  ∀ stage wake, after.Has wake → p.isWake stage wake →
    (∃ old, before.Has old ∧ p.isWake stage old) ∨
      (∃ t, after.Has t ∧ p.ofCaller t ∧ t.stage = stage) ∧
        ∀ t, after.Has t → p.ofCaller t → t.stage ≤ stage → t.statusCategory.isTerminal

/-! ## Histories -/

/-- An event of the server: the operation with its hook. -/
def JsonFileStore.nextRouted (store : JsonFileStore) (event : QueueEvent) : JsonFileStore :=
  (event.op.route event.now).state event.writes store

namespace ParentTask

variable (p : ParentTask) (store : JsonFileStore)

/-- The name of the wake that the settlement of `t` may give is free or that wake's own, and no
name of a wake of the parent. -/
def namesFree (t : TaskRecord) : Bool :=
  t.parentTaskId.all fun parentId =>
    (store.tasks.get? (wakeTaskId t.tenant parentId t.stage)).all (fun wake =>
      wake.tenant = t.tenant && wake.idempotencyKey = some (wakeIdempotencyKey parentId t.stage)) &&
    (t.tenant = p.tenant || !numbered p.wakeIdStem (wakeTaskId t.tenant parentId t.stage))

/-- The settlement of `t` comes in turn. If it closes the stage of a child of the caller, all
lower stages and all wakes have closed, the parent can be woken, and the hook has its write. If
`t` is a wake, the caller has a child of its stage. -/
def settlesInTurn (writes : Nat) (t : TaskRecord) : Bool :=
  p.namesFree store t &&
    if p.ofCaller t then
      (store.tasks.values.any fun c => c.taskId ≠ t.taskId && p.ofCaller c && c.stage = t.stage &&
        !c.statusCategory.isTerminal) ||
      (decide (2 ≤ writes) && store.awake p.tenant p.taskId &&
        store.tasks.values.all fun c => c.taskId = t.taskId || !p.hasChild c ||
          t.stage < c.stage || c.statusCategory.isTerminal)
    else !p.hasChild t || store.tasks.values.any fun c => p.ofCaller c && c.stage = t.stage

/-- The condition on an event of a history. -/
def inTurn (event : QueueEvent) : Bool :=
  event.op.entersFresh event.now store && p.spares event.now store event.op &&
    (event.op.settles.bind fun (tenant, taskId) => store.getTask tenant taskId).all
      (p.settlesInTurn store event.writes)

end ParentTask

section

variable {p : ParentTask} {store store' : JsonFileStore} {t t' : TaskRecord}

/-! ## Closed stages -/

def ParentTask.WakesKept (p : ParentTask) (store : JsonFileStore) : Prop :=
  ∀ stage, (∃ t, store.Has t ∧ p.ofCaller t ∧ t.stage = stage) →
    (∀ t, store.Has t → p.ofCaller t → t.stage = stage → t.statusCategory.isTerminal) →
    ∃ wake, store.Has wake ∧ p.isWake stage wake

variable {stage : UInt32} {parentId : String}

theorem ParentTask.Filed.isWakeTask (h : p.Filed store) (hIn : store.Has t)
    (hWake : p.isWake stage t) : IsWakeTask p.tenant p.taskId stage t := by
  rcases h.names t hIn with hFree | ⟨stage', hTask⟩
  · rw [reserves_of_isWake hWake] at hFree
    cases hFree
  · simp only [ParentTask.isWake, hTask.idempotencyKey, Bool.and_eq_true, decide_eq_true_eq,
      Option.some.injEq] at hWake
    rw [← ParentTask.wakeIdempotencyKey_inj hWake.2]
    exact hTask

/-- **Closed stages have one wake.** -/
theorem ParentTask.WakesKept.woken (h : p.WakesKept store) (hFiled : p.Filed store) :
    p.Woken store := by
  intro stage hChild hClosed
  obtain ⟨wake, hIn, hWake⟩ := h stage hChild fun t hT hCaller hStage =>
    hClosed t hT hCaller (by rw [hStage]; exact UInt32.le_refl _)
  refine ⟨wake, ⟨hIn, hWake⟩, fun other ⟨hOther, hWake'⟩ => ?_⟩
  refine has_unique hOther hIn ?_
  rw [(hFiled.isWakeTask hOther hWake').taskId, (hFiled.isWakeTask hIn hWake).taskId]

theorem ParentTask.Calm.wakesKept (h : p.Calm store store') (hKept : p.WakesKept store) :
    p.WakesKept store' := by
  rintro stage ⟨t', hIn', hCaller', hStage⟩ hClosed
  have hChild : ∃ t, store.Has t ∧ p.ofCaller t ∧ t.stage = stage := by
    rcases h.entered t' hIn' with ⟨t, hIn, hSame⟩ | hWelcome
    · exact ⟨t, hIn, (ofCaller_eq hSame).symm.trans hCaller', hSame.stage.symm.trans hStage⟩
    · have hOpen := (welcomes_iff.mp hWelcome).2 (hasChild_of_ofCaller hCaller')
      rw [hClosed t' hIn' hCaller' hStage] at hOpen
      cases hOpen
  obtain ⟨wake, hWakeIn, hWake⟩ := hKept stage hChild fun s hS hCaller hAt => by
    obtain ⟨s', hS', hSame⟩ := h.kept s hS
    exact h.spared s s' hS hS' hSame hCaller
      (hClosed s' hS' ((ofCaller_eq hSame).trans hCaller) (hSame.stage.trans hAt))
  obtain ⟨wake', hWakeIn', hSame⟩ := h.kept wake hWakeIn
  exact ⟨wake', hWakeIn', (isWake_eq hSame stage).trans hWake⟩

theorem ParentTask.Calm.wokenOnTime (h : p.Calm store store') : p.WokenOnTime store store' := by
  intro stage wake hIn' hWake
  rcases h.entered wake hIn' with ⟨t, hIn, hSame⟩ | hWelcome
  · exact .inl ⟨t, hIn, (isWake_eq hSame stage).symm.trans hWake⟩
  · have hFree := (welcomes_iff.mp hWelcome).1
    rw [reserves_of_isWake hWake] at hFree
    cases hFree

/-! ## Settlements -/

theorem ParentTask.Filed.changed (h : p.Filed store) (hIn : store.Has t) (hSame : t.SameTask t')
    (hForm : t'.WellFormed) : p.Filed (store.putTask t') := by
  refine ⟨h.form.putTask hForm, h.rows, fun s hS => ?_⟩
  rcases has_putTask.mp hS with rfl | ⟨-, hOld⟩
  · rw [reserves_eq hSame]
    rcases h.names t hIn with hFree | ⟨stage, hWake⟩
    · exact .inl hFree
    · exact .inr ⟨stage, hWake.of_sameTask hSame⟩
  · exact h.names s hOld

theorem not_ofCaller_of_isWakeTask {tenant : String} (h : IsWakeTask tenant parentId stage t) :
    p.ofCaller t = false := by
  simp [ParentTask.ofCaller, h.kind]

theorem welcomes_other_wake (h : IsWakeTask t.tenant parentId t.stage t')
    (hParent : t.parentTaskId = some parentId) (hNames : p.namesFree store t)
    (hOther : p.hasChild t = false) : p.welcomes t' := by
  simp only [ParentTask.namesFree, hParent, Option.all_some, Bool.and_eq_true, Bool.or_eq_true,
    decide_eq_true_eq, Bool.not_eq_true'] at hNames
  have hChild : p.hasChild t' = false := by
    simpa [ParentTask.hasChild, h.tenant, h.parentTaskId, hParent] using hOther
  refine welcomes_iff.mpr ⟨?_, fun hChild' => by rw [hChild] at hChild'; cases hChild'⟩
  simp only [ParentTask.reserves, h.taskId, h.tenant, h.idempotencyKey, hChild, Option.any_some,
    Bool.false_and, Bool.or_false, Bool.or_eq_false_iff]
  by_cases hTenant : t.tenant = p.tenant
  · have hNe : parentId ≠ p.taskId := by
      intro hEq
      simp [ParentTask.hasChild, hTenant, hParent, hEq] at hOther
    have hId := (p.numbered_wakeTaskId parentId t.stage).not.mpr hNe
    have hKey := (p.numbered_wakeIdempotencyKey parentId t.stage).not.mpr hNe
    rw [hTenant]
    exact ⟨by simpa using hId, by simpa using hKey⟩
  · exact ⟨hNames.2.resolve_left hTenant, by simp [hTenant]⟩

theorem wake_id_free (h : IsWakeTask t.tenant parentId t.stage t')
    (hParent : t.parentTaskId = some parentId) (hNames : p.namesFree store t) (hIn : store.Has t)
    {mid : TaskRecord} (hSame : t.SameTask mid) (hNone : (store.putTask mid).deduplicated t' = none)
    (s : TaskRecord) : (store.putTask mid).tasks.get? t'.taskId ≠ some s := by
  intro hS
  simp only [ParentTask.namesFree, hParent, Option.all_some, Bool.and_eq_true, Option.all_eq_true,
    decide_eq_true_eq, ← h.taskId] at hNames
  have hId : s.taskId = t'.taskId := Index.key_of_get? hS
  have hKnown : s.tenant = t'.tenant ∧ s.idempotencyKey = t'.idempotencyKey := by
    rw [h.tenant, h.idempotencyKey]
    have hHas : (store.putTask mid).Has s := by
      unfold JsonFileStore.Has
      rw [hId]
      exact hS
    rcases has_putTask.mp hHas with rfl | ⟨-, hOld⟩
    · have hOld : store.tasks.get? t'.taskId = some t := by
        rw [← hId, hSame.taskId]
        exact hIn
      rw [hSame.tenant, hSame.idempotencyKey]
      exact hNames.1 t hOld
    · exact hNames.1 s (hId ▸ hOld)
  have hSome : ((store.putTask mid).deduplicated t').isSome :=
    deduplicated_isSome.mpr ⟨_, s, h.idempotencyKey, by rw [hId]; exact hS, hKnown.1,
      hKnown.2.trans h.idempotencyKey⟩
  rw [hNone] at hSome
  cases hSome

structure ParentTask.WakeEnters (p : ParentTask) (store : JsonFileStore) (stage : UInt32)
    (wake : TaskRecord) : Prop where
  isWakeTask : IsWakeTask p.tenant p.taskId stage wake
  wellFormed : wake.WellFormed
  free : ∀ t, store.tasks.get? wake.taskId ≠ some t

namespace ParentTask.WakeEnters

variable {stage : UInt32} {wake : TaskRecord}

section

variable (h : p.WakeEnters store stage wake)

include h

theorem filed (hFiled : p.Filed store) : p.Filed (store.putTask wake) := by
  refine ⟨hFiled.form.putTask h.wellFormed, hFiled.rows, fun s hS => ?_⟩
  rcases has_putTask.mp hS with rfl | ⟨-, hOld⟩
  · exact .inr ⟨stage, h.isWakeTask⟩
  · exact hFiled.names s hOld

theorem has (hIn : store.Has t) : (store.putTask wake).Has t :=
  has_putTask.mpr (.inr ⟨fun hId => h.free t (hId ▸ hIn), hIn⟩)

theorem has_caller (hIn : (store.putTask wake).Has t) (hCaller : p.ofCaller t) : store.Has t := by
  rcases has_putTask.mp hIn with rfl | ⟨-, hOld⟩
  · rw [not_ofCaller_of_isWakeTask h.isWakeTask] at hCaller
    cases hCaller
  · exact hOld

theorem wakesKept (hKept : p.WakesKept store) : p.WakesKept (store.putTask wake) := by
  rintro stage' ⟨t, hIn, hCaller, hStage⟩ hClosed
  obtain ⟨old, hOld, hWake⟩ := hKept stage' ⟨t, h.has_caller hIn hCaller, hCaller, hStage⟩
    fun s hS => hClosed s (h.has hS)
  exact ⟨old, h.has hOld, hWake⟩

theorem wokenOnTime (hFiled : p.Filed store)
    (hChild : ∃ t, store.Has t ∧ p.ofCaller t ∧ t.stage = stage)
    (hClosed : store.ClosedTo p.tenant p.taskId stage) :
    p.WokenOnTime store (store.putTask wake) := by
  intro stage' other hIn hWake
  rcases has_putTask.mp hIn with rfl | ⟨-, hOld⟩
  · have hSame : stage' = stage := by
      have hKey := ((h.filed hFiled).isWakeTask hIn hWake).idempotencyKey
      rw [h.isWakeTask.idempotencyKey, Option.some.injEq] at hKey
      exact (ParentTask.wakeIdempotencyKey_inj hKey).symm
    subst hSame
    obtain ⟨t, hT, hCaller, hStage⟩ := hChild
    refine .inr ⟨⟨t, h.has hT, hCaller, hStage⟩, fun s hS hCaller hLe => ?_⟩
    have hChild := hasChild_of_ofCaller hCaller
    simp only [ParentTask.hasChild, Bool.and_eq_true, decide_eq_true_eq] at hChild
    exact hClosed s (h.has_caller hS hCaller) hChild.1 hChild.2 hLe
  · exact .inl ⟨other, hOld, hWake⟩

end

end ParentTask.WakeEnters

theorem ParentTask.WokenOnTime.of_changed {after : JsonFileStore} (hIn : store.Has t)
    (hSame : t.SameTask t') (h : p.WokenOnTime (store.putTask t') after) :
    p.WokenOnTime store after := by
  intro stage wake hWakeIn hWake
  rcases h stage wake hWakeIn hWake with ⟨old, hOld, hOldWake⟩ | hTimely
  · rcases has_putTask.mp hOld with rfl | ⟨-, hStored⟩
    · exact .inl ⟨t, hIn, (isWake_eq hSame stage).symm.trans hOldWake⟩
    · exact .inl ⟨old, hStored, hOldWake⟩
  · exact .inr hTimely

theorem ParentTask.WokenOnTime.refl (p : ParentTask) (store : JsonFileStore) :
    p.WokenOnTime store store :=
  fun _ wake hIn hWake => .inl ⟨wake, hIn, hWake⟩

theorem hook_cases (hIn : store.Has t) (hSame : t.SameTask t') (hNames : p.namesFree store t)
    (now : Instant) (left : Nat) :
    let after := (onTaskSettled t.tenant t' now).state left (store.putTask t')
    after = store.putTask t' ∨
      ∃ wake : TaskRecord, after = (store.putTask t').putTask wake ∧
        (p.hasChild t = false ∧ wake.WellFormed ∧ p.Calm (store.putTask t') after ∨
          p.hasChild t ∧ p.WakeEnters (store.putTask t') t.stage wake ∧
            (store.putTask t').ClosedTo p.tenant p.taskId t.stage) := by
  intro after
  rcases onTaskSettled_cases t.tenant t' now left (store.putTask t') with
    hAfter | ⟨parentId, wake, hParent, hWake, hNone, hAfter⟩
  · exact .inl hAfter
  · obtain ⟨hTask, hClosed⟩ := dueWake_spec hWake now
    rw [hSame.parentTaskId] at hParent
    rw [hSame.stage] at hTask hClosed
    have hFree := wake_id_free hTask hParent hNames hIn hSame hNone
    refine .inr ⟨.new wake now, hAfter, ?_⟩
    cases hChild : p.hasChild t with
    | false =>
      refine .inl ⟨rfl, TaskRecord.wellFormed_new wake now, ?_⟩
      rw [show after = _ from hAfter]
      exact .of_entered (fun s hS => absurd hS (hFree s))
        (welcomes_other_wake hTask hParent hNames hChild)
    | true =>
      simp only [ParentTask.hasChild, Bool.and_eq_true, decide_eq_true_eq] at hChild
      rw [hParent, Option.some.injEq] at hChild
      rw [hChild.1, hChild.2] at hTask hClosed
      exact .inr ⟨rfl, ⟨hTask, TaskRecord.wellFormed_new wake now, hFree⟩, hClosed⟩

/-- The invariant of a history. -/
def ParentTask.Staged (p : ParentTask) (store : JsonFileStore) : Prop :=
  p.Filed store ∧ p.WakesKept store

/-- What one event gives. -/
def ParentTask.Promise (p : ParentTask) (store store' : JsonFileStore) : Prop :=
  p.Staged store' ∧ p.WokenOnTime store store'

theorem promise_of_other (hFiled : p.Filed store) (hKept : p.WakesKept store) (hIn : store.Has t)
    (hSame : t.SameTask t') (hForm : t'.WellFormed) (hOther : p.ofCaller t = false)
    {writes : Nat} (hTurn : p.settlesInTurn store writes t) (now : Instant) (left : Nat) :
    p.Promise store ((onTaskSettled t.tenant t' now).state left (store.putTask t')) := by
  have hCalm : p.Calm store (store.putTask t') :=
    .of_changed hIn hSame fun hCaller => by rw [hOther] at hCaller; cases hCaller
  have hFiled' := hFiled.changed hIn hSame hForm
  simp only [ParentTask.settlesInTurn, hOther, Bool.false_eq_true, ↓reduceIte, Bool.and_eq_true,
    Bool.or_eq_true, Bool.not_eq_true', List.any_eq_true, Index.mem_values_iff,
    decide_eq_true_eq] at hTurn
  obtain ⟨hNames, hChildren⟩ := hTurn
  rcases hook_cases hIn hSame hNames now left with hAfter | ⟨wake, hAfter, hCases⟩
  · rw [hAfter]
    exact ⟨⟨hFiled', hCalm.wakesKept hKept⟩, hCalm.wokenOnTime⟩
  · rcases hCases with ⟨-, hWake, hEnters⟩ | ⟨hChild, hEnters, hClosed⟩
    · refine ⟨⟨hEnters.filed hFiled' ?_ ?_, (hCalm.trans hEnters).wakesKept hKept⟩,
        (hCalm.trans hEnters).wokenOnTime⟩
      · rw [hAfter]
        exact hFiled'.form.putTask hWake
      · rw [hAfter]
        exact hFiled'.rows
    · rw [hAfter]
      refine ⟨⟨hEnters.filed hFiled', hEnters.wakesKept (hCalm.wakesKept hKept)⟩, ?_⟩
      refine .of_changed hIn hSame (hEnters.wokenOnTime hFiled' ?_ hClosed)
      -- A wake has settled: the caller has a child of its stage.
      obtain ⟨c, hC, hCaller, hStage⟩ := hChildren.resolve_left (by simp [hChild])
      obtain ⟨c', hC', hSameC⟩ := hCalm.kept c hC
      exact ⟨c', hC', (ofCaller_eq hSameC).trans hCaller, hSameC.stage.trans hStage⟩

theorem dueWake_of_inTurn (hIn : store.Has t) (hSame : t.SameTask t') (hCaller : p.ofCaller t)
    (hEnd : t'.statusCategory.isTerminal) (hAwake : store.awake p.tenant p.taskId)
    (hOthers : ∀ c, store.Has c → c.taskId ≠ t.taskId → p.hasChild c → c.stage ≤ t.stage →
      c.statusCategory.isTerminal) :
    ∃ wake, (store.putTask t').dueWake t.tenant t' p.taskId = some wake := by
  have hChild := hasChild_of_ofCaller hCaller
  simp only [ParentTask.hasChild, Bool.and_eq_true, decide_eq_true_eq] at hChild
  rw [hChild.1]
  refine dueWake_isSome ?_ ?_
  · simp only [JsonFileStore.awake, Option.any_eq_true, getTask_eq_some] at hAwake ⊢
    obtain ⟨parent, ⟨hParent, hTenant⟩, hAwake⟩ := hAwake
    by_cases hId : t'.taskId = p.taskId
    · -- The parent is its own child, and it has just ended.
      have hEq : t = parent := by
        have hParent' : store.tasks.get? t.taskId = some parent := by
          rw [← hSame.taskId, hId]
          exact hParent
        exact Option.some.inj (hIn.symm.trans hParent')
      refine ⟨t', ⟨by rw [get?_putTask, if_pos hId], hSame.tenant.trans hChild.1⟩, ?_⟩
      rw [← hEq] at hAwake
      rw [hSame.recipient]
      simp only [ne_eq, Bool.and_eq_true, decide_eq_true_eq] at hAwake ⊢
      refine ⟨fun hParked => ?_, hAwake.2⟩
      rw [hParked] at hEnd
      cases hEnd
    · exact ⟨parent, ⟨by rw [get?_putTask, if_neg hId]; exact hParent, hTenant⟩, hAwake⟩
  · intro c hC hTenant hParent hStage
    rw [hSame.stage] at hStage
    rcases has_putTask.mp hC with rfl | ⟨hId, hOld⟩
    · exact hEnd
    · refine hOthers c hOld ?_ ?_ hStage
      · rw [← hSame.taskId]
        exact hId.symm
      · simp [ParentTask.hasChild, hTenant, hParent]

theorem promise_of_caller (hFiled : p.Filed store) (hKept : p.WakesKept store) (hIn : store.Has t)
    (hSame : t.SameTask t') (hForm : t'.WellFormed) (hCaller : p.ofCaller t) {left : Nat}
    (hTurn : p.settlesInTurn store (left + 1) t) (now : Instant) :
    p.Promise store ((onTaskSettled t.tenant t' now).state left (store.putTask t')) := by
  have hFiled' := hFiled.changed hIn hSame hForm
  have hChild := hasChild_of_ofCaller hCaller
  have hCaller' : p.ofCaller t' := (ofCaller_eq hSame).trans hCaller
  have hIn' : (store.putTask t').Has t' := has_putTask.mpr (.inl rfl)
  simp only [ParentTask.settlesInTurn, hCaller, ↓reduceIte, Bool.and_eq_true, Bool.or_eq_true,
    List.any_eq_true, List.all_eq_true, Index.mem_values_iff, decide_eq_true_eq,
    Bool.not_eq_true'] at hTurn
  obtain ⟨hNames, hTurn⟩ := hTurn
  have hHook := hook_cases hIn hSame hNames now left
  generalize hAfter : (onTaskSettled t.tenant t' now).state left (store.putTask t') = after
    at hHook ⊢
  -- The hook adds a wake at most, so the children of the caller are those of the settlement.
  obtain ⟨hFiled'', hHas, hCallers, hTime⟩ : p.Filed after ∧
      (∀ s, (store.putTask t').Has s → after.Has s) ∧
      (∀ s, after.Has s → p.ofCaller s → (store.putTask t').Has s) ∧
      p.WokenOnTime (store.putTask t') after := by
    rcases hHook with rfl | ⟨wake, rfl, ⟨hNot, -⟩ | ⟨-, hEnters, hClosed⟩⟩
    · exact ⟨hFiled', fun _ => id, fun _ h _ => h, .refl p _⟩
    · rw [hChild] at hNot
      cases hNot
    · exact ⟨hEnters.filed hFiled', fun _ => hEnters.has, fun _ => hEnters.has_caller,
        hEnters.wokenOnTime hFiled' ⟨t', hIn', hCaller', hSame.stage⟩ hClosed⟩
  refine ⟨⟨hFiled'', ?_⟩, hTime.of_changed hIn hSame⟩
  rintro stage ⟨c, hC, hOfCaller, hStage⟩ hClosed
  by_cases hAt : stage = t.stage
  · subst hAt
    have hEnd := hClosed t' (hHas t' hIn') hCaller' hSame.stage
    have hOld : ∀ s, store.Has s → s.taskId ≠ t.taskId → p.ofCaller s → s.stage = t.stage →
        s.statusCategory.isTerminal := by
      intro s hS hId hOf hSt
      refine hClosed s (hHas s (has_putTask.mpr (.inr ⟨?_, hS⟩))) hOf hSt
      rw [hSame.taskId]
      exact hId.symm
    obtain ⟨⟨hWrites, hAwake⟩, hOthers⟩ := hTurn.resolve_left (by
      rintro ⟨s, hS, ⟨⟨hId, hOf⟩, hSt⟩, hOpen⟩
      rw [hOld s hS (by simpa using hId) hOf hSt] at hOpen
      cases hOpen)
    obtain ⟨wake, hWake⟩ := dueWake_of_inTurn hIn hSame hCaller hEnd hAwake
      fun s hS hId hOf hLe => by
        rcases hOthers s hS with ((hEq | hNo) | hLt) | hDone
        · exact absurd hEq hId
        · rw [hOf] at hNo
          cases hNo
        · exact absurd hLe (UInt32.not_le.mpr hLt)
        · exact hDone
    obtain ⟨more, rfl⟩ : ∃ more, left = more + 1 := ⟨left - 1, by omega⟩
    simp only [ParentTask.hasChild, Bool.and_eq_true, decide_eq_true_eq] at hChild
    obtain ⟨w, hW, hTenant, hKey⟩ :=
      onTaskSettled_wakes now more (hSame.parentTaskId.trans hChild.2) hWake
    rw [hAfter] at hW
    refine ⟨w, hW, ?_⟩
    simp [ParentTask.isWake, hTenant, hChild.1, hKey, hSame.stage]
  · have hStored : ∀ s, after.Has s → p.ofCaller s → s.stage = stage → store.Has s := by
      intro s hS hOf hSt
      rcases has_putTask.mp (hCallers s hS hOf) with rfl | ⟨-, hOld⟩
      · exact absurd (hSt.symm.trans hSame.stage) hAt
      · exact hOld
    obtain ⟨w, hW, hWake⟩ := hKept stage ⟨c, hStored c hC hOfCaller hStage, hOfCaller, hStage⟩
      fun s hS hOf hSt => by
        refine hClosed s (hHas s (has_putTask.mpr (.inr ⟨fun hId => ?_, hS⟩))) hOf hSt
        rw [has_unique hIn hS (hSame.taskId.symm.trans hId)] at hAt
        exact hAt hSt.symm
    obtain ⟨w', hW', hSameW⟩ := kept_putTask hIn hSame w hW
    exact ⟨w', hHas w' hW', (isWake_eq hSameW stage).trans hWake⟩

/-! ## Whole histories -/

/-- **The step lemma of a history.** -/
theorem promise_next (event : QueueEvent) (hStaged : p.Staged store)
    (hTurn : p.inTurn store event) : p.Promise store (store.nextRouted event) := by
  obtain ⟨hFiled, hKept⟩ := hStaged
  simp only [ParentTask.inTurn, Bool.and_eq_true] at hTurn
  obtain ⟨⟨hFresh, hSpares⟩, hSettles⟩ := hTurn
  unfold JsonFileStore.nextRouted
  cases hOp : event.op.settles with
  | none =>
    rw [route_of_settles_eq_none hOp]
    obtain ⟨hCalm, hFiled', -, -⟩ :=
      calm_steps (reaches_run event.op event.now store event.writes) hOp hFiled hFresh hSpares
    exact ⟨⟨hFiled', hCalm.wakesKept hKept⟩, hCalm.wokenOnTime⟩
  | some target =>
    obtain ⟨tenant, taskId⟩ := target
    rcases route_cases hOp event.now event.writes store with
      hSame | ⟨t, t', left, hIn, hTenant, hWrites, hChange, hAfter⟩
    · rw [hSame]
      exact ⟨⟨hFiled, hKept⟩, .refl p store⟩
    · have hGet : store.getTask tenant taskId = some t := getTask_eq_some.mpr ⟨hIn, hTenant⟩
      cases Index.key_of_get? hIn
      cases hTenant
      obtain ⟨hProgress, hForm⟩ := hChange.progress (hFiled.form.tasks _ _ hIn)
      have hTurn : p.settlesInTurn store (left + 1) t := by
        simpa [hOp, hGet, hWrites] using hSettles
      rcases hAfter with ⟨hCategory, hAfter⟩ | hAfter
      · have hCalm : p.Calm store (store.putTask t') :=
          .of_changed hIn hProgress.same fun _ hEnd => by rwa [hCategory] at hEnd
        rw [hAfter]
        exact ⟨⟨hFiled.changed hIn hProgress.same hForm, hCalm.wakesKept hKept⟩,
          hCalm.wokenOnTime⟩
      · rw [hAfter]
        cases hCaller : p.ofCaller t with
        | false =>
          exact promise_of_other hFiled hKept hIn hProgress.same hForm hCaller hTurn event.now left
        | true =>
          exact promise_of_caller hFiled hKept hIn hProgress.same hForm hCaller hTurn event.now

theorem not_has_empty (t : TaskRecord) : ¬ ({} : JsonFileStore).Has t := by
  intro h
  cases h

theorem ParentTask.staged_empty (p : ParentTask) : p.Staged {} := by
  refine ⟨⟨storeForm_empty, fun id row hIn => ?_, fun t hIn => absurd hIn (not_has_empty t)⟩, ?_⟩
  · rw [show ({} : JsonFileStore).outbox = .empty from rfl, Index.get?_empty] at hIn
    cases hIn
  · rintro stage ⟨t, hIn, -⟩
    exact absurd hIn (not_has_empty t)

end

/-- **In a history whose stages close in turn** every closed stage of the caller has one wake,
and the next event brings no wake early. -/
theorem woken_of_inTurn (p : ParentTask) (history : List QueueEvent) (event : QueueEvent)
    (hHistory : Admissible JsonFileStore.nextRouted (fun store event => p.inTurn store event) {}
      history)
    (hEvent : p.inTurn (run JsonFileStore.nextRouted {} history) event) :
    p.Woken (run JsonFileStore.nextRouted {} history) ∧
      p.WokenOnTime (run JsonFileStore.nextRouted {} history)
        ((run JsonFileStore.nextRouted {} history).nextRouted event) := by
  have hStep : ∀ store event, p.Staged store → p.inTurn store event →
      p.Staged (store.nextRouted event) :=
    fun _ event hStaged hTurn => (promise_next event hStaged hTurn).1
  have hStaged := run_invariant hStep p.staged_empty hHistory
  exact ⟨hStaged.2.woken hStaged.1, (promise_next event hStaged hEvent).2⟩

/-- A plan that is assigned to the agent `lead`. -/
def planTask : NewTask :=
  { taskId := "plan", tenant := "acme", kind := "plan", recipient := some "agent:lead" }

def stepTask (taskId : String) (stage : UInt32) : NewTask :=
  { taskId, tenant := "acme", kind := "work", parentTaskId := some "plan", stage }

def settleStep (taskId : String) : QueueEvent := ⟨1, .cancel "acme" taskId, 2⟩

def twoStages : List QueueEvent :=
  [⟨0, .enqueue planTask, 1⟩, ⟨0, .enqueue (stepTask "draft" 0), 1⟩,
    ⟨0, .enqueue (stepTask "review" 1), 1⟩, settleStep "draft"]

/-- The wake of the first stage is settled before the second one closes. -/
theorem woken_twoStages :
    ParentTask.Woken ⟨"acme", "plan"⟩
        (run JsonFileStore.nextRouted {} (twoStages ++ [settleStep "acme--barrier--plan--0"])) ∧
      ParentTask.WokenOnTime ⟨"acme", "plan"⟩
        (run JsonFileStore.nextRouted {} (twoStages ++ [settleStep "acme--barrier--plan--0"]))
        ((run JsonFileStore.nextRouted {}
          (twoStages ++ [settleStep "acme--barrier--plan--0"])).nextRouted (settleStep "review")) :=
  woken_of_inTurn _ _ _
    ⟨by decide, by decide, by decide, by decide,
      by decide, trivial⟩ (by decide)

def secondStage : List QueueEvent :=
  [⟨0, .enqueue planTask, 1⟩, ⟨0, .enqueue (stepTask "review" 1), 1⟩, settleStep "review"]

theorem ParentTask.not_woken {p : ParentTask} {store : JsonFileStore} (stage : UInt32)
    (hChild : ∃ t ∈ store.tasks.values, p.ofCaller t ∧ t.stage = stage)
    (hClosed : ∀ t ∈ store.tasks.values, p.ofCaller t → t.stage ≤ stage →
      t.statusCategory.isTerminal)
    (hNone : ∀ t ∈ store.tasks.values, p.isWake stage t = false) : ¬ p.Woken store := by
  simp only [Index.mem_values_iff] at hChild hClosed hNone
  intro h
  obtain ⟨wake, ⟨hIn, hWake⟩, -⟩ := h stage hChild hClosed
  rw [hNone wake hIn] at hWake
  cases hWake

theorem ParentTask.not_wokenOnTime {p : ParentTask} {store after : JsonFileStore} (stage : UInt32)
    (hWake : ∃ t ∈ after.tasks.values, p.isWake stage t)
    (hOld : ∀ t ∈ store.tasks.values, p.isWake stage t = false)
    (hNone : ∀ t ∈ after.tasks.values, p.ofCaller t → t.stage ≠ stage) :
    ¬ p.WokenOnTime store after := by
  simp only [Index.mem_values_iff] at hWake hOld hNone
  intro h
  obtain ⟨wake, hIn, hWake⟩ := hWake
  rcases h stage wake hIn hWake with ⟨old, hOldIn, hOldWake⟩ | ⟨⟨t, hT, hCaller, hStage⟩, -⟩
  · rw [hOld old hOldIn] at hOldWake
    cases hOldWake
  · exact hNone t hT hCaller hStage

/-- The second stage closes while the wake of the first is queued: it has no wake, then or
later. And where the caller has no child of stage 0, the settlement of a wake gives one for
it. -/
theorem stage_without_wake :
    ¬ ParentTask.Woken ⟨"acme", "plan"⟩
        (run JsonFileStore.nextRouted {}
          (twoStages ++ [settleStep "review", settleStep "acme--barrier--plan--0"])) ∧
      ¬ ParentTask.WokenOnTime ⟨"acme", "plan"⟩ (run JsonFileStore.nextRouted {} secondStage)
        ((run JsonFileStore.nextRouted {} secondStage).nextRouted
          (settleStep "acme--barrier--plan--1")) :=
  ⟨ParentTask.not_woken 1 (by decide) (by decide) (by decide),
    ParentTask.not_wokenOnTime 0 (by decide) (by decide) (by decide)⟩

end RustyRuntime
