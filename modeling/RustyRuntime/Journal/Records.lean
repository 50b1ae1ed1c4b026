import RustyRuntime.Journal.Integrity

/-!
# What a list of records leaves in the journal

An event depends on the draft, the time, the identity of the run and its position, and on
nothing else of the journal (`eventOf`). So the events of a list of records are a function of
the list (`events_recordAll`), and each payload of the list is found again behind its
reference when no two of them share an address (`resolve_recordAll`).
-/

namespace RustyRuntime

/-! ## Events -/

section

variable (codec : Codec) (artifacts : Artifacts) (value : Json) (j : Journal)
  (runId threadId : String)

/-- The reference that storing a value gives. -/
def payloadOf : PayloadRef := (storePayload codec ∅ value).1

theorem fst_storePayload : (storePayload codec artifacts value).1 = payloadOf codec value := by
  unfold payloadOf storePayload
  dsimp only
  split
  · rfl
  · rfl

theorem fst_storeOptional (value : Option Json) :
    (storeOptional codec artifacts value).1 = value.map (payloadOf codec) := by
  cases value with
  | none => rfl
  | some v => exact congrArg some (fst_storePayload codec artifacts v)

/-- The event at position `n` of the journal of a run. -/
def eventOf (n : Nat) (draft : EventDraft) (now : Int) : RunEvent :=
  let seq := UInt64.ofNat n
  { id := s!"{runId}:{seq}", runId, threadId, nodeId := draft.nodeId, seq, kind := draft.kind
    effect := draft.effect, input := draft.input.map (payloadOf codec)
    output := draft.output.map (payloadOf codec), latencyMs := draft.latencyMs
    tokens := draft.tokens, costUsd := draft.costUsd, status := draft.status
    parent := draft.parent, recordedAt := now }

theorem events_record (draft : EventDraft) (now : Int) :
    (j.record codec draft now).2.events =
      j.events ++ [eventOf codec j.runId j.threadId j.events.length draft now] := by
  simp only [Journal.record, fst_storeOptional]
  rfl

@[simp]
theorem runId_record (draft : EventDraft) (now : Int) :
    (j.record codec draft now).2.runId = j.runId := rfl

@[simp]
theorem threadId_record (draft : EventDraft) (now : Int) :
    (j.record codec draft now).2.threadId = j.threadId := rfl

/-- The events of a list of records, the first at position `n`. -/
def eventsFrom (codec : Codec) (runId threadId : String) :
    Nat → List (EventDraft × Int) → List RunEvent
  | _, [] => []
  | n, (draft, now) :: rest =>
    eventOf codec runId threadId n draft now :: eventsFrom codec runId threadId (n + 1) rest

theorem length_eventsFrom (n : Nat) (records : List (EventDraft × Int)) :
    (eventsFrom codec runId threadId n records).length = records.length := by
  induction records generalizing n with
  | nil => rfl
  | cons r rest ih => simp [eventsFrom, ih]

theorem eventsFrom_append (n : Nat) (records more : List (EventDraft × Int)) :
    eventsFrom codec runId threadId n (records ++ more) =
      eventsFrom codec runId threadId n records ++
        eventsFrom codec runId threadId (n + records.length) more := by
  induction records generalizing n with
  | nil => rfl
  | cons r rest ih =>
    rw [List.cons_append, eventsFrom, ih, List.length_cons, Nat.add_right_comm n 1, Nat.add_assoc]
    rfl

end

variable {codec : Codec} {records : List (EventDraft × Int)} {address : String} {v : Json}

theorem eventsFrom_injective {runId threadId : String} {n : Nat}
    {records' : List (EventDraft × Int)} (hDrafts : records.map Prod.fst = records'.map Prod.fst)
    (hEvents : eventsFrom codec runId threadId n records =
      eventsFrom codec runId threadId n records') : records = records' := by
  induction records generalizing n records' with
  | nil => exact (List.map_eq_nil_iff.mp hDrafts.symm).symm
  | cons r rest ih =>
    cases records' with
    | nil => cases hDrafts
    | cons r' rest' =>
      simp only [List.map_cons, List.cons.injEq] at hDrafts
      simp only [eventsFrom, List.cons.injEq] at hEvents
      have hTime : r.2 = r'.2 := congrArg RunEvent.recordedAt hEvents.1
      rw [Prod.ext hDrafts.1 hTime, ih hDrafts.2 hEvents.2]

section

variable (codec : Codec) (j : Journal) (records : List (EventDraft × Int))

theorem recordAll_append (records more : List (EventDraft × Int)) :
    j.recordAll codec (records ++ more) = (j.recordAll codec records).recordAll codec more :=
  List.foldl_append

@[simp]
theorem runId_recordAll : (j.recordAll codec records).runId = j.runId := by
  induction records generalizing j with
  | nil => rfl
  | cons r rest ih => exact ih _

@[simp]
theorem threadId_recordAll : (j.recordAll codec records).threadId = j.threadId := by
  induction records generalizing j with
  | nil => rfl
  | cons r rest ih => exact ih _

theorem events_recordAll :
    (j.recordAll codec records).events =
      j.events ++ eventsFrom codec j.runId j.threadId j.events.length records := by
  induction records generalizing j with
  | nil => exact (List.append_nil _).symm
  | cons r rest ih =>
    have hRest := ih (j.record codec r.1 r.2).2
    rw [events_record, runId_record, threadId_record, List.length_append, List.append_assoc] at hRest
    exact hRest

/-! ## Payloads -/

def payloads : List Json :=
  records.flatMap fun r => r.1.input.toList ++ r.1.output.toList

def CollisionFree : Prop :=
  ∀ v ∈ payloads records, ∀ w ∈ payloads records,
    contentAddress codec v = contentAddress codec w → v = w

end

theorem artifacts_storeOptional {artifacts : Artifacts} {value : Option Json}
    (hGet : (storeOptional codec artifacts value).2[address]? = some v) :
    v ∈ value.toList ∨ artifacts[address]? = some v := by
  cases value with
  | none => exact .inr hGet
  | some w =>
    simp only [storeOptional, storePayload] at hGet
    split at hGet
    · exact .inr hGet
    · rw [Std.ExtTreeMap.getElem?_insertIfNew] at hGet
      split at hGet
      · cases hGet
        exact .inl List.mem_cons_self
      · exact .inr hGet

theorem artifacts_recordAll {j : Journal}
    (hGet : (j.recordAll codec records).artifacts[address]? = some v) :
    v ∈ payloads records ∨ j.artifacts[address]? = some v := by
  induction records generalizing j with
  | nil => exact .inr hGet
  | cons r rest ih =>
    rcases ih hGet with hRest | hRecord
    · exact .inl (List.mem_append_right _ hRest)
    · rcases artifacts_storeOptional hRecord with hOutput | hBefore
      · exact .inl (List.mem_append_left _ (List.mem_append_right _ hOutput))
      · rcases artifacts_storeOptional hBefore with hInput | hOld
        · exact .inl (List.mem_append_left _ (List.mem_append_left _ hInput))
        · exact .inr hOld

theorem payloadOf_mem (codec : Codec) (runId threadId : String) (n : Nat)
    (hMem : v ∈ payloads records) :
    ∃ e ∈ eventsFrom codec runId threadId n records, payloadOf codec v ∈ e.payloads := by
  induction records generalizing n with
  | nil => cases hMem
  | cons r rest ih =>
    rcases List.mem_append.mp hMem with hHere | hRest
    · refine ⟨_, List.mem_cons_self, ?_⟩
      simp only [RunEvent.payloads, eventOf, Option.toList_map, ← List.map_append]
      exact List.mem_map_of_mem hHere
    · obtain ⟨e, hE, hPayload⟩ := ih (n + 1) hRest
      exact ⟨e, List.mem_cons_of_mem _ hE, hPayload⟩

/-- **A recorded payload is found behind its reference.** -/
theorem resolve_recordAll (runId threadId : String) (hFree : CollisionFree codec records)
    (hMem : v ∈ payloads records) :
    ((Journal.new codec runId threadId).recordAll codec records).resolve (payloadOf codec v) =
      some v := by
  have hComplete := complete_recordAll codec runId threadId records
  have hAddressed :=
    (recorded_recordAll (recorded_new codec runId threadId) records).addressed
  obtain ⟨e, hE, hPayload⟩ := payloadOf_mem codec runId threadId 0 hMem
  have hEvent : e ∈ ((Journal.new codec runId threadId).recordAll codec records).events := by
    rw [events_recordAll]
    exact hE
  have hPresent := hComplete e hEvent
  generalize hJ : (Journal.new codec runId threadId).recordAll codec records = j at *
  unfold payloadOf storePayload at hPayload ⊢
  dsimp only at hPayload ⊢
  split at hPayload
  · next hSmall => rw [if_pos hSmall, Journal.resolve]
  · next hLarge =>
    rw [if_neg hLarge, Journal.resolve]
    have hKey : contentAddress codec v ∈ j.artifacts := hPresent _ hPayload
    obtain ⟨w, hW⟩ := Option.isSome_iff_exists.mp (Std.ExtTreeMap.mem_iff_isSome_getElem?.mp hKey)
    have hWithin : w ∈ payloads records := by
      rw [← hJ] at hW
      rcases artifacts_recordAll hW with hIn | hNone
      · exact hIn
      · simp [Journal.new] at hNone
    have hSame : v = w := hFree v hMem w hWithin (hAddressed _ _ hW).symm
    subst hSame
    exact hW

end RustyRuntime
