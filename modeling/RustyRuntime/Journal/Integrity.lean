import RustyRuntime.Journal.Snapshot

/-!
# Integrity of the journal

A snapshot with other events is refused, because the head commits to the events
(`sameEvents_of_head_eq`, by the chain of the library). `recordAll_loads_unedited` joins this
with the round trips, for every sequence of records.

The head says nothing about the artifact map. `payloadsIntact_iff` is the check that loading a
snapshot would have to make for its payload references to be intact. A recorded journal has
every value its events refer to (`complete_recordAll`).
-/

namespace RustyRuntime

/-! ## Edited events -/

/-- Equality of event lists up to the order of the keys in inline payloads, which is no part
of a JSON value. -/
def SameEvents (events events' : List RunEvent) : Prop :=
  events.map canonicalizedForHash = events'.map canonicalizedForHash

theorem recomputeHeadHash_eq_chainHead (codec : Codec) (events : List RunEvent) :
    recomputeHeadHash codec events =
      Library.chainHead codec.sha256Hex (linkBytes codec) [] (events.map canonicalizedForHash) := by
  simp only [recomputeHeadHash, Library.chainHead, Library.chainFrom, List.foldl_map]
  rfl

def hashInputs (codec : Codec) (events : List RunEvent) : List Bytes :=
  Library.chainInputs codec.sha256Hex (linkBytes codec) [] (events.map canonicalizedForHash)

/-- What the head's commitment needs of SHA-256 and of the serializer, for two event lists:
digests of 64 bytes, no collision among what is hashed, events that parse back, and
timestamps with different texts. -/
structure ChainSound (codec : Codec) (events events' : List RunEvent) : Prop where
  digestLength : ∀ b, (Json.utf8 (codec.sha256Hex b)).length = 64
  collisionFree : Set.InjOn codec.sha256Hex
    {b | b ∈ hashInputs codec events ∨ b ∈ hashInputs codec events'}
  roundTrip : ∀ e ∈ events ++ events', codec.fromSlice (codec.toVec
    (eventJson codec (canonicalizedForHash e))) = some (eventJson codec (canonicalizedForHash e))
  timestamps : ∀ e ∈ events, ∀ e' ∈ events',
    codec.timestamp e.recordedAt = codec.timestamp e'.recordedAt → e.recordedAt = e'.recordedAt

variable {codec : Codec} {events events' : List RunEvent} {s : JournalSnapshot} {address : String}
  {artifacts : Artifacts}

/-- A link splits into the digest before it, which has a fixed length, and the event. -/
theorem linkBytes_inj (h : ChainSound codec events events') (b b' : Bytes) {e e' : RunEvent}
    (hE : e ∈ events) (hE' : e' ∈ events')
    (hEq : linkBytes codec (codec.sha256Hex b) (canonicalizedForHash e) =
      linkBytes codec (codec.sha256Hex b') (canonicalizedForHash e')) :
    codec.sha256Hex b = codec.sha256Hex b' ∧ canonicalizedForHash e = canonicalizedForHash e' := by
  obtain ⟨hDigest, hEvent⟩ := List.append_inj hEq
    ((h.digestLength b).trans (h.digestLength b').symm)
  refine ⟨Json.utf8_injective hDigest, eventJson_injective (h.timestamps e hE e' hE') ?_⟩
  have hParse := congrArg codec.fromSlice hEvent
  rw [h.roundTrip e (List.mem_append_left _ hE), h.roundTrip e' (List.mem_append_right _ hE')]
    at hParse
  exact Option.some.inj hParse

/-- **The head commits to the events.** -/
theorem sameEvents_of_head_eq (h : ChainSound codec events events')
    (hHead : recomputeHeadHash codec events = recomputeHeadHash codec events') :
    SameEvents events events' := by
  rw [recomputeHeadHash_eq_chainHead, recomputeHeadHash_eq_chainHead] at hHead
  refine Library.chainHead_injective h.collisionFree ?_ ?_ hHead
  · intro b b' x hX y hY hEq
    obtain ⟨e, hE, rfl⟩ := List.mem_map.mp hX
    obtain ⟨e', hE', rfl⟩ := List.mem_map.mp hY
    exact linkBytes_inj h b b' hE hE' hEq
  · intro b e hEmpty
    have hLength := h.digestLength b
    rw [(List.append_eq_nil_iff.mp hEmpty).1] at hLength
    cases hLength

theorem fromSnapshot_refuses (hHead : recomputeHeadHash codec s.events ≠ s.headHash) :
    ∃ error, Journal.fromSnapshot codec s = .error error := by
  unfold Journal.fromSnapshot
  split
  · exact ⟨_, rfl⟩
  · dsimp only
    rw [if_pos hHead]
    exact ⟨_, rfl⟩

theorem fromSnapshotWithStore_refuses (hHead : recomputeHeadHash codec s.events ≠ s.headHash)
    (store : ArtifactStore) :
    ∃ error, Journal.fromSnapshotWithStore codec s store = .error error := by
  unfold Journal.fromSnapshotWithStore
  split
  · exact ⟨_, rfl⟩
  · exact fromSnapshot_refuses hHead

/-! ## A journal with one large payload

The sample is a function of its payload, of which only the length is used. -/

def emptyDigest : String := "e3b0c44298fc1c149afbf4c8996fb92427ae41e4649b934ca495991b7852b855"

/-- The SHA-256 of 4096 times the letter `x`, in quotes. -/
def sampleAddress : String := "7f7531f0adf93194f8cc5ae6be03bfb000b4621fb0bebaa53cecfb1e48a68bcd"

variable (status : EventStatus)

def sampleEvent : RunEvent :=
  { id := "r:0", runId := "r", threadId := "t", nodeId := some "fetch", seq := 0
    kind := .toolCall, effect := .readOnly, input := none
    output := some (.artifact ⟨sampleAddress, 4098⟩), latencyMs := none, tokens := none
    costUsd := none, status, parent := none, recordedAt := 0 }

def sampleWriter : Codec where
  toVec := Json.compact
  fromSlice _ := none
  sha256Hex _ := ""
  timestamp _ := "1970-01-01T00:00:00Z"

/-- What is hashed for the event: the digest of nothing, then its compact JSON text. -/
def sampleLink : Bytes :=
  linkBytes sampleWriter emptyDigest (sampleEvent status)

/-- SHA-256 on the inputs of the sample. -/
def sampleDigests (payload : Json) : List (Bytes × String) :=
  [([], emptyDigest),
   (sampleLink .ok, "f49bbc4ce4995851a1d71193ee7609cb55c1fa20e2fd52911fd71db9acce62cf"),
   (sampleLink .error, "d96d4a5645364f4802fb88648a83f2a8ca0ceb8ddfa639407817311da15185d0"),
   (payload.compact, sampleAddress)]

def sampleCodec (payload : Json) : Codec :=
  { sampleWriter with
    sha256Hex := fun b =>
      ((sampleDigests payload).lookup b).getD (String.ofList (List.replicate 64 '0'))
    fromSlice := fun bytes =>
      [eventJson sampleWriter (sampleEvent .ok), eventJson sampleWriter (sampleEvent .error),
        payload].find? fun value => value.compact = bytes }

def sampleDraft (payload : Json) : EventDraft :=
  { kind := .toolCall, effect := .readOnly, nodeId := some "fetch", output := some payload }

def sampleJournal (payload : Json) : Journal :=
  ⟨"r", "t", [sampleEvent .ok], (∅ : Artifacts).insertIfNew sampleAddress payload,
    "f49bbc4ce4995851a1d71193ee7609cb55c1fa20e2fd52911fd71db9acce62cf"⟩

theorem length_compact_replicate (n : Nat) :
    (Json.compact (.str (String.ofList (List.replicate n 'x')))).length = n + 2 := by
  have hEscape : (Json.escapeChar 'x').length = 1 := by decide
  have hQuote : (Json.utf8 "\"").length = 1 := by decide
  simp [Json.compact, Json.quote, List.length_flatMap, hEscape, hQuote]
  omega

theorem exists_samplePayload :
    ∃ payload, payload = Json.str (String.ofList (List.replicate 4096 'x')) ∧
      payload.compact.length = 4098 :=
  ⟨_, rfl, length_compact_replicate 4096⟩

theorem length_sampleText :
    (eventJson sampleWriter (sampleEvent status)).compact.length = 359 + status.name.length := by
  cases status <;> decide +kernel

theorem length_sampleLink : (sampleLink status).length = 423 + status.name.length := by
  have hDigest : (Json.utf8 emptyDigest).length = 64 := by decide
  have hText := length_sampleText status
  rw [sampleLink, linkBytes, List.length_append, hDigest]
  change 64 + (eventJson sampleWriter (sampleEvent status)).compact.length = _
  omega

section Sample

variable {payload : Json} (hLength : payload.compact.length = 4098)

theorem linkBytes_sample (status : EventStatus) :
    linkBytes (sampleCodec payload) emptyDigest (canonicalizedForHash (sampleEvent status)) =
      sampleLink status :=
  rfl

theorem sha256Hex_sampleLink (payload : Json) :
    (sampleCodec payload).sha256Hex (sampleLink .ok) = (sampleJournal payload).headHash ∧
    (sampleCodec payload).sha256Hex (sampleLink .error) =
      "d96d4a5645364f4802fb88648a83f2a8ca0ceb8ddfa639407817311da15185d0" := by
  have hNe : ∀ b b' : Bytes, b.length ≠ b'.length → (b == b') = false :=
    fun b b' hB => beq_false_of_ne fun h => hB (congrArg List.length h)
  have hOk : (sampleLink .ok == []) = false := hNe _ _ (by rw [length_sampleLink]; decide)
  have hError : (sampleLink .error == []) = false := hNe _ _ (by rw [length_sampleLink]; decide)
  have hOther : (sampleLink .error == sampleLink .ok) = false :=
    hNe _ _ (by rw [length_sampleLink, length_sampleLink]; decide)
  simp only [sampleCodec, sampleDigests, sampleJournal, List.lookup, hOk, hError, hOther,
    beq_self_eq_true, Option.getD_some, and_self]

include hLength in
theorem sha256Hex_samplePayload :
    (sampleCodec payload).sha256Hex payload.compact = sampleAddress := by
  have hNe : ∀ b : Bytes, b.length ≠ 4098 → (payload.compact == b) = false := by
    rintro b hB
    exact beq_false_of_ne fun h => hB (h ▸ hLength)
  simp only [sampleCodec, sampleDigests, List.lookup, hNe [] (by decide),
    hNe (sampleLink .ok) (by rw [length_sampleLink]; decide),
    hNe (sampleLink .error) (by rw [length_sampleLink]; decide),
    beq_self_eq_true, Option.getD_some]

include hLength in
theorem recordAll_sample : (Journal.new (sampleCodec payload) "r" "t").recordAll
    (sampleCodec payload) [(sampleDraft payload, 0)] = sampleJournal payload := by
  have hBytes : (sampleCodec payload).toVec payload = payload.compact := rfl
  have hStored : storePayload (sampleCodec payload) ∅ payload =
      (.artifact ⟨sampleAddress, 4098⟩, (∅ : Artifacts).insertIfNew sampleAddress payload) := by
    simp only [storePayload, hBytes, hLength, sha256Hex_samplePayload hLength,
      inlinePayloadMaxBytes]
    rfl
  have hHead : chainedHash (sampleCodec payload) emptyDigest (sampleEvent .ok) =
      (sampleJournal payload).headHash := by
    rw [chainedHash, linkBytes_sample, (sha256Hex_sampleLink payload).1]
  have hId : toString "r" ++ toString ":" ++ toString (UInt64.ofNat 0) = "r:0" := by decide
  simp only [Journal.recordAll, Journal.new, Journal.record, sampleDraft, List.foldl_cons,
    List.foldl_nil, storeOptional, hStored, List.length_nil, hId, List.nil_append]
  exact congrArg (Journal.mk "r" "t" [sampleEvent .ok] _) hHead

include hLength in
theorem recorded_sample : Recorded (sampleCodec payload) (sampleJournal payload) :=
  recordAll_sample hLength ▸ recorded_recordAll (recorded_new _ "r" "t") _

theorem eq_of_getElem?_sample {address : String} {value : Json}
    (h : (sampleJournal payload).artifacts[address]? = some value) : value = payload := by
  simp only [sampleJournal, Std.ExtTreeMap.getElem?_insertIfNew] at h
  split at h
  · exact (Option.some.inj h).symm
  · simp at h

include hLength in
theorem intact_sample : ∀ e ∈ (sampleJournal payload).events, ∀ reference,
    .artifact reference ∈ e.payloads → ∃ value,
      (sampleJournal payload).artifacts[reference.sha256]? = some value ∧
        contentAddress (sampleCodec payload) value = reference.sha256 := by
  intro e hE reference hMem
  rw [List.mem_singleton.mp hE] at hMem
  cases List.mem_singleton.mp hMem
  refine ⟨payload, ?_, sha256Hex_samplePayload hLength⟩
  rw [sampleJournal, Std.ExtTreeMap.getElem?_insertIfNew, if_pos (by simp)]

include hLength in
theorem storeSound_sample :
    StoreSound (sampleCodec payload) (sampleJournal payload).artifacts ⟨∅⟩ where
  intact address bytes h := by simp at h
  collisionFree := by
    have hOnly : ∀ b ∈ storeBytes (sampleCodec payload) (sampleJournal payload).artifacts ⟨∅⟩,
        b = payload.compact := by
      rintro b (⟨address, h⟩ | ⟨address, h⟩)
      · simp at h
      · obtain ⟨value, hGet, rfl⟩ := Option.map_eq_some_iff.mp h
        rw [eq_of_getElem?_sample hGet]
        rfl
    intro b hB b' hB' _
    rw [hOnly b hB, hOnly b' hB']
  roundTrip address value h := by
    rw [eq_of_getElem?_sample h]
    have hNe : ∀ status, (eventJson sampleWriter (sampleEvent status)).compact ≠
        payload.compact := by
      intro status hEq
      have hOther := congrArg List.length hEq
      rw [hLength, length_sampleText] at hOther
      revert hOther
      cases status <;> decide
    have hBytes : (sampleCodec payload).toVec payload = payload.compact := rfl
    rw [hBytes]
    simp [sampleCodec, hNe]

theorem hashInputs_sample (status : EventStatus) :
    hashInputs (sampleCodec payload) [sampleEvent status] = [[], sampleLink status] := by
  have hEmpty : (sampleCodec payload).sha256Hex [] = emptyDigest := rfl
  simp only [hashInputs, Library.chainInputs, Library.inputsFrom, List.map_cons, List.map_nil,
    hEmpty, linkBytes_sample]

theorem chainSound_sample : ChainSound (sampleCodec payload) [sampleEvent .error]
    (sampleJournal payload).events where
  digestLength b := by
    simp only [sampleCodec, sampleDigests, List.lookup]
    repeat' split
    all_goals decide
  collisionFree := by
    have hEmpty : (sampleCodec payload).sha256Hex [] = emptyDigest := rfl
    obtain ⟨hOk, hError⟩ := sha256Hex_sampleLink payload
    simp only [sampleJournal, hashInputs_sample]
    rintro a hA b hB hEq
    simp only [List.mem_cons, List.not_mem_nil, or_false, Set.mem_ofPred_eq] at hA hB
    rcases hA with (rfl | rfl) | rfl | rfl <;> rcases hB with (rfl | rfl) | rfl | rfl <;>
      first
      | with_reducible rfl
      | (simp only [hEmpty, hOk, hError, sampleJournal] at hEq
         exact absurd hEq (by decide))
  roundTrip e hE := by
    have hNe : (eventJson sampleWriter (sampleEvent .ok)).compact ≠
        (eventJson sampleWriter (sampleEvent .error)).compact := by
      intro hEq
      have hSame := congrArg List.length hEq
      rw [length_sampleText, length_sampleText] at hSame
      exact absurd hSame (by decide)
    rcases List.mem_cons.mp hE with rfl | hRest
    · change (sampleCodec payload).fromSlice
        (eventJson sampleWriter (sampleEvent .error)).compact = _
      simp [sampleCodec, hNe]
      rfl
    · rw [List.mem_singleton.mp hRest]
      change (sampleCodec payload).fromSlice (eventJson sampleWriter (sampleEvent .ok)).compact = _
      simp [sampleCodec]
      rfl
  timestamps e hE e' hE' _ := by
    rw [List.mem_singleton.mp hE, List.mem_singleton.mp hE', sampleEvent, sampleEvent]

theorem chainSound_sample_self : ChainSound (sampleCodec payload)
    (sampleJournal payload).events (sampleJournal payload).events where
  digestLength := chainSound_sample.digestLength
  collisionFree := by
    apply chainSound_sample.collisionFree.mono
    rintro b (hB | hB) <;> exact .inr hB
  roundTrip e hE := by
    apply chainSound_sample.roundTrip e
    rcases List.mem_append.mp hE with hIn | hIn <;> exact List.mem_append_right _ hIn
  timestamps e hE e' hE' _ := by
    rw [List.mem_singleton.mp hE, List.mem_singleton.mp hE']

end Sample

/-- **Journals are sound.** For every sequence of records: events are numbered by position,
the running head is the recomputed one, the snapshot loads back inline and through a store,
and with other events both forms of it are refused. -/
theorem recordAll_loads_unedited (codec : Codec) (runId threadId : String)
    (records : List (EventDraft × Int)) :
    let j := (Journal.new codec runId threadId).recordAll codec records
    (∀ i e, j.events[i]? = some e → e.seq = UInt64.ofNat i) ∧
      j.headHash = recomputeHeadHash codec j.events ∧
      (∃ loaded, Journal.fromSnapshot codec j.snapshot = .ok loaded ∧ SameJournal j loaded) ∧
      (∀ store, StoreSound codec j.artifacts store →
        let external := j.snapshotExternalized codec store
        ∃ loaded, Journal.fromSnapshotWithStore codec external.1 external.2 = .ok loaded ∧
          SameJournal j loaded) ∧
      ∀ events, ChainSound codec events j.events → ¬ SameEvents events j.events →
        (∃ error, Journal.fromSnapshot codec { j.snapshot with events } = .error error) ∧
        ∀ store, let external := j.snapshotExternalized codec store
          ∃ error, Journal.fromSnapshotWithStore codec { external.1 with events } external.2 =
            .error error := by
  intro j
  have hRecorded : Recorded codec j :=
    recorded_recordAll (recorded_new codec runId threadId) records
  refine ⟨hRecorded.seq, hRecorded.head, fromSnapshot_snapshot hRecorded, ?_, ?_⟩
  · intro store hStore
    exact ⟨j, fromSnapshotWithStore_externalized hRecorded hStore, rfl, rfl, fun _ => rfl⟩
  · intro events hSound hEdited
    have hHead : recomputeHeadHash codec events ≠ j.headHash := fun hEq =>
      hEdited (sameEvents_of_head_eq hSound (hEq.trans hRecorded.head))
    exact ⟨fromSnapshot_refuses hHead, fun store => fromSnapshotWithStore_refuses hHead _⟩

theorem recordAll_loads_unedited_sample :
    ∃ payload, payload = Json.str (String.ofList (List.replicate 4096 'x')) ∧
      let codec := sampleCodec payload
      let j := (Journal.new codec "r" "t").recordAll codec [(sampleDraft payload, 0)]
      let external := j.snapshotExternalized codec ⟨∅⟩
      j = sampleJournal payload ∧
      (∃ loaded, Journal.fromSnapshotWithStore codec external.1 external.2 = .ok loaded ∧
        SameJournal j loaded) ∧
      ∃ error, Journal.fromSnapshot codec
        { j.snapshot with events := [sampleEvent .error] } = .error error := by
  obtain ⟨payload, hPayload, hLength⟩ := exists_samplePayload
  obtain ⟨-, -, -, hStore, hEdited⟩ :=
    recordAll_loads_unedited (sampleCodec payload) "r" "t" [(sampleDraft payload, 0)]
  have hJournal := recordAll_sample hLength
  have hOther : ¬ SameEvents [sampleEvent .error] (sampleJournal payload).events := by
    simp [SameEvents, sampleJournal, canonicalizedForHash, sampleEvent]
  refine ⟨payload, hPayload, hJournal, hStore ⟨∅⟩ ?_, (hEdited _ ?_ ?_).1⟩
  · exact hJournal ▸ storeSound_sample hLength
  · exact hJournal ▸ chainSound_sample
  · exact hJournal ▸ hOther

/-! ## Payload references -/

def referenced (events : List RunEvent) (address : String) : Bool :=
  events.any fun e => e.payloads.any fun
    | .artifact reference => reference.sha256 == address
    | .inline _ => false

theorem referenced_iff :
    referenced events address ↔ ∃ e ∈ events, ∃ reference : ArtifactRef,
      .artifact reference ∈ e.payloads ∧ reference.sha256 = address := by
  simp only [referenced, List.any_eq_true]
  refine exists_congr fun e => and_congr_right fun _ => ?_
  constructor
  · rintro ⟨payload, hMem, hMatch⟩
    cases payload with
    | inline value => cases hMatch
    | artifact reference => exact ⟨reference, hMem, eq_of_beq hMatch⟩
  · rintro ⟨reference, hMem, rfl⟩
    exact ⟨_, hMem, beq_self_eq_true _⟩

def JournalSnapshot.pruned (s : JournalSnapshot) : JournalSnapshot :=
  { s with artifacts := s.artifacts.filter fun address _ => referenced s.events address }

theorem getElem?_pruned (s : JournalSnapshot) (address : String) :
    s.pruned.artifacts[address]? =
      if referenced s.events address then s.artifacts[address]? else none := by
  rw [JournalSnapshot.pruned, Std.ExtTreeMap.getElem?_filter']
  cases s.artifacts[address]? <;> simp [Option.filter]

theorem verifyArtifact_eq_ok_iff {entry : String × Json} :
    verifyArtifact codec entry = .ok () ↔ contentAddress codec entry.2 = entry.1 := by
  simp only [verifyArtifact]
  split <;> simp_all

theorem verifyReference_eq_ok_iff {e : RunEvent} {payload : PayloadRef} :
    verifyReference artifacts e payload = .ok () ↔
      ∀ reference, payload = .artifact reference → reference.sha256 ∈ artifacts := by
  cases payload with
  | inline value => simp [verifyReference]
  | artifact reference =>
    simp only [verifyReference, Std.ExtTreeMap.contains_iff_mem]
    split <;> simp_all

theorem verifySnapshot_eq_ok_iff :
    verifySnapshot codec s = .ok () ↔ (∃ j, Journal.fromSnapshot codec s = .ok j) ∧
      Addressed codec s.artifacts ∧
      ∀ e ∈ s.events, ∀ reference, .artifact reference ∈ e.payloads →
        reference.sha256 ∈ s.artifacts := by
  unfold verifySnapshot
  cases hLoad : Journal.fromSnapshot codec s with
  | error error => simp [bind, Except.bind]
  | ok j =>
    have hArtifacts : s.artifacts.toList.forM (verifyArtifact codec) = .ok () ↔
        Addressed codec s.artifacts := by
      simp only [forM_eq_ok_iff, verifyArtifact_eq_ok_iff, Prod.forall,
        Std.ExtTreeMap.mem_toList_iff_getElem?_eq_some, Addressed]
    have hReferences : (s.events.forM fun e => e.payloads.forM (verifyReference s.artifacts e)) =
        .ok () ↔ ∀ e ∈ s.events, ∀ reference, .artifact reference ∈ e.payloads →
          reference.sha256 ∈ s.artifacts := by
      simp only [forM_eq_ok_iff, verifyReference_eq_ok_iff]
      exact forall₂_congr fun e _ =>
        ⟨fun h r hMem => h _ hMem r rfl, fun h _ hMem r hEq => h r (hEq ▸ hMem)⟩
    rw [← hArtifacts, ← hReferences]
    cases s.artifacts.toList.forM (verifyArtifact codec) with
    | error error | ok u => simp [bind, Except.bind]

/-- What the check of the replay path says of the artifacts that the events refer to. -/
theorem verifySnapshot_pruned_iff (hRefs : s.artifactRefs = ∅)
    (hHead : recomputeHeadHash codec s.events = s.headHash) :
    verifySnapshot codec s.pruned = .ok () ↔
      ∀ e ∈ s.events, ∀ reference, .artifact reference ∈ e.payloads →
        ∃ value, s.artifacts[reference.sha256]? = some value ∧
          contentAddress codec value = reference.sha256 := by
  have hPruned : ∃ j, Journal.fromSnapshot codec s.pruned = .ok j :=
    ⟨_, fromSnapshot_eq_ok_iff.mpr ⟨hRefs, hHead, rfl⟩⟩
  rw [verifySnapshot_eq_ok_iff, and_iff_right hPruned]
  constructor
  · rintro ⟨hAddressed, hPresent⟩ e hE reference hMem
    have hSome := hPresent e hE reference hMem
    rw [Std.ExtTreeMap.mem_iff_isSome_getElem?] at hSome
    obtain ⟨value, hValue⟩ := Option.isSome_iff_exists.mp hSome
    refine ⟨value, ?_, hAddressed _ _ hValue⟩
    rw [getElem?_pruned, if_pos (referenced_iff.mpr ⟨e, hE, reference, hMem, rfl⟩)] at hValue
    exact hValue
  · intro hIntact
    constructor
    · intro address value hGet
      rw [getElem?_pruned] at hGet
      split at hGet
      · next hReferenced =>
        obtain ⟨e, hE, reference, hMem, rfl⟩ := referenced_iff.mp hReferenced
        obtain ⟨found, hFound, hAddress⟩ := hIntact e hE reference hMem
        cases hFound.symm.trans hGet
        exact hAddress
      · cases hGet
    · intro e hE reference hMem
      obtain ⟨found, hFound, -⟩ := hIntact e hE reference hMem
      have hReferenced : referenced s.events reference.sha256 :=
        referenced_iff.mpr ⟨e, hE, reference, hMem, rfl⟩
      rw [Std.ExtTreeMap.mem_iff_isSome_getElem?, getElem?_pruned, if_pos hReferenced]
      exact Option.isSome_iff_exists.mpr ⟨found, hFound⟩

/-- **Intact payloads.** In a snapshot that loads, every payload reference resolves to a value
with that address exactly when the snapshot, without unreferenced artifacts, also passes the
check of the replay path. -/
theorem payloadsIntact_iff {codec : Codec} {s : JournalSnapshot} {j : Journal}
    (hLoad : Journal.fromSnapshot codec s = .ok j) :
    (∀ e ∈ j.events, ∀ reference, .artifact reference ∈ e.payloads →
      ∃ value, j.resolve (.artifact reference) = some value ∧
        contentAddress codec value = reference.sha256) ↔
    verifySnapshot codec s.pruned = .ok () := by
  obtain ⟨hRefs, hHead, rfl⟩ := fromSnapshot_eq_ok_iff.mp hLoad
  exact (verifySnapshot_pruned_iff hRefs hHead).symm

theorem payloadsIntact_iff_sample :
    ∃ payload, payload = Json.str (String.ofList (List.replicate 4096 'x')) ∧
      let s := (sampleJournal payload).snapshot
      Journal.fromSnapshot (sampleCodec payload) s = .ok (sampleJournal payload) ∧
      verifySnapshot (sampleCodec payload) s.pruned = .ok () := by
  obtain ⟨payload, hPayload, hLength⟩ := exists_samplePayload
  have hLoad : Journal.fromSnapshot (sampleCodec payload) (sampleJournal payload).snapshot =
      .ok (sampleJournal payload) :=
    fromSnapshot_eq_ok_iff.mpr ⟨rfl, (recorded_sample hLength).head.symm, rfl⟩
  exact ⟨payload, hPayload, hLoad, (payloadsIntact_iff hLoad).mp (intact_sample hLength)⟩

/-- The recorded snapshot with its only artifact removed is loaded, and the reference of its
event resolves to nothing. -/
theorem fromSnapshot_accepts_truncated :
    ∃ payload, payload = Json.str (String.ofList (List.replicate 4096 'x')) ∧
      let s := { (sampleJournal payload).snapshot with artifacts := ∅ }
      ∃ j, Journal.fromSnapshot (sampleCodec payload) s = .ok j ∧ sampleEvent .ok ∈ j.events ∧
        .artifact ⟨sampleAddress, 4098⟩ ∈ (sampleEvent .ok).payloads ∧
        j.resolve (.artifact ⟨sampleAddress, 4098⟩) = none := by
  obtain ⟨payload, hPayload, hLength⟩ := exists_samplePayload
  refine ⟨payload, hPayload, _,
    fromSnapshot_eq_ok_iff.mpr ⟨rfl, (recorded_sample hLength).head.symm, rfl⟩,
    List.mem_singleton_self _, List.mem_singleton_self _, ?_⟩
  simp [Journal.resolve]

/-! ## References of a recorded journal -/

def Complete (j : Journal) : Prop :=
  ∀ e ∈ j.events, ∀ reference, .artifact reference ∈ e.payloads → reference.sha256 ∈ j.artifacts

theorem mem_storeOptional (h : address ∈ artifacts) (value : Option Json) :
    address ∈ (storeOptional codec artifacts value).2 := by
  cases value with
  | none => exact h
  | some v =>
    simp only [storeOptional, storePayload]
    split
    · exact h
    · exact Std.ExtTreeMap.mem_insertIfNew.mpr (.inr h)

theorem storeOptional_present {value : Option Json} {reference : ArtifactRef}
    (h : .artifact reference ∈ (storeOptional codec artifacts value).1.toList) :
    reference.sha256 ∈ (storeOptional codec artifacts value).2 := by
  cases value with
  | none => cases h
  | some v =>
    simp only [storeOptional, storePayload] at h ⊢
    split at h
    · simp at h
    · rename_i hLarge
      rw [if_neg hLarge]
      cases List.mem_singleton.mp h
      exact Std.ExtTreeMap.mem_insertIfNew_self

theorem complete_record {j : Journal} (h : Complete j) (draft : EventDraft) (now : Int) :
    Complete (j.record codec draft now).2 := by
  intro e hE reference hMem
  rcases List.mem_append.mp hE with hOld | hNew
  · exact mem_storeOptional (mem_storeOptional (h e hOld reference hMem) draft.input) draft.output
  · rw [List.mem_singleton.mp hNew, RunEvent.payloads] at hMem
    rcases List.mem_append.mp hMem with hInput | hOutput
    · exact mem_storeOptional (storeOptional_present hInput) draft.output
    · exact storeOptional_present hOutput

theorem complete_recordAll (codec : Codec) (runId threadId : String)
    (records : List (EventDraft × Int)) :
    Complete ((Journal.new codec runId threadId).recordAll codec records) := by
  refine List.foldlRecOn (motive := Complete) records _ ?_ fun j h r _ => complete_record h r.1 r.2
  intro e hE
  cases hE

end RustyRuntime
