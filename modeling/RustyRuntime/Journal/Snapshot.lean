import RustyRuntime.Journal.Basic

/-!
# Recorded journals and their snapshots

* Every recorded journal satisfies `Recorded`: events are numbered by position, the head is
  the one recomputed from the events, and artifacts sit under their own address.
* A snapshot, inline or through an artifact store, loads back to the same events, head and
  payloads (`fromSnapshot_snapshot`, `fromSnapshotWithStore_externalized`).

What is assumed of SHA-256 and of the serializer is asked for the byte strings at hand.
-/

namespace RustyRuntime


/-! ## Recorded journals -/

/-- The artifact map holds values under their own address. -/
def Addressed (codec : Codec) (artifacts : Artifacts) : Prop :=
  ∀ address value, artifacts[address]? = some value → contentAddress codec value = address

structure Recorded (codec : Codec) (j : Journal) : Prop where
  seq : ∀ i e, j.events[i]? = some e → e.seq = UInt64.ofNat i
  head : j.headHash = recomputeHeadHash codec j.events
  addressed : Addressed codec j.artifacts

theorem recorded_new (codec : Codec) (runId threadId : String) :
    Recorded codec (.new codec runId threadId) where
  seq i e h := by simp [Journal.new] at h
  head := rfl
  addressed address value h := by simp [Journal.new] at h

variable {codec : Codec} {artifacts : Artifacts} {j : Journal} {bytes : Set Bytes}
  {store : ArtifactStore} {b : Bytes}

theorem addressed_storePayload (h : Addressed codec artifacts) (value : Json) :
    Addressed codec (storePayload codec artifacts value).2 := by
  unfold storePayload
  dsimp only
  split
  · exact h
  · intro address found hGet
    rw [Std.ExtTreeMap.getElem?_insertIfNew] at hGet
    split at hGet
    · next hNew =>
      cases hGet
      exact Std.LawfulEqCmp.eq_of_compare hNew.1
    · exact h address found hGet

theorem addressed_storeOptional (h : Addressed codec artifacts) (value : Option Json) :
    Addressed codec (storeOptional codec artifacts value).2 := by
  cases value with
  | none => exact h
  | some v => exact addressed_storePayload h v

theorem recomputeHeadHash_append (codec : Codec) (events : List RunEvent) (e : RunEvent) :
    recomputeHeadHash codec (events ++ [e]) =
      chainedHash codec (recomputeHeadHash codec events) e := by
  simp [recomputeHeadHash]

/-- **Recording keeps the journal's invariant.** -/
theorem recorded_record (h : Recorded codec j) (draft : EventDraft) (now : Int) :
    Recorded codec (j.record codec draft now).2 where
  seq i e hGet := by
    simp only [Journal.record] at hGet
    rcases Nat.lt_trichotomy i j.events.length with hLt | rfl | hGt
    · rw [List.getElem?_append_left hLt] at hGet
      exact h.seq i e hGet
    · rw [List.getElem?_concat_length] at hGet
      cases hGet
      rfl
    · rw [List.getElem?_eq_none (by simp; omega)] at hGet
      cases hGet
  head := by
    simp only [Journal.record]
    rw [recomputeHeadHash_append, h.head]
  addressed := addressed_storeOptional (addressed_storeOptional h.addressed draft.input) draft.output

/-- A sequence of records, each with the time it was made at. -/
def Journal.recordAll (codec : Codec) (j : Journal) (records : List (EventDraft × Int)) : Journal :=
  records.foldl (fun j r => (j.record codec r.1 r.2).2) j

theorem recorded_recordAll (h : Recorded codec j) (records : List (EventDraft × Int)) :
    Recorded codec (j.recordAll codec records) := by
  induction records generalizing j with
  | nil => exact h
  | cons r rest ih => exact ih (recorded_record h r.1 r.2)

/-! ## Loading a snapshot -/

def SameJournal (j loaded : Journal) : Prop :=
  loaded.events = j.events ∧ loaded.headHash = j.headHash ∧
    ∀ payload, loaded.resolve payload = j.resolve payload

/-- Loading refuses external payloads, compares the recomputed head, and keeps everything
else. -/
theorem fromSnapshot_eq_ok_iff {s : JournalSnapshot} :
    Journal.fromSnapshot codec s = .ok j ↔
      s.artifactRefs = ∅ ∧ recomputeHeadHash codec s.events = s.headHash ∧
        ⟨s.runId, s.threadId, s.events, s.artifacts, s.headHash⟩ = j := by
  unfold Journal.fromSnapshot
  by_cases hRefs : s.artifactRefs = ∅
  · by_cases hHead : recomputeHeadHash codec s.events = s.headHash
    · simp [hRefs, hHead]
    · simp [hRefs, hHead]
  · simp [hRefs]

theorem fromSnapshot_snapshot (h : Recorded codec j) :
    ∃ loaded, Journal.fromSnapshot codec j.snapshot = .ok loaded ∧ SameJournal j loaded := by
  refine ⟨j, fromSnapshot_eq_ok_iff.mpr ⟨rfl, h.head.symm, rfl⟩, rfl, rfl, fun _ => rfl⟩

/-! ## Through an artifact store -/

/-- The byte strings of a store and of the artifacts of a journal. -/
def storeBytes (codec : Codec) (artifacts : Artifacts) (store : ArtifactStore) : Set Bytes :=
  {b | (∃ address : String, store.blobs[address]? = some b) ∨
    ∃ address : String, artifacts[address]?.map codec.toVec = some b}

/-- What the externalized round trip needs of a store and the artifacts: blobs are those of
their address, no two of the byte strings at hand collide, and artifacts parse back. -/
structure StoreSound (codec : Codec) (artifacts : Artifacts) (store : ArtifactStore) : Prop where
  intact : ∀ address bytes, store.blobs[address]? = some bytes → codec.sha256Hex bytes = address
  collisionFree : Set.InjOn codec.sha256Hex (storeBytes codec artifacts store)
  roundTrip : ∀ (address : String) (value : Json), artifacts[address]? = some value →
    codec.fromSlice (codec.toVec value) = some value

def HoldsWithin (codec : Codec) (bytes : Set Bytes) (store : ArtifactStore) : Prop :=
  ∀ address b, store.blobs[address]? = some b → codec.sha256Hex b = address ∧ b ∈ bytes

theorem holdsWithin_put (h : HoldsWithin codec bytes store) (hB : b ∈ bytes) :
    HoldsWithin codec bytes (store.put codec b).2 := by
  intro address found hGet
  simp only [ArtifactStore.put, Std.ExtTreeMap.getElem?_insertIfNew] at hGet
  split at hGet
  · next hNew =>
    cases hGet
    exact ⟨Std.LawfulEqCmp.eq_of_compare hNew.1, hB⟩
  · exact h address found hGet

theorem isSome_blobs_put (codec : Codec) (store : ArtifactStore) (b : Bytes) (address : String) :
    ((store.put codec b).2.blobs[address]?).isSome ↔
      codec.sha256Hex b = address ∨ (store.blobs[address]?).isSome := by
  simp only [ArtifactStore.put, ← Std.ExtTreeMap.mem_iff_isSome_getElem?,
    Std.ExtTreeMap.mem_insertIfNew, Std.LawfulEqCmp.compare_eq_iff_eq]

theorem ArtifactStore.get_eq_ok {address : String} (hFound : store.blobs[address]? = some b)
    (hHash : codec.sha256Hex b = address) : store.get codec address = .ok b := by
  simp [ArtifactStore.get, hFound, hHash]

/-- The reference `snapshot_externalized` records for an artifact. -/
def referenceOf (codec : Codec) (value : Json) : ArtifactRef :=
  ⟨contentAddress codec value, UInt64.ofNat (codec.toVec value).length⟩

/-- The loop of `snapshot_externalized`: the references of the artifacts, and a store that
holds a blob for each of them. -/
theorem foldl_externalizeOne (entries : List (String × Json))
    (hEntries : ∀ entry ∈ entries, codec.toVec entry.2 ∈ bytes)
    (refs : Std.ExtTreeMap String ArtifactRef) (hStore : HoldsWithin codec bytes store) :
    let after := entries.foldl (Journal.externalizeOne codec) (refs, store)
    after.1 = Library.insertAll (entries.map fun entry => (entry.1, referenceOf codec entry.2)) refs ∧
      HoldsWithin codec bytes after.2 ∧
      (∀ address : String, (store.blobs[address]?).isSome → (after.2.blobs[address]?).isSome) ∧
      ∀ entry ∈ entries, (after.2.blobs[contentAddress codec entry.2]?).isSome := by
  induction entries generalizing refs store with
  | nil => exact ⟨rfl, hStore, fun _ h => h, by simp⟩
  | cons entry rest ih =>
    obtain ⟨hHead, hRest⟩ := List.forall_mem_cons.mp hEntries
    obtain ⟨hRefs, hHolds, hKept, hEach⟩ := ih hRest
      (refs.insert entry.1 (referenceOf codec entry.2)) (holdsWithin_put hStore hHead)
    refine ⟨hRefs, hHolds, fun address hSome => ?_, fun other hOther => ?_⟩
    · exact hKept address ((isSome_blobs_put codec store _ address).mpr (.inr hSome))
    · rcases List.mem_cons.mp hOther with rfl | hIn
      · exact hKept _ ((isSome_blobs_put codec store _ _).mpr (.inl rfl))
      · exact hEach other hIn

/-- The loop of `from_snapshot_with_store`, when every reference is fetched and parsed to the
value that `values` gives for it. -/
theorem foldlM_fetchOne (values : String → Json) (entries : List (String × ArtifactRef))
    (hEntries : ∀ entry ∈ entries, ∃ bytes, store.get codec entry.2.sha256 = .ok bytes ∧
      codec.fromSlice bytes = some (values entry.1)) (artifacts : Artifacts) :
    entries.foldlM (Journal.fetchOne codec store) artifacts =
      .ok (Library.insertAll (entries.map fun entry => (entry.1, values entry.1)) artifacts) := by
  induction entries generalizing artifacts with
  | nil => rfl
  | cons entry rest ih =>
    obtain ⟨⟨bytes, hGet, hParse⟩, hRest⟩ := List.forall_mem_cons.mp hEntries
    have hFetch : Journal.fetchOne codec store artifacts entry =
        .ok (artifacts.insert entry.1 (values entry.1)) := by
      simp [Journal.fetchOne, hGet, hParse]
    rw [List.foldlM_cons, hFetch]
    exact ih hRest _

/-- **The externalized snapshot loads back.** -/
theorem fromSnapshotWithStore_externalized (h : Recorded codec j)
    (hStore : StoreSound codec j.artifacts store) :
    let external := j.snapshotExternalized codec store
    Journal.fromSnapshotWithStore codec external.1 external.2 = .ok j := by
  have hBytes : ∀ entry ∈ j.artifacts.toList,
      codec.toVec entry.2 ∈ storeBytes codec j.artifacts store := by
    rintro ⟨address, value⟩ hEntry
    refine .inr ⟨address, ?_⟩
    rw [Std.ExtTreeMap.mem_toList_iff_getElem?_eq_some.mp hEntry, Option.map_some]
  have hWithin : HoldsWithin codec (storeBytes codec j.artifacts store) store :=
    fun address b hGet => ⟨hStore.intact address b hGet, .inl ⟨address, hGet⟩⟩
  obtain ⟨hRefs, hHolds, -, hEach⟩ :=
    foldl_externalizeOne j.artifacts.toList hBytes ∅ hWithin
  simp only [Journal.snapshotExternalized, Journal.fromSnapshotWithStore, Journal.snapshot]
  generalize j.artifacts.toList.foldl (Journal.externalizeOne codec) (∅, store) = after at *
  obtain ⟨refs, filled⟩ := after
  dsimp only at hRefs hHolds hEach ⊢
  have hKeys : ((j.artifacts.toList.map
      fun entry => (entry.1, referenceOf codec entry.2)).map Prod.fst).Nodup := by
    rw [List.map_map]
    exact Library.nodup_keys_toList j.artifacts
  have hPerm : refs.toList.Perm
      (j.artifacts.toList.map fun entry => (entry.1, referenceOf codec entry.2)) := by
    rw [hRefs]
    exact Library.toList_insertAll_empty_perm hKeys
  have hFetch : ∀ entry ∈ refs.toList, ∃ bytes, filled.get codec entry.2.sha256 = .ok bytes ∧
      codec.fromSlice bytes = some (j.artifacts[entry.1]?.getD .null) := by
    intro entry hEntry
    obtain ⟨⟨address, value⟩, hArtifact, rfl⟩ := List.mem_map.mp (hPerm.mem_iff.mp hEntry)
    have hValue : j.artifacts[address]? = some value :=
      Std.ExtTreeMap.mem_toList_iff_getElem?_eq_some.mp hArtifact
    obtain ⟨found, hFound⟩ := Option.isSome_iff_exists.mp (hEach _ hArtifact)
    obtain ⟨hHash, hIn⟩ := hHolds _ _ hFound
    -- the blob has the address of the artifact's bytes, so it is those bytes
    have hSame : found = codec.toVec value :=
      hStore.collisionFree hIn (hBytes _ hArtifact) hHash
    subst hSame
    refine ⟨codec.toVec value, ?_, ?_⟩
    · exact ArtifactStore.get_eq_ok hFound hHash
    · rw [hValue]
      exact hStore.roundTrip address value hValue
  rw [foldlM_fetchOne (fun address => j.artifacts[address]?.getD .null) refs.toList hFetch]
  have hList : (refs.toList.map fun entry => (entry.1, j.artifacts[entry.1]?.getD .null)).Perm
      j.artifacts.toList := by
    refine (hPerm.map _).trans (List.Perm.of_eq ?_)
    rw [List.map_map]
    refine (List.map_congr_left fun entry hEntry => ?_).trans (List.map_id _)
    simp [Std.ExtTreeMap.mem_toList_iff_getElem?_eq_some.mp hEntry]
  rw [Library.insertAll_empty_eq_of_perm hList]
  exact fromSnapshot_eq_ok_iff.mpr ⟨rfl, h.head.symm, rfl⟩

end RustyRuntime
