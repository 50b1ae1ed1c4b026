import RustyRuntime.Journal.Basic
import RustyRuntime.Library.Grouping
import RustyRuntime.Library.SortByKey
import RustyRuntime.Memory.Query

/-!
# Conflicts between memory records

`detect_conflicts` of `memory.rs`: the live records of a namespace are grouped by scope and key, and
two of a group are reported when their windows overlap and their contents differ. What is live is
worked out again, from the superseded set and the expiry; a default query also holds back what was
proposed and not adopted.

The reported pairs are the right ones exactly when no proposal that is held back would be one of a
pair (`detectConflicts_exact_iff`).
-/

namespace RustyRuntime

open Library

structure MemoryConflict where
  scope : ScopeAddress
  key : String
  memoryIds : List String
  overlap : ValidityWindow
  deriving DecidableEq

/-- The end of an intersection; a window without one has no say. -/
def earlierEnd : Option Instant → Option Instant → Option Instant
  | some x, some y => some (min x y)
  | x, y => x.or y

def validityOverlap (a b : ValidityWindow) : Option ValidityWindow :=
  let overlap : ValidityWindow :=
    ⟨max a.validFrom b.validFrom, earlierEnd a.validUntil b.validUntil⟩
  if overlap.validUntil.any fun stop => decide (stop ≤ overlap.validFrom) then none else some overlap

def isLive (records : List MemoryRecord) (now : Instant) (r : MemoryRecord) : Bool :=
  !(supersededSet records).contains r.memoryId && r.expiresAt.all fun expires => decide (now < expires)

def groupKey (r : MemoryRecord) : Option (String ×ₗ String) :=
  r.key.map fun key => toLex (r.scope.asAddress, key)

def groupPairs (records : List MemoryRecord) (now : Instant) : List (MemoryRecord × MemoryRecord) :=
  let live := records.filter (isLive records now)
  let keys := sortByKey id (live.filterMap groupKey).dedup
  (keyed groupKey keys live).flatMap fun group => pairsOf (sortByKey (·.memoryId) group.2)

def conflictKey (c : MemoryConflict) : String ×ₗ String ×ₗ List String :=
  toLex (c.scope.asAddress, toLex (c.key, c.memoryIds))

section Detect

variable (codec : Codec)

def sameContent (a b : MemoryRecord) : Bool := contentHash codec a.content = contentHash codec b.content

/-- What the inner loop does with two records of a group. -/
def conflictOf (pair : MemoryRecord × MemoryRecord) : Option MemoryConflict :=
  if pair.1.supersedes = some pair.2.memoryId ∨ pair.2.supersedes = some pair.1.memoryId then none
  else do
    let overlap ← validityOverlap pair.1.validity pair.2.validity
    if sameContent codec pair.1 pair.2 then none
    else
      let key ← pair.1.key
      some ⟨pair.1.scope, key, [pair.1.memoryId, pair.2.memoryId], overlap⟩

def detectConflicts (records : List MemoryRecord) (now : Instant) : List MemoryConflict :=
  sortByKey conflictKey ((groupPairs records now).filterMap (conflictOf codec))

end Detect

/-! ## Windows -/

theorem validityOverlap_spec (a b : ValidityWindow) :
    (∀ w, validityOverlap a b = some w → ∀ t, w.contains t = (a.contains t && b.contains t)) ∧
      ((validityOverlap a b).isSome ↔ ∃ t, a.contains t ∧ b.contains t) := by
  obtain ⟨from₁, stop₁⟩ := a
  obtain ⟨from₂, stop₂⟩ := b
  have hBoth (t : Instant) : ValidityWindow.contains ⟨max from₁ from₂, earlierEnd stop₁ stop₂⟩ t =
      (ValidityWindow.contains ⟨from₁, stop₁⟩ t && ValidityWindow.contains ⟨from₂, stop₂⟩ t) := by
    rw [Bool.eq_iff_iff]
    cases stop₁ <;> cases stop₂ <;> simp [ValidityWindow.contains, earlierEnd] <;> tauto
  simp only [validityOverlap]
  cases hStop : earlierEnd stop₁ stop₂ with
  | none =>
    refine ⟨fun w hW t => ?_, iff_of_true rfl ⟨max from₁ from₂, ?_⟩⟩
    · cases hW
      rw [← hBoth, hStop]
    · rw [← Bool.and_eq_true_iff, ← hBoth, hStop]
      simp [ValidityWindow.contains]
  | some stop =>
    by_cases hEmpty : stop ≤ max from₁ from₂
    · rw [if_pos (by simpa using hEmpty)]
      refine ⟨nofun, iff_of_false Bool.false_ne_true ?_⟩
      rintro ⟨t, hT⟩
      have hIn := (hBoth t).trans (Bool.and_eq_true_iff.mpr hT)
      rw [hStop, ValidityWindow.contains, Bool.and_eq_true_iff] at hIn
      have hFrom := of_decide_eq_true hIn.1
      have hUntil := of_decide_eq_true hIn.2
      exact absurd (hFrom.trans_lt hUntil) (not_lt.mpr hEmpty)
    · rw [if_neg (by simpa using hEmpty)]
      refine ⟨fun w hW t => ?_, iff_of_true rfl ⟨max from₁ from₂, ?_⟩⟩
      · cases hW
        rw [← hBoth, hStop]
      · rw [← Bool.and_eq_true_iff, ← hBoth, hStop]
        simpa [ValidityWindow.contains] using hEmpty

/-! ## The pairs of the loop -/

section Pairs

variable {records : List MemoryRecord} {now : Instant} {a b : MemoryRecord}

theorem groupKey_eq_iff {key : String} (hKey : a.key = some key) :
    groupKey b = groupKey a ↔ b.scope = a.scope ∧ b.key = a.key := by
  rw [groupKey, groupKey, hKey]
  cases hOther : b.key with
  | none => simp
  | some other =>
    simp only [Option.map_some, Option.some.injEq, toLex_inj, Prod.mk.injEq,
      asAddress_injective.eq_iff]

theorem mem_groupPairs_iff (hIds : (records.map (·.memoryId)).Nodup) :
    (a, b) ∈ groupPairs records now ↔
      (a ∈ records ∧ isLive records now a) ∧ (b ∈ records ∧ isLive records now b) ∧
        a.memoryId < b.memoryId ∧ (groupKey a).isSome ∧ groupKey b = groupKey a := by
  have hGroup (k : String ×ₗ String) : (a, b) ∈ pairsOf (sortByKey (·.memoryId)
      ((records.filter (isLive records now)).filter fun x => groupKey x = some k)) ↔
      ((a ∈ records ∧ isLive records now a) ∧ groupKey a = some k) ∧
        ((b ∈ records ∧ isLive records now b) ∧ groupKey b = some k) ∧ a.memoryId < b.memoryId := by
    rw [mem_pairsOf_iff (sortByKey_pairwise_lt
      (hIds.sublist ((List.filter_sublist.trans List.filter_sublist).map _)))]
    simp only [mem_sortByKey, List.mem_filter, decide_eq_true_eq]
  rw [groupPairs, keyed, List.flatMap_map, List.mem_flatMap]
  constructor
  · rintro ⟨k, -, hPair⟩
    obtain ⟨⟨hA, hKeyA⟩, ⟨hB, hKeyB⟩, hLt⟩ := (hGroup k).mp hPair
    exact ⟨hA, hB, hLt, by rw [hKeyA]; rfl, hKeyB.trans hKeyA.symm⟩
  · rintro ⟨hA, hB, hLt, hSome, hKey⟩
    obtain ⟨k, hK⟩ := Option.isSome_iff_exists.mp hSome
    refine ⟨k, ?_, (hGroup k).mpr ⟨⟨hA, hK⟩, ⟨hB, hKey.trans hK⟩, hLt⟩⟩
    rw [mem_sortByKey, List.mem_dedup]
    exact List.mem_filterMap.mpr ⟨a, List.mem_filter.mpr hA, hK⟩

theorem groupPairs_nodup (hIds : (records.map (·.memoryId)).Nodup) :
    (groupPairs records now).Nodup := by
  have hNodup : records.Nodup := .of_map _ hIds
  rw [groupPairs, List.nodup_flatMap, keyed]
  refine ⟨fun group hGroup => ?_, ?_⟩
  · obtain ⟨k, -, rfl⟩ := List.mem_map.mp hGroup
    exact nodup_pairsOf ((sortByKey_perm _ _).nodup_iff.mpr ((hNodup.filter _).filter _))
  · rw [List.pairwise_map]
    refine ((sortByKey_perm _ _).nodup_iff.mpr (List.nodup_dedup _)).imp fun hNe pair h₁ h₂ => ?_
    have hFirst := (List.mem_filter.mp ((mem_sortByKey _).mp (mem_of_mem_pairsOf h₁).1)).2
    have hSecond := (List.mem_filter.mp ((mem_sortByKey _).mp (mem_of_mem_pairsOf h₂).1)).2
    exact hNe (Option.some.inj ((of_decide_eq_true hFirst).symm.trans (of_decide_eq_true hSecond)))

/-- Of two live records neither names the other, so the check of the inner loop skips nothing. -/
theorem isLive_unnamed (hIn : a ∈ records) (hLive : isLive records now b = true) :
    a.supersedes ≠ some b.memoryId := by
  intro hNames
  rw [isLive, Bool.and_eq_true, Bool.not_eq_true', List.contains_eq_mem, decide_eq_false_iff_not]
    at hLive
  refine hLive.1 (mem_supersededSet.mpr ⟨a, hIn, ?_⟩)
  rw [MemoryRecord.named, hNames]
  exact List.mem_append_left _ (List.mem_singleton_self _)

end Pairs

/-! ## What is reported -/

/-- Two records that contradict each other. -/
structure Contends (codec : Codec) (a b : MemoryRecord) : Prop where
  scope_eq : b.scope = a.scope
  key_eq : b.key = a.key
  keyed : a.key.isSome
  meets : ∃ t, a.validity.contains t ∧ b.validity.contains t
  differs : sameContent codec a b = false

/-- The reported conflicts are the contradictions between records of a default query. -/
structure ReportsConflicts (codec : Codec) (ops : RecallOps) (records : List MemoryRecord)
    (now : Instant) : Prop where
  once : ((detectConflicts codec records now).map (·.memoryIds)).Nodup
  overlaps : ∀ c ∈ detectConflicts codec records now, ∃ a ∈ records, ∃ b ∈ records,
    a.memoryId < b.memoryId ∧ c.memoryIds = [a.memoryId, b.memoryId] ∧ c.scope = a.scope ∧
      a.key = some c.key ∧ ∀ t, c.overlap.contains t = (a.validity.contains t && b.validity.contains t)
  exact : ∀ a ∈ records, ∀ b ∈ records, a.memoryId < b.memoryId →
    ([a.memoryId, b.memoryId] ∈ (detectConflicts codec records now).map (·.memoryIds) ↔
      (a ∈ applyQuery ops records {} now ∧ b ∈ applyQuery ops records {} now) ∧ Contends codec a b)

section Report

variable {codec : Codec} {ops : RecallOps} {records : List MemoryRecord} {now : Instant}

variable {a b : MemoryRecord}

theorem mem_applyQuery_iff_isLive :
    a ∈ applyQuery ops records {} now ↔
      (a ∈ records ∧ isLive records now a) ∧ a.heldBack = false := by
  rw [mem_applyQuery_default, isLive]
  cases a.expiresAt <;> simp [and_assoc, and_left_comm]

theorem conflictOf_eq_some_iff {c : MemoryConflict} (hLeft : a.supersedes ≠ some b.memoryId)
    (hRight : b.supersedes ≠ some a.memoryId) :
    conflictOf codec (a, b) = some c ↔ sameContent codec a b = false ∧
      validityOverlap a.validity b.validity = some c.overlap ∧ a.key = some c.key ∧
        c.scope = a.scope ∧ c.memoryIds = [a.memoryId, b.memoryId] := by
  rw [conflictOf, if_neg (not_or.mpr ⟨hLeft, hRight⟩)]
  obtain ⟨scope, key, ids, overlap⟩ := c
  cases validityOverlap a.validity b.validity with
  | none => simp
  | some w =>
    cases sameContent codec a b with
    | true => simp
    | false =>
      cases a.key with
      | none => simp
      | some other =>
        simp
        tauto

section

variable (hIds : (records.map (·.memoryId)).Nodup)
include hIds

theorem mem_detectConflicts_iff {c : MemoryConflict} :
    c ∈ detectConflicts codec records now ↔
      ∃ a b, (a ∈ records ∧ isLive records now a) ∧ (b ∈ records ∧ isLive records now b) ∧
        a.memoryId < b.memoryId ∧ Contends codec a b ∧
        validityOverlap a.validity b.validity = some c.overlap ∧ a.key = some c.key ∧
          c.scope = a.scope ∧ c.memoryIds = [a.memoryId, b.memoryId] := by
  rw [detectConflicts, mem_sortByKey, List.mem_filterMap]
  constructor
  · rintro ⟨⟨a, b⟩, hPair, hConflict⟩
    obtain ⟨hA, hB, hLt, hSome, hKey⟩ := (mem_groupPairs_iff hIds).mp hPair
    obtain ⟨hDiffer, hOverlap, hOwn, hScope, hPairIds⟩ := (conflictOf_eq_some_iff
      (isLive_unnamed hA.1 hB.2) (isLive_unnamed hB.1 hA.2)).mp hConflict
    obtain ⟨hScopes, hKeys⟩ := (groupKey_eq_iff hOwn).mp hKey
    refine ⟨a, b, hA, hB, hLt, ⟨hScopes, hKeys, ?_, ?_, hDiffer⟩, hOverlap, hOwn, hScope, hPairIds⟩
    · exact Option.isSome_of_eq_some hOwn
    · exact (validityOverlap_spec _ _).2.mp (Option.isSome_of_eq_some hOverlap)
  · rintro ⟨a, b, hA, hB, hLt, hContends, hOverlap, hOwn, hScope, hPairIds⟩
    refine ⟨(a, b), (mem_groupPairs_iff hIds).mpr ⟨hA, hB, hLt, ?_, ?_⟩,
      (conflictOf_eq_some_iff (isLive_unnamed hA.1 hB.2) (isLive_unnamed hB.1 hA.2)).mpr
        ⟨hContends.differs, hOverlap, hOwn, hScope, hPairIds⟩⟩
    · rw [groupKey, hOwn]
      rfl
    · exact (groupKey_eq_iff hOwn).mpr ⟨hContends.scope_eq, hContends.key_eq⟩

theorem reported_iff (hA : a ∈ records) (hB : b ∈ records) (hLt : a.memoryId < b.memoryId) :
    [a.memoryId, b.memoryId] ∈ (detectConflicts codec records now).map (·.memoryIds) ↔
      (isLive records now a ∧ isLive records now b) ∧ Contends codec a b := by
  rw [List.mem_map]
  constructor
  · rintro ⟨c, hC, hPair⟩
    obtain ⟨a', b', hA', hB', -, hContends, -, -, -, hPair'⟩ := (mem_detectConflicts_iff hIds).mp hC
    obtain ⟨hFirst, hRest⟩ := List.cons.inj (hPair'.symm.trans hPair)
    cases List.inj_on_of_nodup_map hIds hA'.1 hA hFirst
    cases List.inj_on_of_nodup_map hIds hB'.1 hB (List.cons.inj hRest).1
    exact ⟨⟨hA'.2, hB'.2⟩, hContends⟩
  · rintro ⟨⟨hLiveA, hLiveB⟩, hContends⟩
    obtain ⟨w, hW⟩ := Option.isSome_iff_exists.mp ((validityOverlap_spec _ _).2.mpr hContends.meets)
    obtain ⟨key, hKey⟩ := Option.isSome_iff_exists.mp hContends.keyed
    exact ⟨⟨a.scope, key, _, w⟩, (mem_detectConflicts_iff hIds).mpr
      ⟨a, b, ⟨hA, hLiveA⟩, ⟨hB, hLiveB⟩, hLt, hContends, hW, hKey, rfl, rfl⟩, rfl⟩

theorem detectConflicts_once : ((detectConflicts codec records now).map (·.memoryIds)).Nodup := by
  refine (((sortByKey_perm _ _).map _).nodup_iff).mpr ?_
  refine List.pairwise_map.mpr (List.pairwise_filterMap.mpr ?_)
  refine (groupPairs_nodup hIds).imp_of_mem fun {p q} hP hQ hNe c hC d hD hSame => hNe ?_
  obtain ⟨hP₁, hP₂, -⟩ := (mem_groupPairs_iff hIds).mp hP
  obtain ⟨hQ₁, hQ₂, -⟩ := (mem_groupPairs_iff hIds).mp hQ
  have hC' := ((conflictOf_eq_some_iff (isLive_unnamed hP₁.1 hP₂.2)
    (isLive_unnamed hP₂.1 hP₁.2)).mp hC).2.2.2.2
  have hD' := ((conflictOf_eq_some_iff (isLive_unnamed hQ₁.1 hQ₂.2)
    (isLive_unnamed hQ₂.1 hQ₁.2)).mp hD).2.2.2.2
  obtain ⟨hFirst, hRest⟩ := List.cons.inj (hC'.symm.trans (hSame.trans hD'))
  exact Prod.ext (List.inj_on_of_nodup_map hIds hP₁.1 hQ₁.1 hFirst)
    (List.inj_on_of_nodup_map hIds hP₂.1 hQ₂.1 (List.cons.inj hRest).1)

end

/-- **Conflicts are the contradictions of a default query**, exactly when none of the live records
that contradict another is held back. -/
theorem detectConflicts_exact_iff {codec : Codec} {ops : RecallOps} {records : List MemoryRecord}
    {now : Instant} (hIds : (records.map (·.memoryId)).Nodup) :
    ReportsConflicts codec ops records now ↔
      ∀ a ∈ records, ∀ b ∈ records, isLive records now a → isLive records now b →
        a.memoryId < b.memoryId → Contends codec a b → a.heldBack = false ∧ b.heldBack = false := by
  constructor
  · intro h a hA b hB hLiveA hLiveB hLt hContends
    obtain ⟨hBoth, -⟩ := (h.exact a hA b hB hLt).mp
      ((reported_iff hIds hA hB hLt).mpr ⟨⟨hLiveA, hLiveB⟩, hContends⟩)
    exact ⟨(mem_applyQuery_iff_isLive.mp hBoth.1).2, (mem_applyQuery_iff_isLive.mp hBoth.2).2⟩
  · intro hFree
    refine ⟨detectConflicts_once hIds, fun c hC => ?_, fun a hA b hB hLt => ?_⟩
    · obtain ⟨a, b, hA, hB, hLt, -, hOverlap, hKey, hScope, hPair⟩ :=
        (mem_detectConflicts_iff hIds).mp hC
      exact ⟨a, hA.1, b, hB.1, hLt, hPair, hScope, hKey, (validityOverlap_spec _ _).1 _ hOverlap⟩
    · rw [reported_iff hIds hA hB hLt, mem_applyQuery_iff_isLive,
        mem_applyQuery_iff_isLive]
      constructor
      · rintro ⟨⟨hLiveA, hLiveB⟩, hContends⟩
        obtain ⟨hHeldA, hHeldB⟩ := hFree a hA b hB hLiveA hLiveB hLt hContends
        exact ⟨⟨⟨⟨hA, hLiveA⟩, hHeldA⟩, ⟨⟨hB, hLiveB⟩, hHeldB⟩⟩, hContends⟩
      · rintro ⟨⟨hInA, hInB⟩, hContends⟩
        exact ⟨⟨hInA.1.2, hInB.1.2⟩, hContends⟩

end Report

/-- A second note of the person, under the same key. -/
def revisedNote : MemoryRecord :=
  { adoptedNote with
    memoryId := "note-2"
    content := .inline (.obj [("text", .str "Use imperial units.")]) }

theorem detectConflicts_revised :
    ReportsConflicts plainCodec asciiRecall [adoptedNote, revisedNote] 2 ∧
      detectConflicts plainCodec [adoptedNote, revisedNote] 2 =
        [⟨⟨.user, "dana"⟩, "preference.units", ["note-1", "note-2"], ⟨0, none⟩⟩] := by
  refine ⟨(detectConflicts_exact_iff (by decide)).mpr ?_, by decide +kernel⟩
  intro a hA b hB _ _ _ _
  have hHeld : ∀ r ∈ [adoptedNote, revisedNote], r.heldBack = false := by decide
  exact ⟨hHeld a hA, hHeld b hB⟩

/-- A proposal that no default query returns is reported against the note it would replace. -/
theorem proposal_reported :
    detectConflicts plainCodec [adoptedNote, { proposedNote with supersedes := none }] 2 =
        [⟨⟨.user, "dana"⟩, "preference.units", ["note-1", "note-2"], ⟨0, none⟩⟩] ∧
      applyQuery asciiRecall [adoptedNote, { proposedNote with supersedes := none }] {} 2 =
        [adoptedNote] := by
  decide +kernel

end RustyRuntime
