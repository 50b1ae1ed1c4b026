import RustyRuntime.Server.Memory
import RustyRuntime.Library.Grouping

/-!
# Memory consolidation

`memory_consolidation.rs` with `consolidation_summary` of `memory.rs`: the mechanical pass that
folds notes under one key, or notes that say the same thing, into a summary. The summary
carries the text of the newest note, names all of them as sources, and so supersedes them.

The pass reads the records of the namespace once, bodies read back, and stores one summary for
each group; a summary that the store refuses is skipped. Words, folding of case and the failures
of the store are parameters. Overlap is compared as a fraction; a double gives the same answer
for sets of any size that fits.

**When the pass adds no visibility** (`consolidation_hides_iff`): the text of the newest note of
each group that is folded must be served without the pass, by a note of the group's scope that
never expires. The summary itself is no candidate and has no expiry, so otherwise it serves a
proposal that nobody accepted (`consolidation_publishes_proposal`), or a text past its expiry.
That each note is folded once, into its own scope, always holds (`foldedOnce`).
-/

namespace RustyRuntime

open Library

/-! ## Groups -/

section

variable (env : ConsolidationEnv) (records : List MemoryRecord) (now : Instant)
  (last : Option Instant)

/-- `note_text` of a record whose body was read back. -/
def MemoryRecord.noteText (record : MemoryRecord) : Option String :=
  match record.content with
  | .inline value => (value.get "text").bind Json.asStr
  | .artifact _ => none

/-- `terms`: words of four characters or more, and those with a digit. -/
def noteTerms (ops : RecallOps) (text : String) : List String :=
  (((splitAt (fun c => !ops.isAlphanumeric c) text).filter fun w =>
    decide (4 ≤ w.length) || w.toList.any Char.isDigit).map ops.toLowercase).dedup

/-- `jaccard` against `NEAR_DUPLICATE_JACCARD`, 17/20. -/
def nearDuplicate (a b : List String) : Bool :=
  let shared := (a.filter b.contains).length
  17 * (a.length + b.length - shared) ≤ 20 * shared

def MemoryRecord.foldable (record : MemoryRecord) : Bool :=
  (match record.provenance.author with
    | .agent _ | .distiller _ => true
    | _ => false) &&
  !record.tags.contains "block" && record.provenance.evidence.correctionId.isNone &&
  (record.kind = .fact || record.kind = .summary) && record.noteText.isSome

/-- The order of the notes of a scope: by creation, then by id. -/
def MemoryRecord.notAfter (a b : MemoryRecord) : Bool :=
  decide (a.createdAt < b.createdAt) ||
    (a.createdAt = b.createdAt && decide (a.memoryId ≤ b.memoryId))

/-- `groups`: two or more notes under one key, then near-duplicates among the rest. -/
def groups (ops : RecallOps) (live : List MemoryRecord) : List (List MemoryRecord × String) :=
  let byKey := (keyed (·.key) ((live.filterMap (·.key)).dedup.insertionSort (· ≤ ·)) live).filter
    fun group => 2 ≤ group.2.length
  let termsOf (r : MemoryRecord) := noteTerms ops (r.noteText.getD "")
  let similar := clusters (fun a b => nearDuplicate (termsOf a) (termsOf b))
    (byKey.flatMap (·.2)) (live.filter fun r => 4 ≤ (termsOf r).length)
  (byKey.map fun group =>
    (group.2, s!"{group.2.length} live notes under the key `{group.1}`")) ++
  similar.map fun members =>
    (members, s!"{members.length} notes that say the same thing (word overlap ≥ 85%)")

/-- The notes the pass looks at. -/
def liveNotes : List MemoryRecord :=
  records.filter fun r => !(supersededSet records).contains r.memoryId &&
    r.expiresAt.all (fun expires => decide (now < expires)) && r.foldable

def passGroups (ops : RecallOps) (records : List MemoryRecord) (now : Instant) :
    List (List MemoryRecord × String) :=
  let live := liveNotes records now
  let addresses := (live.map (·.scope.asAddress)).dedup.insertionSort (· ≤ ·)
  (keyed (fun r => some r.scope.asAddress) addresses live).flatMap fun scope =>
    groups ops (scope.2.insertionSort fun a b => a.notAfter b)

/-! ## Summaries -/

def distillerName : String := "consolidation"

def consolidationSummary (ops : MemoryOps) (scope : ScopeAddress) (distiller : String)
    (sources : List MemoryRecord) (content : Json) (now : Instant) : Result MemoryRecord :=
  match sources with
  | [] => .error (.invalidUpdate ("consolidation needs at least one source record — a summary " ++
      "that names no sources is not a consolidation, and an unnamed derivation can neither be " ++
      "audited nor forgotten correctly"))
  | first :: rest =>
    MemoryRecord.new ops .summary scope
      ⟨.distiller distiller,
        { sourceMemoryIds := (sources.map (·.memoryId)).insertionSort (· ≤ ·) }, now⟩
      (rest.foldl (fun least r => min least r.confidence) first.confidence)
      ⟨rest.foldl (fun least r => min least r.validity.validFrom) first.validity.validFrom,
        (sources.mapM fun r : MemoryRecord => r.validity.validUntil).bind List.max?⟩
      now content

/-- `max_by` on creation and id: the last of the greatest. -/
def newestNote : List MemoryRecord → Option MemoryRecord
  | [] => none
  | first :: rest => some (rest.foldl (fun best r => if best.notAfter r then r else best) first)

def textJson (text : String) : Json := .obj [("text", .str text)]

def groupSummary (ops : MemoryOps) (sources : List MemoryRecord) (now : Instant) :
    Option (MemoryRecord × Json) :=
  match newestNote sources with
  | none => none
  | some note =>
    let content := textJson (note.noteText.getD "")
    match consolidationSummary ops note.scope distillerName sources content now with
    | .error _ => none
    | .ok summary => some ({ summary with
        priority := ((sources.map (·.priority)).max?).getD 5
        tags := (sources.flatMap (·.tags)).dedup.insertionSort (· ≤ ·)
        key := (sources.findSome? (·.key)).or note.key }, content)

/-- What a pass is run with. -/
structure ConsolidationEnv where
  ops : MemoryOps
  /-- The store fails to write this record. -/
  writeFails : MemoryRecord → Bool

structure FoldedGroup where
  scope : ScopeAddress
  key : Option String
  summary : String
  sources : List String
  why : String
  deriving DecidableEq

structure ConsolidationReport where
  stamp : Option Instant
  folded : List FoldedGroup
  skipped : Bool
  newNotesSeen : Nat
  deriving DecidableEq

/-- `DUE_AFTER_NEW_NOTES`. -/
def dueAfterNewNotes : Nat := 10

def due : Bool × Nat :=
  match last with
  | none => (true, records.length)
  | some last =>
    let fresh := records.countP fun r => decide (last < r.createdAt)
    (decide (dueAfterNewNotes ≤ fresh), fresh)

/-- The summary a group adds, with the body that a query reads back; `none` when the group is
not folded. -/
def ConsolidationEnv.writes (sources : List MemoryRecord) (now : Instant) : Option MemoryRecord :=
  match groupSummary env.ops sources now with
  | none => none
  | some (summary, content) =>
    if (secretIn env.ops.looksLikeSecret content).isSome || env.writeFails summary then none
    else some { summary with content := .inline content }

def ConsolidationEnv.foldGroup (state : List MemoryRecord × List FoldedGroup)
    (group : List MemoryRecord × String) : List MemoryRecord × List FoldedGroup :=
  match env.writes group.1 now with
  | none => state
  | some summary =>
    (if state.1.any (·.memoryId = summary.memoryId) then state.1 else state.1 ++ [summary],
      state.2 ++ [⟨summary.scope, summary.key, summary.memoryId, group.1.map (·.memoryId), group.2⟩])

def ConsolidationEnv.consolidate (force : Bool) (now : Instant) :
    List MemoryRecord × ConsolidationReport :=
  let (isDue, seen) := due records last
  if !isDue && !force then (records, ⟨last, [], true, seen⟩)
  else
    let (after, folded) := (passGroups env.ops.recallOps records now).foldl (env.foldGroup now)
      (records, [])
    (after, ⟨some now, folded, false, seen⟩)

end

/-! ## Each note in one group -/

section Groups

variable {ops : RecallOps}

variable {live records : List MemoryRecord} {group : List MemoryRecord × String} {x : MemoryRecord}
  {now : Instant}

theorem mem_of_mem_groups (h : group ∈ groups ops live) (hX : x ∈ group.1) : x ∈ live := by
  rw [groups, List.mem_append, List.mem_map, List.mem_map] at h
  rcases h with ⟨pair, hPair, rfl⟩ | ⟨members, hMembers, rfl⟩
  · exact (mem_keyed (List.mem_filter.mp hPair).1 hX).1
  · exact (List.mem_filter.mp (mem_clusters hMembers hX).1).1

theorem nodup_sortedKeys (keys : List String) : (keys.dedup.insertionSort (· ≤ ·)).Nodup :=
  (List.perm_insertionSort _ _).nodup_iff.mpr (List.nodup_dedup keys)

theorem nodup_groups (hLive : live.Nodup) : ((groups ops live).flatMap (·.1)).Nodup := by
  rw [groups, List.flatMap_append, List.flatMap_map, List.flatMap_map, List.nodup_append]
  refine ⟨?_, ?_, ?_⟩
  · have hAll : ((keyed (·.key) ((live.filterMap (·.key)).dedup.insertionSort (· ≤ ·)) live).map
        Prod.snd).flatten.Nodup := nodup_flatten_keyed (nodup_sortedKeys _) hLive
    exact hAll.sublist (List.Sublist.flatMap List.filter_sublist _)
  · rw [List.flatMap_def, List.map_id']
    exact nodup_flatten_clusters (hLive.filter _)
  · intro x hX y hY hEq
    obtain ⟨members, hMembers, hIn⟩ := List.mem_flatMap.mp hY
    exact (mem_clusters hMembers hIn).2 (hEq ▸ hX)

theorem mem_passGroups (h : group ∈ passGroups ops records now) :
    ∃ scope : String, ∀ x ∈ group.1, x ∈ liveNotes records now ∧ x.scope.asAddress = scope := by
  obtain ⟨scope, hScope, hGroup⟩ := List.mem_flatMap.mp h
  refine ⟨scope.1, fun x hX => ?_⟩
  have hIn := (List.mem_insertionSort _).mp (mem_of_mem_groups hGroup hX)
  obtain ⟨hLive, hKey⟩ := mem_keyed hScope hIn
  exact ⟨hLive, Option.some.inj hKey⟩

theorem mem_records_of_passGroups (h : group ∈ passGroups ops records now) (hX : x ∈ group.1) :
    x ∈ records := by
  obtain ⟨_, hAll⟩ := mem_passGroups h
  exact (List.mem_filter.mp (hAll x hX).1).1

theorem nodup_passGroups (hRecords : records.Nodup) (now : Instant) :
    ((passGroups ops records now).flatMap (·.1)).Nodup := by
  have hScopes : ((keyed (fun r : MemoryRecord => some r.scope.asAddress)
      (((liveNotes records now).map (·.scope.asAddress)).dedup.insertionSort (· ≤ ·))
      (liveNotes records now)).map Prod.snd).flatten.Nodup :=
    nodup_flatten_keyed (nodup_sortedKeys _) (hRecords.filter _)
  rw [← List.flatMap_def, List.nodup_flatMap] at hScopes
  rw [passGroups, List.flatMap_assoc, List.nodup_flatMap]
  have hSub (scope : String × List MemoryRecord) {x : MemoryRecord}
      (hX : x ∈ (groups ops (scope.2.insertionSort fun a b => a.notAfter b)).flatMap (·.1)) :
      x ∈ scope.2 := by
    obtain ⟨group, hGroup, hIn⟩ := List.mem_flatMap.mp hX
    exact (List.mem_insertionSort _).mp (mem_of_mem_groups hGroup hIn)
  constructor
  · intro scope hScope
    exact nodup_groups ((List.perm_insertionSort _ _).nodup_iff.mpr (hScopes.1 scope hScope))
  · refine hScopes.2.imp fun hDisjoint x hX hX' => ?_
    exact hDisjoint (hSub _ hX) (hSub _ hX')

end Groups

/-! ## What is written -/

variable {sources records : List MemoryRecord} {note summary : MemoryRecord}
  {env : ConsolidationEnv} {now : Instant} {groups : List (List MemoryRecord × String)}

theorem mem_of_newestNote (h : newestNote sources = some note) : note ∈ sources := by
  cases sources with
  | nil => cases h
  | cons first rest =>
    cases h
    induction rest generalizing first with
    | nil => exact List.mem_singleton_self _
    | cons r rest ih =>
      rw [List.foldl_cons]
      split
      · exact List.mem_cons_of_mem _ (ih r)
      · rcases List.mem_cons.mp (ih first) with hEq | hIn
        · rw [hEq]
          exact List.mem_cons_self
        · exact List.mem_cons_of_mem _ (List.mem_cons_of_mem _ hIn)

/-- The summary that a group adds. -/
structure SummaryOf (sources : List MemoryRecord) (note summary : MemoryRecord) : Prop where
  newest : newestNote sources = some note
  scope : summary.scope = note.scope
  kind : summary.kind = .summary
  supersedes : summary.supersedes = none
  candidacy : summary.candidacy = none
  expiresAt : summary.expiresAt = none
  sources : summary.provenance.evidence.sourceMemoryIds.Perm (sources.map (·.memoryId))
  text : summary.noteText = some (note.noteText.getD "")

theorem summaryOf_writes (h : env.writes sources now = some summary) :
    ∃ note, SummaryOf sources note summary := by
  revert h
  fun_cases ConsolidationEnv.writes env sources now with
  | case3 base content hGroup =>
    rintro ⟨⟩
    revert hGroup
    fun_cases groupSummary env.ops sources now with
    | case3 note hNewest text made hMade =>
      intro hGroup
      obtain ⟨rfl, rfl⟩ := Prod.mk.inj (Option.some.inj hGroup)
      unfold consolidationSummary MemoryRecord.new at hMade
      (repeat' split at hMade) <;> cases hMade
      refine ⟨note, hNewest, rfl, rfl, rfl, rfl, rfl, List.perm_insertionSort _ _, ?_⟩
      simp [MemoryRecord.noteText, text, textJson, Json.get, Json.lookupField, Json.asStr]
    | _ => exact nofun
  | _ => exact nofun

theorem SummaryOf.mem_named (h : SummaryOf sources note summary) {id : String} :
    id ∈ summary.named ↔ id ∈ sources.map (·.memoryId) := by
  rw [MemoryRecord.named, h.supersedes, if_pos h.kind]
  exact h.sources.mem_iff

def ConsolidationEnv.written (env : ConsolidationEnv) (records : List MemoryRecord)
    (now : Instant) : List MemoryRecord :=
  (passGroups env.ops.recallOps records now).filterMap fun group => env.writes group.1 now

/-- The content addresses of the summaries are new: no record has or names one, and they
differ. -/
structure FreshAddresses (env : ConsolidationEnv) (records : List MemoryRecord)
    (now : Instant) : Prop where
  unused : ∀ s ∈ env.written records now, s.memoryId ∉ records.map (·.memoryId)
  unnamed : ∀ s ∈ env.written records now, s.memoryId ∉ supersededSet records
  distinct : ((env.written records now).map (·.memoryId)).Nodup

theorem foldl_foldGroup {base : List MemoryRecord} {folded : List FoldedGroup}
    (hUnused : ∀ s ∈ groups.filterMap (fun group => env.writes group.1 now),
      s.memoryId ∉ base.map (·.memoryId))
    (hDistinct : ((groups.filterMap fun group => env.writes group.1 now).map (·.memoryId)).Nodup) :
    (groups.foldl (env.foldGroup now) (base, folded)).1 =
      base ++ groups.filterMap fun group => env.writes group.1 now := by
  induction groups generalizing base folded with
  | nil => exact (List.append_nil _).symm
  | cons group rest ih =>
    rw [List.foldl_cons, ConsolidationEnv.foldGroup]
    cases hWrites : env.writes group.1 now with
    | none =>
      simp only [List.filterMap_cons, hWrites] at hUnused hDistinct ⊢
      exact ih hUnused hDistinct
    | some summary =>
      simp only [List.filterMap_cons, hWrites] at hUnused hDistinct ⊢
      obtain ⟨hFirst, hRest⟩ := List.forall_mem_cons.mp hUnused
      rw [List.map_cons, List.nodup_cons] at hDistinct
      have hNew : (base.any fun r => r.memoryId = summary.memoryId) = false := by
        rw [List.any_eq_false]
        intro r hIn hSame
        exact hFirst (List.mem_map.mpr ⟨r, hIn, of_decide_eq_true hSame⟩)
      simp only [hNew]
      rw [if_neg Bool.false_ne_true, ih _ hDistinct.2, List.append_assoc, List.singleton_append]
      intro s hS hIn
      rw [List.map_append, List.mem_append] at hIn
      rcases hIn with hIn | hIn
      · exact hRest s hS hIn
      · rw [List.map_singleton, List.mem_singleton] at hIn
        exact hDistinct.1 (hIn ▸ List.mem_map_of_mem hS)

def passRuns (records : List MemoryRecord) (last : Option Instant) (force : Bool) : Bool :=
  (due records last).1 || force

theorem consolidate_fst (hFresh : FreshAddresses env records now) (last : Option Instant)
    (force : Bool) :
    (env.consolidate records last force now).1 =
      records ++ if passRuns records last force then env.written records now else [] := by
  rw [ConsolidationEnv.consolidate, passRuns]
  obtain ⟨isDue, seen⟩ := due records last
  cases hRuns : isDue || force with
  | false =>
    rw [Bool.or_eq_false_iff] at hRuns
    simp [hRuns.1, hRuns.2]
  | true =>
    have hRuns' : (!isDue && !force) = false := by
      rw [← Bool.not_or, hRuns]
      rfl
    simp only [hRuns', Bool.false_eq_true, if_false, if_true]
    exact foldl_foldGroup hFresh.unused hFresh.distinct

/-! ## Each note is folded once -/

/-- The summaries that `after` adds fold each note at most once, and notes of their own
scope. -/
def FoldedOnce (records after : List MemoryRecord) : Prop :=
  ∃ added, after = records ++ added ∧
    (added.flatMap (·.provenance.evidence.sourceMemoryIds)).Nodup ∧
    ∀ s ∈ added, ∀ id ∈ s.provenance.evidence.sourceMemoryIds,
      ∃ note ∈ records, note.memoryId = id ∧ note.scope = s.scope

theorem nodup_sources (h : (groups.flatMap fun group => group.1.map (·.memoryId)).Nodup) :
    ((groups.filterMap fun group => env.writes group.1 now).flatMap
      (·.provenance.evidence.sourceMemoryIds)).Nodup := by
  induction groups with
  | nil => exact List.nodup_nil
  | cons group rest ih =>
    rw [List.flatMap_cons, List.nodup_append] at h
    obtain ⟨hFirst, hRest, hApart⟩ := h
    cases hWrites : env.writes group.1 now with
    | none =>
      simp only [List.filterMap_cons, hWrites]
      exact ih hRest
    | some summary =>
      simp only [List.filterMap_cons, hWrites]
      obtain ⟨note, hSummary⟩ := summaryOf_writes hWrites
      rw [List.flatMap_cons, List.nodup_append]
      refine ⟨hSummary.sources.nodup_iff.mpr hFirst, ih hRest, ?_⟩
      intro x hX y hY
      obtain ⟨later, hLater, hIn⟩ := List.mem_flatMap.mp hY
      obtain ⟨other, hOther, hWrites'⟩ := List.mem_filterMap.mp hLater
      obtain ⟨note', hSummary'⟩ := summaryOf_writes hWrites'
      exact hApart x (hSummary.sources.mem_iff.mp hX) y
        (List.mem_flatMap.mpr ⟨other, hOther, hSummary'.sources.mem_iff.mp hIn⟩)

/-- **Each note is folded once, into its own scope.** -/
theorem foldedOnce (hIds : (records.map (·.memoryId)).Nodup)
    (hFresh : FreshAddresses env records now) (last : Option Instant) (force : Bool) :
    FoldedOnce records (env.consolidate records last force now).1 := by
  refine ⟨_, consolidate_fst hFresh last force, ?_⟩
  split
  · constructor
    · refine nodup_sources ?_
      rw [← List.map_flatMap]
      refine List.Nodup.map_on ?_ (nodup_passGroups hIds.of_map now)
      intro x hX y hY hSame
      obtain ⟨group, hGroup, hIn⟩ := List.mem_flatMap.mp hX
      obtain ⟨group', hGroup', hIn'⟩ := List.mem_flatMap.mp hY
      exact List.inj_on_of_nodup_map hIds (mem_records_of_passGroups hGroup hIn)
        (mem_records_of_passGroups hGroup' hIn') hSame
    · intro s hS id hId
      obtain ⟨group, hGroup, hWrites⟩ := List.mem_filterMap.mp hS
      obtain ⟨note, hSummary⟩ := summaryOf_writes hWrites
      obtain ⟨x, hX, rfl⟩ := List.mem_map.mp (hSummary.sources.mem_iff.mp hId)
      obtain ⟨scope, hAll⟩ := mem_passGroups hGroup
      refine ⟨x, mem_records_of_passGroups hGroup hX, rfl, ?_⟩
      rw [hSummary.scope]
      refine asAddress_injective ?_
      rw [(hAll x hX).2, (hAll note (mem_of_newestNote hSummary.newest)).2]
  · exact ⟨List.nodup_nil, fun s hIn => by cases hIn⟩

/-! ## Visibility -/

def servedTexts (ops : RecallOps) (records : List MemoryRecord) (scope : Option ScopeAddress)
    (t : Instant) : List String :=
  (applyQuery ops records { scope := scope } t).filterMap (·.noteText)

theorem mem_servedTexts {ops : RecallOps} {scope : Option ScopeAddress} {t : Instant}
    {text : String} :
    text ∈ servedTexts ops records scope t ↔
      ∃ r ∈ records, (∀ s ∈ scope, r.scope = s) ∧ (∀ e ∈ r.expiresAt, t < e) ∧
        r.memoryId ∉ supersededSet records ∧ r.heldBack = false ∧ r.noteText = some text := by
  simp only [servedTexts, List.mem_filterMap, mem_applyQuery_default, and_assoc]

section

variable (records : List MemoryRecord) (now : Instant)

def AddsNoVisibility (ops : RecallOps) (before after : List MemoryRecord) (now : Instant) : Prop :=
  ∀ t, now ≤ t → ∀ scope text, text ∈ servedTexts ops after scope t →
    text ∈ servedTexts ops before scope t

def Lasting (scope : ScopeAddress) (text : String) : Prop :=
  ∃ note ∈ records, note.scope = scope ∧ note.noteText = some text ∧ note.expiresAt = none ∧
    note.memoryId ∉ supersededSet records ∧ note.heldBack = false

instance (records : List MemoryRecord) (scope : ScopeAddress) (text : String) :
    Decidable (Lasting records scope text) := inferInstanceAs (Decidable (∃ _ ∈ _, _))

def horizon : Instant :=
  records.foldl (fun t r => max t (r.expiresAt.getD t)) now

theorem le_horizon :
    now ≤ horizon records now ∧ ∀ r ∈ records, ∀ e ∈ r.expiresAt, e ≤ horizon records now := by
  unfold horizon
  induction records generalizing now with
  | nil => exact ⟨Int.le_refl _, fun r hIn => by cases hIn⟩
  | cons r rest ih =>
    rw [List.foldl_cons]
    obtain ⟨hNow, hRest⟩ := ih (max now (r.expiresAt.getD now))
    refine ⟨Int.le_trans (Int.le_max_left _ _) hNow, ?_⟩
    rw [List.forall_mem_cons]
    refine ⟨fun e hE => ?_, hRest⟩
    rw [Option.mem_def.mp hE, Option.getD_some] at hNow ⊢
    exact Int.le_trans (Int.le_max_right _ _) hNow

end

theorem written_served (hFresh : FreshAddresses env records now)
    {group : List MemoryRecord × String} (hGroup : group ∈ passGroups env.ops.recallOps records now)
    (hWrites : env.writes group.1 now = some summary) (hSummary : SummaryOf group.1 note summary)
    (t : Instant) :
    note.noteText.getD "" ∈ servedTexts env.ops.recallOps
      (records ++ env.written records now) (some note.scope) t := by
  have hIn : summary ∈ env.written records now := List.mem_filterMap.mpr ⟨group, hGroup, hWrites⟩
  refine mem_servedTexts.mpr ⟨summary, List.mem_append_right _ hIn, ?_, ?_, ?_, ?_, hSummary.text⟩
  · rintro s ⟨⟩
    exact hSummary.scope
  · intro e hE
    rw [hSummary.expiresAt] at hE
    cases hE
  · intro hNamed
    obtain ⟨r, hR, hId⟩ := mem_supersededSet.mp hNamed
    rcases List.mem_append.mp hR with hR | hR
    · exact hFresh.unnamed summary hIn (mem_supersededSet.mpr ⟨r, hR, hId⟩)
    · obtain ⟨other, hOther, hWrites'⟩ := List.mem_filterMap.mp hR
      obtain ⟨note', hSummary'⟩ := summaryOf_writes hWrites'
      obtain ⟨x, hX, hSame⟩ := List.mem_map.mp (hSummary'.mem_named.mp hId)
      exact hFresh.unused summary hIn
        (List.mem_map.mpr ⟨x, mem_records_of_passGroups hOther hX, hSame⟩)
  · rw [MemoryRecord.heldBack, hSummary.candidacy]
    rfl

/-- **When a pass adds no visibility.** The text of the newest note of each folded group must be
served for good without the pass. -/
theorem consolidation_hides_iff (env : ConsolidationEnv) {records : List MemoryRecord}
    (hIds : (records.map (·.memoryId)).Nodup) (last : Option Instant) (force : Bool)
    {now : Instant} (hFresh : FreshAddresses env records now) :
    AddsNoVisibility env.ops.recallOps records (env.consolidate records last force now).1 now ∧
        FoldedOnce records (env.consolidate records last force now).1 ↔
      (passRuns records last force = true →
        ∀ group ∈ passGroups env.ops.recallOps records now,
          (env.writes group.1 now).isSome = true → ∀ note ∈ newestNote group.1,
            Lasting records note.scope (note.noteText.getD "")) := by
  rw [and_iff_left (foldedOnce hIds hFresh last force), consolidate_fst hFresh]
  cases passRuns records last force with
  | false =>
    simp only [Bool.false_eq_true, if_false, List.append_nil, false_imp_iff, iff_true]
    exact fun _ _ _ _ hIn => hIn
  | true =>
    simp only [if_true, true_imp_iff]
    constructor
    · intro hHides group hGroup hSome note hNewest
      obtain ⟨summary, hWrites⟩ := Option.isSome_iff_exists.mp hSome
      obtain ⟨note', hSummary⟩ := summaryOf_writes hWrites
      cases hSummary.newest.symm.trans hNewest
      -- look when everything that expires has expired
      obtain ⟨hNow, hAll⟩ := le_horizon records now
      have hServed := hHides _ hNow _ _ (written_served hFresh hGroup hWrites hSummary _)
      obtain ⟨r, hR, hScope, hExpires, hNot, hHeld, hText⟩ := mem_servedTexts.mp hServed
      refine ⟨r, hR, hScope _ rfl, hText, ?_, hNot, hHeld⟩
      rw [Option.eq_none_iff_forall_not_mem]
      intro e hE
      exact absurd (hExpires e hE) (Int.not_lt.mpr (hAll r hR e hE))
    · intro hLasting t _ scope text hText
      obtain ⟨r, hR, hScope, hExpires, hNot, hHeld, hText⟩ := mem_servedTexts.mp hText
      rcases List.mem_append.mp hR with hR | hR
      · refine mem_servedTexts.mpr ⟨r, hR, hScope, hExpires, fun hNamed => hNot ?_, hHeld, hText⟩
        obtain ⟨x, hX, hId⟩ := mem_supersededSet.mp hNamed
        exact mem_supersededSet.mpr ⟨x, List.mem_append_left _ hX, hId⟩
      · obtain ⟨group, hGroup, hWrites⟩ := List.mem_filterMap.mp hR
        obtain ⟨note, hSummary⟩ := summaryOf_writes hWrites
        obtain ⟨kept, hKept, hSame, hKeeps, hForever, hNot', hHeld'⟩ :=
          hLasting group hGroup (by rw [hWrites]; rfl) note hSummary.newest
        rw [hSummary.text] at hText
        refine mem_servedTexts.mpr ⟨kept, hKept, ?_, ?_, hNot', hHeld', hKeeps.trans hText⟩
        · intro s hS
          rw [hSame, ← hSummary.scope]
          exact hScope s hS
        · intro e hE
          rw [hForever] at hE
          cases hE

def plainPass : ConsolidationEnv := ⟨plainMemory, fun _ => false⟩

def agentNotes (candidacy : Option Candidacy) : List MemoryRecord :=
  [{ adoptedNote with
      memoryId := "m1", kind := .fact, key := some "k", candidacy
      provenance := ⟨.agent "a", {}, 0⟩, content := .inline (textJson "x") },
    { adoptedNote with
      memoryId := "m2", kind := .fact, key := some "k", candidacy, createdAt := 1
      provenance := ⟨.agent "a", {}, 1⟩, content := .inline (textJson "y") }]

theorem freshAddresses_agentNotes (candidacy : Option Candidacy)
    (h : candidacy = none ∨ candidacy = some .pending) :
    FreshAddresses plainPass (agentNotes candidacy) 2 := by
  rcases h with rfl | rfl <;> exact ⟨by decide +kernel, by decide +kernel, by decide +kernel⟩

theorem consolidation_hides_accepted :
    (plainPass.written (agentNotes none) 2).length = 1 ∧
      AddsNoVisibility asciiRecall (agentNotes none)
        (plainPass.consolidate (agentNotes none) none false 2).1 2 ∧
      FoldedOnce (agentNotes none) (plainPass.consolidate (agentNotes none) none false 2).1 := by
  refine ⟨by decide, ?_⟩
  refine (consolidation_hides_iff plainPass (by decide) none false
    (freshAddresses_agentNotes none (.inl rfl))).mpr ?_
  decide

/-- Nobody has accepted either note, and the pass serves the text of the newer one. -/
theorem consolidation_publishes_proposal :
    (agentNotes (some .pending)).all (·.heldBack) = true ∧
      ((agentNotes (some .pending)).map (·.memoryId)).Nodup ∧
      FreshAddresses plainPass (agentNotes (some .pending)) 2 ∧
      servedTexts asciiRecall
        (plainPass.consolidate (agentNotes (some .pending)) none false 2).1 none 2 = ["y"] ∧
      ¬ (AddsNoVisibility asciiRecall (agentNotes (some .pending))
          (plainPass.consolidate (agentNotes (some .pending)) none false 2).1 2 ∧
        FoldedOnce (agentNotes (some .pending))
          (plainPass.consolidate (agentNotes (some .pending)) none false 2).1) := by
  have hAfter : servedTexts asciiRecall
      (plainPass.consolidate (agentNotes (some .pending)) none false 2).1 none 2 = ["y"] := by
    decide +kernel
  refine ⟨by decide, by decide, freshAddresses_agentNotes _ (.inr rfl), hAfter, fun h => ?_⟩
  have hBefore := h.1 2 (Int.le_refl 2) none "y" (hAfter ▸ List.mem_singleton_self "y")
  revert hBefore
  decide

end RustyRuntime
