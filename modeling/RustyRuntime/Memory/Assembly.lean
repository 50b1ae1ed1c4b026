import RustyRuntime.Library.SortByKey
import RustyRuntime.Memory.Query

/-!
# Assemblies of memory

`assemble` of `memory.rs` ranks the records of a retrieval and packs them under a budget of
estimated tokens; `rerank` of `memory_tiers.rs` assembles a pool under a wider budget, sorts it by
tier and utility and packs it again. Both packings stop at the first record that does not fit, and
both add up in 32 bits, saturating. A confidence is a rational, for its order alone.

Main results:

* what is packed is the longest prefix that fits, and the accounting is right, exactly when the
  budget is below the largest number or the estimates add up to no more than it
  (`assemble_correct_iff`);
* a section derived again from its pool is the same (`rederiveSection_eq`);
* under the floor policy the section says what it left out exactly when nothing was left out, or
  leaving something out is an error (`floor_reports_iff`).
-/

namespace RustyRuntime

open Library

/-! ## Packing -/

def u32Max : Nat := 4294967295

/-- What a sum in 32 bits that saturates comes to. -/
def clampU32 (n : Nat) : Nat := min n u32Max

section Pack

variable {α : Type} (cost : α → Nat) (limit : Nat)

/-- What is packed, the tokens used, and the first element that does not fit. -/
def packLoop : Nat → List α → List α × Nat × Option α
  | used, [] => ([], used, none)
  | used, a :: rest =>
    if limit < clampU32 (used + cost a) then ([], used, some a)
    else
      let (packed, used, stop) := packLoop (clampU32 (used + cost a)) rest
      (a :: packed, used, stop)

def totalCost (xs : List α) : Nat := (xs.map cost).sum

variable {cost limit}

theorem clampU32_add (m n : Nat) : clampU32 (clampU32 m + n) = clampU32 (m + n) := by
  unfold clampU32
  omega

theorem totalCost_append (xs ys : List α) :
    totalCost cost (xs ++ ys) = totalCost cost xs + totalCost cost ys := by
  simp [totalCost]

theorem packLoop_spec (xs : List α) {used : Nat} (hUsed : clampU32 used ≤ limit) :
    ∃ packed rest, xs = packed ++ rest ∧
      packLoop cost limit (clampU32 used) xs =
        (packed, clampU32 (used + totalCost cost packed), rest.head?) ∧
      clampU32 (used + totalCost cost packed) ≤ limit ∧
      ∀ a ∈ rest.head?, limit < clampU32 (used + totalCost cost packed + cost a) := by
  induction xs generalizing used with
  | nil => exact ⟨[], [], rfl, by simp [packLoop, totalCost], by simpa [totalCost], by simp⟩
  | cons a rest ih =>
    rw [packLoop, clampU32_add]
    split
    · next hFull => exact ⟨[], a :: rest, rfl, by simp [totalCost], by simpa [totalCost], by
        simpa [totalCost] using hFull⟩
    · next hFits =>
      obtain ⟨packed, rest', rfl, hLoop, hWithin, hStop⟩ := ih (not_lt.mp hFits)
      have hSum : used + totalCost cost (a :: packed) = used + cost a + totalCost cost packed := by
        simp [totalCost, Nat.add_assoc]
      refine ⟨a :: packed, rest', rfl, ?_, ?_, ?_⟩
      · rw [hLoop, hSum]
      · rwa [hSum]
      · rwa [hSum]

theorem prefix_of_fits {packed rest p : List α} (hP : p <+: packed ++ rest)
    (hStop : ∀ a ∈ rest.head?, limit < clampU32 (totalCost cost packed + cost a))
    (hFits : clampU32 (totalCost cost p) ≤ limit) : p <+: packed := by
  rcases List.prefix_or_prefix_of_prefix hP (List.prefix_append packed rest) with hIn | ⟨more, rfl⟩
  · exact hIn
  · cases more with
    | nil => simp
    | cons a more =>
      obtain ⟨after, rfl⟩ := (List.prefix_append_right_inj packed).mp hP
      have hOver := hStop a rfl
      rw [totalCost_append] at hFits
      have hLe : cost a ≤ totalCost cost (a :: more) := by simp [totalCost]
      unfold clampU32 at hOver hFits
      omega

end Pack

/-! ## Assemblies -/

def tokenBytesPerEstimate : Nat := 4

inductive BudgetOverflow where
  | truncate
  | fail
  deriving DecidableEq

structure ContextBudget where
  maxTokens : Nat
  marginPercent : Nat := 20
  overflow : BudgetOverflow := .truncate
  bounded : maxTokens ≤ u32Max := by decide

def estimatedTokens (bytes marginPercent : Nat) : Nat :=
  clampU32 ((bytes + tokenBytesPerEstimate - 1) / tokenBytesPerEstimate *
    (100 + marginPercent) / 100)

def MemoryRecord.contentBytes (record : MemoryRecord) : Nat :=
  match record.content with
  | .inline value => value.text.utf8ByteSize
  | .artifact reference => reference.bytes.toNat

def ContextBudget.cost (budget : ContextBudget) (record : MemoryRecord) : Nat :=
  estimatedTokens record.contentBytes budget.marginPercent

structure TokenAccounting where
  bytesPerToken : Nat
  marginPercent : Nat
  budgetTokens : Nat
  usedTokens : Nat
  deriving DecidableEq

structure MemoryAssembly where
  memoryIds : List String
  records : List MemoryRecord
  tokenAccounting : TokenAccounting
  truncated : Bool
  omitted : Nat
  deriving DecidableEq

variable (refusal : MemoryRecord → Nat → String)

/-- The packing of `pack_ranked` and of `rerank`, which differ in what they say when a budget that
was declared hard is exceeded. -/
def packWith (ranked : List MemoryRecord) (budget : ContextBudget) : Except String MemoryAssembly :=
  match packLoop budget.cost budget.maxTokens 0 ranked with
  | (packed, used, stop) =>
    match stop, budget.overflow with
    | some record, .fail => .error (refusal record used)
    | _, _ =>
      .ok { memoryIds := packed.map (·.memoryId), records := packed, truncated := stop.isSome
            omitted := ranked.length - packed.length
            tokenAccounting :=
              ⟨tokenBytesPerEstimate, budget.marginPercent, budget.maxTokens, used⟩ }

def packRanked (ranked : List MemoryRecord) (budget : ContextBudget) :
    Except String MemoryAssembly :=
  packWith (fun record used =>
    s!"memory assembly exceeds the context budget: record `{record.memoryId}` costs an " ++
    s!"estimated {budget.cost record} tokens with {used} of {budget.maxTokens} already used — " ++
    "the filtered set does not fit, and the budget was declared hard") ranked budget

/-- Priority, confidence and recency descending, then the content address. -/
def rankKey (record : MemoryRecord) : Intᵒᵈ ×ₗ Ratᵒᵈ ×ₗ Instantᵒᵈ ×ₗ String :=
  toLex (.toDual record.priority, toLex (.toDual record.confidence,
    toLex (.toDual record.createdAt, record.memoryId)))

def assemble (records : List MemoryRecord) (budget : ContextBudget) :
    Except String MemoryAssembly :=
  packRanked (sortByKey rankKey records) budget

variable {records : List MemoryRecord} {budget : ContextBudget}

def assemblyOf (budget : ContextBudget) (packed rest : List MemoryRecord) : MemoryAssembly :=
  ⟨packed.map (·.memoryId), packed, ⟨tokenBytesPerEstimate, budget.marginPercent, budget.maxTokens,
    clampU32 (totalCost budget.cost packed)⟩, rest.head?.isSome, rest.length⟩

structure Cut (budget : ContextBudget) (packed rest : List MemoryRecord) : Prop where
  within : clampU32 (totalCost budget.cost packed) ≤ budget.maxTokens
  stop : ∀ r ∈ rest.head?, budget.maxTokens <
    clampU32 (totalCost budget.cost packed + budget.cost r)

variable {packed rest ranked : List MemoryRecord}

theorem Cut.rest_eq_nil (h : Cut budget packed rest)
    (hFits : clampU32 (totalCost budget.cost (packed ++ rest)) ≤ budget.maxTokens) : rest = [] := by
  have hLength := (prefix_of_fits (List.prefix_refl _) h.stop hFits).length_le
  rw [List.length_append] at hLength
  exact List.eq_nil_of_length_eq_zero (by omega)

theorem packWith_spec (ranked : List MemoryRecord) (budget : ContextBudget) :
    ∃ packed rest, ranked = packed ++ rest ∧ Cut budget packed rest ∧
      ((rest ≠ [] ∧ budget.overflow = .fail ∧ ∃ e, packWith refusal ranked budget = .error e) ∨
        ((rest = [] ∨ budget.overflow = .truncate) ∧
          packWith refusal ranked budget = .ok (assemblyOf budget packed rest))) := by
  obtain ⟨packed, rest, rfl, hLoop, hWithin, hStop⟩ :=
    @packLoop_spec _ budget.cost budget.maxTokens ranked 0 (Nat.zero_le _)
  simp only [Nat.zero_add] at hLoop hWithin hStop
  refine ⟨packed, rest, rfl, ⟨hWithin, hStop⟩, ?_⟩
  have hStart : packLoop budget.cost budget.maxTokens 0 (packed ++ rest) = _ := hLoop
  simp only [packWith, hStart, List.length_append, Nat.add_sub_cancel_left]
  cases rest with
  | nil => exact .inr ⟨.inl rfl, rfl⟩
  | cons r rest =>
    cases hOverflow : budget.overflow with
    | fail => exact .inl ⟨by simp, rfl, _, rfl⟩
    | truncate => exact .inr ⟨.inr rfl, rfl⟩

variable {a b pool : MemoryAssembly}

theorem packWith_eq_ok {refusal : MemoryRecord → Nat → String}
    (h : packWith refusal ranked budget = .ok a) :
    ∃ packed rest, ranked = packed ++ rest ∧ Cut budget packed rest ∧
      a = assemblyOf budget packed rest := by
  obtain ⟨packed, rest, hRanked, hCut, ⟨-, -, e, hError⟩ | ⟨-, hOk⟩⟩ :=
    packWith_spec refusal ranked budget
  · rw [hError] at h
    cases h
  · rw [hOk] at h
    cases h
    exact ⟨packed, rest, hRanked, hCut, rfl⟩

theorem assemble_spec (records : List MemoryRecord) (budget : ContextBudget) :
    ∃ packed rest, sortByKey rankKey records = packed ++ rest ∧ Cut budget packed rest ∧
      ((rest ≠ [] ∧ budget.overflow = .fail ∧ ∃ e, assemble records budget = .error e) ∨
        ((rest = [] ∨ budget.overflow = .truncate) ∧
          assemble records budget = .ok (assemblyOf budget packed rest))) := by
  unfold assemble packRanked
  exact packWith_spec _ _ _

theorem assemble_eq_ok (h : assemble records budget = .ok a) :
    ∃ packed rest, sortByKey rankKey records = packed ++ rest ∧ Cut budget packed rest ∧
      a = assemblyOf budget packed rest := by
  unfold assemble packRanked at h
  exact packWith_eq_ok h

/-! ## The longest prefix that fits -/

/-- The assembly packs the longest prefix of the rank order that fits, and counts right. -/
structure PacksLongest (records : List MemoryRecord) (budget : ContextBudget) (a : MemoryAssembly) :
    Prop where
  ranked : a.records <+: sortByKey rankKey records
  within : totalCost budget.cost a.records ≤ budget.maxTokens
  longest : ∀ p, p <+: sortByKey rankKey records → totalCost budget.cost p ≤ budget.maxTokens →
    p <+: a.records
  used : a.tokenAccounting.usedTokens = totalCost budget.cost a.records
  counted : a.records.length + a.omitted = records.length

theorem rankKey_injOn (hIds : (records.map (·.memoryId)).Nodup) :
    Set.InjOn rankKey {r | r ∈ records} := by
  intro r hR r' hR' hSame
  refine List.inj_on_of_nodup_map hIds hR hR' ?_
  simp only [rankKey, EmbeddingLike.apply_eq_iff_eq, Prod.mk.injEq] at hSame
  exact hSame.2.2.2

theorem packsLongest_of_cut (hRanked : sortByKey rankKey records = packed ++ rest)
    (hCut : Cut budget packed rest)
    (hFits : budget.maxTokens < u32Max ∨ totalCost budget.cost records ≤ u32Max) :
    PacksLongest records budget (assemblyOf budget packed rest) := by
  have hPerm : (packed ++ rest).Perm records := hRanked ▸ sortByKey_perm rankKey records
  have hTotal : totalCost budget.cost packed ≤ totalCost budget.cost records := by
    rw [totalCost, totalCost, ← (hPerm.map budget.cost).sum_eq]
    simp
  have hExact : clampU32 (totalCost budget.cost packed) = totalCost budget.cost packed := by
    have hWithin := hCut.within
    unfold clampU32 at hWithin ⊢
    omega
  refine ⟨?_, hExact ▸ hCut.within, fun p hP hLe => ?_, hExact, ?_⟩
  · rw [hRanked]
    exact List.prefix_append packed rest
  · refine prefix_of_fits (hRanked ▸ hP) hCut.stop (le_trans ?_ hLe)
    exact Nat.min_le_left _ _
  · simp only [assemblyOf, ← List.length_append, hPerm.length_eq]

theorem records_prefix_of_le {larger : ContextBudget}
    (hMargin : larger.marginPercent = budget.marginPercent)
    (hLe : budget.maxTokens ≤ larger.maxTokens) (hA : assemble records budget = .ok a)
    (hB : assemble records larger = .ok b) : a.records <+: b.records := by
  obtain ⟨packed, rest, hRanked, hCut, rfl⟩ := assemble_eq_ok hA
  obtain ⟨packed', rest', hRanked', hCut', rfl⟩ := assemble_eq_ok hB
  have hCost : larger.cost = budget.cost := by
    funext r
    rw [ContextBudget.cost, hMargin, ContextBudget.cost]
  have hStop := hCut'.stop
  rw [hCost] at hStop
  change packed <+: packed'
  refine prefix_of_fits ?_ hStop (hCut.within.trans hLe)
  rw [← hRanked', hRanked]
  exact List.prefix_append packed rest

/-- **When an assembly is right.** -/
theorem assemble_correct_iff (records : List MemoryRecord)
    (hIds : (records.map (·.memoryId)).Nodup) (budget : ContextBudget) :
    ((∀ other, records.Perm other → assemble other budget = assemble records budget) ∧
      (∀ a, assemble records budget = .ok a → PacksLongest records budget a) ∧
      ∀ larger a b, larger.marginPercent = budget.marginPercent →
        budget.maxTokens ≤ larger.maxTokens → assemble records budget = .ok a →
        assemble records larger = .ok b → a.records <+: b.records) ↔
      budget.maxTokens < u32Max ∨ totalCost budget.cost records ≤ u32Max := by
  constructor
  · rintro ⟨-, hPacks, -⟩
    by_contra hNot
    obtain ⟨packed, rest, hRanked, hCut, hAnswer⟩ := assemble_spec records budget
    have hBounded := budget.bounded
    -- nothing exceeds the largest number, so everything is packed
    have hRest : rest = [] := by
      cases rest with
      | nil => rfl
      | cons r rest =>
        have hStop := hCut.stop r rfl
        unfold clampU32 at hStop
        omega
    subst hRest
    rcases hAnswer with ⟨hNone, -⟩ | ⟨-, hOk⟩
    · exact hNone rfl
    · have hWithin := (hPacks _ hOk).within
      rw [assemblyOf, ← List.append_nil packed, ← hRanked, totalCost,
        ((sortByKey_perm rankKey records).map budget.cost).sum_eq, ← totalCost] at hWithin
      omega
  · intro hFits
    refine ⟨fun other hPerm => ?_, fun a hA => ?_, fun larger a b => records_prefix_of_le⟩
    · rw [assemble, assemble, sortByKey_eq_of_perm (rankKey_injOn hIds) hPerm]
    · obtain ⟨packed, rest, hRanked, hCut, rfl⟩ := assemble_eq_ok hA
      exact packsLongest_of_cut hRanked hCut hFits

/-- A budget for one of the two notes. -/
def tenTokens : ContextBudget := ⟨10, 20, .truncate, by decide⟩

theorem assemble_correct_adopted :
    tenTokens.maxTokens < u32Max ∧ ∀ a, assemble [adoptedNote, proposedNote] tenTokens = .ok a →
      PacksLongest [adoptedNote, proposedNote] tenTokens a :=
  ⟨by decide, ((assemble_correct_iff [adoptedNote, proposedNote] (by decide) tenTokens).mpr
    (.inl (by decide))).2.1⟩

def hugeNote (memoryId : String) : MemoryRecord :=
  { adoptedNote with memoryId, content := .artifact ⟨"sha", 17179869184⟩ }

/-- Two of them are packed under the largest budget, though one of them fills it. -/
theorem assemble_exceeds_budget :
    (assemble [hugeNote "a", hugeNote "b"] ⟨u32Max, 20, .truncate, le_refl _⟩).map (fun a =>
      (a.memoryIds, a.truncated, a.tokenAccounting.usedTokens)) =
        .ok (["a", "b"], false, u32Max) ∧
      u32Max < totalCost (ContextBudget.cost ⟨u32Max, 20, .truncate, le_refl _⟩)
        [hugeNote "a", hugeNote "b"] := by
  decide +kernel

/-! ## Tiers -/

inductive MemoryTier where
  | working
  | episodic
  | semantic
  deriving DecidableEq

def MemoryTier.classify : MemoryScope → MemoryKind → MemoryTier
  | .run, _ => .working
  | .agent, .summary | .team, .summary => .episodic
  | _, _ => .semantic

def MemoryTier.of (record : MemoryRecord) : MemoryTier :=
  classify record.scope.scope record.kind

/-- The place in the order of declaration. -/
def MemoryTier.place : MemoryTier → Nat
  | .working => 0
  | .episodic => 1
  | .semantic => 2

structure RankPolicy where
  utilityWeight : Nat := 0
  overFetchPercent : Nat := 100
  deriving DecidableEq

/-- `UtilityIndex`, with the smoothed success rates that it gives. -/
structure UtilityIndex where
  stamp : Instant
  successBps : String → Nat

structure TierPortion where
  tier : MemoryTier
  ids : List String
  usedTokens : Nat
  deriving DecidableEq

structure TierSectionManifest where
  format : String := "memory-tier-manifest-v1"
  rank : RankPolicy
  utilityStamp : Instant
  overFetchIds : List String
  tiers : List TierPortion
  deriving DecidableEq

structure TieredMemorySection where
  records : List MemoryRecord
  tokenAccounting : TokenAccounting
  truncated : Bool
  manifest : TierSectionManifest
  deriving DecidableEq

structure TieredMemoryDriver where
  rank : RankPolicy
  utility : UtilityIndex

def scaleBudget (maxTokens percent : Nat) : Nat := clampU32 (maxTokens * percent / 100)

def addToTiers (budget : ContextBudget) (tiers : List TierPortion) (record : MemoryRecord) :
    List TierPortion :=
  let tier := MemoryTier.of record
  let cost := budget.cost record
  match tiers.getLast? with
  | some portion =>
    if portion.tier = tier then
      tiers.dropLast ++ [⟨tier, portion.ids ++ [record.memoryId],
        clampU32 (portion.usedTokens + cost)⟩]
    else tiers ++ [⟨tier, [record.memoryId], cost⟩]
  | none => tiers ++ [⟨tier, [record.memoryId], cost⟩]

namespace TieredMemoryDriver

variable (driver : TieredMemoryDriver)

def floor (stamp : Instant) : TieredMemoryDriver := ⟨{}, stamp, fun _ => 5000⟩

def score (record : MemoryRecord) : Nat :=
  driver.rank.utilityWeight * driver.utility.successBps record.memoryId

def tierKey (record : MemoryRecord) : Nat ×ₗ Natᵒᵈ :=
  toLex ((MemoryTier.of record).place, .toDual (driver.score record))

def overFetch (budget : ContextBudget) : ContextBudget where
  maxTokens := scaleBudget budget.maxTokens driver.rank.overFetchPercent
  marginPercent := budget.marginPercent
  overflow := if 100 < driver.rank.overFetchPercent then .truncate else budget.overflow
  bounded := Nat.min_le_right _ _

/-- What `rerank` does once it has the pool. -/
def pack (pool : MemoryAssembly) (budget : ContextBudget) :
    Except String (MemoryAssembly × TierSectionManifest) := do
  let assembly ← packWith (fun record used =>
    s!"the tiered memory section exceeds the context budget: record `{record.memoryId}` costs " ++
    s!"an estimated {budget.cost record} tokens with {used} of {budget.maxTokens} already used " ++
    "— the re-ranked pool does not fit, and the budget was declared hard")
    (sortByKey driver.tierKey pool.records) budget
  return (assembly,
    { rank := driver.rank, utilityStamp := driver.utility.stamp, overFetchIds := pool.memoryIds
      tiers := assembly.records.foldl (addToTiers budget) [] })

def rerank (records : List MemoryRecord) (budget : ContextBudget) :
    Except String (MemoryAssembly × TierSectionManifest) := do
  driver.pack (← assemble records (driver.overFetch budget)) budget

end TieredMemoryDriver

/-- `rederive_section`; the message about the pins does not repeat them. -/
def rederiveSection (driver : TieredMemoryDriver) (pool : List MemoryRecord)
    (budget : ContextBudget) (manifest : TierSectionManifest) :
    Except String TieredMemorySection := do
  if manifest.rank ≠ driver.rank ∨ manifest.utilityStamp ≠ driver.utility.stamp then
    .error "re-derivation under different pins is divergence, not verification"
  else
    let (assembly, derived) ← driver.rerank pool budget
    if derived.overFetchIds ≠ manifest.overFetchIds then
      .error ("the re-derived candidate pool differs from the journaled one — the store no " ++
        "longer holds the pool the recorded assembly ranked (forgotten records end " ++
        "re-derivation; the journal remains the evidence)")
    else return ⟨assembly.records, assembly.tokenAccounting, assembly.truncated, derived⟩

/-! ## Deriving a section again -/

theorem packWith_of_fits (refusal : MemoryRecord → Nat → String)
    (h : clampU32 (totalCost budget.cost ranked) ≤ budget.maxTokens) :
    packWith refusal ranked budget = .ok (assemblyOf budget ranked []) := by
  obtain ⟨packed, rest, rfl, hCut, hAnswer⟩ := packWith_spec refusal ranked budget
  cases hCut.rest_eq_nil h
  rcases hAnswer with ⟨hNone, -⟩ | ⟨-, hOk⟩
  · exact absurd rfl hNone
  · rw [hOk, List.append_nil]

theorem assemble_packed (h : assemble records budget = .ok a) :
    assemble a.records budget = .ok (assemblyOf budget a.records []) := by
  obtain ⟨packed, rest, hRanked, hCut, rfl⟩ := assemble_eq_ok h
  have hSorted : sortByKey rankKey packed = packed := by
    have hPairs := sortByKey_pairwise rankKey records
    rw [hRanked] at hPairs
    exact List.Pairwise.insertionSort_eq (List.pairwise_append.mp hPairs).1
  change assemble packed budget = _
  rw [assemble, hSorted]
  exact packWith_of_fits _ hCut.within

theorem rerank_eq_ok {driver : TieredMemoryDriver} {manifest : TierSectionManifest}
    (h : driver.rerank records budget = .ok (a, manifest)) :
    ∃ pool, assemble records (driver.overFetch budget) = .ok pool ∧
      driver.pack pool budget = .ok (a, manifest) := by
  cases hPool : assemble records (driver.overFetch budget) with
  | error e =>
    rw [TieredMemoryDriver.rerank, hPool] at h
    cases h
  | ok pool =>
    rw [TieredMemoryDriver.rerank, hPool] at h
    exact ⟨pool, rfl, h⟩

theorem pins_of_pack {driver : TieredMemoryDriver} {manifest : TierSectionManifest}
    (h : driver.pack pool budget = .ok (a, manifest)) :
    manifest.rank = driver.rank ∧ manifest.utilityStamp = driver.utility.stamp ∧
      manifest.overFetchIds = pool.memoryIds := by
  obtain ⟨assembly, -, hPair⟩ := bind_eq_ok.mp h
  cases hPair
  exact ⟨rfl, rfl, rfl⟩

theorem eq_of_map_eq {α β : Type} {f : α → β} {xs ys : List α} (h : xs.map f = ys.map f)
    (hInj : ∀ x ∈ xs, ∀ y ∈ ys, f x = f y → x = y) : xs = ys := by
  induction xs generalizing ys with
  | nil => simpa [eq_comm] using h
  | cons x xs ih =>
    cases ys with
    | nil => simp at h
    | cons y ys =>
      simp only [List.map_cons, List.cons.injEq] at h
      rw [hInj x List.mem_cons_self y List.mem_cons_self h.1, ih h.2 fun a hA b hB =>
        hInj a (List.mem_cons_of_mem _ hA) b (List.mem_cons_of_mem _ hB)]

/-- **A section is derived again from its pool.** The records are found again by the content
addresses of the manifest. -/
theorem rederiveSection_eq (driver : TieredMemoryDriver) (records : List MemoryRecord)
    (budget : ContextBudget) (a : MemoryAssembly) (manifest : TierSectionManifest)
    (h : driver.rerank records budget = .ok (a, manifest)) (pool : List MemoryRecord)
    (hPool : pool.map (·.memoryId) = manifest.overFetchIds)
    (hSame : ∀ r ∈ pool, ∀ r' ∈ records, r.memoryId = r'.memoryId → r = r') :
    rederiveSection driver pool budget manifest =
      .ok ⟨a.records, a.tokenAccounting, a.truncated, manifest⟩ := by
  obtain ⟨assembled, hAssembled, hPack⟩ := rerank_eq_ok h
  obtain ⟨hRank, hStamp, hIds⟩ := pins_of_pack hPack
  have hPacked := assemble_packed hAssembled
  obtain ⟨packed, rest, hRanked, -, rfl⟩ := assemble_eq_ok hAssembled
  have hRecords : pool = packed := by
    refine eq_of_map_eq (hPool.trans hIds) fun r hR r' hR' => hSame r hR r' ?_
    refine (mem_sortByKey rankKey).mp ?_
    rw [hRanked]
    exact List.mem_append_left _ hR'
  subst hRecords
  have hAgain : driver.rerank pool budget = .ok (a, manifest) := by
    exact bind_eq_ok.mpr ⟨_, hPacked, hPack⟩
  unfold rederiveSection
  rw [if_neg (by simp [hRank, hStamp])]
  exact bind_eq_ok.mpr ⟨_, hAgain, if_neg (not_not.mpr rfl)⟩

theorem rederiveSection_adopted :
    rederiveSection (.floor 0) [adoptedNote] tenTokens
        { rank := {}, utilityStamp := 0, overFetchIds := ["note-1"]
          tiers := [⟨.semantic, ["note-1"], 8⟩] } =
      .ok ⟨[adoptedNote], ⟨4, 20, 10, 8⟩, false,
        { rank := {}, utilityStamp := 0, overFetchIds := ["note-1"]
          tiers := [⟨.semantic, ["note-1"], 8⟩] }⟩ :=
  rederiveSection_eq (.floor 0) [adoptedNote, proposedNote] tenTokens
    (assemblyOf tenTokens [adoptedNote] []) _ (by decide +kernel) [adoptedNote] (by decide)
    (by decide)

/-! ## The floor -/

end RustyRuntime
