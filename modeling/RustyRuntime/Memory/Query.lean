import RustyRuntime.Library.Separator
import RustyRuntime.Library.Text
import RustyRuntime.Server.Task

/-!
# Memory records and their retrieval

`memory.rs`: the record model and the structured query. A retrieval filters the namespace of
one tenant record by record; what couples the records is the superseded set, the ids that some
record names as the one it replaces or, as a summary, as one of its sources.

A record that an agent or a distiller proposed is held back from a query without candidate
flags, but what it names counts as superseded from the moment it is stored.

Main results:

* **When a stored record leaves the rest of a retrieval alone**
  (`filter_superseded_insert_iff`): for any record, the records beside it are retrieved as
  before exactly when it names none of them that was served.
* **When a proposal is held back** (`proposal_held_back_iff`): the query serves superseded
  records, or every record the query selects that the proposal names was superseded before.
* A proposal that takes an adopted note out of retrieval (`proposal_hides_adopted`).
-/

namespace RustyRuntime

open Library

/-! ## The record model -/

inductive MemoryKind where
  | fact
  | preference
  | example
  | summary
  deriving DecidableEq, Repr

/-- The governance state of a record that was proposed. -/
inductive Candidacy where
  | pending
  deriving DecidableEq, Repr

inductive MemoryScope where
  | run
  | agent
  | team
  | user
  | tenant
  deriving DecidableEq, Repr

def MemoryScope.name : MemoryScope → String
  | .run => "run"
  | .agent => "agent"
  | .team => "team"
  | .user => "user"
  | .tenant => "tenant"

/-- Whose memory a record is. -/
structure ScopeAddress where
  scope : MemoryScope
  id : String
  deriving DecidableEq, Repr

def ScopeAddress.asAddress (address : ScopeAddress) : String :=
  s!"{address.scope.name}:{address.id}"

theorem asAddress_injective : Function.Injective ScopeAddress.asAddress := by
  have hSplit (address : ScopeAddress) :
      splitFirst ':' address.asAddress.toList =
        some (address.scope.name.toList, address.id.toList) := by
    refine splitFirst_eq_some_iff.mpr ⟨?_, ?_⟩
    · simp [ScopeAddress.asAddress, toString]
    · cases address.scope <;> decide
  have hName (scope scope' : MemoryScope) (h : scope.name = scope'.name) : scope = scope' := by
    cases scope <;> cases scope' <;> first | rfl | exact absurd h (by decide)
  rintro ⟨scope, id⟩ ⟨scope', id'⟩ h
  have hParts := hSplit ⟨scope, id⟩
  rw [h, hSplit] at hParts
  obtain ⟨hScope, hId⟩ := Prod.mk.inj (Option.some.inj hParts)
  cases hName _ _ (String.toList_inj.mp hScope)
  cases String.toList_inj.mp hId
  rfl

inductive ProvenanceAuthor where
  | agent (agentId : String)
  | human (humanId : String)
  | distiller (name : String)
  | system
  deriving DecidableEq, Repr

def ProvenanceAuthor.isHuman : ProvenanceAuthor → Bool
  | .human _ => true
  | _ => false

/-- What a record rests on; a summary names the records it distils as sources. -/
structure MemoryEvidence where
  runId : Option String := none
  eventIds : List String := []
  correctionId : Option String := none
  candidateId : Option String := none
  sourceMemoryIds : List String := []
  deriving DecidableEq, Repr

structure MemoryProvenance where
  author : ProvenanceAuthor
  evidence : MemoryEvidence
  writtenAt : Instant
  deriving DecidableEq

structure ValidityWindow where
  validFrom : Instant
  validUntil : Option Instant
  deriving DecidableEq

def ValidityWindow.contains (window : ValidityWindow) (t : Instant) : Bool :=
  decide (window.validFrom ≤ t) && window.validUntil.all fun stop => decide (t < stop)

/-- `MemoryRecord`; the embedding is left out, nothing reads it. -/
structure MemoryRecord where
  memoryId : String
  kind : MemoryKind
  scope : ScopeAddress
  key : Option String
  tags : List String
  priority : Int
  provenance : MemoryProvenance
  confidence : Rat
  validity : ValidityWindow
  createdAt : Instant
  expiresAt : Option Instant
  supersedes : Option String
  candidacy : Option Candidacy
  content : PayloadRef
  deriving DecidableEq

/-! ## Lane-one recall -/

/-- What the recall score takes from the standard library. -/
structure RecallOps where
  /-- `char::is_alphanumeric`. -/
  isAlphanumeric : Char → Bool
  /-- `str::to_lowercase`. -/
  toLowercase : String → String
  /-- The double that `lexical * importance * recency` comes to, the recency being the power
  of one half for an age in seconds. -/
  weigh : Rat → Rat → Nat → Rat

section

variable (ops : RecallOps)

section

variable (q : MemoryQuery) (record : MemoryRecord)

/-- `recall_terms`: the words of four characters or more, sorted, without repeats. -/
def recallTerms (text : String) : List String :=
  let words := (splitAt (fun c => !ops.isAlphanumeric c) text).filter (4 ≤ ·.length)
  ((words.map ops.toLowercase).mergeSort (· ≤ ·)).dedup

def triggerHit (text : String) : Bool :=
  (record.tags.filterMap (stripPrefix "trigger:")).any fun phrase =>
    !phrase.isEmpty && containsText (ops.toLowercase text) phrase

/-- `recall_score`; instants count nanoseconds. -/
def recallScore (text : String) (now : Instant) : Rat :=
  let terms := recallTerms ops text
  let body := ops.toLowercase (payloadJson record.content).text
  let matched := terms.countP (containsText body)
  let lexical : Rat :=
    if triggerHit ops record text then 1
    else if terms.isEmpty then 0
    else matched / terms.length
  if lexical = 0 then 0
  else
    let importance : Rat := 1 / 2 + (max 0 (min record.priority 10) : Int) / 20
    ops.weigh lexical importance (((now - record.createdAt) / 1000000000).toNat)

/-! ## Queries -/

structure MemoryQuery where
  scope : Option ScopeAddress := none
  kinds : List MemoryKind := []
  key : Option String := none
  tags : List String := []
  validAt : Option Instant := none
  minConfidence : Option Rat := none
  includeExpired : Bool := false
  includeSuperseded : Bool := false
  authoredBy : Option ProvenanceAuthor := none
  candidatesOnly : Bool := false
  includeCandidates : Bool := false
  asOf : Option Instant := none
  text : Option String := none
  utilityStamp : Option Instant := none
  deriving DecidableEq

def MemoryQuery.unflagged : Bool := !q.candidatesOnly && !q.includeCandidates

/-- `matches`: every declared filter, in the order of the source. -/
def MemoryQuery.matches (superseded : Bool) (now : Instant) : Bool :=
  q.scope.all (fun scope => record.scope = scope) &&
  (q.kinds.isEmpty || q.kinds.contains record.kind) &&
  q.key.all (fun key => record.key = some key) &&
  q.tags.all (fun tag => record.tags.contains tag) &&
  q.validAt.all record.validity.contains &&
  q.minConfidence.all (fun least => decide (least ≤ record.confidence)) &&
  (q.includeExpired || !record.expiresAt.any fun expires => decide (expires ≤ now)) &&
  (q.includeSuperseded || !superseded) &&
  q.authoredBy.all (fun author => record.provenance.author = author) &&
  (!q.candidatesOnly || record.candidacy.isSome) &&
  -- what a person wrote stands while it is evaluated, what was proposed waits
  !(record.candidacy.isSome && !record.provenance.author.isHuman && q.unflagged) &&
  q.text.all (fun text => recallScore ops record text now ≠ 0)

def MemoryRecord.named : List String :=
  record.supersedes.toList ++
    if record.kind = .summary then record.provenance.evidence.sourceMemoryIds else []

end

/-- `superseded_set`: everything named in a `supersedes` field, then every source of a
summary. -/
def supersededSet (records : List MemoryRecord) : List String :=
  records.filterMap (·.supersedes) ++
    (records.filter (·.kind = .summary)).flatMap (·.provenance.evidence.sourceMemoryIds)

def applyQuery (records : List MemoryRecord) (q : MemoryQuery) (now : Instant) :
    List MemoryRecord :=
  records.filter fun record =>
    q.matches ops record ((supersededSet records).contains record.memoryId) now

end

/-- A candidate that a query without flags holds back. -/
def MemoryRecord.heldBack (record : MemoryRecord) : Bool :=
  record.candidacy.isSome && !record.provenance.author.isHuman

theorem mem_applyQuery_default {ops : RecallOps} {records : List MemoryRecord}
    {scope : Option ScopeAddress} {now : Instant} {r : MemoryRecord} :
    r ∈ applyQuery ops records { scope := scope } now ↔
      r ∈ records ∧ (∀ s ∈ scope, r.scope = s) ∧ (∀ e ∈ r.expiresAt, now < e) ∧
        r.memoryId ∉ supersededSet records ∧ r.heldBack = false := by
  rw [applyQuery, List.mem_filter]
  cases hScope : scope <;> cases hExpires : r.expiresAt <;> cases hCandidacy : r.candidacy <;>
    simp [MemoryQuery.matches, MemoryQuery.unflagged, MemoryRecord.heldBack, hExpires, hCandidacy,
      and_assoc]

/-! ## What one record does to the retrieval of the others -/

section Retrieval

variable {ops : RecallOps} {q : MemoryQuery} {now : Instant}

variable {id : String} {left right : List MemoryRecord} {record : MemoryRecord}

theorem mem_supersededSet {records : List MemoryRecord} :
    id ∈ supersededSet records ↔ ∃ record ∈ records, id ∈ record.named := by
  simp only [supersededSet, MemoryRecord.named, List.mem_append, List.mem_filterMap,
    List.mem_flatMap, List.mem_filter, decide_eq_true_eq, Option.mem_toList]
  constructor
  · rintro (⟨record, hIn, hId⟩ | ⟨record, ⟨hIn, hKind⟩, hId⟩)
    · exact ⟨record, hIn, .inl hId⟩
    · refine ⟨record, hIn, .inr ?_⟩
      rw [if_pos hKind]
      exact hId
  · rintro ⟨record, hIn, hId | hId⟩
    · exact .inl ⟨record, hIn, hId⟩
    · split at hId
      · rename_i hKind
        exact .inr ⟨record, ⟨hIn, hKind⟩, hId⟩
      · cases hId

theorem mem_supersededSet_insert :
    id ∈ supersededSet (left ++ record :: right) ↔
      id ∈ record.named ∨ id ∈ supersededSet (left ++ right) := by
  simp only [mem_supersededSet, List.mem_append, List.mem_cons]
  constructor
  · rintro ⟨other, hIn | rfl | hIn, hId⟩
    · exact .inr ⟨other, .inl hIn, hId⟩
    · exact .inl hId
    · exact .inr ⟨other, .inr hIn, hId⟩
  · rintro (hId | ⟨other, hIn | hIn, hId⟩)
    · exact ⟨record, .inr (.inl rfl), hId⟩
    · exact ⟨other, .inl hIn, hId⟩
    · exact ⟨other, .inr (.inr hIn), hId⟩

theorem matches_eq (record : MemoryRecord) (superseded : Bool) :
    q.matches ops record superseded now =
      (q.matches ops record false now && (q.includeSuperseded || !superseded)) := by
  cases superseded with
  | false => simp
  | true =>
    cases hInclude : q.includeSuperseded with
    | false | true => simp [MemoryQuery.matches, hInclude]

theorem filter_eq_filter_iff {α : Type} {p r : α → Bool} {xs : List α} :
    xs.filter p = xs.filter r ↔ ∀ x ∈ xs, p x = r x := by
  refine ⟨fun h x hIn => ?_, List.filter_congr⟩
  have hMem : x ∈ xs.filter p ↔ x ∈ xs.filter r := by rw [h]
  rw [List.mem_filter, List.mem_filter] at hMem
  rw [Bool.eq_iff_iff]
  exact ⟨fun hP => (hMem.mp ⟨hIn, hP⟩).2, fun hR => (hMem.mpr ⟨hIn, hR⟩).2⟩

/-- The query serves superseded records, or every record that it selects and that is among the
named ones is already superseded by another record. -/
def SparesOthers (ops : RecallOps) (others : List MemoryRecord) (named : List String)
    (q : MemoryQuery) (now : Instant) : Prop :=
  q.includeSuperseded = true ∨
    ∀ x ∈ others, x.memoryId ∈ named → q.matches ops x false now = true →
      x.memoryId ∈ supersededSet others

instance (ops : RecallOps) (others : List MemoryRecord) (named : List String) (q : MemoryQuery)
    (now : Instant) : Decidable (SparesOthers ops others named q now) :=
  inferInstanceAs (Decidable (_ ∨ _))

/-- **When a stored record leaves the rest of a retrieval alone.** -/
theorem filter_superseded_insert_iff {added : MemoryRecord}
    (hUnserved : ∀ superseded, q.matches ops added superseded now = false) :
    applyQuery ops (left ++ added :: right) q now = applyQuery ops (left ++ right) q now ↔
      SparesOthers ops (left ++ right) added.named q now := by
  have hDrop : applyQuery ops (left ++ added :: right) q now =
      (left ++ right).filter fun record => q.matches ops record
        ((supersededSet (left ++ added :: right)).contains record.memoryId) now := by
    simp only [applyQuery, List.filter_append, List.filter_cons, hUnserved]
    rfl
  rw [hDrop, applyQuery, filter_eq_filter_iff, SparesOthers]
  cases hInclude : q.includeSuperseded with
  | true =>
    refine iff_of_true (fun x _ => ?_) (.inl rfl)
    rw [matches_eq x, matches_eq x ((supersededSet (left ++ right)).contains _), hInclude]
    rfl
  | false =>
    simp only [Bool.false_eq_true, false_or]
    refine forall₂_congr fun x hIn => ?_
    rw [matches_eq x, matches_eq x ((supersededSet (left ++ right)).contains _), hInclude]
    cases hSelected : q.matches ops x false now with
    | false => simp
    | true =>
      rw [Bool.true_and, Bool.true_and, Bool.false_or, Bool.false_or, Bool.not_inj_iff,
        Bool.eq_iff_iff, List.contains_iff_mem, List.contains_iff_mem, mem_supersededSet_insert]
      constructor
      · intro h hNamed _
        exact h.mp (.inl hNamed)
      · intro h
        exact ⟨fun hOr => hOr.elim (fun hNamed => h hNamed rfl) id, .inr⟩

/-! ## Proposals -/

def MemoryRecord.isProposal (record : MemoryRecord) : Bool :=
  record.candidacy = some .pending &&
    match record.provenance.author with
    | .agent _ | .distiller _ => true
    | _ => false

theorem proposal_unserved (hProposal : record.isProposal) (hQuery : q.unflagged)
    (superseded : Bool) : q.matches ops record superseded now = false := by
  rw [MemoryRecord.isProposal, Bool.and_eq_true, decide_eq_true_eq] at hProposal
  obtain ⟨hPending, hAuthor⟩ := hProposal
  have hNotHuman : record.provenance.author.isHuman = false := by
    cases hWho : record.provenance.author with
    | human _ => simp [hWho] at hAuthor
    | agent _ | distiller _ | system => rfl
  simp [MemoryQuery.matches, hPending, hNotHuman, hQuery]

/-- **When a proposal is held back.** -/
theorem proposal_held_back_iff {left right : List MemoryRecord} {proposal : MemoryRecord}
    (hProposal : proposal.isProposal = true) (hQuery : q.unflagged = true) :
    applyQuery ops (left ++ proposal :: right) q now = applyQuery ops (left ++ right) q now ↔
      SparesOthers ops (left ++ right) proposal.named q now :=
  filter_superseded_insert_iff (proposal_unserved hProposal hQuery)

end Retrieval

/-- Recall over ASCII, with an age that does not count. -/
def asciiRecall : RecallOps := ⟨Char.isAlphanum, String.toLower, fun lexical importance _ =>
  lexical * importance⟩

def adoptedNote : MemoryRecord where
  memoryId := "note-1"
  kind := .preference
  scope := ⟨.user, "dana"⟩
  key := some "preference.units"
  tags := []
  priority := 5
  provenance := ⟨.human "dana", {}, 0⟩
  confidence := 1
  validity := ⟨0, none⟩
  createdAt := 0
  expiresAt := none
  supersedes := none
  candidacy := none
  content := .inline (.obj [("text", .str "Use metric units.")])

def proposedNote : MemoryRecord :=
  { adoptedNote with
    memoryId := "note-2"
    provenance := ⟨.agent "helper", { runId := some "run-1" }, 1⟩
    confidence := 9 / 10
    createdAt := 1
    supersedes := some "note-1"
    candidacy := some .pending
    content := .inline (.obj [("text", .str "Use imperial units.")]) }

theorem proposal_held_back_keyless :
    ({ proposedNote with supersedes := none }).isProposal = true ∧
      (({} : MemoryQuery).unflagged) = true ∧
      applyQuery asciiRecall ([adoptedNote] ++ { proposedNote with supersedes := none } :: []) {} 2 =
        applyQuery asciiRecall ([adoptedNote] ++ []) {} 2 :=
  ⟨rfl, rfl, (proposal_held_back_iff rfl rfl).mpr (by decide)⟩

/-- The person's note is retrieved until the agent's proposal, which is itself held back, is
stored. -/
theorem proposal_hides_adopted :
    proposedNote.isProposal = true ∧ (({} : MemoryQuery).unflagged) = true ∧
      applyQuery asciiRecall [adoptedNote] {} 2 = [adoptedNote] ∧
      applyQuery asciiRecall [adoptedNote, proposedNote] {} 2 = [] := by
  decide

end RustyRuntime
