import RustyRuntime.State.Reducer
import RustyRuntime.Library.SortByKey

/-!
# Merging the writes of one super-step

`StateSpec::apply_super_step`: the writes are sorted by node name, every write is
validated before a channel is touched, and only then are they merged.

The validation loop carries two maps, the number of writes a channel has seen and its
first writer. `validateWrites_isOk_iff` says what it accepts, for every order of the
writes; `applySuperStep_spec` puts it together with the merge loop. The sort is stable, so only the
order of the writes of one node matters (`applySuperStep_reordered`).
-/

namespace RustyRuntime

/-- One node's partial update, a `HashMap` from channel to value: some order of its
entries, with no channel twice. -/
structure Updates where
  entries : List (String × Json)
  nodupKeys : (entries.map Prod.fst).Nodup

namespace Updates

def empty : Updates := ⟨[], List.nodup_nil⟩

/-- The channels an update writes. -/
def keys (u : Updates) : List String := u.entries.map Prod.fst

instance : DecidableEq Updates := fun a b =>
  decidable_of_iff (a.entries = b.entries) (by cases a; cases b; simp)

end Updates

/-- The writes of a super-step: `(node, updates)` pairs. -/
abbrev Writes := List (String × Updates)

structure StateSpec where
  channels : Std.ExtTreeMap String Reducer

namespace StateSpec

def new : StateSpec := ⟨∅⟩

section Merge

variable (spec : StateSpec) (state : State)

/-- `StateSpec::channel` and `add_channel`. -/
def channel (name : String) (reducer : Reducer) : StateSpec :=
  ⟨spec.channels.insert name reducer⟩

def tryReducerFor (channel : String) : Option Reducer :=
  spec.channels[channel]?

def reducerFor (channel : String) : Reducer :=
  (spec.tryReducerFor channel).getD .overwrite

def hasChannel (channel : String) : Bool :=
  (spec.tryReducerFor channel).isSome

/-! ## The code -/

/-- What the validation loop has seen of the writes so far. -/
structure Tally where
  writeCounts : Std.ExtTreeMap String Nat
  firstWriter : Std.ExtTreeMap String String

/-- `*write_counts.entry(channel).or_insert(0) += 1`, and the first writer. -/
def Tally.record (tally : Tally) (node channel : String) : Tally where
  writeCounts := tally.writeCounts.insert channel (tally.writeCounts.getD channel 0 + 1)
  firstWriter := tally.firstWriter.insertIfNew channel node

/-- The three refusals, with the texts of the source. -/
def undeclaredError (node channel : String) : RustyError :=
  .invalidUpdate
    s!"node `{node}` wrote to undeclared channel `{channel}`; declare it in the StateSpec"

def notArrayError (node channel : String) (reducer : Reducer) (current : Json) : RustyError :=
  .invalidUpdate
    (s!"node `{node}` wrote to channel `{channel}` (reducer: {reducer.display}), but the " ++
     s!"current value is a {current.jsonTypeName}; the reducer requires an array")

def secondWriteError (node channel : String) (reducer : Reducer) (first : String) : RustyError :=
  .invalidUpdate
    (s!"channel `{channel}` can receive only one value per super-step (reducer: " ++
     s!"{reducer.display}); already written by node `{first}`, second write from node " ++
     s!"`{node}`. Use a multi-write reducer (Append/DeepMerge/AddMessages) to handle " ++
     "concurrent writes.")

def rejectedValue (reducer : Reducer) (state : State) (channel : String) : Option Json :=
  if reducer.requiresArray then (state.get channel).filter (!·.isArray) else none

def validateWrite (node : String) (tally : Tally) (channel : String) : Result Tally :=
  match spec.tryReducerFor channel with
  | none => .error (undeclaredError node channel)
  | some reducer =>
    match rejectedValue reducer state channel with
    | some current => .error (notArrayError node channel reducer current)
    | none =>
      let tally := tally.record node channel
      if 1 < tally.writeCounts.getD channel 0 ∧ reducer.allowsMultipleWrites = false then
        .error (secondWriteError node channel reducer (tally.firstWriter.getD channel ""))
      else .ok tally

def validateWrites (collected : Writes) : Result Tally :=
  collected.foldlM (fun tally write =>
    write.2.keys.foldlM (spec.validateWrite state write.1) tally) ⟨∅, ∅⟩

/-- The body of the merge loop: the channel is taken out, merged and put back. -/
def mergeWrite (entry : String × Json) : State :=
  let current := state.get entry.1
  (state.remove entry.1).insert entry.1 ((spec.reducerFor entry.1).applyShared current entry.2)

def mergeWrites (collected : Writes) : State :=
  collected.foldl (fun state write => write.2.entries.foldl spec.mergeWrite state) state

/-- `collected.sort_by(|a, b| a.0.cmp(&b.0))`, a stable sort. -/
def sortByNode (writes : Writes) : Writes := Library.sortByKey Prod.fst writes

/-- `StateSpec::apply_super_step`: the result, and the state behind the `&mut`. -/
def applySuperStep (writes : Writes) : Result Unit × State :=
  let collected := sortByNode writes
  match spec.validateWrites state collected with
  | .error e => (.error e, state)
  | .ok _ => (.ok (), spec.mergeWrites state collected)

def applySingle (node : String) (updates : Updates) : Result Unit × State :=
  spec.applySuperStep state [(node, updates)]

/-! ## What the validation loop accepts -/

/-- The `(node, channel)` pairs of the writes, in loop order. -/
def channelWrites (writes : Writes) : List (String × String) :=
  writes.flatMap fun write => write.2.keys.map fun channel => (write.1, channel)

/-- A write to `channel` meets a current value its reducer rejects. -/
def Rejects (channel : String) : Prop :=
  (spec.tryReducerFor channel = some .append ∨ spec.tryReducerFor channel = some .addMessages) ∧
    ∃ value, state.get channel = some value ∧ value.isArray = false

end Merge

theorem validateWrites_eq_foldlM (spec : StateSpec) (state : State) (collected : Writes) :
    spec.validateWrites state collected =
      (channelWrites collected).foldlM
        (fun tally write => spec.validateWrite state write.1 tally write.2) ⟨∅, ∅⟩ := by
  unfold validateWrites
  generalize (⟨∅, ∅⟩ : Tally) = tally
  induction collected generalizing tally with
  | nil => rfl
  | cons write rest ih =>
    simp only [channelWrites, List.flatMap_cons, List.foldlM_append, List.foldlM_map,
      List.foldlM_cons]
    exact congrArg _ (funext fun next => ih next)

@[simp]
theorem Tally.getD_record (tally : Tally) (node channel other : String) :
    (tally.record node channel).writeCounts.getD other 0 =
      tally.writeCounts.getD other 0 + if channel = other then 1 else 0 := by
  by_cases h : channel = other
  · subst h
    simp [Tally.record]
  · simp [Tally.record, Std.ExtTreeMap.getD_insert, h]

variable {spec : StateSpec} {channel : String} {writes : Writes} {state : State}

theorem rejectedValue_eq_none_iff {reducer : Reducer}
    (hReducer : spec.tryReducerFor channel = some reducer) (state : State) :
    rejectedValue reducer state channel = none ↔ ¬ spec.Rejects state channel := by
  unfold rejectedValue Rejects
  rw [hReducer]
  cases hValue : state.get channel with
  | none => simp
  | some value => cases reducer <;> simp [Reducer.requiresArray]

section

variable (spec : StateSpec) (state : State)

/-- One turn of the loop: a write passes when its channel is declared, its current value
is accepted, and an overwrite channel has not been written yet. -/
theorem validateWrite_eq_ok_iff (node channel : String) (tally next : Tally) :
    spec.validateWrite state node tally channel = .ok next ↔
      tally.record node channel = next ∧ spec.tryReducerFor channel ≠ none ∧
        ¬ spec.Rejects state channel ∧
        (spec.tryReducerFor channel = some .overwrite →
          tally.writeCounts.getD channel 0 = 0) := by
  unfold validateWrite
  cases hReducer : spec.tryReducerFor channel with
  | none => simp
  | some reducer =>
    rw [← rejectedValue_eq_none_iff hReducer]
    cases hRejected : rejectedValue reducer state channel with
    | some current => simp [hRejected]
    | none =>
      -- the counter is read after the increment, so `1 <` is "written before"
      by_cases hCount : tally.writeCounts.getD channel 0 = 0
      · simp [hRejected, hCount]
      · have hSeen : 0 < tally.writeCounts.getD channel 0 := by omega
        cases reducer <;> simp [hRejected, Reducer.allowsMultipleWrites, hCount, hSeen]

theorem foldlM_validateWrite_isOk_iff (pairs : List (String × String)) (tally : Tally) :
    (∃ next, pairs.foldlM (fun tally write => spec.validateWrite state write.1 tally write.2)
        tally = .ok next) ↔
      (∀ pair ∈ pairs, spec.tryReducerFor pair.2 ≠ none ∧ ¬ spec.Rejects state pair.2) ∧
      ∀ channel ∈ pairs.map Prod.snd, spec.tryReducerFor channel = some .overwrite →
        tally.writeCounts.getD channel 0 + (pairs.map Prod.snd).count channel ≤ 1 := by
  induction pairs generalizing tally with
  | nil => exact ⟨fun _ => ⟨by simp, by simp⟩, fun _ => ⟨tally, rfl⟩⟩
  | cons pair rest ih =>
    obtain ⟨node, channel⟩ := pair
    have hStep : (∃ next, ((node, channel) :: rest).foldlM
          (fun tally write => spec.validateWrite state write.1 tally write.2) tally = .ok next) ↔
        (spec.tryReducerFor channel ≠ none ∧ ¬ spec.Rejects state channel ∧
          (spec.tryReducerFor channel = some .overwrite →
            tally.writeCounts.getD channel 0 = 0)) ∧
        ∃ next, rest.foldlM (fun tally write => spec.validateWrite state write.1 tally write.2)
          (tally.record node channel) = .ok next := by
      rw [List.foldlM_cons]
      cases hResult : spec.validateWrite state node tally channel with
      | error e =>
        have hNot := mt (validateWrite_eq_ok_iff spec state node channel tally
          (tally.record node channel)).mpr (by simp [hResult])
        simp only [true_and] at hNot
        exact ⟨fun ⟨_, h⟩ => by simp [bind, Except.bind] at h, fun h => absurd h.1 hNot⟩
      | ok next =>
        obtain ⟨rfl, hOk⟩ := (validateWrite_eq_ok_iff _ _ _ _ _ _).mp hResult
        exact ⟨fun h => ⟨hOk, h⟩, fun h => h.2⟩
    rw [hStep, ih]
    simp only [Tally.getD_record, List.mem_cons, forall_eq_or_imp, List.map_cons,
      List.count_cons, beq_iff_eq]
    constructor
    · rintro ⟨⟨hDeclared, hAccepts, hFirst⟩, hRest, hCounts⟩
      refine ⟨⟨⟨hDeclared, hAccepts⟩, hRest⟩, fun hOver => ?_, fun other hMem hOver => ?_⟩
      · by_cases hMem : channel ∈ rest.map Prod.snd
        · have := hCounts channel hMem hOver
          simp only [if_true] at this ⊢
          omega
        · have := hFirst hOver
          simp only [List.count_eq_zero_of_not_mem hMem, if_true]
          omega
      · have := hCounts other hMem hOver
        omega
    · rintro ⟨⟨⟨hDeclared, hAccepts⟩, hRest⟩, hHead, hCounts⟩
      refine ⟨⟨hDeclared, hAccepts, fun hOver => ?_⟩, hRest, fun other hMem hOver => ?_⟩
      · have := hHead hOver
        simp only [if_true] at this
        omega
      · have := hCounts other hMem hOver
        omega

theorem mem_channelWrites_snd :
    channel ∈ (channelWrites writes).map Prod.snd ↔ ∃ write ∈ writes, channel ∈ write.2.keys := by
  simp [channelWrites]

theorem count_channelWrites (writes : Writes) (channel : String) :
    ((channelWrites writes).map Prod.snd).count channel =
      writes.countP fun write => channel ∈ write.2.keys := by
  induction writes with
  | nil => rfl
  | cons write rest ih =>
    have hKeys : write.2.keys.count channel = if channel ∈ write.2.keys then 1 else 0 := by
      exact List.Nodup.count write.2.nodupKeys
    simp only [channelWrites, List.flatMap_cons, List.map_append, List.count_append,
      List.map_map, List.countP_cons] at ih ⊢
    rw [ih, Nat.add_comm]
    simpa [Function.comp_def] using hKeys

theorem sortByNode_perm (writes : Writes) : (sortByNode writes).Perm writes :=
  Library.sortByKey_perm _ writes

/-- **What a super-step may write.** The validation of the sorted writes passes exactly when
every written channel is declared and accepts, and no overwrite channel has two writers. -/
theorem validateWrites_isOk_iff (writes : Writes) :
    (∃ tally, spec.validateWrites state (sortByNode writes) = .ok tally) ↔
      (∀ write ∈ writes, ∀ channel ∈ write.2.keys,
        spec.tryReducerFor channel ≠ none ∧ ¬ spec.Rejects state channel) ∧
      ∀ channel, spec.tryReducerFor channel = some .overwrite →
        (writes.countP fun write => channel ∈ write.2.keys) ≤ 1 := by
  have hPerm := sortByNode_perm writes
  rw [validateWrites_eq_foldlM, foldlM_validateWrite_isOk_iff]
  simp only [count_channelWrites, mem_channelWrites_snd, hPerm.countP_eq, hPerm.mem_iff,
    Std.ExtTreeMap.getD_empty, Nat.zero_add]
  refine and_congr ?_ ⟨fun h channel hOver => ?_, fun h channel _ => h channel⟩
  · simp only [channelWrites, List.mem_flatMap, hPerm.mem_iff, List.mem_map]
    exact ⟨fun h write hWrite channel hChannel =>
        h (write.1, channel) ⟨write, hWrite, channel, hChannel, rfl⟩,
      fun h pair ⟨write, hWrite, channel, hChannel, hPair⟩ =>
        hPair ▸ h write hWrite channel hChannel⟩
  · by_cases hWritten : ∃ write ∈ writes, channel ∈ write.2.keys
    · exact h channel hWritten hOver
    · have hNone : (writes.countP fun write => channel ∈ write.2.keys) = 0 := by
        simpa [List.countP_eq_zero] using hWritten
      omega

/-! ## What the merge loop leaves alone -/

theorem get_mergeWrite_of_ne {entry : String × Json} (h : entry.1 ≠ channel) :
    (spec.mergeWrite state entry).get channel = state.get channel := by
  simp [mergeWrite, State.get_insert, State.get_remove, h]

theorem get_foldl_mergeWrite (entries : List (String × Json)) (state : State)
    (h : channel ∉ entries.map Prod.fst) :
    (entries.foldl spec.mergeWrite state).get channel = state.get channel := by
  induction entries generalizing state with
  | nil => rfl
  | cons entry rest ih =>
    rw [List.map_cons, List.mem_cons, not_or] at h
    rw [List.foldl_cons, ih _ h.2, get_mergeWrite_of_ne spec state (Ne.symm h.1)]

theorem get_mergeWrites (collected : Writes) (state : State)
    (h : ∀ write ∈ collected, channel ∉ write.2.keys) :
    (spec.mergeWrites state collected).get channel = state.get channel := by
  unfold mergeWrites
  induction collected generalizing state with
  | nil => rfl
  | cons write rest ih =>
    rw [List.foldl_cons, ih _ fun w hw => h w (List.mem_cons_of_mem _ hw)]
    exact get_foldl_mergeWrite spec _ state (h write List.mem_cons_self)

end

/-! ## The super-step merge -/

theorem applySuperStep_of_error {e : RustyError}
    (h : spec.validateWrites state (sortByNode writes) = .error e) :
    spec.applySuperStep state writes = (.error e, state) := by
  simp only [applySuperStep, h]

theorem applySuperStep_of_ok {tally : Tally}
    (h : spec.validateWrites state (sortByNode writes) = .ok tally) :
    spec.applySuperStep state writes = (.ok (), spec.mergeWrites state (sortByNode writes)) := by
  simp only [applySuperStep, h]

/-- **The merge of a super-step is atomic.** An error leaves the state as it was; a success
leaves every channel that no node wrote as it was; and an error is returned exactly when
some node writes an undeclared channel, two writes hit one overwrite channel, or a write to
an append or message channel meets a value its reducer rejects. -/
theorem applySuperStep_spec (spec : StateSpec) (state : State) (writes : Writes) :
    (∀ e, (spec.applySuperStep state writes).1 = .error e →
        (spec.applySuperStep state writes).2 = state) ∧
    ((spec.applySuperStep state writes).1 = .ok () →
        ∀ channel, (∀ write ∈ writes, channel ∉ write.2.keys) →
          (spec.applySuperStep state writes).2.get channel = state.get channel) ∧
    ((∃ e, (spec.applySuperStep state writes).1 = .error e) ↔
      (∃ write ∈ writes, ∃ channel ∈ write.2.keys, spec.tryReducerFor channel = none) ∨
      (∃ channel, spec.tryReducerFor channel = some .overwrite ∧
        2 ≤ writes.countP fun write => channel ∈ write.2.keys) ∨
      (∃ write ∈ writes, ∃ channel ∈ write.2.keys, spec.Rejects state channel)) := by
  have hIff := validateWrites_isOk_iff spec state writes
  cases hResult : spec.validateWrites state (sortByNode writes) with
  | error e =>
    have hBad := mt hIff.mpr (by simp [hResult])
    rw [applySuperStep_of_error hResult]
    refine ⟨fun _ _ => rfl, nofun, fun _ => ?_, fun _ => ⟨e, rfl⟩⟩
    by_contra hNone
    simp only [not_or, not_exists, not_and, not_le] at hNone
    exact hBad ⟨fun write hWrite channel hChannel =>
        ⟨hNone.1 write hWrite channel hChannel, hNone.2.2 write hWrite channel hChannel⟩,
      fun channel hOver => Nat.lt_succ_iff.mp (hNone.2.1 channel hOver)⟩
  | ok tally =>
    obtain ⟨hEach, hCount⟩ := hIff.mp ⟨tally, hResult⟩
    rw [applySuperStep_of_ok hResult]
    refine ⟨nofun, fun _ channel hFree => ?_, fun ⟨e, h⟩ => (by cases h), ?_⟩
    · exact get_mergeWrites spec _ state fun write hWrite =>
        hFree write ((sortByNode_perm writes).mem_iff.mp hWrite)
    · rintro (⟨write, hWrite, channel, hChannel, hNone⟩ | ⟨channel, hOver, hTwo⟩ |
        ⟨write, hWrite, channel, hChannel, hRejects⟩)
      · exact absurd hNone (hEach write hWrite channel hChannel).1
      · exact absurd (hCount channel hOver) (by omega)
      · exact absurd hRejects (hEach write hWrite channel hChannel).2

/-- **The order of the nodes does not matter.** Lists with the same writes of each node, in the same
order, are merged alike. -/
theorem applySuperStep_reordered (spec : StateSpec) (state : State) (writes reordered : Writes)
    (h : ∀ node, reordered.filter (·.1 = node) = writes.filter (·.1 = node)) :
    spec.applySuperStep state reordered = spec.applySuperStep state writes := by
  have hSorted : sortByNode reordered = sortByNode writes := Library.sortByKey_eq_of_filter h
  simp only [applySuperStep, hSorted]

/-- Three writes to one channel, two of them of the same node. -/
def logWrites (first second third : String × String) : Writes :=
  [first, second, third].map fun p => (p.1, ⟨[("log", .str p.2)], List.nodup_singleton _⟩)

theorem applySuperStep_logWrites :
    (new.channel "log" .append).applySuperStep .new
        (logWrites ("b", "1") ("a", "2") ("b", "3")) =
      (new.channel "log" .append).applySuperStep .new
        (logWrites ("a", "2") ("b", "1") ("b", "3")) := by
  refine applySuperStep_reordered _ _ _ _ fun node => ?_
  by_cases hNode : "b" = node
  · simp [logWrites, ← hNode]
  · simp [logWrites, List.filter_cons, hNode]

variable (spec state) (name : String)

/-- A super-step, with a log of what accepted writes append to a channel. -/
def logStep (s : State × List Json) (writes : Writes) : State × List Json :=
  match spec.applySuperStep s.1 writes with
  | (.error _, state) => (state, s.2)
  | (.ok _, state) => (state, ((sortByNode writes).flatMap (·.2.entries)).foldl
      (fun log entry => if entry.1 = name then log ++ updateItems entry.2 else log) s.2)

/-- **No append is lost or made twice** in a run, and a refused super-step makes none. -/
theorem get_run_append (items : List Json) (steps : List Writes) :
    let out := steps.foldl (logStep (spec.channel name .append) name)
      (state.insert name (.arr items), items)
    out.1.get name = some (.arr out.2) := by
  let Logged (s : State) (log : List Json) := s.get name = some (.arr log)
  refine List.foldlRecOn (motive := fun s : _ × _ => Logged s.1 s.2) steps _ ?_ ?_
  · simp [Logged, State.get_insert]
  intro s hLog writes _
  rw [logStep, applySuperStep]
  cases validateWrites _ s.1 (sortByNode writes) with
  | error e => exact hLog
  | ok tally =>
    simp only [mergeWrites, ← List.foldl_flatMap]
    refine List.foldl_rel (r := Logged) hLog fun entry _ s log hLog => ?_
    by_cases hName : entry.1 = name
    · simp_all [Logged, mergeWrite, State.get_insert, reducerFor, tryReducerFor, channel,
        Reducer.applyShared, appendInPlace]
    · rw [if_neg hName]
      exact (get_mergeWrite_of_ne _ s hName).trans hLog

end StateSpec

end RustyRuntime
