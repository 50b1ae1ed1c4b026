import RustyRuntime.Record

/-!
# Checkpoints and their delta encoding

`Checkpoint` and the delta encoding of `checkpoint.rs`. A backend that opts in stores a
checkpoint either as a full snapshot or as the channels that changed since the thread's
head (`encodeDelta`), and its readers overlay such a delta on the head (`foldDelta`).

A delta lists changed channels and nothing else, so a channel of the head that the newer
checkpoint does not have comes back with the fold. `materialize_encodeDelta_eq_iff` is the
exact condition under which a reader gets the stored checkpoint back.

The byte ratio of the policy is an `f64`, here Lean's `Float`.
-/

namespace RustyRuntime

/-- A versioned snapshot of one thread's state at a super-step boundary. `createdAt` is the
UTC timestamp in nanoseconds. -/
structure Checkpoint where
  id : String
  threadId : String
  step : Nat
  state : State
  nextNodes : List String
  createdAt : Int
  base : Option String := none
  header : CheckpointHeader := {}
  journalRef : Option JournalRef := none
  deriving DecidableEq

/-- When a backend writes a full snapshot instead of another link. -/
structure DeltaPolicy where
  maxChainLen : UInt64 := 32
  maxByteRatio : Float := 0.8

namespace DeltaPolicy

def fullOnly : DeltaPolicy := ⟨0, 0.0⟩

def deltasEnabled (policy : DeltaPolicy) : Bool := 0 < policy.maxChainLen

end DeltaPolicy

/-- The materialized head of a thread's chain, with the delta links below it. -/
structure DeltaHead where
  checkpoint : Checkpoint
  chainLen : Nat
  deriving DecidableEq

/-- What `encodeDelta` decided to persist. -/
structure DeltaEncoding where
  checkpoint : Checkpoint
  chainLen : Nat
  deriving DecidableEq

namespace DeltaEncoding

def full (checkpoint : Checkpoint) : DeltaEncoding := ⟨{ checkpoint with base := none }, 0⟩

end DeltaEncoding

/-! ## Writing -/

section

variable (codec : Codec) (checkpoint : Checkpoint) (head : DeltaHead)

def stateBytes (state : State) : Nat := (codec.toVec state.toValue).length

def deltaState : State :=
  State.fromSharedChannels (checkpoint.state.channelsChangedSince head.checkpoint.state)

def deltaLink : Checkpoint :=
  { checkpoint with base := some head.checkpoint.id, state := deltaState checkpoint head }

/-- The byte-ratio test of `encode_delta`, in `f64` arithmetic. -/
def deltaReachesRatio (policy : DeltaPolicy) : Bool :=
  let deltaBytes := stateBytes codec (deltaState checkpoint head)
  let fullBytes := stateBytes codec checkpoint.state
  (UInt64.ofNat deltaBytes).toFloat ≥ policy.maxByteRatio * (UInt64.ofNat fullBytes).toFloat

def encodeDelta (head : Option DeltaHead) (policy : DeltaPolicy) : DeltaEncoding :=
  match head.filter (fun _ => policy.deltasEnabled) with
  | none => .full checkpoint
  | some head =>
    if policy.maxChainLen.toNat ≤ head.chainLen then .full checkpoint
    else if deltaReachesRatio codec checkpoint head policy then .full checkpoint
    else ⟨deltaLink checkpoint head, head.chainLen + 1⟩

end

/-! ## Reading -/

def foldDelta (base delta : Checkpoint) : Checkpoint :=
  { delta with
    state := delta.state.channels.toList.foldl (fun s e => s.insert e.1 e.2) base.state
    base := none }

/-- The `Debug` text of an optional id. -/
def debugId : Option String → String
  | none => "None"
  | some id => s!"Some(\"{id}\")"

/-- `fold_chain`, root first. -/
def foldChain : List Checkpoint → Result Checkpoint
  | [] => .error (.checkpoint "cannot fold an empty checkpoint chain")
  | root :: links =>
    match root.base with
    | some base => .error (.checkpoint
        (s!"checkpoint chain root `{root.id}` is itself a delta against `{base}`; " ++
         "the chain is broken"))
    | none => links.foldlM (fun tip link =>
        if link.base = some tip.id then .ok (foldDelta tip link)
        else .error (.checkpoint
          (s!"checkpoint `{link.id}` claims base `{debugId link.base}` but follows `{tip.id}`; " ++
           "the chain is broken"))) root

/-- What the read methods make of a stored checkpoint whose base, if any, is `head`. -/
def materialize (head stored : Checkpoint) : Checkpoint :=
  if stored.base = none then stored else foldDelta head stored

/-! ## Exactness -/

/-- The cases in which `encode_delta` falls back to a full snapshot. -/
def storesFull (codec : Codec) (checkpoint : Checkpoint) (head : DeltaHead)
    (policy : DeltaPolicy) : Bool :=
  !policy.deltasEnabled || policy.maxChainLen.toNat ≤ head.chainLen ||
    deltaReachesRatio codec checkpoint head policy

theorem encodeDelta_none (codec : Codec) (checkpoint : Checkpoint) (policy : DeltaPolicy) :
    encodeDelta codec checkpoint none policy = .full checkpoint := rfl

variable {codec : Codec} {checkpoint : Checkpoint} {head : DeltaHead} {policy : DeltaPolicy}

theorem encodeDelta_of_storesFull (h : storesFull codec checkpoint head policy = true) :
    encodeDelta codec checkpoint (some head) policy = .full checkpoint := by
  unfold storesFull at h
  unfold encodeDelta
  cases hEnabled : policy.deltasEnabled with
  | false => simp
  | true =>
    simp only [hEnabled, Bool.not_true, Bool.false_or, Bool.or_eq_true, decide_eq_true_eq] at h
    simp only [Option.filter_some, if_true]
    split
    · rfl
    · next hShort => rw [if_pos (h.resolve_left hShort)]

theorem chainLen_lt_of_not_storesFull (h : storesFull codec checkpoint head policy = false) :
    head.chainLen < policy.maxChainLen.toNat := by
  simp only [storesFull, Bool.or_eq_false_iff, decide_eq_false_iff_not] at h
  exact Nat.lt_of_not_le h.1.2

theorem encodeDelta_of_not_storesFull (h : storesFull codec checkpoint head policy = false) :
    encodeDelta codec checkpoint (some head) policy =
      ⟨deltaLink checkpoint head, head.chainLen + 1⟩ := by
  unfold storesFull at h
  simp only [Bool.or_eq_false_iff, Bool.not_eq_false', decide_eq_false_iff_not] at h
  obtain ⟨⟨hEnabled, hShort⟩, hRatio⟩ := h
  unfold encodeDelta
  simp only [hEnabled, Option.filter_some, if_true, if_neg hShort, hRatio, Bool.false_eq_true,
    if_false]

theorem foldDelta_state (base delta : Checkpoint) :
    (foldDelta base delta).state.channels =
      Library.overlay base.state.channels delta.state.channels := by
  show (delta.state.channels.toList.foldl (fun s e => State.insert s e.1 e.2) base.state).channels
    = Library.insertAll delta.state.channels.toList base.state.channels
  generalize delta.state.channels.toList = entries
  generalize base.state = state
  induction entries generalizing state with
  | nil => rfl
  | cons entry rest ih => exact ih (state.insert entry.1 entry.2)

variable (checkpoint : Checkpoint)

theorem foldDelta_deltaLink_state_eq_iff (head : DeltaHead) :
    (foldDelta head.checkpoint (deltaLink checkpoint head)).state = checkpoint.state ↔
      ∀ channel, head.checkpoint.state.contains channel → checkpoint.state.contains channel := by
  rw [← State.channels_inj, foldDelta_state]
  exact Library.overlay_changedSince_eq_iff checkpoint.state.channels
    head.checkpoint.state.channels

theorem foldDelta_deltaLink_eq_iff (head : DeltaHead) :
    foldDelta head.checkpoint (deltaLink checkpoint head) = checkpoint ↔
      checkpoint.base = none ∧
        ∀ channel, head.checkpoint.state.contains channel → checkpoint.state.contains channel := by
  rw [← foldDelta_deltaLink_state_eq_iff]
  constructor
  · intro hEq
    have hBase : (foldDelta head.checkpoint (deltaLink checkpoint head)).base = none := rfl
    exact ⟨hEq ▸ hBase, congrArg Checkpoint.state hEq⟩
  · rintro ⟨hBase, hState⟩
    cases checkpoint with
    | mk id threadId step state nextNodes createdAt base header journalRef =>
      subst hBase
      exact congrArg (fun s : State => Checkpoint.mk id threadId step s nextNodes createdAt none
        header journalRef) hState

theorem full_checkpoint_eq_iff :
    (DeltaEncoding.full checkpoint).checkpoint = checkpoint ↔ checkpoint.base = none := by
  constructor
  · intro hEq
    have hBase : (DeltaEncoding.full checkpoint).checkpoint.base = none := rfl
    exact hEq ▸ hBase
  · intro hBase
    cases checkpoint
    subst hBase
    rfl

/-- **When a stored checkpoint is read back.** A reader materializes what `encode_delta`
stored for `newer` to `newer` itself exactly when `newer` is a full snapshot and either it
was stored as one or it has every channel of the head. -/
theorem materialize_encodeDelta_eq_iff (codec : Codec) (policy : DeltaPolicy) (head : DeltaHead)
    (newer : Checkpoint) :
    materialize head.checkpoint (encodeDelta codec newer (some head) policy).checkpoint = newer ↔
      newer.base = none ∧
        (storesFull codec newer head policy = true ∨
          ∀ channel, head.checkpoint.state.contains channel → newer.state.contains channel) := by
  cases hFull : storesFull codec newer head policy with
  | true =>
    rw [encodeDelta_of_storesFull hFull]
    have hRead : materialize head.checkpoint (DeltaEncoding.full newer).checkpoint =
        (DeltaEncoding.full newer).checkpoint := rfl
    rw [hRead, full_checkpoint_eq_iff]
    simp
  | false =>
    rw [encodeDelta_of_not_storesFull hFull]
    have hRead : materialize head.checkpoint (deltaLink newer head) =
        foldDelta head.checkpoint (deltaLink newer head) := rfl
    rw [hRead, foldDelta_deltaLink_eq_iff]
    simp

/-- A codec with the compact writer of the model; no sample on it depends on what it reads or
hashes. -/
def writerCodec : Codec where
  toVec := Json.compact
  fromSlice _ := none
  sha256Hex _ := ""
  timestamp _ := ""

/-- A head with channels `kept` and `gone`, and a newer checkpoint of the thread, as after a
fresh run on it, with `kept` alone: the fold brings `gone` back. -/
theorem materialize_encodeDelta_resurrects :
    let head : DeltaHead :=
      ⟨{ id := "c0", threadId := "t", step := 3,
         state := .fromSharedChannels [("kept", .str "x"), ("gone", .bool true)],
         nextNodes := [], createdAt := 0 }, 0⟩
    let newer : Checkpoint :=
      { id := "c1", threadId := "t", step := 0, state := .fromSharedChannels [("kept", .str "x")],
        nextNodes := [], createdAt := 1 }
    let read := materialize head.checkpoint (encodeDelta writerCodec newer (some head) {}).checkpoint
    read.state.get "gone" = some (.bool true) ∧ newer.state.get "gone" = none ∧ read ≠ newer := by
  decide

end RustyRuntime
