import RustyRuntime.Checkpoint.Delta
import RustyRuntime.Library.SortByKey

/-!
# The checkpointer interface and the in-memory backend

`Checkpointer` of `checkpoint.rs`: recency is insertion order, listings are in the order
`(step, created_at, id)`, and a fork re-puts the listing of the source under the
destination's thread id. `forkThread` takes the backend's `list` and `put`; the file
backend overrides the trait's version with the same loop over a different `put`.

A thread's history in memory is a list in insertion order that never holds an id twice.
-/

namespace RustyRuntime

/-! ## Listing order -/

namespace Checkpoint

def listKey (c : Checkpoint) : Nat ×ₗ Int ×ₗ String :=
  toLex (c.step, toLex (c.createdAt, c.id))

def onThread (c : Checkpoint) (thread : String) : Checkpoint := { c with threadId := thread }

theorem id_eq_of_listKey_eq {a b : Checkpoint} (h : a.listKey = b.listKey) : a.id = b.id :=
  congrArg (fun k => (ofLex (ofLex k).2).2) h

theorem injOn_listKey {history : List Checkpoint} (hIds : (history.map Checkpoint.id).Nodup) :
    Set.InjOn listKey {c | c ∈ history} := by
  intro a hA b hB hKey
  exact List.inj_on_of_nodup_map hIds hA hB (id_eq_of_listKey_eq hKey)

end Checkpoint

def sortHistory (history : List Checkpoint) : List Checkpoint :=
  Library.sortByKey Checkpoint.listKey history

/-! ## Forking -/

def selectHistory (src : String) (all : List Checkpoint) :
    Option String → Result (List Checkpoint)
  | none => .ok all
  | some id =>
    match all.findIdx? (fun c => c.id = id) with
    | none => .error (.checkpoint
        s!"cannot fork thread `{src}`: unknown checkpoint id `{id}`")
    | some pos => .ok (all.take (pos + 1))

/-- The put loop of a fork. It stops at the first error and keeps what was put before. -/
def putAll {σ : Type} (put : σ → Checkpoint → Result Unit × σ) :
    σ → List Checkpoint → Result Unit × σ
  | store, [] => (.ok (), store)
  | store, c :: rest =>
    match put store c with
    | (.error e, store) => (.error e, store)
    | (.ok (), store) => putAll put store rest

def forkSelection (src dst : String) (listing : Result (List Checkpoint))
    (atCheckpointId : Option String) : Result (List Checkpoint) :=
  if src = dst then
    .error (.checkpoint
      s!"cannot fork thread `{src}` onto itself: checkpoint ids would collide")
  else
    match listing with
    | .error e => .error e
    | .ok [] => .error (.checkpoint s!"cannot fork thread `{src}`: no checkpoints found")
    | .ok (first :: rest) => selectHistory src (first :: rest) atCheckpointId

/-- `Checkpointer::fork_thread` over a backend's `list` and `put`. -/
def forkThreadWith {σ : Type} (list : σ → String → Result (List Checkpoint))
    (put : σ → Checkpoint → Result Unit × σ) (store : σ) (src dst : String)
    (atCheckpointId : Option String) : Result Nat × σ :=
  match forkSelection src dst (list store src) atCheckpointId with
  | .error e => (.error e, store)
  | .ok selected =>
    let copied := putAll put store (selected.map (·.onThread dst))
    (copied.1.map fun _ => selected.length, copied.2)

variable {all selected : List Checkpoint} {atId : Option String}

theorem mem_of_mem_selectHistory {src : String} (h : selectHistory src all atId = .ok selected)
    {c : Checkpoint} (hC : c ∈ selected) : c ∈ all := by
  cases atId with
  | none =>
    cases h
    exact hC
  | some id =>
    cases hPos : all.findIdx? (fun c => c.id = id) with
    | none => simp [selectHistory, hPos] at h
    | some pos =>
      simp only [selectHistory, hPos] at h
      cases h
      exact List.mem_of_mem_take hC

/-- A fork that passes its checks copies checkpoints of a listing that is not empty. -/
theorem forkSelection_eq_ok {src dst : String}
    (h : forkSelection src dst (.ok all) atId = .ok selected) :
    src ≠ dst ∧ all ≠ [] ∧ selectHistory src all atId = .ok selected := by
  unfold forkSelection at h
  split at h
  · cases h
  · next hNe =>
    cases all with
    | nil => cases h
    | cons first rest => exact ⟨hNe, List.cons_ne_nil _ _, h⟩

/-- The refusal of a second put of one id, the same in both backends. -/
def duplicateIdError (c : Checkpoint) : RustyError :=
  .checkpoint s!"checkpoint id `{c.id}` already exists for thread `{c.threadId}`"

/-! ## The in-memory backend -/

/-- A thread's checkpoints in insertion order. -/
structure History where
  checkpoints : List Checkpoint
  nodupIds : (checkpoints.map Checkpoint.id).Nodup

namespace History

def empty : History := ⟨[], List.nodup_nil⟩

/-- `entry.push(checkpoint)` after the duplicate check. -/
def push (h : History) (c : Checkpoint) (hNew : c.id ∉ h.checkpoints.map Checkpoint.id) :
    History where
  checkpoints := h.checkpoints ++ [c]
  nodupIds := by
    rw [List.map_append, List.map_singleton]
    exact List.nodup_append.mpr ⟨h.nodupIds, List.nodup_singleton _,
      fun id hId other hOther => by
        rintro rfl
        exact hNew (List.mem_singleton.mp hOther ▸ hId)⟩

end History

/-- `InMemoryCheckpointer`: thread id to history. -/
structure InMemoryCheckpointer where
  inner : Std.ExtTreeMap String History

namespace InMemoryCheckpointer

def new : InMemoryCheckpointer := ⟨∅⟩

variable (store : InMemoryCheckpointer)

def history (thread : String) : History :=
  store.inner[thread]?.getD .empty

def put (c : Checkpoint) : Result Unit × InMemoryCheckpointer :=
  let entry := store.history c.threadId
  if hNew : c.id ∉ entry.checkpoints.map Checkpoint.id then
    (.ok (), ⟨store.inner.insert c.threadId (entry.push c hNew)⟩)
  else
    -- `entry().or_default()` has already created the thread's empty history
    (.error (duplicateIdError c), ⟨store.inner.insert c.threadId entry⟩)

def getLatest (thread : String) : Result (Option Checkpoint) :=
  .ok (store.history thread).checkpoints.getLast?

def list (thread : String) : Result (List Checkpoint) :=
  .ok (sortHistory (store.history thread).checkpoints)

def getById (thread id : String) : Result (Option Checkpoint) :=
  (store.list thread).map (·.find? (fun c => c.id = id))

def forkThread (src dst : String) (atCheckpointId : Option String) :
    Result Nat × InMemoryCheckpointer :=
  forkThreadWith list put store src dst atCheckpointId

end InMemoryCheckpointer

end RustyRuntime
