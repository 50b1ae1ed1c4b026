import RustyRuntime.Json
import RustyRuntime.Library.Catchup
import RustyRuntime.Library.Run

/-!
# The frame stream of a run

`FrameSink::push` and `RunManager::stream_parts` of `runs.rs` and `frame_stream` of `sse.rs`. A
push numbers its frame, appends it to the log and broadcasts it, and a client that attaches
copies the log and then subscribes; the steps of the two sides interleave.

A schedule is what the pushers do before the log is copied, between the copy and the
subscription, and after it. The receiver does not lag, so it gets every frame that is broadcast
after it subscribed.

Main results:

* **When an attached client gets every frame** (`attached_receives_iff`), for pushes that are
  made one after the other and none after the end frame: no frame above the client's
  `Last-Event-ID` is broadcast before the subscription and not in the copied log.
* A frame pushed between the copy and the subscription is lost (`end_frame_lost`).
-/

namespace RustyRuntime

open Library

structure SseFrame where
  id : String
  event : String
  data : Json
  seq : Nat
  deriving DecidableEq

/-- `FrameSink` with the pushes that are under way: `numbered` ones have their frame, `logged`
ones have appended it. `sent` is what the broadcast channel has carried. The step of the last
push, which only names later frames, is left out. -/
structure FrameSink where
  capacity : Nat
  seq : Nat
  lastCheckpoint : String
  log : List SseFrame
  sent : List SseFrame
  numbered : List SseFrame
  logged : List SseFrame

def FrameSink.new (capacity : Nat) : FrameSink := ⟨capacity, 0, "-", [], [], [], []⟩

/-- What the pushers do to the sink, one step at a time. -/
inductive PushStep where
  | noteCheckpoint (checkpointId : String)
  | number (event : String) (step : Nat) (data : Json)
  | log (seq : Nat)
  | broadcast (seq : Nat)

namespace FrameSink

/-- `push_back` on the bounded log. -/
def appendLog (s : FrameSink) (frame : SseFrame) : List SseFrame :=
  (if s.capacity ≤ s.log.length then s.log.drop 1 else s.log) ++ [frame]

def next (s : FrameSink) : PushStep → FrameSink
  | .noteCheckpoint checkpointId => { s with lastCheckpoint := checkpointId }
  | .number event step data =>
    let seq := s.seq + 1
    let frame : SseFrame := ⟨s!"{s.lastCheckpoint}:{step}:{seq}", event, data, seq⟩
    { s with seq, numbered := s.numbered ++ [frame] }
  | .log seq =>
    match s.numbered.find? (·.seq = seq) with
    | none => s
    | some frame =>
      { s with
        numbered := s.numbered.eraseP (·.seq = seq), logged := s.logged ++ [frame]
        log := s.appendLog frame }
  | .broadcast seq =>
    match s.logged.find? (·.seq = seq) with
    | none => s
    | some frame =>
      { s with logged := s.logged.eraseP (·.seq = seq), sent := s.sent ++ [frame] }

end FrameSink

/-- The three steps of a push that is made alone. -/
def pushSteps (event : String) (step : Nat) (data : Json) (seq : Nat) : List PushStep :=
  [.number event step data, .log seq, .broadcast seq]

def SseFrame.isEnd (frame : SseFrame) : Bool := frame.event = "end"

/-- `frame_stream`: the replayed frames above `skip`, then the live ones. -/
def frameStream (replay live : List SseFrame) (skip : Nat) : List SseFrame :=
  catchUp SseFrame.seq SseFrame.isEnd replay live skip

/-! ## Pushes made one after the other -/

def pushAllowed (s : FrameSink) : PushStep → Prop
  | .number _ _ _ => s.numbered = [] ∧ s.logged = [] ∧ (∀ frame ∈ s.sent, frame.isEnd = false) ∧
      s.seq < s.capacity
  | _ => True

def FrameSink.frames (s : FrameSink) : List SseFrame := s.sent ++ s.logged ++ s.numbered

structure InOrder (s : FrameSink) : Prop where
  log_eq : s.log = s.sent ++ s.logged
  single : s.logged.length + s.numbered.length ≤ 1
  seqs : s.frames.map SseFrame.seq = List.range' 1 s.seq
  ends : s.frames.Pairwise fun frame _ => frame.isEnd = false
  room : s.seq ≤ s.capacity

theorem inOrder_new (capacity : Nat) : InOrder (FrameSink.new capacity) where
  log_eq := rfl
  single := by simp [FrameSink.new]
  seqs := rfl
  ends := .nil
  room := Nat.zero_le _

variable {s : FrameSink} {frame : SseFrame}

theorem length_frames (h : InOrder s) : s.frames.length = s.seq := by
  have hLength := congrArg List.length h.seqs
  simpa using hLength

theorem appendLog_eq (h : InOrder s) (hNumbered : s.numbered = [frame]) :
    s.appendLog frame = s.log ++ [frame] := by
  have hLength := length_frames h
  have hRoom := h.room
  simp only [FrameSink.frames, hNumbered, List.length_append, List.length_singleton] at hLength
  rw [FrameSink.appendLog, if_neg]
  rw [h.log_eq, List.length_append]
  omega

theorem eq_singleton_of_find? {frames : List SseFrame} {p : SseFrame → Bool}
    (hLength : frames.length ≤ 1) (hFound : frames.find? p = some frame) : frames = [frame] := by
  match frames, hLength with
  | [], _ => cases hFound
  | [only], _ =>
    have hMem := List.mem_of_find?_eq_some hFound
    rw [List.mem_singleton.mp hMem]

theorem next_log_eq (h : InOrder s) {seq : Nat}
    (hFound : s.numbered.find? (·.seq = seq) = some frame) :
    s.numbered = [frame] ∧ s.logged = [] ∧
      s.next (.log seq) =
        { s with numbered := [], logged := [frame], log := s.log ++ [frame] } := by
  have hSingle := h.single
  have hNumbered : s.numbered = [frame] := eq_singleton_of_find? (by omega) hFound
  have hLogged : s.logged = [] := by
    rw [hNumbered, List.length_singleton] at hSingle
    exact List.length_eq_zero_iff.mp (by omega)
  have hSeq := List.find?_some hFound
  simp only [FrameSink.next, hFound, appendLog_eq h hNumbered]
  simp [hNumbered, hLogged, hSeq]

theorem next_broadcast_eq (h : InOrder s) {seq : Nat}
    (hFound : s.logged.find? (·.seq = seq) = some frame) :
    s.logged = [frame] ∧ s.numbered = [] ∧
      s.next (.broadcast seq) = { s with logged := [], sent := s.sent ++ [frame] } := by
  have hSingle := h.single
  have hLogged : s.logged = [frame] := eq_singleton_of_find? (by omega) hFound
  have hNumbered : s.numbered = [] := by
    rw [hLogged, List.length_singleton] at hSingle
    exact List.length_eq_zero_iff.mp (by omega)
  refine ⟨hLogged, hNumbered, ?_⟩
  have hSeq := List.find?_some hFound
  simp only [FrameSink.next, hFound]
  simp [hLogged, hSeq]

theorem inOrder_next {op : PushStep} (h : InOrder s) (hAllowed : pushAllowed s op) :
    InOrder (s.next op) := by
  cases op with
  | noteCheckpoint checkpointId => exact ⟨h.log_eq, h.single, h.seqs, h.ends, h.room⟩
  | number event step data =>
    obtain ⟨hNumbered, hLogged, hOpen, hRoom⟩ := hAllowed
    have hFrames : s.frames = s.sent := by simp [FrameSink.frames, hNumbered, hLogged]
    have hSeqs := h.seqs
    have hEnds := h.ends
    rw [hFrames] at hSeqs hEnds
    refine ⟨h.log_eq, ?_, ?_, ?_, hRoom⟩
    · simp [FrameSink.next, hNumbered, hLogged]
    · simp only [FrameSink.next, FrameSink.frames, hNumbered, hLogged, List.append_nil,
        List.nil_append, List.map_append, List.map_cons, List.map_nil, hSeqs]
      rw [List.range'_1_concat, Nat.add_comm]
    · simp only [FrameSink.next, FrameSink.frames, hNumbered, hLogged, List.append_nil,
        List.nil_append, List.pairwise_append]
      exact ⟨hEnds, List.pairwise_singleton _ _, fun frame hIn _ _ => hOpen frame hIn⟩
  | log seq =>
    cases hFound : s.numbered.find? (·.seq = seq) with
    | none =>
      simp only [FrameSink.next, hFound]
      exact h
    | some frame =>
      obtain ⟨hNumbered, hLogged, hNext⟩ := next_log_eq h hFound
      have hFrames : (s.next (.log seq)).frames = s.frames := by
        simp [hNext, FrameSink.frames, hNumbered, hLogged]
      refine ⟨?_, ?_, ?_, ?_, ?_⟩
      · simp [hNext, h.log_eq, hLogged]
      · simp [hNext]
      · rw [hFrames, h.seqs, hNext]
      · rw [hFrames]
        exact h.ends
      · rw [hNext]
        exact h.room
  | broadcast seq =>
    cases hFound : s.logged.find? (·.seq = seq) with
    | none =>
      simp only [FrameSink.next, hFound]
      exact h
    | some frame =>
      obtain ⟨hLogged, hNumbered, hNext⟩ := next_broadcast_eq h hFound
      have hFrames : (s.next (.broadcast seq)).frames = s.frames := by
        simp [hNext, FrameSink.frames, hNumbered, hLogged]
      refine ⟨?_, ?_, ?_, ?_, ?_⟩
      · simp [hNext, h.log_eq, hLogged]
      · simp [hNext, hNumbered]
      · rw [hFrames, h.seqs, hNext]
      · rw [hFrames]
        exact h.ends
      · rw [hNext]
        exact h.room

theorem grows_next (h : InOrder s) (op : PushStep) :
    s.log <+: (s.next op).log ∧ s.sent <+: (s.next op).sent := by
  have hSame : s.log <+: s.log ∧ s.sent <+: s.sent := ⟨List.prefix_rfl, List.prefix_rfl⟩
  cases op with
  | noteCheckpoint checkpointId | number event step data => exact hSame
  | log seq =>
    cases hFound : s.numbered.find? (·.seq = seq) with
    | none =>
      simp only [FrameSink.next, hFound]
      exact hSame
    | some frame =>
      obtain ⟨-, -, hNext⟩ := next_log_eq h hFound
      rw [hNext]
      exact ⟨List.prefix_append _ _, List.prefix_rfl⟩
  | broadcast seq =>
    cases hFound : s.logged.find? (·.seq = seq) with
    | none =>
      simp only [FrameSink.next, hFound]
      exact hSame
    | some frame =>
      obtain ⟨-, -, hNext⟩ := next_broadcast_eq h hFound
      rw [hNext]
      exact ⟨List.prefix_rfl, List.prefix_append _ _⟩

theorem grows_run {ops : List PushStep} (h : InOrder s)
    (hOps : Admissible FrameSink.next pushAllowed s ops) :
    InOrder (run FrameSink.next s ops) ∧ s.log <+: (run FrameSink.next s ops).log ∧
      s.sent <+: (run FrameSink.next s ops).sent := by
  have hStep : ∀ (t : FrameSink) (op : PushStep),
      (InOrder t ∧ s.log <+: t.log ∧ s.sent <+: t.sent) → pushAllowed t op →
        InOrder (t.next op) ∧ s.log <+: (t.next op).log ∧ s.sent <+: (t.next op).sent := by
    rintro t op ⟨hOrder, hLog, hSent⟩ hAllowed
    obtain ⟨hLogNext, hSentNext⟩ := grows_next hOrder op
    exact ⟨inOrder_next hOrder hAllowed, hLog.trans hLogNext, hSent.trans hSentNext⟩
  exact run_invariant hStep ⟨h, List.prefix_rfl, List.prefix_rfl⟩ hOps

/-! ## Attaching -/

structure Schedule where
  beforeCopy : List PushStep
  beforeSubscribe : List PushStep
  afterwards : List PushStep

namespace Schedule

variable (schedule : Schedule) (capacity : Nat)

def steps : List PushStep :=
  schedule.beforeCopy ++ (schedule.beforeSubscribe ++ schedule.afterwards)

def atCopy : FrameSink := run FrameSink.next (.new capacity) schedule.beforeCopy

def atSubscribe : FrameSink := run FrameSink.next (schedule.atCopy capacity) schedule.beforeSubscribe

def atEnd : FrameSink := run FrameSink.next (schedule.atSubscribe capacity) schedule.afterwards

/-- What the client receives: `stream_parts` and then `frame_stream`. -/
def received (skip : Nat) : List SseFrame :=
  frameStream (schedule.atCopy capacity).log
    ((schedule.atEnd capacity).sent.drop (schedule.atSubscribe capacity).sent.length) skip

/-- Pushes are made one after the other, none after the end frame, the log keeps every frame,
and in the end no push is under way. -/
structure Orderly : Prop where
  allowed : Admissible FrameSink.next pushAllowed (.new capacity) schedule.steps
  numbered : (schedule.atEnd capacity).numbered = []
  logged : (schedule.atEnd capacity).logged = []

end Schedule

/-- **When an attached client gets every frame** above its `Last-Event-ID`, once and in order, up
to and including the end frame. -/
theorem attached_receives_iff {schedule : Schedule} {capacity : Nat}
    (hOrderly : schedule.Orderly capacity) (skip : Nat) :
    (schedule.atEnd capacity).sent.map SseFrame.seq =
        List.range' 1 (schedule.atEnd capacity).seq ∧
    (schedule.received capacity skip =
        (schedule.atEnd capacity).sent.filter (fun frame => skip < frame.seq) ↔
      ∀ frame ∈ (schedule.atSubscribe capacity).sent, skip < frame.seq →
        frame ∈ (schedule.atCopy capacity).log) := by
  obtain ⟨hBefore, hRest⟩ := admissible_append.mp hOrderly.allowed
  obtain ⟨hBetween, hAfter⟩ := admissible_append.mp hRest
  obtain ⟨hCopyOrder, -, -⟩ := grows_run (inOrder_new capacity) hBefore
  obtain ⟨hSubscribeOrder, hLogBetween, -⟩ := grows_run hCopyOrder hBetween
  obtain ⟨hEndOrder, hLogAfter, hSentAfter⟩ := grows_run hSubscribeOrder hAfter
  have hEndOrder : InOrder (schedule.atEnd capacity) := hEndOrder
  have hFrames : (schedule.atEnd capacity).frames = (schedule.atEnd capacity).sent := by
    simp [FrameSink.frames, hOrderly.numbered, hOrderly.logged]
  have hLog : (schedule.atEnd capacity).log = (schedule.atEnd capacity).sent := by
    rw [hEndOrder.log_eq, hOrderly.logged, List.append_nil]
  have hSeqs := hEndOrder.seqs
  have hEnds := hEndOrder.ends
  rw [hFrames] at hSeqs hEnds
  refine ⟨hSeqs, ?_⟩
  have hSorted : (schedule.atEnd capacity).sent.Pairwise (·.seq < ·.seq) := by
    rw [← List.pairwise_map, hSeqs]
    exact List.pairwise_lt_range'
  have hCopy : (schedule.atCopy capacity).log <+: (schedule.atEnd capacity).sent := by
    rw [← hLog]
    exact hLogBetween.trans hLogAfter
  have hSent : (schedule.atSubscribe capacity).sent <+: (schedule.atEnd capacity).sent :=
    hSentAfter
  obtain ⟨live, hLive⟩ := hSent
  have hDrop : (schedule.atEnd capacity).sent.drop (schedule.atSubscribe capacity).sent.length =
      live := by
    rw [← hLive]
    exact List.drop_left
  rw [Schedule.received, frameStream, hDrop]
  exact catchUp_eq_iff hSorted hEnds hCopy hLive.symm

/-- A client that attaches between two pushes. -/
def cleanAttach : Schedule :=
  ⟨pushSteps "metadata" 0 .null 1, [], pushSteps "end" 0 .null 2⟩

/-- The end frame is pushed between the copy of the log and the subscription. -/
def lateEnd : Schedule :=
  ⟨pushSteps "metadata" 0 .null 1, pushSteps "end" 0 .null 2, []⟩

theorem orderly_cleanAttach : cleanAttach.Orderly 16 := by
  refine ⟨?_, by decide, by decide⟩
  simp [Schedule.steps, cleanAttach, pushSteps, Admissible, pushAllowed, FrameSink.new,
    FrameSink.next, FrameSink.appendLog, SseFrame.isEnd]

theorem orderly_lateEnd : lateEnd.Orderly 16 := by
  refine ⟨?_, by decide, by decide⟩
  simp [Schedule.steps, lateEnd, pushSteps, Admissible, pushAllowed, FrameSink.new,
    FrameSink.next, FrameSink.appendLog, SseFrame.isEnd]

theorem attached_receives_clean :
    cleanAttach.Orderly 16 ∧
      cleanAttach.received 16 0 =
        (cleanAttach.atEnd 16).sent.filter (fun frame => 0 < frame.seq) :=
  ⟨orderly_cleanAttach, (attached_receives_iff orderly_cleanAttach 0).2.mpr (by decide)⟩

/-- The client has the first frame, and waits for an end frame that was pushed already. -/
theorem end_frame_lost :
    lateEnd.Orderly 16 ∧ (lateEnd.received 16 0).map SseFrame.event = ["metadata"] ∧
      (lateEnd.atEnd 16).sent.map SseFrame.event = ["metadata", "end"] :=
  ⟨orderly_lateEnd, by decide, by decide⟩

end RustyRuntime
