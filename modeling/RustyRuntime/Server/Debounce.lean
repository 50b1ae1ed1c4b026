import RustyRuntime.Library.Run
import RustyRuntime.Server.Task

/-!
# Debounced triggers

`buffer_event` and `arm_flush` of `triggers.rs`, for one trigger: an event joins the open buffer, or
opens one, and arms a timer of its own; a timer that wakes drains the buffer if its generation is
the buffer's. A buffer that reaches the cap is drained at once, and its timers stay armed.

Generations start over with each buffer, so a timer of a drained buffer can drain a later one. When
no buffer is opened while a timer is armed, a burst below the cap is flushed only after a window
without events (`bursts_settle`).

The instant at which an event was buffered is kept with it, to say how old a burst is; the action of
a burst and the event log are left out.
-/

namespace RustyRuntime

open Library

/-- `MAX_DEBOUNCE_BATCH`. -/
def maxDebounceBatch : Nat := 64

structure BufferedEvent where
  eventId : String
  payload : Json
  time : Instant
  deriving DecidableEq

structure DebounceBuffer where
  events : List BufferedEvent := []
  generation : Nat := 0
  deriving DecidableEq

structure FlushTimer where
  generation : Nat
  due : Instant
  deriving DecidableEq

structure Debouncer where
  buffer : Option DebounceBuffer := none
  timers : List FlushTimer := []
  /-- The bursts handed to `flush_buffer`, with the time. -/
  flushed : List (DebounceBuffer × Instant) := []
  clock : Instant := 0

inductive DebounceStep where
  | deliver (eventId : String) (payload : Json) (now : Instant)
  | wake (timer : FlushTimer) (now : Instant)

namespace Debouncer

variable (s : Debouncer)

def flush (buffer : DebounceBuffer) (now : Instant) : Debouncer :=
  { s with buffer := none, flushed := s.flushed ++ [(buffer, now)] }

/-- `buffer_event`, from the lock on. -/
def bufferEvent (window : Nat) (s : Debouncer) (event : BufferedEvent) : Debouncer :=
  let old := s.buffer.getD {}
  let buffer : DebounceBuffer := ⟨old.events ++ [event], old.generation + 1⟩
  if maxDebounceBatch ≤ buffer.events.length then s.flush buffer event.time
  else
    { s with
      buffer := some buffer
      timers := s.timers ++ [⟨buffer.generation, event.time + window⟩] }

/-- `arm_flush`, from the end of its sleep on. -/
def wake (timer : FlushTimer) (now : Instant) : Debouncer :=
  let s := { s with timers := s.timers.erase timer }
  match s.buffer with
  | some buffer => if buffer.generation = timer.generation then s.flush buffer now else s
  | none => s

def next (window : Nat) (s : Debouncer) : DebounceStep → Debouncer
  | .deliver eventId payload now =>
    { s with clock := now }.bufferEvent window ⟨eventId, payload, now⟩
  | .wake timer now => { s with clock := now }.wake timer now

/-- Time does not go back, and a timer sleeps for its window. -/
def allowed : DebounceStep → Bool
  | .deliver _ _ now => s.clock ≤ now
  | .wake timer now => s.clock ≤ now && s.timers.contains timer && timer.due ≤ now

def opensAlone : DebounceStep → Bool
  | .deliver .. => s.buffer.isSome || s.timers.isEmpty
  | .wake .. => true

/-- What was accepted: the bursts that were flushed, then the open buffer. -/
def events (s : Debouncer) : List BufferedEvent :=
  s.flushed.flatMap (·.1.events) ++ (s.buffer.getD {}).events

end Debouncer

def DebounceStep.arrivals : DebounceStep → List BufferedEvent
  | .deliver eventId payload now => [⟨eventId, payload, now⟩]
  | .wake .. => []

namespace Debouncer

section Steps

variable {window : Nat} {s : Debouncer} {step : DebounceStep} {buffer : DebounceBuffer}
  {now : Instant}

theorem events_flush (h : s.events ++ step.arrivals = s.flushed.flatMap (·.1.events) ++ buffer.events) :
    (s.flush buffer now).events = s.events ++ step.arrivals := by
  rw [h, flush, events, List.flatMap_append]
  simp

theorem events_next (window : Nat) (s : Debouncer) (step : DebounceStep) :
    (s.next window step).events = s.events ++ step.arrivals := by
  cases step with
  | deliver eventId payload now =>
    simp only [next, bufferEvent]
    split
    · exact events_flush (List.append_assoc _ _ _)
    · exact (List.append_assoc _ _ _).symm
  | wake timer now =>
    simp only [next, wake, DebounceStep.arrivals, List.append_nil]
    split
    · rename_i buffer hBuffer
      split
      · rw [flush, events, events, hBuffer, List.flatMap_append]
        simp
      · rfl
    · rfl

/-- A burst that was flushed: at the cap, or after a window without events. -/
def Settled (window : Nat) (burst : DebounceBuffer × Instant) : Prop :=
  burst.1.events.length ≤ maxDebounceBatch ∧
    (burst.1.events.length < maxDebounceBatch →
      ∀ e ∈ burst.1.events, e.time + window ≤ burst.2)

structure Current (window : Nat) (s : Debouncer) : Prop where
  below : ∀ b ∈ s.buffer, b.events.length < maxDebounceBatch
  past : ∀ b ∈ s.buffer, ∀ e ∈ b.events, e.time ≤ s.clock
  armed : ∀ b ∈ s.buffer, ∀ t ∈ s.timers, t.generation ≤ b.generation ∧
    (t.generation = b.generation → ∀ e ∈ b.events, e.time + window ≤ t.due)
  settled : ∀ f ∈ s.flushed, Settled window f

variable (h : Current window s)
include h

theorem Current.flush (hBurst : Settled window (buffer, now)) :
    Current window (s.flush buffer now) := by
  refine ⟨nofun, nofun, nofun, fun f hIn => ?_⟩
  rcases List.mem_append.mp hIn with hOld | hNew
  · exact h.settled f hOld
  · rw [List.mem_singleton.mp hNew]
    exact hBurst

theorem Current.later (hNow : s.clock ≤ now) : Current window { s with clock := now } :=
  ⟨h.below, fun b hB e hE => (h.past b hB e hE).trans hNow, h.armed, h.settled⟩

theorem Current.bufferEvent (hAlone : s.buffer = none → s.timers = []) {event : BufferedEvent}
    (hTime : s.clock = event.time) : Current window (s.bufferEvent window event) := by
  have hBelow : (s.buffer.getD {}).events.length < maxDebounceBatch := by
    cases hBuffer : s.buffer with
    | none => decide
    | some b => exact h.below b hBuffer
  have hPast : ∀ e ∈ (s.buffer.getD {}).events ++ [event], e.time ≤ event.time := by
    intro e hIn
    rcases List.mem_append.mp hIn with hOld | hNew
    · cases hBuffer : s.buffer with
      | none => simp [hBuffer] at hOld
      | some b =>
        rw [hBuffer] at hOld
        exact (h.past b hBuffer e hOld).trans_eq hTime
    · rw [List.mem_singleton.mp hNew]
  unfold Debouncer.bufferEvent
  simp only
  split
  · refine h.flush ⟨?_, fun hFew => ?_⟩
    · simpa using hBelow
    · rename_i hFull
      exact absurd hFew (not_lt.mpr hFull)
  · rename_i hFew
    refine ⟨?_, ?_, ?_, h.settled⟩
    · rintro _ ⟨⟩
      exact not_le.mp hFew
    · rintro _ ⟨⟩ e hE
      exact (hPast e hE).trans_eq hTime.symm
    · rintro _ ⟨⟩ t hT
      rcases List.mem_append.mp hT with hOld | hNew
      · -- an armed timer is of the buffer that the event joins, and older
        cases hBuffer : s.buffer with
        | none => simp [hAlone hBuffer] at hOld
        | some b =>
          have hLe := (h.armed b hBuffer t hOld).1
          simp only [Option.getD_some]
          exact ⟨by omega, by omega⟩
      · rw [List.mem_singleton.mp hNew]
        exact ⟨le_rfl, fun _ e hE => Int.add_le_add_right (hPast e hE) _⟩

theorem Current.wake {timer : FlushTimer} (hArmed : timer ∈ s.timers) (hDue : timer.due ≤ now) :
    Current window (s.wake timer now) := by
  have hLeft : Current window { s with timers := s.timers.erase timer } :=
    ⟨h.below, h.past, fun b hB t hT => h.armed b hB t (List.mem_of_mem_erase hT), h.settled⟩
  unfold Debouncer.wake
  simp only
  split
  · rename_i b hBuffer
    split
    · rename_i hSame
      refine hLeft.flush ⟨(h.below b hBuffer).le, fun _ e hE => ?_⟩
      exact ((h.armed b hBuffer timer hArmed).2 hSame.symm e hE).trans hDue
    · exact hLeft
  · exact hLeft

theorem current_next (hAllowed : s.allowed step) (hAlone : s.opensAlone step) :
    Current window (s.next window step) := by
  cases step with
  | deliver eventId payload now =>
    refine (h.later (of_decide_eq_true hAllowed)).bufferEvent (fun hNone => ?_) rfl
    simpa [opensAlone, show s.buffer = none from hNone] using hAlone
  | wake timer now =>
    simp only [allowed, Bool.and_eq_true, decide_eq_true_eq, List.contains_iff_mem] at hAllowed
    exact (h.later hAllowed.1.1).wake hAllowed.1.2 hAllowed.2

end Steps

/-- **Bursts settle.** When no buffer is opened while a timer is armed, the flushed bursts and the
open buffer are the accepted events in order, and a burst is flushed at the cap or after a window
without events. -/
theorem bursts_settle (window : Nat) (steps : List DebounceStep)
    (hSteps : Admissible (next window) (fun s step => s.allowed step ∧ s.opensAlone step) {} steps) :
    (run (next window) {} steps).events = steps.flatMap (·.arrivals) ∧
      ∀ burst ∈ (run (next window) {} steps).flushed, Settled window burst := by
  have hEvents (s : Debouncer) :
      (run (next window) s steps).events = s.events ++ steps.flatMap (·.arrivals) := by
    clear hSteps
    induction steps generalizing s with
    | nil => exact (List.append_nil _).symm
    | cons step rest ih =>
      rw [List.flatMap_cons, ← List.append_assoc, ← events_next window s step]
      exact ih (s.next window step)
  refine ⟨hEvents {}, ?_⟩
  have hStart : Current window {} := ⟨nofun, nofun, nofun, nofun⟩
  exact (run_invariant (fun s step h hStep => current_next h hStep.1 hStep.2) hStart hSteps).settled

/-- Two events, whose timers wake before a third comes. -/
def quietSteps : List DebounceStep :=
  [.deliver "a" .null 0, .deliver "b" .null 4, .wake ⟨1, 10⟩ 10, .wake ⟨2, 14⟩ 14,
    .deliver "c" .null 20]

theorem bursts_settle_quietSteps :
    (run (next 10) {} quietSteps).flushed =
        [(⟨[⟨"a", .null, 0⟩, ⟨"b", .null, 4⟩], 2⟩, 14)] ∧
      ∀ burst ∈ (run (next 10) {} quietSteps).flushed, Settled 10 burst := by
  refine ⟨by decide +kernel, (bursts_settle 10 quietSteps ?_).2⟩
  decide +kernel

/-- After a burst at the cap, a later event is flushed by the first timer of that burst. -/
theorem stale_timer_flushes :
    let steps := List.replicate 64 (.deliver "a" .null 0) ++
      [.deliver "b" .null 5, .wake ⟨1, 10⟩ 10]
    Admissible (next 10) (fun s step => s.allowed step) {} steps ∧
      (run (next 10) {} steps).flushed.getLast? = some (⟨[⟨"b", .null, 5⟩], 1⟩, 10) ∧
      ¬ Settled 10 (⟨[⟨"b", .null, 5⟩], 1⟩, 10) := by
  refine ⟨by decide +kernel, by decide +kernel, fun h => ?_⟩
  exact absurd (h.2 (by decide) _ (List.mem_singleton_self _)) (by decide)

end Debouncer

end RustyRuntime
