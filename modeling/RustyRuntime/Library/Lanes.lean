import RustyRuntime.Library.Run

/-!
# Lanes

A lane serves one member at a time and keeps the others in a queue. A member who comes draws
the next ticket of the lane, also when it is turned away; when the lane's active member is
done, the head of the queue may take its place.

`Lanes` is the abstract machine: where each member sits, and for each lane its active member,
its queue and its last ticket. `Fair` is its invariant, and every operation keeps it
(`fair_next`).

Main results, over every admissible run of operations from fair lanes:

- `waiting_run`: a member who waits keeps its place and its ticket until it is promoted or
  leaves;
- `promotions_pairwise`: in each lane members are promoted by their tickets;
- `staffed_run`: as long as every finish promotes, a lane where someone waits has an active
  member.
-/

namespace RustyRuntime.Library

/-- The place of a member who waits in a lane or is active there. -/
structure Seat (T : Type) where
  lane : T
  ticket : Nat
  waiting : Bool
  deriving DecidableEq

@[ext]
structure Lanes (T I : Type) where
  seat : I → Option (Seat T)
  active : T → Option I
  queue : T → List I
  tickets : T → Nat

inductive LaneOp (T I : Type) where
  /-- A member is turned away. -/
  | draw (lane : T)
  | start (lane : T) (member : I)
  | enqueue (lane : T) (member : I)
  /-- The active member is done; the head of the queue is promoted, or not. -/
  | finish (lane : T) (promote : Bool)
  /-- A waiting member leaves. -/
  | leave (lane : T) (member : I)
  | stay

structure Promotion (T I : Type) where
  lane : T
  member : I
  ticket : Nat
  deriving DecidableEq

namespace Lanes

variable {T I : Type}

def place (l : Lanes T I) (member : I) : Option (T × Bool) :=
  (l.seat member).map fun seat => (seat.lane, seat.waiting)

def ticket (l : Lanes T I) (member : I) : Nat := ((l.seat member).map (·.ticket)).getD 0

variable {member head : I} {lane lane' : T} {rest : List I} {op : LaneOp T I} {p : Promotion T I}
  {ticket : Nat} {ops : List (LaneOp T I)}

theorem place_of_seat_none {l : Lanes T I} (h : l.seat member = none) : l.place member = none := by
  rw [place, h]
  rfl

theorem ne_of_waiting {l : Lanes T I} {other : I} (hPlace : l.place member = some (lane, true))
    (hNew : l.seat other = none) : member ≠ other := by
  rintro rfl
  rw [place_of_seat_none hNew] at hPlace
  cases hPlace

section Operations

variable [DecidableEq T] [DecidableEq I]

variable (l : Lanes T I)

def drawTicket (lane : T) : Lanes T I :=
  { l with tickets := Function.update l.tickets lane (l.tickets lane + 1) }

def sit (member : I) (seat : Option (Seat T)) : Lanes T I :=
  { l with seat := Function.update l.seat member seat }

def setActive (lane : T) (member : Option I) : Lanes T I :=
  { l with active := Function.update l.active lane member }

def setQueue (lane : T) (members : List I) : Lanes T I :=
  { l with queue := Function.update l.queue lane members }

def retire (lane : T) : Lanes T I :=
  match l.active lane with
  | some member => (l.sit member none).setActive lane none
  | none => l

def promote (lane : T) : Lanes T I :=
  match l.queue lane with
  | [] => l
  | head :: rest =>
    ((l.sit head ((l.seat head).map fun seat => { seat with waiting := false })).setActive lane
      (some head)).setQueue lane rest

def next : LaneOp T I → Lanes T I
  | .draw lane => l.drawTicket lane
  | .start lane member =>
    ((l.sit member (some ⟨lane, l.tickets lane + 1, false⟩)).setActive lane
      (some member)).drawTicket lane
  | .enqueue lane member =>
    ((l.sit member (some ⟨lane, l.tickets lane + 1, true⟩)).setQueue lane
      (l.queue lane ++ [member])).drawTicket lane
  | .finish lane promote => if promote then (l.retire lane).promote lane else l.retire lane
  | .leave lane member =>
    (l.sit member none).setQueue lane ((l.queue lane).filter (· ≠ member))
  | .stay => l

def promotion : LaneOp T I → Option (Promotion T I)
  | .finish lane true => (l.queue lane).head?.map fun member => ⟨lane, member, l.ticket member⟩
  | _ => none

def promotions (l : Lanes T I) : List (LaneOp T I) → List (Promotion T I)
  | [] => []
  | op :: rest => (l.promotion op).toList ++ promotions (l.next op) rest

/-- Who comes is not seated; a lane that starts a member is free, one that queues it is busy
and has room; who leaves is waiting. -/
def allowed (cap : Nat) (l : Lanes T I) : LaneOp T I → Prop
  | .start lane member => l.active lane = none ∧ l.seat member = none
  | .enqueue lane member =>
    l.active lane ≠ none ∧ l.seat member = none ∧ (l.queue lane).length < cap
  | .leave lane member => l.place member = some (lane, true)
  | _ => True

end Operations

structure Fair (cap : Nat) (l : Lanes T I) : Prop where
  active_iff : ∀ lane member, l.active lane = some member ↔ l.place member = some (lane, false)
  queue_iff : ∀ lane member, member ∈ l.queue lane ↔ l.place member = some (lane, true)
  ordered : ∀ lane, (l.queue lane).Pairwise fun a b => l.ticket a < l.ticket b
  counted : ∀ member lane waiting, l.place member = some (lane, waiting) →
    l.ticket member ≤ l.tickets lane
  within : ∀ lane, (l.queue lane).length ≤ cap

variable {cap : Nat} {l : Lanes T I}

theorem Fair.head_notMem_rest (h : l.Fair cap) (hQueue : l.queue lane = head :: rest) :
    head ∉ rest := by
  intro hMem
  have hOrdered := h.ordered lane
  rw [hQueue, List.pairwise_cons] at hOrdered
  exact absurd (hOrdered.1 head hMem) (lt_irrefl _)

theorem Fair.place_head (h : l.Fair cap) (hQueue : l.queue lane = head :: rest) :
    l.place head = some (lane, true) := by
  rw [← h.queue_iff, hQueue]
  exact List.mem_cons_self

theorem Fair.ordered_congr (h : l.Fair cap) {queue : List I} {ticket : I → Nat}
    (hSub : queue.Sublist (l.queue lane))
    (hTicket : ∀ member ∈ queue, ticket member = l.ticket member) :
    queue.Pairwise fun a b => ticket a < ticket b := by
  refine ((h.ordered lane).sublist hSub).imp_of_mem ?_
  intro a b hA hB hLt
  rw [hTicket a hA, hTicket b hB]
  exact hLt

theorem promotion_eq_some (hP : l.promotion op = some p) :
    op = .finish p.lane true ∧ p.ticket = l.ticket p.member ∧
      ∃ rest, l.queue p.lane = p.member :: rest := by
  cases op with
  | finish lane promote =>
    cases promote with
    | false => cases hP
    | true =>
      obtain ⟨member, hHead, rfl⟩ := Option.map_eq_some_iff.mp hP
      exact ⟨rfl, rfl, List.head?_eq_some_iff.mp hHead⟩
  | _ => cases hP

/-- Everyone who waits in the lane, now or later, has a ticket above the given one. -/
def Beyond (l : Lanes T I) (lane : T) (ticket : Nat) : Prop :=
  ticket ≤ l.tickets lane ∧ ∀ member ∈ l.queue lane, ticket < l.ticket member

theorem ticket_lt_of_beyond (hP : l.promotion op = some p) (hBeyond : l.Beyond p.lane ticket) :
    ticket < p.ticket := by
  obtain ⟨-, hTicket, rest, hQueue⟩ := promotion_eq_some hP
  rw [hTicket]
  refine hBeyond.2 p.member ?_
  rw [hQueue]
  exact List.mem_cons_self

variable [DecidableEq I]

theorem place_sit (l : Lanes T I) (member : I) (seat : Option (Seat T)) (other : I) :
    (l.sit member seat).place other =
      if other = member then seat.map fun seat => (seat.lane, seat.waiting) else l.place other := by
  simp only [place, sit, Function.update_apply]
  split <;> rfl

theorem ticket_sit (l : Lanes T I) (member : I) (seat : Option (Seat T)) (other : I) :
    (l.sit member seat).ticket other =
      if other = member then (seat.map (·.ticket)).getD 0 else l.ticket other := by
  simp only [ticket, sit, Function.update_apply]
  split <;> rfl

theorem Fair.ticket_sit (h : l.Fair cap) (hAway : ∀ lane, l.place member ≠ some (lane, true))
    (seat : Option (Seat T)) (lane : T) :
    ∀ other ∈ l.queue lane, (l.sit member seat).ticket other = l.ticket other := by
  intro other hOther
  have hWaiting := (h.queue_iff lane other).mp hOther
  rw [Lanes.ticket_sit, if_neg]
  grind

variable [DecidableEq T]

/-! ## The operations keep the lanes fair -/

theorem fair_draw (h : l.Fair cap) (lane : T) : (l.next (.draw lane)).Fair cap := by
  refine ⟨h.active_iff, h.queue_iff, h.ordered, ?_, h.within⟩
  intro member lane' waiting hPlace
  have hCounted : l.ticket member ≤ l.tickets lane' := h.counted member lane' waiting hPlace
  show l.ticket member ≤ Function.update l.tickets lane (l.tickets lane + 1) lane'
  rw [Function.update_apply]
  split
  · rename_i hLane
    rw [hLane] at hCounted
    omega
  · exact hCounted

theorem fair_start (h : l.Fair cap) (hFree : l.active lane = none) (hNew : l.seat member = none) :
    (l.next (.start lane member)).Fair cap := by
  have ⟨hActive, hQueue, _, hCounted, _⟩ := h
  have hPlace := place_of_seat_none hNew
  set seat : Option (Seat T) := some ⟨lane, l.tickets lane + 1, false⟩ with hSeat
  refine ⟨fun lane' other => ?_, fun lane' other => ?_, fun lane' => ?_,
    fun other lane' waiting => ?_, h.within⟩
  · show Function.update l.active lane (some member) lane' = some other ↔
      (l.sit member seat).place other = some (lane', false)
    rw [place_sit, Function.update_apply]
    grind
  · show other ∈ l.queue lane' ↔ (l.sit member seat).place other = some (lane', true)
    rw [place_sit]
    grind
  · exact h.ordered_congr (List.Sublist.refl _) (h.ticket_sit (by grind) seat lane')
  · show (l.sit member seat).place other = some (lane', waiting) →
      (l.sit member seat).ticket other ≤
        Function.update l.tickets lane (l.tickets lane + 1) lane'
    rw [place_sit, ticket_sit, Function.update_apply]
    grind

theorem fair_enqueue (h : l.Fair cap) (hNew : l.seat member = none)
    (hRoom : (l.queue lane).length < cap) : (l.next (.enqueue lane member)).Fair cap := by
  have ⟨hActive, hQueue, _, hCounted, hWithin⟩ := h
  have hPlace := place_of_seat_none hNew
  set seat : Option (Seat T) := some ⟨lane, l.tickets lane + 1, true⟩ with hSeat
  refine ⟨fun lane' other => ?_, fun lane' other => ?_, fun lane' => ?_,
    fun other lane' waiting => ?_, fun lane' => ?_⟩
  · show l.active lane' = some other ↔ (l.sit member seat).place other = some (lane', false)
    rw [place_sit]
    grind
  · show other ∈ Function.update l.queue lane (l.queue lane ++ [member]) lane' ↔
      (l.sit member seat).place other = some (lane', true)
    rw [place_sit, Function.update_apply]
    grind
  · show (Function.update l.queue lane (l.queue lane ++ [member]) lane').Pairwise fun a b =>
      (l.sit member seat).ticket a < (l.sit member seat).ticket b
    have hAway : ∀ lane, l.place member ≠ some (lane, true) := by grind
    have hSame := h.ticket_sit hAway seat
    rw [Function.update_apply]
    split
    · rw [List.pairwise_append]
      refine ⟨h.ordered_congr (List.Sublist.refl _) (hSame lane), List.pairwise_singleton _ _, ?_⟩
      intro a hA b hB
      rw [hSame lane a hA, List.mem_singleton.mp hB, ticket_sit, if_pos rfl]
      have hLe := hCounted a lane true ((hQueue lane a).mp hA)
      simp only [hSeat, Option.map_some, Option.getD_some]
      omega
    · exact h.ordered_congr (List.Sublist.refl _) (hSame lane')
  · show (l.sit member seat).place other = some (lane', waiting) →
      (l.sit member seat).ticket other ≤
        Function.update l.tickets lane (l.tickets lane + 1) lane'
    rw [place_sit, ticket_sit, Function.update_apply]
    grind
  · show (Function.update l.queue lane (l.queue lane ++ [member]) lane').length ≤ cap
    grind

theorem fair_retire (h : l.Fair cap) (lane : T) : (l.retire lane).Fair cap := by
  have ⟨hActive, hQueue, _, hCounted, _⟩ := h
  rw [retire]
  cases hMember : l.active lane with
  | none => exact h
  | some member =>
    refine ⟨fun lane' other => ?_, fun lane' other => ?_, fun lane' => ?_,
      fun other lane' waiting => ?_, h.within⟩
    · show Function.update l.active lane none lane' = some other ↔
        (l.sit member none).place other = some (lane', false)
      rw [place_sit, Function.update_apply]
      grind
    · show other ∈ l.queue lane' ↔ (l.sit member none).place other = some (lane', true)
      rw [place_sit]
      grind
    · exact h.ordered_congr (List.Sublist.refl _) (h.ticket_sit (by grind) none lane')
    · show (l.sit member none).place other = some (lane', waiting) →
        (l.sit member none).ticket other ≤ l.tickets lane'
      rw [place_sit, ticket_sit]
      grind

section Fields

variable (l : Lanes T I) (lane : T)

theorem active_retire :
    (l.retire lane).active = Function.update l.active lane none := by
  rw [retire]
  cases hMember : l.active lane with
  | none => exact (Function.update_eq_self_iff.mpr hMember.symm).symm
  | some member => rfl

theorem queue_retire : (l.retire lane).queue = l.queue := by
  rw [retire]
  cases l.active lane <;> rfl

theorem active_promote :
    (l.promote lane).active =
      Function.update l.active lane ((l.queue lane).head?.or (l.active lane)) := by
  rw [promote]
  cases l.queue lane with
  | nil => exact (Function.update_eq_self lane l.active).symm
  | cons head rest => rfl

theorem queue_promote :
    (l.promote lane).queue = Function.update l.queue lane (l.queue lane).tail := by
  rw [promote]
  cases hQueue : l.queue lane with
  | nil => exact (Function.update_eq_self_iff.mpr hQueue.symm).symm
  | cons head rest => rfl

theorem tickets_promote : (l.promote lane).tickets = l.tickets := by
  rw [promote]
  cases l.queue lane <;> rfl

theorem active_finish :
    (l.next (.finish lane true)).active = Function.update l.active lane (l.queue lane).head? := by
  rw [next, if_pos rfl, active_promote, active_retire, queue_retire, Function.update_idem,
    Function.update_self, Option.or_none]

theorem queue_finish :
    (l.next (.finish lane true)).queue = Function.update l.queue lane (l.queue lane).tail := by
  rw [next, if_pos rfl, queue_promote, queue_retire]

theorem ticket_promote (other : I) :
    (l.promote lane).ticket other = l.ticket other := by
  rw [promote]
  cases l.queue lane with
  | nil => rfl
  | cons head rest =>
    show (l.sit head _).ticket other = l.ticket other
    rw [ticket_sit]
    split
    · rename_i hOther
      rw [hOther, ticket, Option.map_map]
      rfl
    · rfl

end Fields

section

variable (h : l.Fair cap)
include h

theorem place_promote (hQueue : l.queue lane = head :: rest) (other : I) :
    (l.promote lane).place other = if other = head then some (lane, false) else l.place other := by
  obtain ⟨seat, hSeat, hPlace⟩ := Option.map_eq_some_iff.mp (h.place_head hQueue)
  simp only [promote, hQueue]
  show (l.sit head _).place other = _
  rw [place_sit, hSeat]
  simp only [Option.map_some, (Prod.mk.inj hPlace).1]

theorem fair_promote (hFree : l.active lane = none) : (l.promote lane).Fair cap := by
  cases hQueue : l.queue lane with
  | nil =>
    rw [promote, hQueue]
    exact h
  | cons head rest =>
    have ⟨hActive, hQueued, _, hCounted, hWithin⟩ := h
    have hHead := h.place_head hQueue
    have hRest := h.head_notMem_rest hQueue
    have hActive' : (l.promote lane).active = Function.update l.active lane (some head) := by
      rw [active_promote, hQueue]
      rfl
    have hQueue' : (l.promote lane).queue = Function.update l.queue lane rest := by
      rw [queue_promote, hQueue]
      rfl
    refine ⟨fun lane' other => ?_, fun lane' other => ?_, fun lane' => ?_,
      fun other lane' waiting => ?_, fun lane' => ?_⟩
    · rw [hActive', place_promote h hQueue, Function.update_apply]
      grind
    · rw [hQueue', place_promote h hQueue, Function.update_apply]
      grind
    · rw [hQueue', Function.update_apply]
      split
      · have hSub : rest.Sublist (l.queue lane) := by
          rw [hQueue]
          exact List.sublist_cons_self head rest
        exact h.ordered_congr hSub fun other _ => ticket_promote l lane other
      · exact h.ordered_congr (List.Sublist.refl _) fun other _ => ticket_promote l lane other
    · rw [ticket_promote, tickets_promote, place_promote h hQueue]
      grind
    · rw [hQueue', Function.update_apply]
      grind

theorem fair_leave (hWaiting : l.place member = some (lane, true)) :
    (l.next (.leave lane member)).Fair cap := by
  have ⟨hActive, hQueue, _, hCounted, hWithin⟩ := h
  have hSame : ∀ other, other ≠ member → (l.sit member none).ticket other = l.ticket other := by
    intro other hOther
    rw [ticket_sit, if_neg hOther]
  refine ⟨fun lane' other => ?_, fun lane' other => ?_, fun lane' => ?_,
    fun other lane' waiting => ?_, fun lane' => ?_⟩
  · show l.active lane' = some other ↔ (l.sit member none).place other = some (lane', false)
    rw [place_sit]
    grind
  · show other ∈ Function.update l.queue lane ((l.queue lane).filter (· ≠ member)) lane' ↔
      (l.sit member none).place other = some (lane', true)
    rw [place_sit, Function.update_apply]
    grind
  · show (Function.update l.queue lane ((l.queue lane).filter (· ≠ member)) lane').Pairwise
      fun a b => (l.sit member none).ticket a < (l.sit member none).ticket b
    rw [Function.update_apply]
    split
    · refine h.ordered_congr List.filter_sublist fun other hOther => hSame other ?_
      simpa using (List.mem_filter.mp hOther).2
    · refine h.ordered_congr (List.Sublist.refl _) fun other hOther => hSame other ?_
      grind
  · show (l.sit member none).place other = some (lane', waiting) →
      (l.sit member none).ticket other ≤ l.tickets lane'
    rw [place_sit, ticket_sit]
    grind
  · show (Function.update l.queue lane ((l.queue lane).filter (· ≠ member)) lane').length ≤ cap
    rw [Function.update_apply]
    split
    · exact (List.length_filter_le _ _).trans (hWithin lane)
    · exact hWithin lane'

theorem fair_next (hOp : l.allowed cap op) : (l.next op).Fair cap := by
  cases op with
  | draw lane => exact fair_draw h lane
  | start lane member => exact fair_start h hOp.1 hOp.2
  | enqueue lane member => exact fair_enqueue h hOp.2.1 hOp.2.2
  | finish lane promote =>
    cases promote with
    | false => exact fair_retire h lane
    | true => exact fair_promote (fair_retire h lane) (by simp [active_retire])
  | leave lane member => exact fair_leave h hOp
  | stay => exact h

/-! ## What happens to those who wait -/

theorem place_retire_waiting (lane lane' : T) (member : I) :
    (l.retire lane).place member = some (lane', true) ↔ l.place member = some (lane', true) := by
  rw [← (fair_retire h lane).queue_iff, ← h.queue_iff, retire]
  cases l.active lane <;> rfl

theorem ticket_retire (lane : T) (hPlace : l.place member = some (lane', true)) :
    (l.retire lane).ticket member = l.ticket member := by
  have hActive := h.active_iff
  rw [retire]
  cases hMember : l.active lane with
  | none => rfl
  | some active =>
    show (l.sit active none).ticket member = l.ticket member
    rw [ticket_sit, if_neg]
    grind

theorem waiting_promote (lane : T) (hPlace : l.place member = some (lane', true)) :
    (l.promote lane).place member = some (lane', true) ∨
      lane' = lane ∧ (l.queue lane).head? = some member := by
  cases hQueue : l.queue lane with
  | nil =>
    rw [promote, hQueue]
    exact .inl hPlace
  | cons head rest =>
    rw [place_promote h hQueue]
    have hHead := h.place_head hQueue
    by_cases hMember : member = head
    · rw [hMember, hHead] at hPlace
      cases hPlace
      exact .inr ⟨rfl, by rw [hMember]; rfl⟩
    · rw [if_neg hMember]
      exact .inl hPlace

theorem ticket_next (hOp : l.allowed cap op) (hPlace : l.place member = some (lane, true))
    (hStays : op ≠ .leave lane member) : (l.next op).ticket member = l.ticket member := by
  cases op with
  | draw lane' => rfl
  | start lane' other =>
    show (l.sit other _).ticket member = _
    rw [ticket_sit, if_neg (ne_of_waiting hPlace hOp.2)]
  | enqueue lane' other =>
    show (l.sit other _).ticket member = _
    rw [ticket_sit, if_neg (ne_of_waiting hPlace hOp.2.1)]
  | finish lane' promote =>
    cases promote with
    | false => exact ticket_retire h lane' hPlace
    | true => exact (ticket_promote _ lane' member).trans (ticket_retire h lane' hPlace)
  | leave lane' other =>
    have hLane : l.place other = some (lane', true) := hOp
    show (l.sit other none).ticket member = _
    rw [ticket_sit, if_neg]
    rintro rfl
    rw [hPlace] at hLane
    cases hLane
    exact hStays rfl
  | stay => rfl

/-- **A member who waits** goes on waiting, is promoted, or leaves. -/
theorem waiting_next (hOp : l.allowed cap op) (hPlace : l.place member = some (lane, true)) :
    (l.next op).place member = some (lane, true) ∧ op ≠ .leave lane member ∨
      l.promotion op = some ⟨lane, member, l.ticket member⟩ ∨ op = .leave lane member := by
  cases op with
  | draw lane' => exact .inl ⟨hPlace, nofun⟩
  | start lane' other =>
    refine .inl ⟨?_, nofun⟩
    show (l.sit other _).place member = _
    rw [place_sit, if_neg (ne_of_waiting hPlace hOp.2), hPlace]
  | enqueue lane' other =>
    refine .inl ⟨?_, nofun⟩
    show (l.sit other _).place member = _
    rw [place_sit, if_neg (ne_of_waiting hPlace hOp.2.1), hPlace]
  | finish lane' promote =>
    have hRetired := (place_retire_waiting h lane' lane member).mpr hPlace
    cases promote with
    | false => exact .inl ⟨hRetired, nofun⟩
    | true =>
      rcases waiting_promote (fair_retire h lane') lane' hRetired with hStays | ⟨rfl, hHead⟩
      · exact .inl ⟨hStays, nofun⟩
      · rw [queue_retire] at hHead
        refine .inr (.inl ?_)
        rw [promotion, hHead]
        rfl
  | leave lane' other =>
    have hLane : l.place other = some (lane', true) := hOp
    by_cases hOther : member = other
    · rw [← hOther, hPlace] at hLane
      cases hLane
      exact .inr (.inr (by rw [hOther]))
    · refine .inl ⟨?_, fun hEq => hOther (LaneOp.leave.inj hEq).2.symm⟩
      show (l.sit other none).place member = _
      rw [place_sit, if_neg hOther, hPlace]
  | stay => exact .inl ⟨hPlace, nofun⟩

theorem waiting_run (hOps : Admissible next (allowed cap) l ops)
    (hPlace : l.place member = some (lane, true)) :
    (run next l ops).place member = some (lane, true) ∧
        (run next l ops).ticket member = l.ticket member ∨
      ⟨lane, member, l.ticket member⟩ ∈ l.promotions ops ∨ .leave lane member ∈ ops := by
  induction ops generalizing l with
  | nil => exact .inl ⟨hPlace, rfl⟩
  | cons op rest ih =>
    rcases waiting_next h hOps.1 hPlace with ⟨hWaits, hStays⟩ | hPromoted | rfl
    · rw [← ticket_next h hOps.1 hPlace hStays]
      rcases ih (fair_next h hOps.1) hOps.2 hWaits with hRest | hRest | hRest
      · exact .inl hRest
      · exact .inr (.inl (List.mem_append_right _ hRest))
      · exact .inr (.inr (List.mem_cons_of_mem _ hRest))
    · refine .inr (.inl (List.mem_append_left _ ?_))
      rw [hPromoted]
      exact List.mem_singleton_self _
    · exact .inr (.inr List.mem_cons_self)

end

/-! ## Promotions go by tickets -/

theorem mem_queue_next (hMem : member ∈ (l.next op).queue lane) :
    member ∈ l.queue lane ∧ op ≠ .leave lane member ∨ op = .enqueue lane member := by
  cases op with
  | draw lane' | start lane' other => exact .inl ⟨hMem, nofun⟩
  | enqueue lane' other =>
    replace hMem : member ∈ Function.update l.queue lane' (l.queue lane' ++ [other]) lane := hMem
    rw [Function.update_apply] at hMem
    split at hMem
    · rename_i hLane
      rcases List.mem_append.mp hMem with hOld | hNew
      · exact .inl ⟨by rw [hLane]; exact hOld, nofun⟩
      · exact .inr (by rw [hLane, List.mem_singleton.mp hNew])
    · exact .inl ⟨hMem, nofun⟩
  | finish lane' promote =>
    refine .inl ⟨?_, nofun⟩
    cases promote with
    | false => rwa [next, if_neg nofun, queue_retire] at hMem
    | true =>
      rw [queue_finish, Function.update_apply] at hMem
      split at hMem
      · rename_i hLane
        rw [hLane]
        exact List.mem_of_mem_tail hMem
      · exact hMem
  | leave lane' other =>
    replace hMem : member ∈
      Function.update l.queue lane' ((l.queue lane').filter (· ≠ other)) lane := hMem
    rw [Function.update_apply] at hMem
    left
    split at hMem
    · rename_i hLane
      obtain ⟨hOld, hOther⟩ := List.mem_filter.mp hMem
      refine ⟨by rw [hLane]; exact hOld, fun hEq => ?_⟩
      rw [(LaneOp.leave.inj hEq).2] at hOther
      simp at hOther
    · rename_i hLane
      exact ⟨hMem, fun hEq => hLane (LaneOp.leave.inj hEq).1.symm⟩
  | stay => exact .inl ⟨hMem, nofun⟩

theorem tickets_next_mono (l : Lanes T I) (op : LaneOp T I) (lane : T) :
    l.tickets lane ≤ (l.next op).tickets lane := by
  have hDraw : ∀ lane', l.tickets lane ≤
      Function.update l.tickets lane' (l.tickets lane' + 1) lane := by
    intro lane'
    rw [Function.update_apply]
    split
    · rename_i hLane
      rw [hLane]
      omega
    · exact le_rfl
  cases op with
  | draw lane' | start lane' member | enqueue lane' member => exact hDraw lane'
  | finish lane' promote =>
    have hRetire : (l.retire lane').tickets = l.tickets := by
      rw [retire]
      cases l.active lane' <;> rfl
    cases promote with
    | false => exact (congrFun hRetire lane).ge
    | true =>
      rw [next, if_pos rfl, tickets_promote]
      exact (congrFun hRetire lane).ge
  | leave lane' member | stay => exact le_rfl

theorem ticket_enqueued (l : Lanes T I) (lane : T) (member : I) :
    (l.next (.enqueue lane member)).ticket member = l.tickets lane + 1 := by
  show (l.sit member _).ticket member = _
  rw [ticket_sit, if_pos rfl]
  rfl

theorem beyond_next (h : l.Fair cap) (hOp : l.allowed cap op) (hBeyond : l.Beyond lane ticket) :
    (l.next op).Beyond lane ticket := by
  refine ⟨hBeyond.1.trans (tickets_next_mono l op lane), fun member hMem => ?_⟩
  rcases mem_queue_next hMem with ⟨hOld, hStays⟩ | rfl
  · rw [ticket_next h hOp ((h.queue_iff lane member).mp hOld) hStays]
    exact hBeyond.2 member hOld
  · rw [ticket_enqueued]
    have hLe := hBeyond.1
    omega

theorem beyond_promoted (h : l.Fair cap) (hP : l.promotion op = some p) :
    (l.next op).Beyond p.lane p.ticket := by
  obtain ⟨rfl, hTicket, rest, hQueue⟩ := promotion_eq_some hP
  have hOrdered := h.ordered p.lane
  rw [hQueue, List.pairwise_cons] at hOrdered
  have hHead := h.place_head hQueue
  refine ⟨?_, fun member hMem => ?_⟩
  · rw [hTicket]
    exact (h.counted _ _ _ hHead).trans (tickets_next_mono l _ p.lane)
  · have hRest : member ∈ rest := by
      rwa [queue_finish, Function.update_self, hQueue] at hMem
    have hMember : l.place member = some (p.lane, true) := by
      rw [← h.queue_iff, hQueue]
      exact List.mem_cons_of_mem _ hRest
    have hOp : l.allowed cap (.finish p.lane true) := trivial
    rw [hTicket, ticket_next h hOp hMember nofun]
    exact hOrdered.1 member hRest

theorem promotions_beyond (h : l.Fair cap) (hOps : Admissible next (allowed cap) l ops)
    (hMem : p ∈ l.promotions ops) (hBeyond : l.Beyond p.lane ticket) : ticket < p.ticket := by
  induction ops generalizing l with
  | nil => cases hMem
  | cons op rest ih =>
    rcases List.mem_append.mp hMem with hNow | hLater
    · exact ticket_lt_of_beyond (Option.mem_toList.mp hNow) hBeyond
    · exact ih (fair_next h hOps.1) hOps.2 hLater (beyond_next h hOps.1 hBeyond)

/-- **In each lane members are promoted by their tickets.** -/
theorem promotions_pairwise (h : l.Fair cap) (hOps : Admissible next (allowed cap) l ops) :
    (l.promotions ops).Pairwise fun a b => a.lane = b.lane → a.ticket < b.ticket := by
  induction ops generalizing l with
  | nil => exact .nil
  | cons op rest ih =>
    rw [promotions, List.pairwise_append]
    refine ⟨?_, ih (fair_next h hOps.1) hOps.2, ?_⟩
    · cases l.promotion op with
      | none => exact .nil
      | some p => exact List.pairwise_singleton _ _
    · intro a hA b hB hLane
      have hBeyond := beyond_promoted h (Option.mem_toList.mp hA)
      rw [hLane] at hBeyond
      exact promotions_beyond (fair_next h hOps.1) hOps.2 hB hBeyond

/-! ## A lane where someone waits is busy -/

def Staffed (l : Lanes T I) : Prop := ∀ lane, l.active lane = none → l.queue lane = []

theorem staffed_next (h : l.Staffed) (hOp : l.allowed cap op)
    (hPromotes : ∀ lane, op ≠ .finish lane false) : (l.next op).Staffed := by
  intro lane hFree
  cases op with
  | draw lane' => exact h lane hFree
  | start lane' member =>
    replace hFree : Function.update l.active lane' (some member) lane = none := hFree
    rw [Function.update_apply] at hFree
    split at hFree
    · cases hFree
    · exact h lane hFree
  | enqueue lane' member =>
    show Function.update l.queue lane' (l.queue lane' ++ [member]) lane = []
    rw [Function.update_apply, if_neg]
    · exact h lane hFree
    · rintro rfl
      exact hOp.1 hFree
  | finish lane' promote =>
    cases promote with
    | false => exact absurd rfl (hPromotes lane')
    | true =>
      rw [active_finish, Function.update_apply] at hFree
      rw [queue_finish, Function.update_apply]
      split at hFree
      · rename_i hLane
        rw [if_pos hLane, List.head?_eq_none_iff.mp hFree]
        rfl
      · rename_i hLane
        rw [if_neg hLane]
        exact h lane hFree
  | leave lane' member =>
    show Function.update l.queue lane' ((l.queue lane').filter (· ≠ member)) lane = []
    rw [Function.update_apply]
    split
    · rename_i hLane
      rw [← hLane, h lane hFree]
      rfl
    · exact h lane hFree
  | stay => exact h lane hFree

theorem staffed_run (h : l.Staffed) (hOps : Admissible next (allowed cap) l ops)
    (hPromotes : ∀ lane, LaneOp.finish lane false ∉ ops) : (run next l ops).Staffed := by
  induction ops generalizing l with
  | nil => exact h
  | cons op rest ih =>
    refine ih (staffed_next h hOps.1 fun lane hEq => ?_) hOps.2 fun lane hMem => ?_
    · exact hPromotes lane (by rw [hEq]; exact List.mem_cons_self)
    · exact hPromotes lane (List.mem_cons_of_mem _ hMem)

end Lanes

end RustyRuntime.Library
