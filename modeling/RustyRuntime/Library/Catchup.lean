import Mathlib

/-!
# Catching up with a feed

A feed is a list whose elements have increasing numbers; a final element, if there is one,
comes last. A reader who joins late takes a copy of the start of the feed, leaves out what it
has seen already, and follows the elements that come in live from some point on, passing over
those it has.

Main result: `catchUp_eq_iff` says when the reader gets everything it has not seen.
-/

namespace RustyRuntime.Library

variable {α : Type} (number : α → Nat) (final : α → Bool)

/-- What a reader takes of the live elements, having seen everything up to `seen`. -/
def follow : (seen : Nat) → List α → List α
  | _, [] => []
  | seen, x :: rest =>
    if number x ≤ seen then follow seen rest
    else x :: if final x then [] else follow (number x) rest

/-- The copy without what was seen, and then the live elements. -/
def catchUp (copy live : List α) (skip : Nat) : List α :=
  let replay := copy.filter (skip < number ·)
  replay ++ if replay.getLast?.any final then []
    else follow number final ((replay.getLast?.map number).getD skip) live

variable {number final} {feed copy early live : List α} {skip : Nat}

theorem follow_eq_filter {seen : Nat} {xs : List α}
    (hOrdered : xs.Pairwise (number · < number ·))
    (hFinal : xs.Pairwise fun x _ => final x = false) :
    follow number final seen xs = xs.filter (seen < number ·) := by
  induction xs generalizing seen with
  | nil => rfl
  | cons x rest ih =>
    obtain ⟨hAbove, hOrdered⟩ := List.pairwise_cons.mp hOrdered
    obtain ⟨hOpen, hFinal⟩ := List.pairwise_cons.mp hFinal
    rw [follow]
    by_cases hSeen : number x ≤ seen
    · rw [if_pos hSeen, ih hOrdered hFinal, List.filter_cons_of_neg (by simpa using hSeen)]
    · rw [if_neg hSeen, List.filter_cons_of_pos (by simpa using hSeen)]
      congr 1
      by_cases hEnd : final x = true
      · cases rest with
        | nil => rw [if_pos hEnd, List.filter_nil]
        | cons y others =>
          rw [hOpen y List.mem_cons_self] at hEnd
          cases hEnd
      · rw [if_neg hEnd, ih hOrdered hFinal]
        -- what follows is above the element, so above what was seen before it
        apply List.filter_congr
        intro y hY
        have hY := hAbove y hY
        simp only [decide_eq_decide]
        omega

theorem seen_of_replay (skip : Nat) (hCopy : copy.Pairwise (number · < number ·)) :
    skip ≤ (((copy.filter (skip < number ·)).getLast?.map number).getD skip) ∧
    (∀ x ∈ copy,
      number x ≤ (((copy.filter (skip < number ·)).getLast?.map number).getD skip)) ∧
    ((((copy.filter (skip < number ·)).getLast?.map number).getD skip) = skip ∨
      ∃ x ∈ copy,
        (((copy.filter (skip < number ·)).getLast?.map number).getD skip) = number x) := by
  cases hLast : (copy.filter (skip < number ·)).getLast? with
  | none =>
    rw [List.getLast?_eq_none_iff] at hLast
    refine ⟨le_refl _, fun x hX => ?_, .inl rfl⟩
    by_contra hAbove
    have hMem : x ∈ copy.filter (skip < number ·) := by
      simp only [List.mem_filter, decide_eq_true_eq]
      exact ⟨hX, Nat.lt_of_not_le hAbove⟩
    rw [hLast] at hMem
    cases hMem
  | some l =>
    obtain ⟨before, hReplay⟩ := List.getLast?_eq_some_iff.mp hLast
    have hOrdered : (before ++ [l]).Pairwise (number · < number ·) := by
      rw [← hReplay]
      exact hCopy.filter _
    have hIn : l ∈ copy ∧ skip < number l := by
      have hMem : l ∈ copy.filter (skip < number ·) := by
        rw [hReplay]
        simp
      simpa [List.mem_filter] using hMem
    refine ⟨hIn.2.le, fun x hX => ?_, .inr ⟨l, hIn.1, rfl⟩⟩
    show number x ≤ number l
    by_cases hAbove : skip < number x
    · have hMem : x ∈ before ++ [l] := by
        rw [← hReplay, List.mem_filter]
        exact ⟨hX, by simpa using hAbove⟩
      rcases List.mem_append.mp hMem with hBefore | hL
      · exact ((List.pairwise_append.mp hOrdered).2.2 x hBefore l (by simp)).le
      · rw [List.mem_singleton.mp hL]
    · omega

/-- **When a reader gets everything it has not seen**: what went by before it followed is in
its copy. -/
theorem catchUp_eq_iff (hOrdered : feed.Pairwise (number · < number ·))
    (hFinal : feed.Pairwise fun x _ => final x = false) (hCopy : copy <+: feed)
    (hLive : feed = early ++ live) :
    catchUp number final copy live skip = feed.filter (skip < number ·) ↔
      ∀ x ∈ early, skip < number x → x ∈ copy := by
  obtain ⟨tail, hTail⟩ := hCopy
  obtain ⟨hCopied, -, hBetween⟩ := List.pairwise_append.mp (hTail ▸ hOrdered)
  obtain ⟨hSkip, hBelow, hSource⟩ := seen_of_replay skip hCopied
  rw [catchUp]
  set replay := copy.filter (skip < number ·) with hReplay
  set seen := (replay.getLast?.map number).getD skip with hSeen
  -- beyond the copy, above what was seen and above the last replayed one are the same
  have hBeyond : ∀ x ∈ tail, (skip < number x ↔ seen < number x) := by
    intro x hX
    rcases hSource with hSame | ⟨y, hY, hNumber⟩
    · rw [hSame]
    · have hLt := hBetween y hY x hX
      omega
  have hWhole : feed.filter (skip < number ·) = replay ++ feed.filter (seen < number ·) := by
    have hNone : copy.filter (seen < number ·) = [] := by
      rw [List.filter_eq_nil_iff]
      intro x hX
      have hLe := hBelow x hX
      simp only [decide_eq_true_eq]
      omega
    have hSame : tail.filter (skip < number ·) = tail.filter (seen < number ·) := by
      apply List.filter_congr
      intro x hX
      simp only [decide_eq_decide]
      exact hBeyond x hX
    rw [← hTail, List.filter_append, List.filter_append, hNone, hSame, List.nil_append]
  by_cases hDone : replay.getLast?.any final = true
  · -- the copy ends with the final element, so it is the whole feed
    rw [if_pos hDone]
    have hEmpty : tail = [] := by
      cases hLast : replay.getLast? with
      | none => simp [hLast] at hDone
      | some l =>
        rw [hLast, Option.any_some] at hDone
        have hIn : l ∈ copy := List.mem_of_mem_filter (List.mem_of_getLast? hLast)
        cases tail with
        | nil => rfl
        | cons y others =>
          have hOpen := (List.pairwise_append.mp (hTail ▸ hFinal)).2.2 l hIn y (by simp)
          rw [hOpen] at hDone
          cases hDone
    rw [hEmpty, List.append_nil] at hTail
    refine iff_of_true ?_ fun x hX _ => ?_
    · rw [List.append_nil, hReplay, hTail]
    · rw [hTail, hLive]
      exact List.mem_append_left _ hX
  · rw [if_neg hDone, hWhole, List.append_cancel_left_eq]
    have hParts := List.pairwise_append.mp (hLive ▸ hOrdered)
    have hEnds := List.pairwise_append.mp (hLive ▸ hFinal)
    rw [follow_eq_filter hParts.2.1 hEnds.2.1, hLive, List.filter_append, List.self_eq_append_left,
      List.filter_eq_nil_iff]
    refine forall₂_congr fun x hX => ?_
    simp only [decide_eq_true_eq]
    have hIn : x ∈ copy ++ tail := by
      rw [hTail, hLive]
      exact List.mem_append_left _ hX
    constructor
    · intro hNot hAbove
      rcases List.mem_append.mp hIn with hCopied | hLater
      · exact hCopied
      · exact absurd ((hBeyond x hLater).mp hAbove) hNot
    · intro h hAbove
      have hLe := hBelow x (h (by omega))
      omega

end RustyRuntime.Library
