import Mathlib.Data.List.Basic

/-!
# Parts joined by a doubled separator

Two parts are joined by writing one element `d` twice between them. The parts themselves may
hold `d`, so that a joined list can be read in several ways: a longer left part reads a `d`,
or a whole separator and more, that the other reading leaves to the right part.

Main results:

* When two joins of two parts are equal (`joined_eq_joined_iff`).
* When two joins of three parts are equal (`joined_joined_eq_iff`).
* A single separator that does not occur in the last part is unambiguous
  (`append_cons_inj_right`), and `splitFirst` finds the first one (`splitFirst_eq_some_iff`).
* Fields joined by a single separator agree when the pieces between their separators do
  (`intercalate_eq_iff`); the pieces give the fields back once it is known how many separators
  each field holds (`eq_of_pieces`).
-/

namespace RustyRuntime.Library

variable {α : Type*} {d : α} {a b c a' b' c' r s : List α}

/-- Two parts with the doubled separator between them. -/
def joined (d : α) (a r : List α) : List α := a ++ [d, d] ++ r

/-- The left part `b` goes on after `a` with one `d`, or with a separator and more, and takes
it from the right part `r` that follows `a`. -/
def Encroaches (d : α) (a r b s : List α) : Prop :=
  (b = a ++ [d] ∧ r = d :: s) ∨ ∃ x, b = joined d a x ∧ r = joined d x s

theorem joined_eq_of_encroaches (h : Encroaches d a r b s) : joined d a r = joined d b s := by
  rcases h with ⟨rfl, rfl⟩ | ⟨x, rfl, rfl⟩ <;> simp [joined]

theorem encroaches_of_append_eq {x : List α} (hNil : x ≠ [])
    (h : [d, d] ++ r = x ++ ([d, d] ++ s)) : Encroaches d a r (a ++ x) s := by
  match x, hNil with
  | [y], _ =>
    obtain ⟨rfl, -, rfl⟩ := h
    exact .inl ⟨rfl, rfl⟩
  | y :: z :: x, _ =>
    obtain ⟨rfl, rfl, rfl⟩ := h
    exact .inr ⟨x, by simp [joined], by simp [joined]⟩

/-- Two pairs of parts with one join: the same pair, or one left part takes the start of the
other's right part. -/
def SameJoin (d : α) (a r b s : List α) : Prop :=
  (a = b ∧ r = s) ∨ Encroaches d a r b s ∨ Encroaches d b s a r

theorem joined_eq_joined_iff : joined d a r = joined d b s ↔ SameJoin d a r b s := by
  constructor
  · intro h
    simp only [joined, List.append_assoc] at h
    rcases List.append_eq_append_iff.mp h with ⟨x, hLeft, hRight⟩ | ⟨x, hLeft, hRight⟩
    · by_cases hNil : x = []
      · exact .inl (by simp_all)
      · rw [hLeft]
        exact .inr (.inl (encroaches_of_append_eq hNil hRight))
    · by_cases hNil : x = []
      · exact .inl (by simp_all)
      · rw [hLeft]
        exact .inr (.inr (encroaches_of_append_eq hNil hRight))
  · rintro (⟨rfl, rfl⟩ | h | h)
    · rfl
    · exact joined_eq_of_encroaches h
    · exact (joined_eq_of_encroaches h).symm

/-- The first part `a'` goes on after `a` and takes the start of the two parts that follow. -/
def Slides (d : α) (a b c a' b' c' : List α) : Prop :=
  (a' = a ++ [d] ∧ SameJoin d b c (d :: b') c') ∨
    ∃ x, a' = joined d a x ∧ SameJoin d b c x (joined d b' c')

theorem encroaches_joined_iff :
    Encroaches d a (joined d b c) a' (joined d b' c') ↔ Slides d a b c a' b' c' := by
  have hCons : d :: joined d b' c' = joined d (d :: b') c' := rfl
  simp only [Encroaches, Slides, hCons, joined_eq_joined_iff]

theorem joined_joined_eq_iff :
    joined d a (joined d b c) = joined d a' (joined d b' c') ↔
      (a = a' ∧ SameJoin d b c b' c') ∨ Slides d a b c a' b' c' ∨ Slides d a' b' c' a b c := by
  rw [joined_eq_joined_iff]
  simp only [SameJoin, encroaches_joined_iff]
  simp only [← SameJoin.eq_def, joined_eq_joined_iff]

theorem append_cons_inj_right (hRight : d ∉ r) (hRight' : d ∉ s) :
    a ++ d :: r = b ++ d :: s ↔ a = b ∧ r = s := by
  constructor
  · intro h
    have hReverse := congrArg List.reverse h
    simp only [List.reverse_append, List.reverse_cons, List.append_assoc, List.cons_append,
      List.nil_append] at hReverse
    have hNot : d ∉ r.reverse := by simpa using hRight
    have hNot' : d ∉ s.reverse := by simpa using hRight'
    rcases List.append_eq_append_iff.mp hReverse with ⟨x, hLeft, hRest⟩ | ⟨x, hLeft, hRest⟩
    · cases x with
      | nil => simp_all
      | cons y x =>
        obtain ⟨rfl, -⟩ := List.cons.inj hRest
        exact absurd (by simp [hLeft]) hNot'
    · cases x with
      | nil => simp_all
      | cons y x =>
        obtain ⟨rfl, -⟩ := List.cons.inj hRest
        exact absurd (by simp [hLeft]) hNot
  · rintro ⟨rfl, rfl⟩
    rfl

/-- The parts of a list before and after the first `d`. -/
def splitFirst [DecidableEq α] (d : α) : List α → Option (List α × List α)
  | [] => none
  | x :: rest =>
    if x = d then some ([], rest)
    else (splitFirst d rest).map fun parts => (x :: parts.1, parts.2)

theorem splitFirst_eq_some_iff [DecidableEq α] {xs : List α} :
    splitFirst d xs = some (a, r) ↔ xs = a ++ d :: r ∧ d ∉ a := by
  induction xs generalizing a with
  | nil => simp [splitFirst]
  | cons x rest ih =>
    rw [splitFirst]
    split
    · rename_i hX
      subst hX
      cases a with
      | nil => simp
      | cons y before =>
        constructor
        · intro h
          cases h
        · rintro ⟨hCons, hNot⟩
          obtain ⟨rfl, -⟩ := List.cons.inj hCons
          exact absurd List.mem_cons_self hNot
    · rename_i hNe
      simp only [Option.map_eq_some_iff, Prod.exists, Prod.mk.injEq]
      constructor
      · rintro ⟨before, after, hRest, rfl, rfl⟩
        obtain ⟨rfl, hNot⟩ := ih.mp hRest
        exact ⟨rfl, by simp [hNot, Ne.symm hNe]⟩
      · rintro ⟨hCons, hNot⟩
        cases a with
        | nil => exact absurd (List.cons.inj hCons).1 hNe
        | cons y before =>
          obtain ⟨rfl, hRest⟩ := List.cons.inj hCons
          exact ⟨before, r, ih.mpr ⟨hRest, fun hIn => hNot (List.mem_cons_of_mem _ hIn)⟩, rfl, rfl⟩

/-! ## Fields joined by a single separator -/

def pieces [DecidableEq α] (d : α) (fields : List (List α)) : List (List α) :=
  fields.flatMap (List.splitOn d)

theorem length_splitOn [DecidableEq α] (d : α) (xs : List α) :
    (xs.splitOn d).length = xs.count d + 1 := by
  induction xs with
  | nil => simp
  | cons x rest ih =>
    rw [List.splitOn, List.splitOnP_cons_eq_if_modifyHead]
    rw [List.splitOn] at ih
    by_cases hX : x = d
    · simp [hX, ih]
    · simp [hX, ih]

variable {fields fields' : List (List α)}

theorem splitOn_intercalate_eq_pieces [DecidableEq α] (d : α) (hSome : fields ≠ []) :
    ([d].intercalate fields).splitOn d = pieces d fields := by
  induction fields with
  | nil => exact absurd rfl hSome
  | cons field rest ih =>
    cases rest with
    | nil => simp [pieces]
    | cons next others =>
      have hJoin : [d].intercalate (field :: next :: others) =
          field ++ d :: [d].intercalate (next :: others) := by simp
      have hSplit : (field ++ d :: [d].intercalate (next :: others)).splitOn d =
          field.splitOn d ++ ([d].intercalate (next :: others)).splitOn d :=
        List.splitOnP_append_cons _ _ (by simp)
      rw [hJoin, hSplit, ih (by simp)]
      simp [pieces]

theorem intercalate_eq_iff [DecidableEq α] (hSome : fields ≠ []) (hSome' : fields' ≠ []) :
    [d].intercalate fields = [d].intercalate fields' ↔ pieces d fields = pieces d fields' := by
  rw [← splitOn_intercalate_eq_pieces d hSome, ← splitOn_intercalate_eq_pieces d hSome']
  constructor
  · intro h
    rw [h]
  · intro h
    have hBack : [d].intercalate (([d].intercalate fields).splitOn d) = [d].intercalate fields :=
      List.intercalate_splitOn d
    rw [← hBack, h, List.intercalate_splitOn]

theorem eq_of_pieces [DecidableEq α] (hPieces : pieces d fields = pieces d fields')
    (hCounts : fields.map (List.count d) = fields'.map (List.count d)) : fields = fields' := by
  induction fields generalizing fields' with
  | nil => exact (List.map_eq_nil_iff.mp hCounts.symm).symm
  | cons field rest ih =>
    cases fields' with
    | nil => cases hCounts
    | cons field' rest' =>
      obtain ⟨hCount, hCounts⟩ := List.cons.inj hCounts
      have hLength : (field.splitOn d).length = (field'.splitOn d).length := by
        rw [length_splitOn, length_splitOn, hCount]
      obtain ⟨hHead, hTail⟩ := List.append_inj hPieces hLength
      have hBack : [d].intercalate (field.splitOn d) = field := List.intercalate_splitOn d
      rw [ih hTail hCounts, ← hBack, hHead, List.intercalate_splitOn]

end RustyRuntime.Library
