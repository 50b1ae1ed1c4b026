import RustyRuntime.State.Reducer

/-!
# Shared channel values

The states of a run share the values of their channels: each value is behind an `Arc`. Where
`Channels` and `Reducer` hold values, this module holds addresses: `apply_shared` changes a value in
place if the caller has the only handle to it, and works on a copy otherwise.

**The reducer on handles is the reducer on values** (`applySharedIn_spec`): it never panics, the
value behind its result is that of `apply`, and every other state reads as before. The state that is
merged into counts as one of the others, with its remaining channels.
-/

namespace RustyRuntime

/-- The values behind the `Arc`s, by address. -/
abbrev Heap := Nat → Json

/-- A state as it is held: a handle for each channel. -/
abbrev SharedState := List (String × Nat)

variable (reducer : Reducer) (core : List Json → List Json) (coerced : Json)

section

variable (heap : Heap) (held : List Nat) (current : Option Nat)

def SharedState.read (s : SharedState) (heap : Heap) : List (String × Json) :=
  s.map fun channel => (channel.1, heap channel.2)

/-- The handles that the states hold. -/
def handles (states : List SharedState) : List Nat :=
  states.flatMap fun s => s.map Prod.snd

/-- `Arc::get_mut`: the value, if `held` has no other handle to it. -/
def getMut (shared : Nat) : Option Json :=
  if shared ∈ held then none else some (heap shared)

/-- `Arc::new`, at an address that no handle has. -/
def arcNew (value : Json) : Nat × Heap :=
  let fresh := held.foldr max 0 + 1
  (fresh, Function.update heap fresh value)

/-- An array is changed in place, or copied and then changed; anything else is replaced by
`coerced`. `none` is the `unreachable!`. -/
def mergeArray : Option (Nat × Heap) :=
  match current.filter fun a => (heap a).isArray with
  | none => some (arcNew heap (current.toList ++ held) coerced)
  | some shared =>
    match getMut heap held shared with
    | some (.arr existing) => some (shared, Function.update heap shared (.arr (core existing)))
    | _ =>
      match heap shared with
      | .arr existing => some (arcNew heap (shared :: held) (.arr (core existing)))
      | _ => none

/-- `apply_shared` on handles. Beside `current` there are the handles `held`. -/
def Reducer.applySharedIn (update : Json) : Option (Nat × Heap) :=
  match reducer with
  | .overwrite => some (arcNew heap (current.toList ++ held) update)
  | .append => mergeArray (appendInPlace · update) (.arr (updateItems update)) heap held current
  | .deepMerge =>
    match current with
    | some shared =>
      match getMut heap held shared with
      | some value => some (shared, Function.update heap shared (deepMergeInPlace value update))
      | none => some (arcNew heap (shared :: held) (deepMergeValues (heap shared) update))
    | none => some (arcNew heap held update)
  | .addMessages =>
    mergeArray (upsertMessagesInPlace · update) (RustyRuntime.addMessages none update) heap held
      current

/-- The result is a handle to this value, and what the other handles lead to is unchanged. -/
def Gives (out : Option (Nat × Heap)) (value : Json) : Prop :=
  ∃ result heap', out = some (result, heap') ∧ heap' result = value ∧ ∀ a ∈ held, heap' a = heap a

end

variable {heap : Heap} {held : List Nat} {shared : Nat} {value : Json}

theorem gives_arcNew (also : List Nat) :
    Gives heap held (some (arcNew heap (also ++ held) value)) value := by
  refine ⟨_, _, rfl, Function.update_self .., fun a hA => Function.update_of_ne ?_ ..⟩
  have hBound : ∀ xs : List Nat, a ∈ xs → a ≤ xs.foldr max 0 := by
    intro xs hIn
    induction xs with
    | nil => cases hIn
    | cons x rest ih =>
      rcases List.mem_cons.mp hIn with rfl | hRest
      · exact le_max_left ..
      · exact (ih hRest).trans (le_max_right ..)
  have hLe := hBound (also ++ held) (List.mem_append_right _ hA)
  omega

theorem gives_inPlace (hOnly : shared ∉ held) :
    Gives heap held (some (shared, Function.update heap shared value)) value := by
  refine ⟨_, _, rfl, Function.update_self .., fun a hA => Function.update_of_ne ?_ ..⟩
  rintro rfl
  exact hOnly hA

theorem gives_mergeArray (current : Option Nat)
    (hArray : ∀ existing, current.map heap = some (.arr existing) → value = .arr (core existing))
    (hOther : (current.map heap).any Json.isArray = false → value = coerced) :
    Gives heap held (mergeArray core coerced heap held current) value := by
  cases current with
  | none => exact hOther rfl ▸ gives_arcNew []
  | some shared =>
    cases hIs : (heap shared).isArray with
    | false =>
      rw [hOther (by simpa using hIs)]
      simpa [mergeArray, Option.filter_some, hIs] using gives_arcNew [shared]
    | true =>
      obtain ⟨existing, hExisting⟩ : ∃ existing, heap shared = .arr existing := by
        cases hValue : heap shared <;> simp_all [Json.isArray]
      rw [hArray existing (congrArg some hExisting)]
      simp only [mergeArray, Option.filter_some, hIs, if_true, getMut]
      by_cases hOnly : shared ∈ held
      · simpa [hOnly, hExisting] using gives_arcNew [shared]
      · simpa [hOnly, hExisting] using gives_inPlace hOnly

theorem gives_applySharedIn (heap : Heap) (held : List Nat) (current : Option Nat) (update : Json) :
    Gives heap held (reducer.applySharedIn heap held current update)
      (reducer.apply (current.map heap) update) := by
  cases reducer with
  | overwrite => exact gives_arcNew _
  | deepMerge =>
    cases current with
    | none => exact gives_arcNew []
    | some shared =>
      by_cases hOnly : shared ∈ held
      · simpa [Reducer.applySharedIn, Reducer.apply, getMut, hOnly] using gives_arcNew [shared]
      · simpa [Reducer.applySharedIn, Reducer.apply, getMut, hOnly, deepMergeValues] using
          gives_inPlace hOnly
  | append =>
    refine gives_mergeArray _ _ _ (fun existing hValue => by rw [hValue]; rfl) fun hOther => ?_
    cases hValue : current.map heap with
    | none => rfl
    | some value => cases value <;> simp_all [Reducer.apply, Json.isArray]
  | addMessages =>
    refine gives_mergeArray _ _ _ (fun existing hValue => by rw [hValue]; rfl) fun hOther => ?_
    cases hValue : current.map heap with
    | none => rfl
    | some value => cases value <;> simp_all [Reducer.apply, addMessages, Json.isArray]

/-- **Copy-on-write.** Whoever else holds the current value, the reducer on handles gives what the
reducer on values gives, and every other state reads as before. -/
theorem applySharedIn_spec (reducer : Reducer) (heap : Heap) (others : List SharedState)
    (current : Option Nat) (update : Json) :
    ∃ result heap', reducer.applySharedIn heap (handles others) current update =
        some (result, heap') ∧
      heap' result = reducer.apply (current.map heap) update ∧
      ∀ s ∈ others, s.read heap' = s.read heap := by
  obtain ⟨result, heap', hRun, hResult, hKept⟩ :=
    gives_applySharedIn reducer heap (handles others) current update
  refine ⟨result, heap', hRun, hResult, fun s hS => List.map_congr_left fun channel hIn => ?_⟩
  rw [hKept channel.2 (List.mem_flatMap.mpr ⟨s, hS, List.mem_map_of_mem hIn⟩)]

end RustyRuntime
