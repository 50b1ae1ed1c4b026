import Mathlib

/-!
# Runs of a system

A system is a state type with a function `next` from a state and an operation to the state
after it. `Admissible` is a sequence of operations each of which is allowed in the state it
meets, and `run_invariant` is the invariant rule for such sequences.
-/

namespace RustyRuntime.Library

variable {σ ω : Type}

def run (next : σ → ω → σ) (s : σ) (ops : List ω) : σ := ops.foldl next s

/-- Every operation is allowed in the state it is applied to. -/
def Admissible (next : σ → ω → σ) (allowed : σ → ω → Prop) : σ → List ω → Prop
  | _, [] => True
  | s, op :: rest => allowed s op ∧ Admissible next allowed (next s op) rest

variable {next : σ → ω → σ} {allowed : σ → ω → Prop}

instance decidableAdmissible [∀ s op, Decidable (allowed s op)] :
    (s : σ) → (ops : List ω) → Decidable (Admissible next allowed s ops)
  | _, [] => isTrue trivial
  | s, op :: rest => @instDecidableAnd _ _ _ (decidableAdmissible (next s op) rest)

variable {ops : List ω}

/-- **The invariant rule.** What holds at the start and is kept by every allowed operation
holds after every admissible run. -/
theorem run_invariant {inv : σ → Prop} (hStep : ∀ s op, inv s → allowed s op → inv (next s op))
    {s : σ} (hInit : inv s) (hOps : Admissible next allowed s ops) : inv (run next s ops) := by
  induction ops generalizing s with
  | nil => exact hInit
  | cons op rest ih => exact ih (hStep s op hInit hOps.1) hOps.2

theorem admissible_of_forall (h : ∀ op ∈ ops, ∀ s, allowed s op) (s : σ) :
    Admissible next allowed s ops := by
  induction ops generalizing s with
  | nil => trivial
  | cons op rest ih =>
    exact ⟨h op List.mem_cons_self s, ih (fun o hO => h o (List.mem_cons_of_mem _ hO)) _⟩

theorem run_append (s : σ) (ops more : List ω) :
    run next s (ops ++ more) = run next (run next s ops) more := List.foldl_append

theorem admissible_append {s : σ} {more : List ω} :
    Admissible next allowed s (ops ++ more) ↔
      Admissible next allowed s ops ∧ Admissible next allowed (run next s ops) more := by
  induction ops generalizing s with
  | nil => exact (and_iff_right trivial).symm
  | cons op rest ih =>
    rw [List.cons_append, Admissible, ih, Admissible, and_assoc]
    rfl

theorem concat_eq_split {α : Type} {history before after : List α} {e x : α}
    (h : history ++ [e] = before ++ x :: after) :
    (before = history ∧ x = e ∧ after = []) ∨
      ∃ front, history = before ++ x :: front ∧ after = front ++ [e] := by
  rcases after.eq_nil_or_concat with rfl | ⟨front, last, rfl⟩
  · obtain ⟨rfl, hLast⟩ := List.append_inj' h rfl
    cases hLast
    exact .inl ⟨rfl, rfl, rfl⟩
  · rw [List.concat_eq_append, ← List.cons_append, ← List.append_assoc] at h
    obtain ⟨rfl, hLast⟩ := List.append_inj' h rfl
    cases hLast
    exact .inr ⟨front, rfl, List.concat_eq_append⟩

/-! ## Simulation -/

section Simulation

variable {τ ω' : Type} {next' : τ → ω' → τ} {allowed' : τ → ω' → Prop} {abs : σ → τ}
  {opOf : σ → ω → ω'}

/-- The operations of the abstract system that follow a run of the concrete one. -/
def translate (next : σ → ω → σ) (opOf : σ → ω → ω') : σ → List ω → List ω'
  | _, [] => []
  | s, op :: rest => opOf s op :: translate next opOf (next s op) rest

variable {s : σ} {ops : List ω}

theorem mem_translate {op' : ω'} (hMem : op' ∈ translate next opOf s ops) :
    ∃ s', ∃ op ∈ ops, opOf s' op = op' := by
  induction ops generalizing s with
  | nil => cases hMem
  | cons op rest ih =>
    rcases List.mem_cons.mp hMem with rfl | hRest
    · exact ⟨s, op, List.mem_cons_self, rfl⟩
    · obtain ⟨s', op', hOp', hEq⟩ := ih hRest
      exact ⟨s', op', List.mem_cons_of_mem _ hOp', hEq⟩

/-- **The simulation rule.** If every allowed operation is followed by an allowed one of the
abstract system wherever the invariant of that system holds, so is every admissible run. -/
theorem run_simulation {inv : τ → Prop} (hInv : ∀ t op, inv t → allowed' t op → inv (next' t op))
    (hStep : ∀ s op, inv (abs s) → allowed s op →
      abs (next s op) = next' (abs s) (opOf s op) ∧ allowed' (abs s) (opOf s op))
    (hInit : inv (abs s)) (hOps : Admissible next allowed s ops) :
    abs (run next s ops) = run next' (abs s) (translate next opOf s ops) ∧
      Admissible next' allowed' (abs s) (translate next opOf s ops) := by
  induction ops generalizing s with
  | nil => exact ⟨rfl, trivial⟩
  | cons op rest ih =>
    obtain ⟨hNext, hAllowed⟩ := hStep s op hInit hOps.1
    have hInv' : inv (abs (next s op)) := by
      rw [hNext]
      exact hInv _ _ hInit hAllowed
    obtain ⟨hRun, hAdmissible⟩ := ih hInv' hOps.2
    rw [hNext] at hRun hAdmissible
    exact ⟨hRun, hAllowed, hAdmissible⟩

end Simulation

end RustyRuntime.Library
