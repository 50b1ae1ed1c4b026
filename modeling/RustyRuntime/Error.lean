import RustyRuntime.Json

/-!
# Errors

`RustyError`, the error type of the core crate. The variants whose payload no modelled
function inspects (plugin, doctor, catalog, transport and gap failures) are kept as
`other` with the text they display.
-/

namespace RustyRuntime

inductive RustyError where
  | graph (text : String)
  | node (text : String)
  | budget (text : String)
  | interrupt (value : Json)
  | checkpoint (text : String)
  | llm (text : String)
  | tool (text : String)
  | replay (text : String)
  | serialization (text : String)
  | invalidUpdate (text : String)
  | cancelled (text : String)
  | other (text : String)
  deriving DecidableEq, Inhabited

namespace RustyError

/-- The `Display` text. -/
def display : RustyError → String
  | .graph text => s!"graph error: {text}"
  | .node text => s!"node error: {text}"
  | .budget text => s!"budget exhausted: {text}"
  | .interrupt _ => "graph interrupted"
  | .checkpoint text => s!"checkpoint error: {text}"
  | .llm text => s!"llm error: {text}"
  | .tool text => s!"tool error: {text}"
  | .replay text => s!"replay error: {text}"
  | .serialization text => s!"serialization error: {text}"
  | .invalidUpdate text => s!"invalid state update: {text}"
  | .cancelled text => s!"run cancelled: {text}"
  | .other text => text

end RustyError

/-- The crate-wide `Result`. -/
abbrev Result (α : Type) := Except RustyError α

variable {ε α β : Type} {x : Except ε α}

theorem bind_eq_ok {f : α → Except ε β} {b : β} :
    x >>= f = .ok b ↔ ∃ a, x = .ok a ∧ f a = .ok b := by
  cases x with
  | error e | ok a => simp [bind, Except.bind]

theorem mapError_eq_ok {ε' : Type} {f : ε → ε'} {a : α} : x.mapError f = .ok a ↔ x = .ok a := by
  cases x with
  | error e | ok b => simp [Except.mapError]

theorem forM_eq_ok_iff {check : α → Except ε Unit} {xs : List α} :
    xs.forM check = .ok () ↔ ∀ x ∈ xs, check x = .ok () := by
  induction xs with
  | nil => simp [pure, Except.pure]
  | cons x rest ih =>
    rw [List.forM_eq_forM, List.forM_cons, ← List.forM_eq_forM, List.forall_mem_cons]
    cases hCheck : check x with
    | error e => simp [bind, Except.bind]
    | ok u => simpa [bind, Except.bind] using ih

theorem Result.toOption_foldlM {step : β → α → Result β} {good : α → Prop} [DecidablePred good]
    {next : β → α → β} (h : ∀ b x, (step b x).toOption = if good x then some (next b x) else none)
    (xs : List α) (b : β) :
    (xs.foldlM step b).toOption =
      if ∀ x ∈ xs, good x then some (xs.foldl next b) else none := by
  induction xs generalizing b with
  | nil => rfl
  | cons x rest ih =>
    have hStep := h b x
    rw [List.foldlM_cons]
    by_cases hGood : good x
    · rw [if_pos hGood] at hStep
      cases hResult : step b x with
      | error e =>
        rw [hResult] at hStep
        cases hStep
      | ok b' =>
        rw [hResult] at hStep
        cases hStep
        simpa [bind, Except.bind, hGood] using ih (next b x)
    · rw [if_neg hGood] at hStep
      cases hResult : step b x with
      | ok b' =>
        rw [hResult] at hStep
        cases hStep
      | error e => simp [bind, Except.bind, hGood, Except.toOption]

end RustyRuntime
