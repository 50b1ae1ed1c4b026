import RustyRuntime.Journal.Event

/-!
# The retry policy

`durable.rs`: what the queue does with a failed attempt. The gates stand in a fixed order:
the declared effect, the error class, the attempt budget. A learned policy tunes the numbers
of the backoff schedule and may narrow the budget of a task, never widen it
(`resolveRetryParameters_le`).

The jitter sample comes from the operating system. It enters as the function that draws a
delay from a window, `(uniform.clamp(0.0, 1.0) * window as f64) as u64`.
-/

namespace RustyRuntime

def Effect.isFreelyRepeatable : Effect → Bool
  | .pure => true
  | .readOnly => true
  | .idempotent => true
  | .compensatable => false
  | .nonIdempotent => false

inductive ErrorClass where
  | transient
  | rateLimited
  | timeout
  | invalidInput
  | dependencyFailure
  | resourceExhausted
  | cancelled
  | unknown
  deriving DecidableEq, Repr

def ErrorClass.isRetryable : ErrorClass → Bool
  | .invalidInput => false
  | .cancelled => false
  | _ => true

/-! ## Policies -/

def baseRetryDelayMs : Nat := 1000

def maxRetryDelayMs : Nat := 300000

def policyMaxDelayEnvelopeMs : Nat := 3600000

def policyMaxAttemptsEnvelope : UInt32 := 10

structure BackoffParameters where
  baseDelayMs : Nat
  maxDelayMs : Nat
  maxAttempts : UInt32
  deriving DecidableEq

section

variable (schedule : BackoffParameters) (taskMaxAttempts : UInt32)

/-- `BackoffParameters::validate`, without the text of the refusal. -/
def BackoffParameters.isValid : Bool :=
  schedule.baseDelayMs ≠ 0 && schedule.baseDelayMs ≤ schedule.maxDelayMs &&
    schedule.maxDelayMs ≤ policyMaxDelayEnvelopeMs &&
    schedule.maxAttempts ≤ policyMaxAttemptsEnvelope

/-- The retry family of an `ExecutorPolicy`. -/
structure RetryPolicyParameters where
  flat : BackoffParameters
  perClass : List (ErrorClass × BackoffParameters) := []

def RetryPolicyParameters.isValid (retry : RetryPolicyParameters) : Bool :=
  retry.flat.isValid && retry.perClass.all fun entry => entry.2.isValid

/-- The retry family of `ExecutorPolicy::static_v0`. -/
def RetryPolicyParameters.staticV0 : RetryPolicyParameters :=
  { flat := ⟨baseRetryDelayMs, maxRetryDelayMs, 3⟩ }

structure ResolvedRetryParameters where
  baseDelayMs : Nat
  maxDelayMs : Nat
  maxAttempts : UInt32
  deriving DecidableEq

def ResolvedRetryParameters.floor (maxAttempts : UInt32) : ResolvedRetryParameters :=
  ⟨baseRetryDelayMs, maxRetryDelayMs, maxAttempts⟩

def BackoffParameters.narrow : ResolvedRetryParameters :=
  ⟨schedule.baseDelayMs, schedule.maxDelayMs, min schedule.maxAttempts taskMaxAttempts⟩

theorem BackoffParameters.narrow_le :
    (schedule.narrow taskMaxAttempts).maxAttempts ≤ taskMaxAttempts := by
  change (if schedule.maxAttempts ≤ taskMaxAttempts then schedule.maxAttempts
    else taskMaxAttempts) ≤ taskMaxAttempts
  split
  · next hLe => exact hLe
  · exact UInt32.le_refl taskMaxAttempts

end

def resolveRetryParameters (retry : RetryPolicyParameters) (errorClass : ErrorClass)
    (taskMaxAttempts : UInt32) : ResolvedRetryParameters :=
  if !retry.isValid then .floor taskMaxAttempts
  else
    match retry.perClass.lookup errorClass with
    | some schedule => schedule.narrow taskMaxAttempts
    | none =>
      if retry.flat ≠ RetryPolicyParameters.staticV0.flat then retry.flat.narrow taskMaxAttempts
      else .floor taskMaxAttempts

/-- **A policy never widens the budget of a task.** -/
theorem resolveRetryParameters_le (retry : RetryPolicyParameters) (errorClass : ErrorClass)
    (taskMaxAttempts : UInt32) :
    (resolveRetryParameters retry errorClass taskMaxAttempts).maxAttempts ≤ taskMaxAttempts := by
  fun_cases resolveRetryParameters retry errorClass taskMaxAttempts with
  | case1 | case4 => exact UInt32.le_refl taskMaxAttempts
  | case2 | case3 => exact BackoffParameters.narrow_le _ taskMaxAttempts

/-! ## Decisions -/

inductive RetryDecision where
  | retry (afterMs : Nat)
  | dead
  | fail
  deriving DecidableEq, Repr

def u64Max : Nat := 18446744073709551615

/-- `backoff_delay_ms_with`: the jitter draws from a doubling window. -/
def backoffDelayMsWith (attempt : UInt32) (jitter : Nat → Nat) (baseMs capMs : Nat) : Nat :=
  let exponent := min (attempt.toNat - 1) 20
  jitter (min (min (baseMs * 2 ^ exponent) u64Max) capMs)

def classifyRetryWithPolicy (effect : Effect) (errorClass : ErrorClass) (attempt : UInt32)
    (resolved : ResolvedRetryParameters) (jitter : Nat → Nat) : RetryDecision :=
  if !effect.isFreelyRepeatable || !errorClass.isRetryable then .fail
  else if resolved.maxAttempts ≤ attempt then .dead
  else .retry (backoffDelayMsWith attempt jitter resolved.baseDelayMs resolved.maxDelayMs)

/-- **A retry passed every gate.** -/
theorem classifyRetryWithPolicy_eq_retry {effect : Effect} {errorClass : ErrorClass}
    {attempt : UInt32} {resolved : ResolvedRetryParameters} {jitter : Nat → Nat} {afterMs : Nat}
    (h : classifyRetryWithPolicy effect errorClass attempt resolved jitter = .retry afterMs) :
    effect.isFreelyRepeatable = true ∧ errorClass.isRetryable = true ∧
      attempt < resolved.maxAttempts := by
  unfold classifyRetryWithPolicy at h
  split at h
  · cases h
  · next hGate =>
    split at h
    · cases h
    · next hBudget =>
      simp only [Bool.or_eq_true, Bool.not_eq_true', not_or, Bool.not_eq_false] at hGate
      exact ⟨hGate.1, hGate.2, UInt32.not_le.mp hBudget⟩

end RustyRuntime
