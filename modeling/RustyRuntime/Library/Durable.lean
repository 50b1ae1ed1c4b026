import Mathlib

/-!
# Computations whose writes may fail

A computation over a store makes its durable writes one after the other, and any of them may
fail or be the last before a crash. `Durable` gives a computation the number of writes that
still succeed; the next one ends it with an error, and what was written before stays. The
states that a computation can leave behind are thus its results for all numbers of writes.

`Reaches` says that a computation moves the store along a relation, one write at a time. Its
rules follow the computation: `Reaches.bind`, `reaches_get_bind`, `reaches_write`,
`reaches_each`. `Ensures` gives a computation a condition for wherever it is cut and a
postcondition for when it ends (`Ensures.bind`, `ensures_each`). `FailsDry` says that it ends with
an answer unless a write fails, and `Leaves` what it leaves behind in that case.
-/

namespace RustyRuntime.Library

/-- A computation over a store `σ`, given the number of writes that succeed. -/
def Durable (σ ε α : Type) := Nat → σ → Except ε α × Nat × σ

namespace Durable

variable {σ ε α β : Type}

instance : Monad (Durable σ ε) where
  pure a := fun writes s => (.ok a, writes, s)
  bind m f := fun writes s =>
    match m writes s with
    | (.ok a, writes, s) => f a writes s
    | (.error e, writes, s) => (.error e, writes, s)

def get : Durable σ ε σ := fun writes s => (.ok s, writes, s)

def fail (e : ε) : Durable σ ε α := fun writes s => (.error e, writes, s)

/-- A change of the store in memory, which cannot fail. -/
def modify (f : σ → σ) : Durable σ ε Unit := fun writes s => (.ok (), writes, f s)

def write (e : ε) (f : σ → σ) : Durable σ ε Unit
  | 0, s => (.error e, 0, s)
  | writes + 1, s => (.ok (), writes, f s)

/-- A loop over a list that collects its results. -/
def collect (f : α → Durable σ ε β) : List α → Durable σ ε (List β)
  | [] => pure []
  | a :: rest => do
    let b ← f a
    let bs ← collect f rest
    return b :: bs

/-- A loop over a list. -/
def each (f : α → Durable σ ε Unit) : List α → Durable σ ε Unit
  | [] => pure ()
  | a :: rest => do
    f a
    each f rest

section

variable (m : Durable σ ε α)

variable (f : α → β) (writes : Nat) (s : σ)

/-- The store that a computation leaves behind. -/
def state : σ := (m writes s).2.2

def answer : Except ε α := (m writes s).1

theorem bind_apply (f : α → Durable σ ε β) (writes : Nat) (s : σ) :
    (m >>= f) writes s = match m writes s with
      | (.ok a, writes, s) => f a writes s
      | (.error e, writes, s) => (.error e, writes, s) := rfl

@[simp] theorem pure_apply (a : α) (writes : Nat) (s : σ) :
    (pure a : Durable σ ε α) writes s = (.ok a, writes, s) := rfl

@[simp] theorem get_bind (f : σ → Durable σ ε β) (writes : Nat) (s : σ) :
    (get >>= f) writes s = f s writes s := rfl

@[simp] theorem state_bind_pure :
    (m >>= fun a => pure (f a)).state writes s = m.state writes s := by
  simp only [state, bind_apply]
  generalize m writes s = out
  obtain ⟨answer, writes', s'⟩ := out
  cases answer <;> rfl

theorem answer_bind_pure :
    (m >>= fun a => pure (f a)).answer writes s = (m.answer writes s).map f := by
  simp only [answer, bind_apply]
  generalize m writes s = out
  obtain ⟨answer, writes', s'⟩ := out
  cases answer <;> rfl

end

/-! ## Moving along a relation -/

def Reaches (step : σ → σ → Prop) (m : Durable σ ε α) (s : σ) : Prop :=
  ∀ writes, Relation.ReflTransGen step s (m.state writes s)

variable {step : σ → σ → Prop} {s : σ}

theorem reaches_pure (a : α) : Reaches step (pure a : Durable σ ε α) s :=
  fun _ => .refl

theorem reaches_write {e : ε} {f : σ → σ} (h : step s (f s)) : Reaches step (write e f) s := by
  intro writes
  cases writes with
  | zero => exact .refl
  | succ writes => exact .single h

variable {m : Durable σ ε α} {f : α → Durable σ ε Unit} {xs : List α}

theorem Reaches.bind {f : α → Durable σ ε β} (hFirst : Reaches step m s)
    (hThen : ∀ writes a writes' s', m writes s = (.ok a, writes', s') → Reaches step (f a) s') :
    Reaches step (m >>= f) s := by
  intro writes
  have hMoved := hFirst writes
  simp only [state, bind_apply] at hMoved ⊢
  generalize hRun : m writes s = out at hMoved ⊢
  obtain ⟨answer, writes', s'⟩ := out
  cases answer with
  | error e => exact hMoved
  | ok a => exact hMoved.trans (hThen writes a writes' s' hRun writes')

theorem Reaches.bind_pure (h : Reaches step m s) (f : α → β) :
    Reaches step (m >>= fun a => pure (f a)) s := by
  intro writes
  rw [state_bind_pure]
  exact h writes

theorem reaches_get_bind {f : σ → Durable σ ε β} (h : Reaches step (f s) s) :
    Reaches step (get >>= f) s :=
  fun writes => h writes

/-- **The loop rule.** What holds of the rest of the list before a round holds of what is left
after it. -/
theorem reaches_each (inv : List α → σ → Prop)
    (hRound : ∀ a rest s, inv (a :: rest) s → Reaches step (f a) s ∧
      ∀ writes writes' s', f a writes s = (.ok (), writes', s') → inv rest s') (h : inv xs s) :
    Reaches step (each f xs) s := by
  induction xs generalizing s with
  | nil => exact reaches_pure ()
  | cons a rest ih =>
    obtain ⟨hFirst, hLeft⟩ := hRound a rest s h
    refine hFirst.bind ?_
    rintro writes ⟨⟩ writes' s' hRun
    exact ih (hLeft writes writes' s' hRun)

theorem each_ok (inv : List α → σ → Prop) (hRound : ∀ a rest s, inv (a :: rest) s →
      ∀ writes writes' s', f a writes s = (.ok (), writes', s') → inv rest s') (h : inv xs s)
    {writes writes' : Nat} {s' : σ} (hRun : each f xs writes s = (.ok (), writes', s')) :
    inv [] s' := by
  induction xs generalizing s writes with
  | nil =>
    cases hRun
    exact h
  | cons a rest ih =>
    rw [each, bind_apply] at hRun
    generalize hFirst : f a writes s = out at hRun
    obtain ⟨answer, writes'', s''⟩ := out
    cases answer with
    | error e => cases hRun
    | ok _ => exact ih (hRound a rest s h writes writes'' s'' hFirst) hRun

theorem each_total (hRound : ∀ a s writes, ∃ writes' s',
      f a (writes + 1) s = (.ok (), writes', s') ∧ writes ≤ writes') (xs : List α) (s : σ)
    (writes : Nat) (hWrites : xs.length ≤ writes) :
    ∃ writes' s', each f xs writes s = (.ok (), writes', s') ∧ writes ≤ writes' + xs.length := by
  induction xs generalizing s writes with
  | nil => exact ⟨writes, s, rfl, Nat.le_refl _⟩
  | cons a rest ih =>
    rw [List.length_cons] at hWrites
    obtain ⟨left, rfl⟩ : ∃ left, writes = left + 1 := ⟨writes - 1, by omega⟩
    obtain ⟨writes', s', hFirst, hLeft⟩ := hRound a s left
    obtain ⟨writes'', s'', hRest, hUsed⟩ := ih s' writes' (by omega)
    refine ⟨writes'', s'', ?_, ?_⟩
    · rw [each, bind_apply, hFirst]
      exact hRest
    · rw [List.length_cons]
      omega

theorem reaches_collect {f : α → Durable σ ε β} (inv : List α → σ → Prop)
    (hRound : ∀ a rest s, inv (a :: rest) s → Reaches step (f a) s ∧
      ∀ writes b writes' s', f a writes s = (.ok b, writes', s') → inv rest s') (h : inv xs s) :
    Reaches step (collect f xs) s := by
  induction xs generalizing s with
  | nil => exact reaches_pure []
  | cons a rest ih =>
    obtain ⟨hFirst, hLeft⟩ := hRound a rest s h
    refine hFirst.bind ?_
    intro writes b writes' s' hRun
    exact (ih (hLeft writes b writes' s' hRun)).bind_pure _

/-! ## Cut and ended computations -/

/-- Wherever the computation is cut its store satisfies `cut`, and if it ends with an answer they
satisfy `post`. -/
def Ensures (m : Durable σ ε α) (s : σ) (cut : σ → Prop) (post : α → σ → Prop) : Prop :=
  ∀ writes answer writes' s', m writes s = (answer, writes', s') →
    cut s' ∧ ∀ a, answer = .ok a → post a s'

section Ensures

variable {cut : σ → Prop} {post : α → σ → Prop}

theorem ensures_pure {a : α} (hCut : cut s) (hPost : post a s) :
    Ensures (pure a : Durable σ ε α) s cut post := by
  rintro writes answer writes' s' ⟨⟩
  refine ⟨hCut, ?_⟩
  rintro _ ⟨⟩
  exact hPost

theorem ensures_fail (e : ε) (hCut : cut s) : Ensures (fail e : Durable σ ε α) s cut post := by
  rintro writes answer writes' s' ⟨⟩
  exact ⟨hCut, nofun⟩

theorem ensures_write (e : ε) {f : σ → σ} {post : Unit → σ → Prop} (hBefore : cut s)
    (hAfter : cut (f s)) (hPost : post () (f s)) : Ensures (write e f) s cut post := by
  intro writes answer writes' s' hRun
  cases writes with
  | zero =>
    cases hRun
    exact ⟨hBefore, nofun⟩
  | succ writes =>
    cases hRun
    exact ⟨hAfter, fun _ _ => hPost⟩

theorem ensures_get_bind {f : σ → Durable σ ε α} (h : Ensures (f s) s cut post) :
    Ensures (get >>= f) s cut post :=
  fun writes => h writes

theorem Ensures.bind {m : Durable σ ε β} {f : β → Durable σ ε α} {mid : β → σ → Prop}
    (hFirst : Ensures m s cut mid)
    (hThen : ∀ b s', cut s' → mid b s' → Ensures (f b) s' cut post) :
    Ensures (m >>= f) s cut post := by
  intro writes answer writes' s' hRun
  rw [bind_apply] at hRun
  generalize hMid : m writes s = out at hRun
  obtain ⟨first, writes'', s''⟩ := out
  obtain ⟨hCut, hMid⟩ := hFirst writes first writes'' s'' hMid
  cases first with
  | error e =>
    cases hRun
    exact ⟨hCut, nofun⟩
  | ok b => exact hThen b s'' hCut (hMid b rfl) _ _ _ _ hRun

/-- **The loop rule.** -/
theorem ensures_each {f : β → Durable σ ε Unit} {xs : List β} {inv : σ → Prop}
    (hRound : ∀ b ∈ xs, ∀ s, inv s → Ensures (f b) s inv fun _ _ => True) (h : inv s) :
    Ensures (each f xs) s inv fun _ _ => True := by
  induction xs generalizing s with
  | nil => exact ensures_pure h trivial
  | cons b rest ih =>
    refine (hRound b List.mem_cons_self s h).bind fun _ s' hInv _ => ?_
    exact ih (fun other hOther => hRound other (List.mem_cons_of_mem _ hOther)) hInv

theorem Ensures.mono {m : Durable σ ε α} {cut' : σ → Prop} {post' : α → σ → Prop}
    (h : Ensures m s cut post) (hCut : ∀ s', cut s' → cut' s')
    (hPost : ∀ a s', cut s' → post a s' → post' a s') : Ensures m s cut' post' := by
  intro writes answer writes' s' hRun
  obtain ⟨hAt, hEnd⟩ := h writes answer writes' s' hRun
  exact ⟨hCut s' hAt, fun a hA => hPost a s' hAt (hEnd a hA)⟩

end Ensures

/-- The computation ends with an answer unless one of its writes fails. -/
def FailsDry (m : Durable σ ε α) : Prop :=
  ∀ writes s e writes' s', m writes s = (.error e, writes', s') → writes' = 0

theorem failsDry_pure (a : α) : FailsDry (pure a : Durable σ ε α) := by
  rintro writes s e writes' s' ⟨⟩

theorem failsDry_write (e : ε) (f : σ → σ) : FailsDry (write e f) := by
  intro writes s e' writes' s' hRun
  cases writes with
  | zero =>
    cases hRun
    rfl
  | succ writes => cases hRun

theorem FailsDry.bind {f : α → Durable σ ε β} (hFirst : FailsDry m) (hThen : ∀ a, FailsDry (f a)) :
    FailsDry (m >>= f) := by
  intro writes s e writes' s' hRun
  rw [bind_apply] at hRun
  generalize hMid : m writes s = out at hRun
  obtain ⟨first, writes'', s''⟩ := out
  cases first with
  | error e =>
    cases hRun
    exact hFirst _ _ _ _ _ hMid
  | ok a => exact hThen a _ _ _ _ _ hRun

theorem failsDry_get_bind {f : σ → Durable σ ε α} (h : ∀ s, FailsDry (f s)) :
    FailsDry (get >>= f) :=
  fun writes s => h s writes s

theorem failsDry_each (h : ∀ a, FailsDry (f a)) (xs : List α) : FailsDry (each f xs) := by
  induction xs with
  | nil => exact failsDry_pure ()
  | cons a rest ih => exact (h a).bind fun _ => ih

/-- Unless one of its writes fails, the computation leaves a store with the property, whatever it
answers. -/
def Leaves (m : Durable σ ε α) (s : σ) (final : σ → Prop) : Prop :=
  ∀ writes, (m writes s).2.1 ≠ 0 → final (m.state writes s)

section Leaves

variable {final : σ → Prop}

theorem leaves_pure (a : α) (h : final s) : Leaves (pure a : Durable σ ε α) s final :=
  fun _ _ => h

theorem leaves_fail (e : ε) (h : final s) : Leaves (fail e : Durable σ ε α) s final :=
  fun _ _ => h

theorem leaves_get_bind {f : σ → Durable σ ε α} (h : Leaves (f s) s final) :
    Leaves (get >>= f) s final :=
  fun writes => h writes

theorem FailsDry.leaves {m : Durable σ ε α} (hDry : FailsDry m)
    (h : Ensures m s (fun _ => True) fun _ s' => final s') : Leaves m s final := by
  intro writes hLeft
  rw [state]
  generalize hRun : m writes s = out at hLeft ⊢
  obtain ⟨answer, writes', s'⟩ := out
  cases answer with
  | error e => exact absurd (hDry _ _ _ _ _ hRun) hLeft
  | ok a => exact (h _ _ _ _ hRun).2 a rfl

theorem Ensures.leaves_bind {m : Durable σ ε β} {f : β → Durable σ ε α} {mid : β → σ → Prop}
    (hFirst : Ensures m s final mid) (hThen : ∀ b s', mid b s' → Leaves (f b) s' final) :
    Leaves (m >>= f) s final := by
  intro writes hLeft
  rw [state]
  rw [bind_apply] at hLeft ⊢
  generalize hMid : m writes s = out at hLeft ⊢
  obtain ⟨first, writes', s'⟩ := out
  obtain ⟨hCut, hPost⟩ := hFirst _ _ _ _ hMid
  cases first with
  | error e => exact hCut
  | ok b => exact hThen b s' (hPost b rfl) _ hLeft

end Leaves

end Durable

end RustyRuntime.Library
