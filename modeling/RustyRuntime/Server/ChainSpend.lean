import RustyRuntime.Json
import RustyRuntime.Library.Run

/-!
# The ledger of a chain

`chain_spend.rs`: a run that ends adds what it spent to the ledger of its chain, by a read and a
write that are two operations of the store. Two runs that end at one time can read the same ledger,
and the later write drops what the earlier one added. A read that fails counts as an empty ledger.

`ledger_sums`: as long as each run writes on top of what it read, the ledger is the sum.
-/

namespace RustyRuntime

open Library

structure ChainSpend where
  spentTokens : UInt64 := 0
  runs : UInt64 := 0
  deriving DecidableEq

/-- What `note_run_end` is given. -/
structure RunEnd where
  runId : String
  metadata : Option Json
  terminal : Json

namespace RunEnd

def root (e : RunEnd) : Option String :=
  ((e.metadata.bind (Json.get "chain")).bind (Json.get "root_run_id")).bind Json.asStr

def tokens (e : RunEnd) : UInt64 :=
  (((e.terminal.get "spend").bind (Json.get "tokens")).bind Json.asU64).getD 0

end RunEnd

/-- The ledgers by root, and what each run that is ending has read. -/
structure Ledgers where
  kept : String → ChainSpend := fun _ => {}
  held : String → ChainSpend := fun _ => {}

/-- The two store operations of `note_run_end`; either may fail. -/
inductive EndStep where
  | read (e : RunEnd) (fails : Bool)
  | write (e : RunEnd) (fails : Bool)

namespace Ledgers

def next (s : Ledgers) : EndStep → Ledgers
  | .read e fails =>
    match e.root with
    | none => s
    | some root =>
      { s with held := Function.update s.held e.runId (if fails then {} else s.kept root) }
  | .write e fails =>
    match e.root with
    | none => s
    | some root =>
      let spend := s.held e.runId
      if fails then s
      else
        { s with
          kept := Function.update s.kept root ⟨spend.spentTokens + e.tokens, spend.runs + 1⟩ }

/-- A write succeeds, what its run read is still the ledger, and the counters have room. -/
def onTop (s : Ledgers) : EndStep → Prop
  | .read _ _ => True
  | .write e fails => ∀ root, e.root = some root →
    fails = false ∧ s.held e.runId = s.kept root ∧
      (s.kept root).spentTokens.toNat + e.tokens.toNat < 2 ^ 64 ∧
      (s.kept root).runs.toNat + 1 < 2 ^ 64

/-- The runs of a chain that have ended. -/
def ended (root : String) : List EndStep → List RunEnd
  | [] => []
  | .write e _ :: rest => if e.root = some root then e :: ended root rest else ended root rest
  | .read _ _ :: rest => ended root rest

theorem kept_next_read (s : Ledgers) (e : RunEnd) (fails : Bool) :
    (s.next (.read e fails)).kept = s.kept := by
  simp only [next]
  split <;> rfl

theorem kept_next_write {s : Ledgers} {e : RunEnd} {fails : Bool} (h : s.onTop (.write e fails))
    (root : String) :
    let spend := (s.next (.write e fails)).kept root
    let own := e.root = some root
    spend.spentTokens.toNat =
        (s.kept root).spentTokens.toNat + (if own then e.tokens.toNat else 0) ∧
      spend.runs.toNat = (s.kept root).runs.toNat + (if own then 1 else 0) := by
  simp only [next]
  cases hRoot : e.root with
  | none => simp
  | some chain =>
    obtain ⟨rfl, hHeld, hTokens, hRuns⟩ := h chain hRoot
    by_cases hSame : chain = root
    · subst hSame
      simp only [Bool.false_eq_true, if_false, Function.update_self, if_true, hHeld,
        UInt64.toNat_add]
      exact ⟨Nat.mod_eq_of_lt hTokens, Nat.mod_eq_of_lt hRuns⟩
    · have hNot : some chain ≠ some root := fun h => hSame (Option.some.inj h)
      simp [Function.update_of_ne (Ne.symm hSame), hNot]

theorem kept_run {steps : List EndStep} {s : Ledgers} (h : Admissible next onTop s steps)
    (root : String) :
    let spend := (run next s steps).kept root
    spend.spentTokens.toNat = (s.kept root).spentTokens.toNat +
        ((ended root steps).map fun e => e.tokens.toNat).sum ∧
      spend.runs.toNat = (s.kept root).runs.toNat + (ended root steps).length := by
  induction steps generalizing s with
  | nil => simp [run, ended]
  | cons step rest ih =>
    obtain ⟨hTokens, hRuns⟩ := ih h.2
    simp only [run, List.foldl_cons] at hTokens hRuns ⊢
    rw [hTokens, hRuns]
    cases step with
    | read e fails => exact ⟨by rw [kept_next_read]; rfl, by rw [kept_next_read]; rfl⟩
    | write e fails =>
      obtain ⟨hStep, hCount⟩ := kept_next_write h.1 root
      rw [hStep, hCount, ended]
      split
      · simp only [List.map_cons, List.sum_cons, List.length_cons]
        omega
      · exact ⟨rfl, rfl⟩

/-- **The ledger is the sum** over the runs of the chain that ended, and their number, after any
interleaving in which every run writes on top of what it read. -/
theorem ledger_sums {steps : List EndStep} (hSteps : Admissible next onTop {} steps)
    (root : String) :
    let spend := (run next {} steps).kept root
    spend.spentTokens.toNat = ((ended root steps).map fun e => e.tokens.toNat).sum ∧
      spend.runs.toNat = (ended root steps).length := by
  obtain ⟨hTokens, hRuns⟩ := kept_run hSteps root
  exact ⟨hTokens.trans (Nat.zero_add _), hRuns.trans (Nat.zero_add _)⟩

end Ledgers

/-- A run of the chain `"r"` that spent so many tokens. -/
def endOf (runId : String) (tokens : UInt64) : RunEnd where
  runId := runId
  metadata := some (.obj [("chain", .obj [("root_run_id", .str "r")])])
  terminal := .obj [("spend", .obj [("tokens", .num (.posInt tokens))])]

theorem ledger_sums_in_turn :
    let steps := [.read (endOf "a" 5) false, .write (endOf "a" 5) false,
      .read (endOf "b" 3) false, .write (endOf "b" 3) false]
    Admissible Ledgers.next Ledgers.onTop {} steps ∧
      ((run Ledgers.next {} steps).kept "r").runs.toNat = 2 := by
  have hSteps : Admissible Ledgers.next Ledgers.onTop {}
      [.read (endOf "a" 5) false, .write (endOf "a" 5) false, .read (endOf "b" 3) false,
        .write (endOf "b" 3) false] := by
    refine ⟨trivial, ?_, trivial, ?_, trivial⟩ <;> rintro _ ⟨⟩ <;> decide
  exact ⟨hSteps, (Ledgers.ledger_sums hSteps "r").2⟩

/-- Both runs read before either writes. -/
theorem ledger_loses_run :
    let steps := [.read (endOf "a" 5) false, .read (endOf "b" 3) false,
      .write (endOf "a" 5) false, .write (endOf "b" 3) false]
    (Ledgers.ended "r" steps).map (·.tokens) = [5, 3] ∧
      (run Ledgers.next {} steps).kept "r" = ⟨3, 1⟩ := by
  decide

end RustyRuntime
