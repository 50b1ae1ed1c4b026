import RustyRuntime.Library.SortByKey

/-!
# Statements over a table

A table is a list of rows. A condition on a row is true, false or unknown: a comparison with
NULL is unknown, and the connectives follow Kleene. A statement acts on the rows where its
condition is true, so `holds` is all that the rest of a proof sees of a condition, and the
simp set pushes it through the connectives.
-/

namespace RustyRuntime.Library

/-- The value of a condition. -/
inductive Truth where
  | yes
  | no
  | unknown
  deriving DecidableEq, Repr

namespace Truth

variable {α : Type}

def ofBool : Bool → Truth
  | true => yes
  | false => no

def and : Truth → Truth → Truth
  | no, _ => no
  | _, no => no
  | yes, yes => yes
  | _, _ => unknown

def or : Truth → Truth → Truth
  | yes, _ => yes
  | _, yes => yes
  | no, no => no
  | _, _ => unknown

def not : Truth → Truth
  | yes => no
  | no => yes
  | unknown => unknown

/-- A comparison of two nullable values. -/
def compare (relation : α → α → Bool) : Option α → Option α → Truth
  | some a, some b => ofBool (relation a b)
  | _, _ => unknown

variable (value : Option α)

def isNotNull : Truth := ofBool value.isSome

/-- A statement acts on a row where its condition is true. -/
def holds : Truth → Bool
  | yes => true
  | _ => false

@[simp] theorem holds_ofBool (b : Bool) : (ofBool b).holds = b := by
  cases b <;> rfl

@[simp] theorem holds_and (a b : Truth) : (a.and b).holds = (a.holds && b.holds) := by
  cases a <;> cases b <;> rfl

@[simp] theorem holds_or (a b : Truth) : (a.or b).holds = (a.holds || b.holds) := by
  cases a <;> cases b <;> rfl

@[simp] theorem holds_isNotNull : (isNotNull value).holds = value.isSome :=
  holds_ofBool _

end Truth

/-! ## Statements -/

namespace Sql

variable {ρ κ : Type}

/-- `UPDATE … SET … WHERE …`. -/
def update (table : List ρ) (condition : ρ → Truth) (set : ρ → ρ) : List ρ :=
  table.map fun row => if (condition row).holds then set row else row

/-- `SELECT … WHERE …`. -/
def select (table : List ρ) (condition : ρ → Truth) : List ρ :=
  table.filter fun row => (condition row).holds

end Sql

end RustyRuntime.Library
