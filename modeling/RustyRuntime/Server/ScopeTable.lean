import RustyRuntime.Egress.Policy

/-!
# The scope a request needs

`ScopeTable` of `scope.rs`: routes with parameters and catch-alls, and the lookup of the scope that
a request needs. A declaration whose path is the request's own wins; among the others the first
one that covers the request does, the platform's own before those of adapters
(`requiredScope_spec`). How literal a pattern with parameters is plays no part
(`earlier_pattern_wins`).
-/

namespace RustyRuntime

open Library

def toAsciiUppercase (s : String) : String := String.ofList (s.toList.map Char.toUpper)

structure RoutePattern where
  method : String
  path : String
  deriving DecidableEq

/-- The method is kept in upper case. -/
def RoutePattern.new (method path : String) : RoutePattern := ⟨toAsciiUppercase method, path⟩

/-! ## Matching a path -/

/-- `inner` of `path_matches`: a segment without its braces. -/
def innerSegment (segment : List Char) : List Char :=
  match segment with
  | '\x7b' :: rest => if rest.getLast? = some '\x7d' then rest.dropLast else segment
  | _ => segment

def isCatchAll (segment : String) : Bool := (innerSegment segment.toList).head? = some '*'

def isParam (segment : String) : Bool :=
  segment.toList.head? = some ':' ||
    (segment.toList.head? = some '\x7b' && segment.toList.getLast? = some '\x7d') ||
    isCatchAll segment

def segmentsMatch : List String → List String → Bool
  | [], actual => actual.isEmpty
  | d :: declared, actual =>
    if isCatchAll d then actual.any fun a => !a.isEmpty
    else
      match actual with
      | [] => false
      | a :: rest =>
        (if isParam d then !a.isEmpty else decide (d = a)) && segmentsMatch declared rest

def RoutePattern.pathMatches (pattern path : String) : Bool :=
  segmentsMatch (segments pattern) (segments path)

/-! ## The table -/

/-- The routes declared by the platform, and those of mounted adapters with the adapter's name. -/
structure ScopeTable (S : Type) where
  direct : List (RoutePattern × S) := []
  mounted : List (RoutePattern × S × String) := []

section Lookup

variable {S : Type}

section

variable (t : ScopeTable S) (method path : String) (p : RoutePattern)

def RoutePattern.isExact : Bool :=
  p.method = toAsciiUppercase method && p.path = path

def RoutePattern.covers : Bool :=
  p.method = toAsciiUppercase method && pathMatches p.path path

def ScopeTable.requiredScope : Option S :=
  (((t.direct.find? fun e => e.1.isExact method path).map (·.2)).or
    ((t.mounted.find? fun e => e.1.isExact method path).map (·.2.1))).or
  (((t.direct.find? fun e => e.1.covers method path).map (·.2)).or
    ((t.mounted.find? fun e => e.1.covers method path).map (·.2.1)))

/-- All declarations, in the order of the census. -/
def ScopeTable.entries : List (RoutePattern × S) :=
  t.direct ++ t.mounted.map fun e => (e.1, e.2.1)

theorem find?_entries (test : RoutePattern → Bool) :
    (t.entries.find? fun e => test e.1).map (·.2) =
      ((t.direct.find? fun e => test e.1).map (·.2)).or
        ((t.mounted.find? fun e => test e.1).map (·.2.1)) := by
  rw [ScopeTable.entries, List.find?_append, List.find?_map, Option.map_or, Option.map_map]
  rfl

theorem requiredScope_eq :
    t.requiredScope method path =
      ((t.entries.find? fun e => e.1.isExact method path).map (·.2)).or
        ((t.entries.find? fun e => e.1.covers method path).map (·.2)) := by
  rw [find?_entries, find?_entries]
  rfl

end

theorem ne_empty_of_isParam {segment : String} (h : isParam segment) : segment.isEmpty = false := by
  rw [Bool.eq_false_iff, Ne, String.isEmpty_iff]
  rintro rfl
  exact absurd h (by decide)

theorem segmentsMatch_self (declared : List String) : segmentsMatch declared declared := by
  induction declared with
  | nil => rfl
  | cons d declared ih =>
    cases hParam : isParam d with
    | false =>
      have hCatch : isCatchAll d = false := (Bool.or_eq_false_iff.mp hParam).2
      simp [segmentsMatch, hCatch, hParam, ih]
    | true => simp [segmentsMatch, hParam, ne_empty_of_isParam hParam, ih]

theorem RoutePattern.covers_of_isExact {p : RoutePattern} {method path : String}
    (h : p.isExact method path) : p.covers method path := by
  obtain ⟨hMethod, hPath⟩ := (Bool.and_eq_true_iff).mp h
  rw [covers, hMethod, ← of_decide_eq_true hPath, pathMatches, segmentsMatch_self]
  rfl

theorem segmentsMatch_of_literal {declared actual : List String}
    (hLiteral : ∀ d ∈ declared, isParam d = false) :
    segmentsMatch declared actual = decide (declared = actual) := by
  induction declared generalizing actual with
  | nil => cases actual <;> simp [segmentsMatch]
  | cons d declared ih =>
    have hParam := hLiteral d List.mem_cons_self
    have hCatch : isCatchAll d = false := (Bool.or_eq_false_iff.mp hParam).2
    have hRest := fun actual => @ih actual fun d hD =>
      hLiteral d (List.mem_cons_of_mem _ hD)
    cases actual with
    | nil => simp [segmentsMatch, hCatch]
    | cons a rest => simp [segmentsMatch, hCatch, hParam, hRest]

/-- **The scope a request needs.** It is absent exactly when no declaration covers the request. It
is that of the first declaration whose path is the request's own, if there is one, and of the first
one that covers the request otherwise. A declaration without parameters covers nothing but its own
path, so it wins over every one with parameters. -/
theorem requiredScope_spec (t : ScopeTable S) (method path : String) :
    (t.requiredScope method path = none ↔ ∀ e ∈ t.entries, e.1.covers method path = false) ∧
    (∀ e ∈ t.entries, e.1.isExact method path →
      t.requiredScope method path =
        (t.entries.find? fun e => e.1.isExact method path).map (·.2)) ∧
    ((∀ e ∈ t.entries, e.1.isExact method path = false) →
      t.requiredScope method path =
        (t.entries.find? fun e => e.1.covers method path).map (·.2)) ∧
    ∀ p : RoutePattern, (∀ segment ∈ segments p.path, isParam segment = false) →
      p.covers method path → segments p.path = segments path := by
  rw [requiredScope_eq]
  refine ⟨?_, ?_, ?_, ?_⟩
  · simp only [Option.or_eq_none_iff, Option.map_eq_none_iff, List.find?_eq_none,
      Bool.not_eq_true, and_iff_right_iff_imp]
    intro hNone e hIn
    exact Bool.eq_false_iff.mpr fun hExact =>
      absurd (RoutePattern.covers_of_isExact hExact) (by simp [hNone e hIn])
  · intro e hIn hExact
    have hSome : (t.entries.find? fun e => e.1.isExact method path).isSome :=
      List.find?_isSome.mpr ⟨e, hIn, hExact⟩
    obtain ⟨found, hFound⟩ := Option.isSome_iff_exists.mp hSome
    rw [hFound]
    rfl
  · intro hNone
    rw [List.find?_eq_none.mpr fun e hIn => by simp [hNone e hIn]]
    rfl
  · intro p hLiteral hCovers
    rw [RoutePattern.covers, RoutePattern.pathMatches, segmentsMatch_of_literal hLiteral,
      Bool.and_eq_true] at hCovers
    exact of_decide_eq_true hCovers.2

/-- Two declarations cover the request; the later one has a literal where the earlier one has a
parameter. -/
theorem earlier_pattern_wins :
    let table : ScopeTable String :=
      { direct := [(.new "get" "/threads/:id/:part", "threads:read"),
        (.new "get" "/threads/:id/state", "threads:admin")] }
    (∀ e ∈ table.entries, e.1.covers "GET" "/threads/t/state") ∧
      table.requiredScope "GET" "/threads/t/state" = some "threads:read" := by
  decide +kernel

end Lookup

end RustyRuntime
