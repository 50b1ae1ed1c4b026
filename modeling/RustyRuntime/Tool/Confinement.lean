import RustyRuntime.Json
import RustyRuntime.Library.Index
import RustyRuntime.Library.Text

/-!
# The tools of a subagent

`confined_toolset` and `DelegateDepthGuard` of `subagent.rs`. The registry of a child is built from
a base registry, name by name, without the blocked tools and, at the depth limit, without the tools
that delegate. The guard reads the depth that a call asks for out of its arguments.

Main results (`confinement_exact`):

* **The child has no tool that it must not have**, whatever the live sources of the base registry
  provide while it is built.
* **The guard denies too deep a call** exactly when it reads the depth rightly or denies all calls:
  it keeps the low 32 bits of an unsigned number and takes every other number for 1, so that a
  depth of 2³² passes (`depth_wraps`).
-/

namespace RustyRuntime

open Library

/-! ## Registries -/

/-- What a registry reads of a `dyn Tool`; `placed` is false for an invalid placement. -/
structure OfferedTool where
  name : String
  placed : Bool := true

/-- `ToolRegistry`. A live source is asked at every read, so what the sources provide is an argument
of the reads. -/
structure ToolRegistry where
  tools : Index OfferedTool.name := .empty

namespace ToolRegistry

variable (base child : ToolRegistry) (live : List OfferedTool)

def names : List String :=
  ((live ++ base.tools.values).map OfferedTool.name).dedup.insertionSort (· ≤ ·)

def get (name : String) : Option OfferedTool :=
  (base.tools.get? name).or (live.find? (·.name = name))

/-- `register_shared`; `none` is its panic on an invalid placement. -/
def registerShared (tool : OfferedTool) : Option ToolRegistry :=
  if tool.placed then some ⟨child.tools.insert tool⟩ else none

end ToolRegistry

/-! ## The toolset of a child -/

def isDelegateTool (delegatePrefixes : List String) (tool : String) : Bool :=
  delegatePrefixes.any (startsWith · tool)

structure SubagentBlocklistGuard where
  scope : String
  blocked : List String

section Toolset

/-- The names that the loop passes over. -/
def withheld (blocklist : List String) (depth : UInt32) (maxDepth : Option UInt32)
    (delegatePrefixes : List String) (name : String) : Bool :=
  blocklist.contains name ||
    maxDepth.any fun max => max ≤ depth && isDelegateTool delegatePrefixes name

/-- A round of the loop; `live name` is what the sources provide when the name is looked up. -/
def confine (skips : String → Bool) (base : ToolRegistry) (live : String → List OfferedTool)
    (child : ToolRegistry) (name : String) : Option ToolRegistry :=
  if skips name then some child
  else
    match base.get (live name) name with
    | some tool => child.registerShared tool
    | none => some child

def confinedToolset (base : ToolRegistry) (listed : List OfferedTool)
    (live : String → List OfferedTool) (blocklist : List String) (depth : UInt32)
    (maxDepth : Option UInt32) (delegatePrefixes : List String) :
    Option (ToolRegistry × List SubagentBlocklistGuard) := do
  let child ← (base.names listed).foldlM
    (confine (withheld blocklist depth maxDepth delegatePrefixes) base live) {}
  return (child, if blocklist.isEmpty then [] else [⟨"child", blocklist⟩])

variable {skips : String → Bool} {base child out : ToolRegistry} {name : String}
  {live : String → List OfferedTool} {tool : OfferedTool}

theorem ToolRegistry.name_of_get {live : List OfferedTool} (h : base.get live name = some tool) :
    tool.name = name := by
  rcases Option.or_eq_some_iff.mp h with hStatic | ⟨-, hLive⟩
  · exact Index.key_of_get? hStatic
  · simpa using List.find?_some hLive

theorem mem_confine (h : confine skips base live child name = some out)
    (hIn : tool ∈ out.tools.values) : tool ∈ child.tools.values ∨ skips tool.name = false := by
  unfold confine at h
  split at h
  · cases h
    exact .inl hIn
  · next hFree =>
    split at h
    · next offered hGet =>
      unfold ToolRegistry.registerShared at h
      split at h
      · cases h
        rcases Index.mem_values_insert.mp hIn with rfl | ⟨-, hOld⟩
        · rw [ToolRegistry.name_of_get hGet]
          exact .inr (by simpa using hFree)
        · exact .inl hOld
      · cases h
    · cases h
      exact .inl hIn

theorem mem_foldlM_confine {names : List String}
    (h : names.foldlM (confine skips base live) child = some out)
    (hIn : tool ∈ out.tools.values) : tool ∈ child.tools.values ∨ skips tool.name = false := by
  induction names generalizing child with
  | nil =>
    cases h
    exact .inl hIn
  | cons name rest ih =>
    rw [List.foldlM_cons] at h
    obtain ⟨next, hNext, hRest⟩ := Option.bind_eq_some_iff.mp h
    rcases ih hRest with hOld | hFree
    · exact mem_confine hNext hOld
    · exact .inr hFree

end Toolset

/-! ## The depth guard -/

structure GuardDenial where
  guard : String
  reason : String
  deriving DecidableEq

structure DelegateDepthGuard where
  provider : String
  maxDepth : UInt32
  delegatePrefixes : List String

def DelegateDepthGuard.check (g : DelegateDepthGuard) (tool : String) (arguments : Json) :
    Option GuardDenial :=
  if !isDelegateTool g.delegatePrefixes tool then none
  else
    let requested := (((arguments.get "depth").bind Json.asU64).map (·.toUInt32)).getD 1
    if g.maxDepth ≤ requested then
      some ⟨"delegate_depth", s!"subagent provider `{g.provider}` depth limit {g.maxDepth} " ++
        s!"would be exceeded by delegation to `{tool}`"⟩
    else none

def Number.value : Number → Rat
  | .posInt n => n.toNat
  | .negInt n => n.toInt
  | .float x => x

/-- The number is below the limit, or is read as one at or above it. -/
def Number.KeepsLimit (max : UInt32) : Number → Prop
  | .posInt n => n.toNat < max.toNat ∨ max.toNat ≤ n.toNat % 2 ^ 32
  | n => n.value < max.toNat ∨ max.toNat ≤ 1

theorem isSome_check_iff {g : DelegateDepthGuard} {tool : String} {arguments : Json} {n : Number}
    (hTool : isDelegateTool g.delegatePrefixes tool)
    (hDepth : arguments.get "depth" = some (.num n)) :
    (g.check tool arguments).isSome ↔
      g.maxDepth ≤ ((Json.num n).asU64.map (·.toUInt32)).getD 1 := by
  simp only [DelegateDepthGuard.check, hTool, hDepth, Bool.not_true, Bool.false_eq_true, if_false,
    Option.bind_some]
  split <;> simp_all

/-- **Confinement.** -/
theorem confinement_exact (base : ToolRegistry) (listed : List OfferedTool)
    (live : String → List OfferedTool) (blocklist : List String) (depth : UInt32)
    (maxDepth : Option UInt32) (delegatePrefixes : List String) (guard : DelegateDepthGuard)
    (tool : String) (arguments : Json) (n : Number) :
    (∀ child guards, confinedToolset base listed live blocklist depth maxDepth delegatePrefixes =
        some (child, guards) →
      ∀ t ∈ child.tools.values, t.name ∉ blocklist ∧
        ∀ max, maxDepth = some max → max ≤ depth →
          isDelegateTool delegatePrefixes t.name = false) ∧
    (isDelegateTool guard.delegatePrefixes tool → arguments.get "depth" = some (.num n) →
      ((guard.maxDepth.toNat ≤ n.value → (guard.check tool arguments).isSome) ↔
        n.KeepsLimit guard.maxDepth)) := by
  refine ⟨fun child guards h t hIn => ?_, fun hTool hDepth => ?_⟩
  · obtain ⟨out, hFold, hOut⟩ := Option.bind_eq_some_iff.mp h
    cases hOut
    rcases mem_foldlM_confine hFold hIn with hStart | hFree
    · cases hStart
    · simp only [withheld, Bool.or_eq_false_iff, List.contains_eq_mem, decide_eq_false_iff_not]
        at hFree
      refine ⟨hFree.1, ?_⟩
      rintro max rfl hMax
      simpa [hMax] using hFree.2
  · rw [isSome_check_iff hTool hDepth, UInt32.le_iff_toNat_le]
    cases n with
    | posInt m =>
      simp only [Number.value, Number.KeepsLimit, Json.asU64, Option.map_some, Option.getD_some,
        UInt64.toNat_toUInt32, Nat.cast_le]
      omega
    | negInt m | float m =>
      simp only [Number.KeepsLimit, Json.asU64, Option.map_none, Option.getD_none,
        UInt32.toNat_one]
      rw [← not_le]
      tauto

def spawnGuard : DelegateDepthGuard := ⟨"spawn", 3, ["transfer_to_"]⟩

/-- A guard for three levels lets a call through that asks for 2³² levels, and one that asks for
five in floating point. -/
theorem depth_wraps :
    3 ≤ (Number.posInt 4294967296).value ∧
      spawnGuard.check "transfer_to_writer" (.obj [("depth", .num (.posInt 4294967296))]) = none ∧
      3 ≤ (Number.float 5).value ∧
      spawnGuard.check "transfer_to_writer" (.obj [("depth", .num (.float 5))]) = none := by
  decide +kernel

end RustyRuntime
