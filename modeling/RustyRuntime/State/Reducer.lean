import RustyRuntime.State.Channels

/-!
# Reducers

The per-channel merge functions of `state.rs`. The source has two versions of each:
`apply` works on a borrowed value, `apply_shared` on the channel's `Arc`, in place when
nobody else holds it. `applyShared` follows the second with the copy in place of the
mutation, and `applyShared_eq_apply` says that the two agree.
-/

namespace RustyRuntime

/-- Per-channel merge semantics. -/
inductive Reducer where
  | overwrite
  | append
  | deepMerge
  | addMessages
  deriving DecidableEq, Repr, Inhabited

/-! ## Merging values -/

mutual

/-- `deep_merge_in_place`: objects merge key by key, any other pair resolves to `b`. -/
def deepMergeInPlace (a : Json) : Json → Json
  | .obj y =>
    match a with
    | .obj x => .obj (deepMergeFields x y)
    | _ => .obj y
  | .null => .null
  | .bool b => .bool b
  | .num n => .num n
  | .str s => .str s
  | .arr items => .arr items

/-- The loop of `deep_merge_in_place` over the fields of the update. -/
def deepMergeFields (x : List (String × Json)) : List (String × Json) → List (String × Json)
  | [] => x
  | (k, v) :: rest =>
    match Json.lookupField k x with
    | some cur => deepMergeFields (Json.insertField k (deepMergeInPlace cur v) x) rest
    | none => deepMergeFields (Json.insertField k v x) rest

end

/-- `deep_merge`. -/
def deepMergeValues (a b : Json) : Json := deepMergeInPlace a b

def updateItems : Json → List Json
  | .arr items => items
  | single => [single]

def appendInPlace (existing : List Json) (update : Json) : List Json :=
  existing ++ updateItems update

/-- A message's `"id"`, when it is a string. -/
def messageId (message : Json) : Option String := (message.get "id").bind Json.asStr

/-- The index built by the first loop of `upsert_messages_in_place`: the first position
of each id. -/
def indexIds (messages : List Json) : Std.ExtTreeMap String Nat :=
  messages.zipIdx.foldl (fun index entry =>
    match messageId entry.1 with
    | some id => index.insertIfNew id entry.2
    | none => index) ∅

/-- One turn of the upsert loop. -/
def upsertMessage (acc : List Json × Std.ExtTreeMap String Nat) (message : Json) :
    List Json × Std.ExtTreeMap String Nat :=
  match messageId message with
  | none => (acc.1 ++ [message], acc.2)
  | some id =>
    match acc.2[id]? with
    | some i => (acc.1.set i message, acc.2)
    | none => (acc.1 ++ [message], acc.2.insert id acc.1.length)

def upsertMessagesInPlace (messages : List Json) (update : Json) : List Json :=
  ((updateItems update).foldl upsertMessage (messages, indexIds messages)).1

def addMessages (current : Option Json) (update : Json) : Json :=
  match current with
  | some (.arr existing) => .arr (upsertMessagesInPlace existing update)
  | _ => .arr (upsertMessagesInPlace [] update)

namespace Reducer

def allowsMultipleWrites : Reducer → Bool
  | .overwrite => false
  | _ => true

def requiresArray : Reducer → Bool
  | .append | .addMessages => true
  | _ => false

/-- The `Display` text. -/
def display : Reducer → String
  | .overwrite => "overwrite"
  | .append => "append"
  | .deepMerge => "deep_merge"
  | .addMessages => "add_messages"

variable (reducer : Reducer) (current : Option Json)

def apply (update : Json) : Json :=
  match reducer with
  | .overwrite => update
  | .append =>
    match current with
    | some (.arr existing) => .arr (appendInPlace existing update)
    | _ => .arr (updateItems update)
  | .deepMerge =>
    match current with
    | some cur => deepMergeValues cur update
    | none => update
  | .addMessages => RustyRuntime.addMessages current update

/-- `Reducer::apply_shared`. The guard `is_array` comes first there, so a value that is
not an array takes the same branch as a missing one. -/
def applyShared (update : Json) : Json :=
  match reducer with
  | .overwrite => update
  | .append =>
    match current with
    | some (.arr existing) => .arr (appendInPlace existing update)
    | _ => .arr (updateItems update)
  | .deepMerge =>
    match current with
    | some cur => deepMergeInPlace cur update
    | none => update
  | .addMessages =>
    match current with
    | some (.arr messages) => .arr (upsertMessagesInPlace messages update)
    | _ => RustyRuntime.addMessages none update

/-- **The copy-on-write reducer is the reducer.** -/
theorem applyShared_eq_apply (update : Json) :
    reducer.applyShared current update = reducer.apply current update := by
  cases reducer with
  | overwrite | append | deepMerge => rfl
  | addMessages =>
    cases current with
    | none => rfl
    | some value => cases value <;> rfl

end Reducer

end RustyRuntime
