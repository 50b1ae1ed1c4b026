import Mathlib

/-!
# JSON values

`serde_json::Value`, the type of every channel value, payload and message of the
runtime. An object is the list of its fields in the order the map backend iterates
them. The default backend is a B-tree, so a map the code builds is sorted by key
(`insertField`); `canonicalizeValue` is what the content hashes apply so that they do
not depend on the backend.

A number keeps the three cases of `serde_json::Number`. Its floats are finite, and the
code compares them with `==`, which identifies the two zeros, so a float is the
rational it denotes.
-/

namespace RustyRuntime

/-- `serde_json::Number`: an unsigned, a negative or a floating-point number. -/
inductive Number where
  | posInt (n : UInt64)
  | negInt (n : Int64)
  | float (x : Rat)
  deriving DecidableEq, Inhabited

/-- `serde_json::Value`. -/
inductive Json where
  | null
  | bool (b : Bool)
  | num (n : Number)
  | str (s : String)
  | arr (items : List Json)
  | obj (fields : List (String × Json))
  deriving Inhabited

namespace Json

/-! ## Equality -/

mutual

/-- Value equality, the derived `PartialEq` of the source. -/
def decEq (a b : Json) : Decidable (a = b) :=
  match a with
  | .null => match b with
    | .null => isTrue rfl
    | .bool _ | .num _ | .str _ | .arr _ | .obj _ => isFalse (by simp)
  | .bool x => match b with
    | .bool y => decidable_of_iff (x = y) (by simp)
    | .null | .num _ | .str _ | .arr _ | .obj _ => isFalse (by simp)
  | .num x => match b with
    | .num y => decidable_of_iff (x = y) (by simp)
    | .null | .bool _ | .str _ | .arr _ | .obj _ => isFalse (by simp)
  | .str x => match b with
    | .str y => decidable_of_iff (x = y) (by simp)
    | .null | .bool _ | .num _ | .arr _ | .obj _ => isFalse (by simp)
  | .arr xs => match b with
    | .arr ys => @decidable_of_iff _ (xs = ys) (by simp) (decEqList xs ys)
    | .null | .bool _ | .num _ | .str _ | .obj _ => isFalse (by simp)
  | .obj xs => match b with
    | .obj ys => @decidable_of_iff _ (xs = ys) (by simp) (decEqFields xs ys)
    | .null | .bool _ | .num _ | .str _ | .arr _ => isFalse (by simp)

def decEqList (xs ys : List Json) : Decidable (xs = ys) :=
  match xs with
  | [] => match ys with
    | [] => isTrue rfl
    | _ :: _ => isFalse (by simp)
  | x :: xs => match ys with
    | [] => isFalse (by simp)
    | y :: ys => @decidable_of_iff _ (x = y ∧ xs = ys) (by simp)
        (@instDecidableAnd _ _ (decEq x y) (decEqList xs ys))

def decEqFields (xs ys : List (String × Json)) : Decidable (xs = ys) :=
  match xs with
  | [] => match ys with
    | [] => isTrue rfl
    | _ :: _ => isFalse (by simp)
  | (k, x) :: xs => match ys with
    | [] => isFalse (by simp)
    | (l, y) :: ys => @decidable_of_iff _ (k = l ∧ x = y ∧ xs = ys) (by simp [and_assoc])
        (@instDecidableAnd _ _ inferInstance
          (@instDecidableAnd _ _ (decEq x y) (decEqFields xs ys)))

end

instance : DecidableEq Json := decEq

/-! ## Accessors -/

def isArray : Json → Bool
  | .arr _ => true
  | _ => false

def asStr : Json → Option String
  | .str s => some s
  | _ => none

def asU64 : Json → Option UInt64
  | .num (.posInt n) => some n
  | _ => none

/-- `Map::get`. -/
def lookupField (key : String) : List (String × Json) → Option Json
  | [] => none
  | (k, v) :: rest => if k = key then some v else lookupField key rest

/-- `Value::get` at a string index: a field of an object, nothing elsewhere. -/
def get (key : String) : Json → Option Json
  | .obj fields => lookupField key fields
  | _ => none

/-- `json_type_name` of `state.rs`. -/
def jsonTypeName : Json → String
  | .null => "null"
  | .bool _ => "bool"
  | .num _ => "number"
  | .str _ => "string"
  | .arr _ => "array"
  | .obj _ => "object"

/-- `Map::insert`: replace the field in place, or add it at its place in key order. -/
def insertField (key : String) (value : Json) : List (String × Json) → List (String × Json)
  | [] => [(key, value)]
  | (k, v) :: rest =>
    if k = key then (key, value) :: rest
    else if key < k then (key, value) :: (k, v) :: rest
    else (k, v) :: insertField key value rest

/-- The object the `json!` macro and `collect` build from a list of fields. -/
def object (fields : List (String × Json)) : Json :=
  .obj (fields.foldl (fun acc f => insertField f.1 f.2 acc) [])

/-! ## Canonical form -/

mutual

/-- `canonicalize_value` of `record.rs`: every object rebuilt in key order. -/
def canonicalizeValue : Json → Json
  | .obj fields => .obj ((canonicalizeFields fields).insertionSort (fun a b => a.1 ≤ b.1))
  | .arr items => .arr (canonicalizeItems items)
  | .null => .null
  | .bool b => .bool b
  | .num n => .num n
  | .str s => .str s

def canonicalizeItems : List Json → List Json
  | [] => []
  | v :: rest => canonicalizeValue v :: canonicalizeItems rest

def canonicalizeFields : List (String × Json) → List (String × Json)
  | [] => []
  | (k, v) :: rest => (k, canonicalizeValue v) :: canonicalizeFields rest

end

/-! ## Compact text

The compact writer of `serde_json`. The shortest decimal of a float is not modelled: a
float is written as its fraction, and nothing evaluates the writer on one. -/

def utf8 (s : String) : List UInt8 := s.toByteArray.data.toList

theorem utf8_injective {a b : String} (h : utf8 a = utf8 b) : a = b :=
  String.toByteArray_inj.mp (ByteArray.ext (Array.toList_inj.mp h))

def hexDigit (n : Nat) : Char := "0123456789abcdef".toList.getD n '0'

def escapeChar (c : Char) : List UInt8 :=
  if c = '"' then utf8 "\\\""
  else if c = '\\' then utf8 "\\\\"
  else if c.toNat = 8 then utf8 "\\b"
  else if c.toNat = 9 then utf8 "\\t"
  else if c.toNat = 10 then utf8 "\\n"
  else if c.toNat = 12 then utf8 "\\f"
  else if c.toNat = 13 then utf8 "\\r"
  else if c.toNat < 32 then
    utf8 "\\u00" ++ utf8 (String.ofList [hexDigit (c.toNat / 16), hexDigit (c.toNat % 16)])
  else String.utf8EncodeChar c

def quote (s : String) : List UInt8 := utf8 "\"" ++ s.toList.flatMap escapeChar ++ utf8 "\""

mutual

def compact : Json → List UInt8
  | .null => utf8 "null"
  | .bool b => utf8 (if b then "true" else "false")
  | .num (.posInt n) => utf8 (toString n.toNat)
  | .num (.negInt n) => utf8 (toString n.toInt)
  | .num (.float q) => utf8 (toString q.num) ++ utf8 "/" ++ utf8 (toString q.den)
  | .str s => quote s
  | .arr items => utf8 "[" ++ compactItems items ++ utf8 "]"
  | .obj fields => utf8 "\x7b" ++ compactFields fields ++ utf8 "\x7d"

def compactItems : List Json → List UInt8
  | [] => []
  | [v] => compact v
  | v :: rest => compact v ++ utf8 "," ++ compactItems rest

def compactFields : List (String × Json) → List UInt8
  | [] => []
  | [(k, v)] => quote k ++ utf8 ":" ++ compact v
  | (k, v) :: rest => quote k ++ utf8 ":" ++ compact v ++ utf8 "," ++ compactFields rest

end

/-- The `Display` text of a value. -/
def text (value : Json) : String :=
  (String.fromUTF8? ⟨value.compact.toArray⟩).getD ""

end Json

end RustyRuntime
