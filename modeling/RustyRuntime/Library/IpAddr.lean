import Mathlib

/-!
# IP addresses

Addresses of both families as the numbers they stand for, blocks of addresses with a common
head, and the text forms that the Rust standard library reads (`IpAddr::from_str`): dotted
decimal for the first family, groups of hex digits with at most one `::` and an optional dotted
tail for the second.
-/

namespace RustyRuntime.Library

/-! ## Addresses and blocks -/

inductive IpAddr where
  | v4 (bits : BitVec 32)
  | v6 (bits : BitVec 128)
  deriving DecidableEq

/-- The number of four octets. -/
def octets (a b c d : Nat) : Nat := ((a * 256 + b) * 256 + c) * 256 + d

/-- The number of eight groups of sixteen bits, from the list of them. -/
def groups (gs : List Nat) : Nat := gs.foldl (fun n g => n * 65536 + g) 0

/-- The addresses that agree with `net` in the first `len` bits. -/
structure Block (w : Nat) where
  net : Nat
  len : Nat

def Block.contains {w : Nat} (block : Block w) (bits : BitVec w) : Bool :=
  bits.toNat >>> (w - block.len) = block.net >>> (w - block.len)

/-! ## Reading addresses -/

def digitValue (c : Char) : Option Nat :=
  if '0' ≤ c ∧ c ≤ '9' then some (c.toNat - '0'.toNat)
  else if 'a' ≤ c ∧ c ≤ 'f' then some (c.toNat - 'a'.toNat + 10)
  else if 'A' ≤ c ∧ c ≤ 'F' then some (c.toNat - 'A'.toNat + 10)
  else none

def isDigitOf (radix : Nat) (c : Char) : Bool := (digitValue c).any (· < radix)

/-- A number of at most `maxDigits` digits and value at most `limit`. -/
def readNumber (radix maxDigits limit : Nat) (allowZero : Bool) (s : List Char) :
    Option (Nat × List Char) :=
  let digits := s.takeWhile (isDigitOf radix)
  let value := (digits.filterMap digitValue).foldl (fun n d => n * radix + d) 0
  if digits.isEmpty || maxDigits < digits.length || limit < value ||
      (!allowZero && digits.head? = some '0' && 1 < digits.length) then none
  else some (value, s.dropWhile (isDigitOf radix))

/-- A part that a separator precedes, except the first one. -/
def readSeparator {α : Type} (separator : Char) (index : Nat)
    (inner : List Char → Option (α × List Char)) (s : List Char) : Option (α × List Char) :=
  if index = 0 then inner s
  else match s with
  | c :: rest => if c = separator then inner rest else none
  | [] => none

def readIpv4 (s : List Char) : Option (Nat × List Char) := do
  let (a, s) ← readSeparator '.' 0 (readNumber 10 3 255 false) s
  let (b, s) ← readSeparator '.' 1 (readNumber 10 3 255 false) s
  let (c, s) ← readSeparator '.' 2 (readNumber 10 3 255 false) s
  let (d, s) ← readSeparator '.' 3 (readNumber 10 3 255 false) s
  return (octets a b c d, s)

/-- The groups that can be read, from the `index`-th on with `room` left; whether they ended
with a dotted tail; and the rest. -/
def readGroups (index : Nat) : (room : Nat) → List Char → List Nat × Bool × List Char
  | 0, s => ([], false, s)
  | room + 1, s =>
    match if 0 < room then readSeparator ':' index readIpv4 s else none with
    | some (tail, rest) => ([tail / 65536, tail % 65536], true, rest)
    | none =>
      match readSeparator ':' index (readNumber 16 4 65535 true) s with
      | none => ([], false, s)
      | some (group, rest) =>
        let (more, dotted, rest) := readGroups (index + 1) room rest
        (group :: more, dotted, rest)

def readIpv6 (s : List Char) : Option (Nat × List Char) :=
  match readGroups 0 8 s with
  | (head, dotted, rest) =>
    if head.length = 8 then some (groups head, rest)
    else if dotted then none
    else match rest with
    | ':' :: ':' :: rest =>
      let (tail, _, rest) := readGroups 0 (8 - (head.length + 1)) rest
      some (groups (head ++ List.replicate (8 - head.length - tail.length) 0 ++ tail), rest)
    | _ => none

/-- `IpAddr::from_str`. -/
def parseIp (s : String) : Option IpAddr :=
  match readIpv4 s.toList with
  | some (bits, rest) => if rest.isEmpty then some (.v4 bits) else none
  | none => match readIpv6 s.toList with
    | some (bits, rest) => if rest.isEmpty then some (.v6 bits) else none
    | none => none

example : ["::ffff:10.0.0.1", "::", "1::2::3", "01.2.3.4"].map (fun s => (parseIp s).isSome) =
    [true, true, false, false] := by decide

end RustyRuntime.Library
