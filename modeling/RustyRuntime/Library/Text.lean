import Mathlib

/-!
# Functions on text

The string functions of the Rust standard library that the models use, on the characters of a
string, so that they compute.
-/

namespace RustyRuntime.Library

/-- `char::is_whitespace`, the Unicode property `White_Space`. -/
def isWhitespace (c : Char) : Bool :=
  let n := c.toNat
  decide (9 ≤ n ∧ n ≤ 13) || decide (8192 ≤ n ∧ n ≤ 8202) ||
    [32, 133, 160, 5760, 8232, 8233, 8239, 8287, 12288].contains n

def trimMatches (p : Char → Bool) (s : String) : String :=
  String.ofList ((s.toList.dropWhile p).rdropWhile p)

def trim (s : String) : String := trimMatches isWhitespace s

def trimStart (s : String) : String := String.ofList (s.toList.dropWhile isWhitespace)

/-- `str::starts_with` of a text. -/
def startsWith (stem s : String) : Bool := stem.toList.isPrefixOf s.toList

/-- `str::contains` of a text. -/
def containsText (s part : String) : Bool := decide (part.toList <:+: s.toList)

def stripPrefix (stem s : String) : Option String :=
  (stem.toList.isPrefixOf? s.toList).map String.ofList

/-- `str::split` at the characters with a property. -/
def splitAt (p : Char → Bool) (s : String) : List String :=
  (s.toList.splitOnP p).map String.ofList

variable {s : String}

theorem stripPrefix_eq_some_iff {stem rest : String} :
    stripPrefix stem s = some rest ↔ s = stem ++ rest := by
  rw [stripPrefix, Option.map_eq_some_iff, ← String.toList_inj, String.toList_append]
  constructor
  · rintro ⟨chars, hChars, rfl⟩
    rw [String.toList_ofList]
    exact (List.isPrefixOf?_eq_some_iff_append_eq.mp hChars).symm
  · intro h
    exact ⟨rest.toList, List.isPrefixOf?_eq_some_iff_append_eq.mpr h.symm, String.ofList_toList⟩

theorem toList_trim_of_head {c : Char} {rest : List Char} (hText : s.toList = c :: rest)
    (hInk : isWhitespace c = false) : (trim s).toList = c :: rest.rdropWhile isWhitespace := by
  rw [trim, trimMatches, String.toList_ofList, hText,
    List.dropWhile_cons_of_neg (by rw [hInk]; decide)]
  clear hText
  induction rest using List.reverseRecOn with
  | nil => simp [List.rdropWhile, hInk]
  | append_singleton rest last ih =>
    rw [← List.cons_append, List.rdropWhile_concat, List.rdropWhile_concat]
    split
    · exact ih
    · rfl

theorem exists_opening_append {opening : List Char} (h : ∃ rest, s.toList = opening ++ rest)
    (t : String) : ∃ rest, (s ++ t).toList = opening ++ rest := by
  obtain ⟨rest, hRest⟩ := h
  exact ⟨rest ++ t.toList, by rw [String.toList_append, hRest, List.append_assoc]⟩

end RustyRuntime.Library
