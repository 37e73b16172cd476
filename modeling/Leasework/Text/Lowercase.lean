import Leasework.Text.Casing

/-!
# `Leasework.Text.Lowercase`: the lower case of a text

Every letter goes to its Unicode lower case. Two letters need more than the table:
a capital I with a dot becomes two characters, and a capital sigma at the end of a
word becomes the final form.
-/

set_option autoImplicit false

namespace Leasework.Text

/-- Whether a code point falls in one of the ranges. -/
def inRanges (ranges : List (Nat × Nat)) (n : Nat) : Bool :=
  ranges.any fun r => r.1 ≤ n && n ≤ r.2

/-- A letter that has a case. -/
def isCased (c : Char) : Bool := inRanges casedRanges c.toNat

/-- A character that case looks past. -/
def isCaseIgnorable (c : Char) : Bool := inRanges caseIgnorableRanges c.toNat

/-- The run of the table that holds a code point. -/
def caseRun? (n : Nat) : Option CaseRun :=
  caseRuns.find? fun r => r.first ≤ n && n ≤ r.last && (n - r.first) % r.step = 0

/-- The lower case of one letter, its neighbours aside. -/
def lowerChar (c : Char) : List Char :=
  let n := c.toNat
  if n < 0x80 then [c.toLower]
  else if n = 0x130 then ['i', Char.ofNat 0x307]
  else match caseRun? n with
    | some r => [Char.ofNat (Int.toNat (n + r.shift))]
    | none => [c]

/-- Whether the next character that case does not look past is a cased letter. -/
def metByCased (cs : List Char) : Bool :=
  match cs.dropWhile isCaseIgnorable with
  | [] => false
  | c :: _ => isCased c

/-- The capital sigma. -/
def capitalSigma : Char := Char.ofNat 0x3A3

/-- Lowers a text from left to right; `before` holds the characters already passed,
the last one first. -/
def lowerFrom (before : List Char) : List Char → List Char
  | [] => []
  | c :: rest =>
    let here :=
      if c = capitalSigma then
        if metByCased before && !metByCased rest then [Char.ofNat 0x3C2] else [Char.ofNat 0x3C3]
      else lowerChar c
    here ++ lowerFrom (c :: before) rest

/-- The lower case of a text. -/
def lowercase (s : String) : String := String.ofList (lowerFrom [] s.toList)

/-- An ASCII letter in lower case; any other character as it is. -/
def lowerAscii (s : String) : String := String.ofList (s.toList.map Char.toLower)

end Leasework.Text
