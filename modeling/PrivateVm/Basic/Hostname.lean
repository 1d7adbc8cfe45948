import Mathlib.Tactic.TypeStar

set_option autoImplicit false

/-! # Names of hosts

The syntax of the labels of a name: lowercase letters, digits and hyphens, with no hyphen at
either end, and between one and 63 characters. A name that has only such characters has as many
bytes as characters, so that lengths are counted in characters.
-/

namespace Hostname

def isLabelChar (c : Char) : Bool :=
  ('a' ≤ c && c ≤ 'z') || ('0' ≤ c && c ≤ '9') || c = '-'

def isLabel (label : List Char) : Bool :=
  1 ≤ label.length && label.length ≤ 63 && label.head? != some '-' &&
    label.getLast? != some '-' && label.all isLabelChar

/-- The text without the given character at its end. -/
def trimSuffix (c : Char) (text : List Char) : List Char :=
  if text.getLast? = some c then text.dropLast else text

/-- At least two labels with points between them. -/
def isName (text : List Char) : Bool :=
  2 ≤ (text.splitOn '.').length && (text.splitOn '.').all isLabel

example : isName "proton.example".toList = true := by decide +kernel
example : isName "-proton.example".toList = false := by decide +kernel

end Hostname
