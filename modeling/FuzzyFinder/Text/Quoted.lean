import FuzzyFinder.Text.Unprintable

/-!
# FuzzyFinder — quoted text

Text that may hold anything is shown between double quotes. A quote and a backslash get a
backslash in front, four control characters have letters, and every other character without a mark
of its own is written by its number.
-/

namespace FuzzyFinder

namespace Quoted

/-- The letter that stands for a character behind a backslash, if one does. -/
def letter? (c : Char) : Option Char :=
  if c == '\x00' then some '0'
  else if c == '\t' then some 't'
  else if c == '\n' then some 'n'
  else if c == '\r' then some 'r'
  else if c == '\x22' || c == '\\' then some c
  else none

/-- A character inside quotes. -/
def escape (c : Char) : List Char :=
  match letter? c with
  | some l => ['\\', l]
  | none =>
    if Unprintable.contains c then
      ['\\', 'u', '\x7b'] ++ Nat.toDigits 16 c.toNat ++ ['\x7d']
    else [c]

/-- A text between quotes. -/
def encode (text : List Char) : List Char := '\x22' :: text.flatMap escape ++ ['\x22']

end Quoted

end FuzzyFinder
