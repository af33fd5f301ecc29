import FuzzyFinder.Bytes

/-!
# FuzzyFinder — sets of letters

A candidate that lacks one of the needle's letters cannot match it. `LetterSet` keeps the letters
of a byte string, case folded, in one machine word, so that this test costs one bitwise `and`.
Bytes that are no ASCII letter leave no trace in the set, so the test is silent about them.
-/

namespace FuzzyFinder

/-- A set of ASCII letters regardless of case: bit `0` stands for `a`, bit `25` for `z`. -/
structure LetterSet where
  bits : UInt32 := 0
deriving DecidableEq

namespace LetterSet

/-- No letters at all. -/
def empty : LetterSet := {}

/-- Adds the letter that `b` folds to; any other byte changes nothing. -/
def insert (s : LetterSet) (b : UInt8) : LetterSet :=
  let l := Byte.fold b
  if Byte.isLower l then ⟨s.bits ||| ((1 : UInt32) <<< (l - 0x61).toUInt32)⟩ else s

/-- The letters of a byte string. -/
def ofBytes (s : Bytes) : LetterSet := s.foldl insert empty

/-- Every letter of `t` is in `s`. -/
def contains (s t : LetterSet) : Bool := s.bits &&& t.bits == t.bits

end LetterSet

end FuzzyFinder
