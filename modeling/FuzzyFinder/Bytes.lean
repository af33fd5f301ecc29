/-!
# FuzzyFinder — bytes

Candidates, queries and input streams are plain byte strings: nothing in matching depends on a
text encoding. This module fixes the type, names the few bytes that carry meaning (the separators
of a path and of a list of paths), and gives the ASCII classes on which case folding and the
boundary bonuses rest. Every byte outside ASCII belongs to no class and folds to itself.
-/

namespace FuzzyFinder

/-- A byte string. -/
abbrev Bytes := List UInt8

namespace Byte

/-- The dot `.` opens the name of a hidden file. -/
abbrev dot : UInt8 := 0x2e

/-- The slash `/` separates the components of a path. -/
abbrev slash : UInt8 := 0x2f

/-- The blank that a query may drop. -/
abbrev space : UInt8 := 0x20

/-- Separates entries unless asked otherwise. -/
abbrev newline : UInt8 := 0x0a

/-- Separates entries that may themselves hold newlines. -/
abbrev nul : UInt8 := 0x00

/-- The letters `A` to `Z`. -/
def isUpper (b : UInt8) : Bool := 0x41 ≤ b && b ≤ 0x5a

/-- The letters `a` to `z`. -/
def isLower (b : UInt8) : Bool := 0x61 ≤ b && b ≤ 0x7a

/-- The digits `0` to `9`. -/
def isDigit (b : UInt8) : Bool := 0x30 ≤ b && b ≤ 0x39

/-- Folding maps `A` to `Z` onto `a` to `z` and leaves every other byte alone. -/
def fold (b : UInt8) : UInt8 := if isUpper b then b + 0x20 else b

/-- Byte equality under a case mode: the byte `b` of a candidate is folded before it is compared
with the byte `n` of a needle, unless case matters. The needle is expected to be folded already. -/
def agrees (caseSensitive : Bool) (b n : UInt8) : Bool :=
  if caseSensitive then b == n else fold b == n

end Byte

namespace Bytes

/-- Case folding, byte by byte. -/
def fold (s : Bytes) : Bytes := s.map Byte.fold

/-- The bytes of a text in UTF-8. -/
def ofString (s : String) : Bytes := s.toUTF8.toList

/-- The decimal digits of a number. -/
def ofNat (n : Nat) : Bytes := ofString (toString n)

end Bytes

end FuzzyFinder
