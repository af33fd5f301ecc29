/-!
# FuzzyFinder — blank characters

The characters that set words or lines apart and are not seen: the ASCII blanks and line breaks, and
the spaces and separators of other scripts. Joiners and zero-width spaces are not among them.
-/

namespace FuzzyFinder

namespace Blank

/-- The first and the last code point of each range, in increasing order. -/
def ranges : List (Nat × Nat) :=
  [(0x9, 0xd), (0x20, 0x20), (0x85, 0x85), (0xa0, 0xa0), (0x1680, 0x1680), (0x2000, 0x200a),
   (0x2028, 0x2029), (0x202f, 0x202f), (0x205f, 0x205f), (0x3000, 0x3000)]

/-- Whether a character is blank. -/
def contains (c : Char) : Bool :=
  ranges.any fun (low, high) => low ≤ c.toNat && c.toNat ≤ high

end Blank

end FuzzyFinder
