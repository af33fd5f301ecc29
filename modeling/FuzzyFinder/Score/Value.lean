/-!
# FuzzyFinder — score values

Scores are single-precision floating-point numbers: a bonus is computed and rounded step by step,
and two candidates rank as their rounded scores say. Three values are set aside besides the
scores of genuine placements: a perfect score, a miss, and a value below a miss for candidates
that the dot-file policy hides. `Score.compare` is the order used for ranking; it reads the bit
pattern, so it is total.
-/

namespace FuzzyFinder

/-- A score: `0` is a miss, `1` is perfect. -/
abbrev Score := Float32

namespace Score

/-- The score of an exact match, and of any visible candidate against an empty needle. -/
def perfect : Score := 1

/-- The score of a candidate that does not match. -/
def miss : Score := 0

/-- The score of a candidate hidden by the dot-file policy while nothing is searched for; it sorts
below a miss. -/
def concealed : Score := -1

/-- The score of a needle suffix that no placement completes: it absorbs addition and loses every
comparison. -/
def unreachable : Score := Float32.ofBits 0xff800000

/-- The position of a score in the total order of bit patterns: negative values count down from
the middle of the range, the others up. -/
def rank (s : Score) : Nat :=
  let bits := s.toBits.toNat
  if bits < 0x80000000 then bits + 0x80000000 else 0xffffffff - bits

/-- The total order on scores, lowest first. -/
def compare (s t : Score) : Ordering := Ord.compare s.rank t.rank

/-- Whether a score counts as a match. -/
def isMatch (s : Score) : Bool := miss < s

end Score

end FuzzyFinder
