import FuzzyFinder.Score.Bounds
import FuzzyFinder.Score.Options
import FuzzyFinder.Score.Value

/-!
# FuzzyFinder — the search over placements

A placement assigns increasing positions to the needle bytes. Each placed byte contributes the
same base value, weighted by how good its position is: fully when it continues the byte before it
or opens the candidate, less after a separator or at a camel-case hump, and ever less with the
distance otherwise. The best placement is found level by level from the last needle byte
backwards. After level `i`, cell `j` of the row `rest` holds the best sum that the needle bytes
behind the `i`-th can reach once the `i`-th sits at position `j`. Two rows serve all levels: a
level reads one and fills the other, at the positions where its byte can sit and nowhere else, and
then the rows trade places.
-/

namespace FuzzyFinder

/-- One row of the search: a score per candidate position. -/
abbrev Row := Array Score

/-- What stays fixed while one candidate is searched for one needle. -/
structure Search where
  /-- The candidate's bytes. -/
  hay : Array UInt8
  /-- The needle's bytes, not empty. -/
  needle : Array UInt8
  /-- The first position of each needle byte. -/
  leftmost : Array Nat
  /-- The last position of each needle byte. -/
  rightmost : Array Nat
  /-- What a byte contributes at a position of full weight. -/
  perByte : Score
  /-- The switches of this search. -/
  options : ScoreOptions

namespace Search

/-- The contribution at full weight, `(1 / needle + 1 / candidate) / 2`. -/
def perByteOf (needleLength candidateLength : Nat) : Score :=
  (1 / Float32.ofNat needleLength + 1 / Float32.ofNat candidateLength) / 2

/-- Sets up the search; `rightmost` has been found by the pass from the right. -/
def ofBytes (candidate needle : Bytes) (rightmost : List Nat) (options : ScoreOptions) :
    Search where
  hay := candidate.toArray
  needle := needle.toArray
  leftmost := (FuzzyFinder.leftmost options.caseSensitive candidate 0 needle).toArray
  rightmost := rightmost.toArray
  perByte := perByteOf needle.length candidate.length
  options := options

/-- The candidate byte at position `j`. -/
def byteAt (s : Search) (j : Nat) : UInt8 := s.hay.getD j 0

/-- The `i`-th needle byte. -/
def wanted (s : Search) (i : Nat) : UInt8 := s.needle.getD i 0

/-- The first position of the `i`-th needle byte. -/
def first (s : Search) (i : Nat) : Nat := s.leftmost.getD i 0

/-- The last position of the `i`-th needle byte. -/
def last (s : Search) (i : Nat) : Nat := s.rightmost.getD i 0

/-- The `i`-th needle byte may sit at position `j` as far as the two bytes are concerned. -/
def fits (s : Search) (i j : Nat) : Bool :=
  Byte.agrees s.options.caseSensitive (s.byteAt j) (s.wanted i)

/-- A dot that opens a path component sits at position `j`. -/
def opensHidden (s : Search) (j : Nat) : Bool :=
  s.byteAt j == Byte.dot && (j == 0 || s.byteAt (j - 1) == Byte.slash)

/-- Position `j` ends the scan for the `i`-th needle byte. -/
def blocked (s : Search) (i j : Nat) : Bool :=
  s.opensHidden j && s.options.dotPolicy.blocks (s.wanted i)

/-- The weight of a position that neither continues the previous match nor opens the candidate:
`before` and `here` are the bytes around the boundary, `distance` counts the bytes since the
previous match. -/
def weight (before here : UInt8) (distance : Nat) : Score :=
  if before == Byte.slash then 0.9
  else if before == 0x2d || before == 0x5f || before == Byte.space || Byte.isDigit before then 0.8
  else if Byte.isLower before && Byte.isUpper here then 0.8
  else if before == Byte.dot then 0.7
  else 0.75 / Float32.ofNat distance

/-- What a needle byte contributes at position `j` when the previous one sits at `previous`. -/
def contribution (s : Search) (j : Nat) (previous : Option Nat) : Score :=
  let distance := match previous with
    | some p => j - p
    | none => j + 1
  if distance ≤ 1 then s.perByte
  else s.perByte * weight (s.byteAt (j - 1)) (s.byteAt j) distance

/-- Looks at `count` positions from `j` on for the `i`-th needle byte and improves on `best`. A
blocked position ends the scan; without `recurse`, so does the first position that fits. -/
def scan (s : Search) (i : Nat) (previous : Option Nat) (rest : Row) :
    (count j : Nat) → (best : Score) → Score
  | 0, _, best => best
  | count + 1, j, best =>
    if s.blocked i j then best
    else if s.fits i j then
      let total := s.contribution j previous + rest.getD j Score.unreachable
      -- An equal sum is no improvement, so the first of the best placements stands.
      let best := if best < total then total else best
      if s.options.recurse then scan s i previous rest count (j + 1) best else best
    else scan s i previous rest count (j + 1) best

/-- The best sum of the needle bytes from the `i`-th on, the `i`-th at or behind `start`; `rest`
holds the sums of the needle bytes behind it. -/
def bestFrom (s : Search) (i start : Nat) (previous : Option Nat) (rest : Row) : Score :=
  s.scan i previous rest (s.last i + 1 - start) start Score.unreachable

/-- Fills `next` for level `i` at `count` positions from `j` on: a position where the `i`-th byte
fits gets the best sum of the bytes behind it, any other cell is left as it is. -/
def fillRow (s : Search) (i : Nat) (rest : Row) : (count j : Nat) → (next : Row) → Row
  | 0, _, next => next
  | count + 1, j, next =>
    let next := if s.fits i j then next.setIfInBounds j (s.bestFrom (i + 1) (j + 1) (some j) rest)
      else next
    fillRow s i rest count (j + 1) next

/-- Runs the levels below `i`, the highest first, and answers with the row of level `0`. -/
def levels (s : Search) : (i : Nat) → (rest next : Row) → Row
  | 0, rest, _ => rest
  | i + 1, rest, next =>
    -- The row just read is filled next; what it still holds lies at positions nobody reads then.
    let filled := s.fillRow i rest (s.last i + 1 - s.first i) (s.first i) next
    levels s i filled rest

/-- The best sum over all placements, `Score.unreachable` when there is none. -/
def best (s : Search) : Score :=
  let top := s.needle.size - 1
  let width := s.last top + 1
  let row := s.levels top (.replicate width 0) (.replicate width Score.unreachable)
  s.bestFrom 0 0 none row

end Search

end FuzzyFinder
