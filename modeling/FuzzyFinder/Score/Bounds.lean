import FuzzyFinder.LetterSet

/-!
# FuzzyFinder — where a needle byte may sit

Placing the needle greedily from the right gives for each of its bytes the last position it can
take; placing it greedily from the left gives the first. Every placement lies between the two, so
the search never looks outside of them. The pass from the right also decides whether the needle
fits at all, and collects the letters of the candidate on its way when nobody has done so before;
without that errand it stops as soon as the needle is placed.
-/

namespace FuzzyFinder

/-- The state of the pass from the right. -/
structure Backscan where
  /-- Letters met so far. -/
  letters : LetterSet := .empty
  /-- Needle bytes not placed yet, the last one first. -/
  unplaced : Bytes
  /-- Positions of the needle bytes already placed, in needle order. -/
  positions : List Nat := []

/-- Walks `before`, the bytes left of those seen, nearest first; the number of bytes that remain
is the position of the current one. With `collect` the walk goes to the end for the letters'
sake. -/
def Backscan.run (caseSensitive collect : Bool) : Bytes → Backscan → Backscan
  | [], s => s
  | b :: before, s =>
    let letters := if collect then s.letters.insert b else s.letters
    match s.unplaced with
    | n :: earlier =>
      if Byte.agrees caseSensitive b n then
        run caseSensitive collect before
          { letters, unplaced := earlier, positions := before.length :: s.positions }
      else run caseSensitive collect before { s with letters }
    | [] => if collect then run caseSensitive collect before { s with letters } else s

/-- The rightmost position of every needle byte, or `none` when the needle does not fit, and the
candidate's letters as known afterwards. -/
def rightmost (caseSensitive : Bool) (candidate needle : Bytes) (known : Option LetterSet) :
    Option (List Nat) × Option LetterSet :=
  let s := Backscan.run caseSensitive known.isNone candidate.reverse { unplaced := needle.reverse }
  (if s.unplaced.isEmpty then some s.positions else none, known.or (some s.letters))

/-- The leftmost position of every needle byte from position `start` on. A byte that cannot be
placed gets the position one past the candidate. -/
def leftmost (caseSensitive : Bool) (candidate : Bytes) (start : Nat) : Bytes → List Nat
  | [] => []
  | n :: later =>
    let position := match (candidate.drop start).findIdx? (Byte.agrees caseSensitive · n) with
      | some offset => start + offset
      | none => candidate.length
    position :: leftmost caseSensitive candidate (position + 1) later

end FuzzyFinder
