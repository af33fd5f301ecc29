import FuzzyFinder.Heap
import FuzzyFinder.Needle
import FuzzyFinder.Score.Value

/-!
# FuzzyFinder — ranking and selection

Matches are ranked best first: by score and then in dictionary order, or in dictionary order alone
while the needle is empty or a single dot. `Selection` keeps the best of a stream of hits in a
bounded heap with room for one more than wanted: a newcomer that is no worse than the worst kept
hit goes in, and the worst goes out.
-/

namespace FuzzyFinder

/-- A candidate that matches, with its score. -/
structure Hit where
  score : Score
  candidate : Bytes

namespace Hit

/-- Dictionary order on candidates; a candidate that begins another comes first. -/
def byCandidate (a b : Hit) : Ordering := compare a.candidate b.candidate

/-- Higher scores first, then dictionary order. -/
def byScore (a b : Hit) : Ordering := (Score.compare b.score a.score).then (byCandidate a b)

end Hit

/-- The order in which the matches of a needle are returned. -/
def Needle.ranking (n : Needle) : Hit → Hit → Ordering :=
  if n.isEmpty || n.isDot then Hit.byCandidate else Hit.byScore

namespace Selection

universe u

variable {α : Type u}

/-- Offers one item to a heap that is to keep `limit` of them. -/
def offer (limit : Nat) (h : Heap α) (x : α) : Heap α :=
  if h.size < limit then (h.insert x).2
  else
    match h.peek with
    | some worst => if h.order x worst == .gt then h else ((h.insert x).2.extract).2
    | none => h

/-- Keeps the best `limit` of a stream of items, in no particular order. -/
def best (limit : Nat) (order : α → α → Ordering) (stream : List α) : List α :=
  (stream.foldl (offer limit) (.empty (limit + 1) order)).items.toList

end Selection

end FuzzyFinder
