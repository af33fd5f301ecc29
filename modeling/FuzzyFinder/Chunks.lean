/-!
# FuzzyFinder — cutting lists into chunks

Both the bytes of a stream and the candidates of a large corpus are handed out in chunks of a
fixed size, with what is left over as the last chunk.
-/

namespace FuzzyFinder

universe u

variable {α : Type u}

/-- Cuts a list into at most `count` chunks of `size` items. -/
def chunksUpTo (size : Nat) : (count : Nat) → List α → List (List α)
  | 0, _ => []
  | _, [] => []
  | count + 1, l => l.take size :: chunksUpTo size count (l.drop size)

/-- Cuts a list into chunks of `size` items; `size` is at least one. -/
def chunks (size : Nat) (l : List α) : List (List α) := chunksUpTo size l.length l

end FuzzyFinder
