import FuzzyFinder.Intake.Error

/-!
# FuzzyFinder — collecting candidates

Every producer of candidates writes them one behind the other into a single buffer and notes the
span of each. At the end the corpus adopts the buffer as it is, so no candidate is copied twice.
A producer may be told to stop after a number of candidates.
-/

namespace FuzzyFinder

/-- The candidates collected so far. -/
structure Collected where
  /-- The bytes of all candidates. -/
  buffer : Array UInt8 := #[]
  /-- Where each candidate lies in the buffer. -/
  spans : Array Span := #[]

namespace Collected

/-- Adds a candidate behind the others. -/
def push (c : Collected) (entry : Bytes) : Collected :=
  -- The span comes first, so that the buffer can grow in place.
  let span : Span := ⟨c.buffer.size, entry.length⟩
  { buffer := c.buffer ++ entry, spans := c.spans.push span }

/-- The number of candidates. -/
def size (c : Collected) : Nat := c.spans.size

/-- No more than `maxFiles` candidates are wanted, and they are all here; `0` sets no bound. -/
def isFull (c : Collected) (maxFiles : Nat) : Bool := 0 < maxFiles && maxFiles ≤ c.size

end Collected

/-- The candidates of one intake, with the failure that ended it early if there was one. -/
structure ScanResult where
  corpus : Corpus
  error : Option ScanError

namespace ScanResult

/-- Turns what was collected into a corpus. -/
def ofCollected (c : Collected) (error : Option ScanError) : ScanResult :=
  match Corpus.ofSlab c.buffer c.spans.toList with
  | .ok corpus => { corpus, error }
  | .error reason => { corpus := .empty, error := some (.layout reason) }

/-- An intake that failed before it began. -/
def failed (error : ScanError) : ScanResult := { corpus := .empty, error := some error }

end ScanResult

end FuzzyFinder
