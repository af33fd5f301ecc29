import FuzzyFinder.Corpus
import FuzzyFinder.Needle
import FuzzyFinder.Score.Options

/-!
# FuzzyFinder — search options

`SearchOptions` is what a search is configured with. Options are only checked when a session
starts: a search that may return nothing or has no workers is refused, and the number of workers
is capped.
-/

namespace FuzzyFinder

/-- How candidates are scored, ranked and cut off. -/
structure SearchOptions where
  /-- Let dot-files match whatever the needle. -/
  alwaysShowDotFiles : Bool := false
  /-- Keep dot-files out whatever the needle. -/
  neverShowDotFiles : Bool := false
  /-- How queries treat case. -/
  caseMatching : CaseMatching := .smart
  /-- Drop blanks from queries. -/
  ignoreSpaces : Bool := true
  /-- The greatest number of matches per run. -/
  limit : Nat := 100
  /-- The number of workers that share a large corpus, one unless asked otherwise. How many the
  machine has room for is for a call of the program to find out (`Cli.searchOptions`). -/
  threads : Nat := 1
  /-- Explore every placement of the needle instead of the first one. -/
  recurse : Bool := true
deriving DecidableEq

namespace SearchOptions

/-- The scoring options for needles of the given case mode. -/
def scoreOptions (o : SearchOptions) (caseSensitive : Bool) : ScoreOptions where
  caseSensitive := caseSensitive
  alwaysShowDotFiles := o.alwaysShowDotFiles
  neverShowDotFiles := o.neverShowDotFiles
  recurse := o.recurse

/-- The needle for a query. -/
def needle (o : SearchOptions) (query : Bytes) : Needle :=
  .ofQuery query o.caseMatching o.ignoreSpaces

/-- More workers than this are never started. -/
def maxThreads : Nat := 64

/-- The options a search really runs with, or why there is none. -/
def accept (o : SearchOptions) : Except MatchError SearchOptions :=
  if o.limit = 0 then .error .invalidLimit
  else if o.threads = 0 then .error .invalidThreadCount
  else .ok { o with threads := min o.threads maxThreads }

end SearchOptions

end FuzzyFinder
