import FuzzyFinder.Chunks
import FuzzyFinder.Options
import FuzzyFinder.Ranking
import FuzzyFinder.Score

/-!
# FuzzyFinder — search sessions

A `Session` runs one query after the other over a fixed corpus, the way a query is typed. Next to
each candidate it keeps what earlier runs found out: the candidate's letters, and its last score.
When a needle continues the previous one, a candidate that missed then is not scored again. A
large corpus is cut into chunks that are dealt to several workers in turn; each worker selects
its best hits on its own, and the selections are merged, sorted and cut off at the limit.
-/

namespace FuzzyFinder

/-- A candidate with what earlier runs found out about it. -/
structure Haystack where
  /-- The candidate itself. -/
  candidate : Bytes
  /-- Its letters, once collected. -/
  letters : Option LetterSet := none
  /-- The score from the last run that looked at it. -/
  score : Option Score := none

namespace Haystack

/-- The cached score says that the candidate missed. -/
def isCachedMiss (h : Haystack) : Bool := h.score.any (· == Score.miss)

/-- Rates the candidate and remembers the outcome. -/
def refresh (h : Haystack) (needle : Needle) (options : ScoreOptions) : Haystack :=
  let (score, letters) := rate h.candidate h.letters needle options
  { h with letters, score := some score }

/-- The hit that the cached score amounts to, if it does. -/
def hit? (h : Haystack) : Option Hit :=
  match h.score with
  | some score => if score.isMatch then some ⟨score, h.candidate⟩ else none
  | none => none

end Haystack

/-- What one run finds. -/
structure Found where
  /-- The matching candidates, best first. -/
  results : List Bytes
  /-- How many candidates were searched. -/
  candidateCount : Nat
deriving DecidableEq

/-! ## Dealing candidates to workers -/

namespace Deal

universe u

variable {α : Type u}

/-- How many consecutive candidates go to a worker at a time. -/
def chunkSize : Nat := 64

/-- A smaller corpus is left to a single worker. -/
def threshold : Nat := 1000

/-- Deals chunks to `workers` in turn, and strings those of each worker together. -/
def shares (workers : Nat) (chunks : List (List α)) : List (List α) :=
  (List.range workers).map fun w =>
    (chunks.zipIdx.filter fun (_, i) => i % workers == w).flatMap (·.1)

/-- The number of workers for `count` candidates when `threads` are allowed. -/
def workers (threads count : Nat) : Nat :=
  if count < threshold then 1
  else max 1 (min threads ((count + chunkSize - 1) / chunkSize))

end Deal

/-! ## Sessions -/

/-- A search over a fixed corpus, between two runs. -/
structure Session where
  /-- The options, as accepted when the session started. -/
  options : SearchOptions
  /-- The candidates in corpus order. -/
  haystacks : List Haystack
  /-- The needle of the previous run. -/
  previous : Option Needle := none

namespace Session

/-- Starts a session over all candidates of a corpus. -/
def start (corpus : Corpus) (options : SearchOptions) : Except MatchError Session := do
  let options ← options.accept
  return { options, haystacks := corpus.toList.map fun candidate => { candidate } }

/-- The number of candidates. -/
def candidateCount (s : Session) : Nat := s.haystacks.length

/-- The haystacks after a run for `needle`. A cached miss stands when the needle continues the
previous one. -/
def refreshed (s : Session) (needle : Needle) : List Haystack :=
  let keepMisses := s.previous.any needle.continues
  let options := s.options.scoreOptions needle.caseSensitive
  s.haystacks.map fun h => if keepMisses && h.isCachedMiss then h else h.refresh needle options

/-- The best hits among scored haystacks: every worker selects from its share, and the last
worker's selection comes first in the merge. -/
def select (options : SearchOptions) (needle : Needle) (haystacks : List Haystack) : List Hit :=
  let count := haystacks.length
  -- No run returns more than the corpus holds, and a heap needs room for one.
  let limit := max 1 (min options.limit count)
  let shares := Deal.shares (Deal.workers options.threads count)
    (chunks Deal.chunkSize haystacks)
  let selections := shares.map fun share =>
    Selection.best limit needle.ranking (share.filterMap Haystack.hit?)
  let merged := selections.getLast?.getD [] ++ selections.dropLast.flatten
  (merged.mergeSort fun a b => needle.ranking a b != .gt).take limit

/-- Runs one query. -/
def run (s : Session) (query : Bytes) : Found × Session :=
  let needle := s.options.needle query
  let haystacks := s.refreshed needle
  let hits := select s.options needle haystacks
  ({ results := hits.map (·.candidate), candidateCount := s.candidateCount },
    { s with haystacks, previous := some needle })

end Session

end FuzzyFinder
