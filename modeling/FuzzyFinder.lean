import FuzzyFinder.Main
import FuzzyFinder.Proofs.Binary32.Rounding
import FuzzyFinder.Proofs.Binary32.Unpacked
import FuzzyFinder.Proofs.Binary32.Operations
import FuzzyFinder.Proofs.Binary32.Value
import FuzzyFinder.Proofs.Binary32.Constants
import FuzzyFinder.Proofs.Score.Contribution
import FuzzyFinder.Proofs.Score.Bounds
import FuzzyFinder.Proofs.Score.Search
import FuzzyFinder.Proofs.Letters
import FuzzyFinder.Proofs.Score.Rate
import FuzzyFinder.Proofs.Score.Optimal
import FuzzyFinder.Proofs.Heap
import FuzzyFinder.Proofs.Binary32.Order
import FuzzyFinder.Proofs.Deal
import FuzzyFinder.Proofs.Selection
import FuzzyFinder.Proofs.Selection.Best
import FuzzyFinder.Proofs.Ranking
import FuzzyFinder.Proofs.Session.History
import FuzzyFinder.Proofs.Session.Ranking
import FuzzyFinder.Proofs.Score.Inheritance
import FuzzyFinder.Proofs.Session.Incremental
import FuzzyFinder.Proofs.Heap.Checked
import FuzzyFinder.Proofs.Heap.Ledger
import FuzzyFinder.Proofs.Corpus
import FuzzyFinder.Proofs.Score.Visible
import FuzzyFinder.Proofs.Session.Hiding
import FuzzyFinder.Proofs.Binary32.Error
import FuzzyFinder.Proofs.Score.FullMarks
import FuzzyFinder.Proofs.Score.Range
import FuzzyFinder.Proofs.Session.Range
import FuzzyFinder.Proofs.Intake.Collected
import FuzzyFinder.Proofs.Intake.Feed
import FuzzyFinder.Proofs.Intake.Stream
import FuzzyFinder.Proofs.Intake.Splitting
import FuzzyFinder.Proofs.Intake.Command
import FuzzyFinder.Proofs.Intake.Files
import FuzzyFinder.Proofs.Intake.Truncation
import FuzzyFinder.Proofs.Intake.Failure
import FuzzyFinder.Proofs.Session.FirstRun
import FuzzyFinder.Proofs.Cli.ReadBack
import FuzzyFinder.Proofs.Score.FirstFit
import FuzzyFinder.Proofs.Score.Commitment
import FuzzyFinder.Proofs.Score.Relaxation
import FuzzyFinder.Proofs.Score.MatchSet
import FuzzyFinder.Proofs.Score.Cache
import FuzzyFinder.Proofs.Corpus.Adoption
import FuzzyFinder.Proofs.Intake.Tiling
import FuzzyFinder.Proofs.Needle
import FuzzyFinder.Proofs.Score.Checked.Bounds
import FuzzyFinder.Proofs.Score.Checked
import FuzzyFinder.Proofs.Score.Bounds.Tight
import FuzzyFinder.Proofs.Score.Search.Leftovers
