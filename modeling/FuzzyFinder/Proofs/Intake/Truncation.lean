import FuzzyFinder.Proofs.Intake.Command
import FuzzyFinder.Proofs.Intake.Files

/-!
# FuzzyFinder — a bound on the candidates

Asking for at most `k` candidates changes nothing but where an intake stops. From the closed form of
what a feed comes to, an intake with the bound brings the first `k` candidates of the one without,
and it fails where that one fails unless the bound is reached first: the first failure is reported
just when fewer than `k` candidates stand in front of it (`Feed.Yields.truncates`). All producers of
candidates read feeds, so it holds of each of them (`maxFiles_truncates`).
-/

namespace FuzzyFinder

/-- What an intake brings under a bound of `k` candidates, and what it brings without a bound, when
there is `feed` to be read. -/
structure Truncates (k : Nat) (feed : Feed) (bounded unbounded : ScanResult) : Prop where
  candidates_eq : bounded.corpus.toList = unbounded.corpus.toList.take k
  error_eq : bounded.error = if k ≤ unbounded.corpus.toList.length then none else unbounded.error
  /-- Without a bound the candidates are those in front of the first failure. -/
  unbounded_candidates_eq : unbounded.corpus.toList = feed.candidates
  /-- Without a bound the first failure is reported, wherever it stands. -/
  unbounded_error_eq_some_iff : ∀ e, unbounded.error = some e ↔ ∃ front, feed.FailsBehind front e
  /-- With the bound it is reported just when it stands in front of the `k`-th candidate. -/
  error_eq_some_iff : ∀ e, bounded.error = some e
    ↔ ∃ front, feed.FailsBehind front e ∧ front.length < k

theorem Feed.Yields.truncates {k : Nat} (hk : 0 < k) {feed : Feed} {bounded unbounded : ScanResult}
    (hbounded : feed.Yields k bounded) (hunbounded : feed.Yields 0 unbounded) :
    Truncates k feed bounded unbounded := by
  obtain ⟨hcandidates, herror⟩ := hbounded
  obtain ⟨hcandidates₀, herror₀⟩ := hunbounded
  have hreported : ∀ e, bounded.error = some e
      ↔ ∃ front, feed.FailsBehind front e ∧ front.length < k := by
    intro e
    rw [herror, error_gather_eq_some_iff]
    simp only [Nat.pos_iff_ne_zero.mp hk, false_or]
  have hreported₀ : ∀ e, unbounded.error = some e ↔ ∃ front, feed.FailsBehind front e := by
    intro e
    rw [herror₀, error_gather_eq_some_iff]
    simp only [true_or, and_true]
  rw [gather_zero] at hcandidates₀ herror₀
  rw [gather_eq (.inr hk)] at hcandidates herror
  by_cases hreached : k ≤ feed.candidates.length
  · -- the bound is reached, and what would have come is not looked at
    rw [if_pos ⟨hk, by simpa using hreached⟩] at hcandidates herror
    refine ⟨?_, ?_, hcandidates₀, hreported₀, hreported⟩
    · rw [hcandidates, hcandidates₀]
      rfl
    · rw [herror, hcandidates₀, if_pos hreached]
      rfl
  · -- both intakes end at the first failure or where the feed does
    rw [if_neg (fun h => hreached (by simpa using h.2))] at hcandidates herror
    refine ⟨?_, ?_, hcandidates₀, hreported₀, hreported⟩
    · rw [hcandidates, hcandidates₀, List.take_of_length_le (Nat.le_of_not_le hreached)]
      rfl
    · rw [herror, hcandidates₀, if_neg hreached, herror₀]

/-- `run.Stopped o run'`: a command that ends as `run` when it is left alone may end as `run'` when it
is killed as soon as reading stops. Its output up to there is the same, and its status is the same
unless it has been killed. A command whose end could not be found out has no status, and is not spoken
of here. -/
inductive CommandRun.Stopped (o : ReadOptions) : CommandRun → CommandRun → Prop
  | notStarted (reason : String) : Stopped o (.notStarted reason) (.notStarted reason)
  | ended (output : Stream) {status status' : ExitStatus}
      (h : (output.collect o).2 = .exhausted → status' = status) :
      Stopped o (.ended output status) (.ended output status')

/-- **A bound is a pure truncation**, for streams, commands and walks alike. A failure behind the
`k`-th candidate is never reported, and the first one is if it stands in front of it: a failed read,
an entry too short, a fault of the walk, or the bad end of a command behind all of its output. -/
theorem maxFiles_truncates {k : Nat} (hk : 0 < k) :
    (∀ (s : Stream) (o : ReadOptions),
      Truncates k (s.feed o)
        (readStream s { o with maxFiles := k }) (readStream s { o with maxFiles := 0 })) ∧
    (∀ (run run' : CommandRun) (o : ReadOptions), run.Stopped { o with maxFiles := k } run' →
      Truncates k (run.feed o)
        (readCommand run' { o with maxFiles := k }) (readCommand run { o with maxFiles := 0 })) ∧
    (∀ walk : List WalkResult,
      Truncates k (walkFeed walk) (readWalk walk k) (readWalk walk 0)) := by
  refine ⟨fun s o => ?_, fun run run' o hstopped => ?_, fun walk => ?_⟩
  · exact (s.readStream_yields { o with maxFiles := k }).truncates hk
      (s.readStream_yields { o with maxFiles := 0 })
  · cases hstopped with
    | notStarted reason =>
      exact (CommandRun.readCommand_notStarted_yields reason { o with maxFiles := k }).truncates hk
        (CommandRun.readCommand_notStarted_yields reason { o with maxFiles := 0 })
    | @ended output status status' h =>
      rw [CommandRun.readCommand_congr h]
      exact (CommandRun.readCommand_ended_yields output status { o with maxFiles := k }).truncates hk
        (CommandRun.readCommand_ended_yields output status { o with maxFiles := 0 })
  · exact (readWalk_yields walk k).truncates hk (readWalk_yields walk 0)

/-- Two candidates are wanted. A command that writes three lines and ends with code 3 is killed behind
the second of them and not blamed. A walk is blamed for a fault in front of the second file, and not
for one behind it. -/
theorem maxFiles_truncates_at_two :
    let output : Stream := .whole [97, 10, 98, 10, 99]
    let run : CommandRun := .ended output (.exited 3)
    let killed : CommandRun := .ended output (.killed 9)
    let a : WalkResult := .ok { path := [97], isFile := true }
    let b : WalkResult := .ok { path := [98], isFile := true }
    let early : List WalkResult := [a, .error "loop", b]
    let late : List WalkResult := [a, b, .error "loop"]
    0 < 2 ∧
    run.Stopped { maxFiles := 2 } killed ∧
    Truncates 2 (run.feed {}) (readCommand killed { maxFiles := 2 }) (readCommand run {}) ∧
    (readCommand killed { maxFiles := 2 }).corpus.toList = [[97], [98]] ∧
    (readCommand killed { maxFiles := 2 }).error = none ∧
    (readCommand run {}).error = some (.commandFailed (.exited 3)) ∧
    Truncates 2 (walkFeed early) (readWalk early 2) (readWalk early 0) ∧
    (readWalk early 2).corpus.toList = [[97]] ∧
    (readWalk early 2).error = some (.walk "loop") ∧
    Truncates 2 (walkFeed late) (readWalk late 2) (readWalk late 0) ∧
    (readWalk late 2).corpus.toList = [[97], [98]] ∧
    (readWalk late 2).error = none ∧
    (readWalk late 0).error = some (.walk "loop") := by
  intro output run killed a b early late
  have hk : 0 < 2 := by decide
  have hstopped : run.Stopped { maxFiles := 2 } killed :=
    .ended output fun h => nomatch (show Stop.capped = .exhausted from h)
  exact ⟨hk, hstopped, (maxFiles_truncates hk).2.1 run killed {} hstopped, rfl, rfl, rfl,
    (maxFiles_truncates hk).2.2 early, rfl, rfl, (maxFiles_truncates hk).2.2 late, rfl, rfl, rfl⟩

end FuzzyFinder
