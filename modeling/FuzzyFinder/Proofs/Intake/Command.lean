import FuzzyFinder.Intake.Command
import FuzzyFinder.Proofs.Intake.Stream

/-!
# FuzzyFinder — what a command brings

A command brings what its output brings, and behind that its own failure if it ends badly
(`CommandRun.feed`). Read to the end it is reported for that; when reading stops before the end, it
makes no difference how it ends (`readCommand_congr`). This is not so for a command whose end could
not be found out, which is reported unless its output has failed before (`readCommand_lost`).
-/

namespace FuzzyFinder

/-- What a command brings. -/
def CommandRun.feed (o : ReadOptions) : CommandRun → Feed
  | .notStarted reason => [.error (.spawn reason)]
  | .ended output status =>
    output.feed o ++ if status.isSuccess then [] else [.error (.commandFailed status)]
  | .lost output reason => output.feed o ++ [.error (.read reason)]

namespace CommandRun

variable {o : ReadOptions} {output : Stream} {status : ExitStatus}

theorem isFull_collect_iff :
    (output.collect o).1.isFull o.maxFiles = true ↔ (output.collect o).2 = .capped := by
  rw [Stream.collect_eq]
  exact (Collected.isFull_ofList_iff ..).trans
    (Feed.gather_snd_eq_capped_iff (Nat.eq_zero_or_pos _) _).symm

/-- The end of a command is looked at only when its output was read to the end. -/
theorem readCommand_ended :
    readCommand (.ended output status) o = match output.collect o with
      | (collected, .exhausted) =>
        .ofCollected collected (if status.isSuccess then none else some (.commandFailed status))
      | (collected, .capped) => .ofCollected collected none
      | (collected, .failed error) => .ofCollected collected (some error) := by
  have hfull := @isFull_collect_iff o output
  rw [readCommand]
  generalize output.collect o = r at hfull ⊢
  obtain ⟨collected, _ | _ | e⟩ := r
  · have hopen : collected.isFull o.maxFiles = false :=
      Bool.eq_false_iff.mpr (mt hfull.mp nofun)
    cases hsuccess : status.isSuccess <;> simp [Stop.error?, hopen]
  · have hclosed : collected.isFull o.maxFiles = true := hfull.mpr rfl
    simp [Stop.error?, hclosed]
  · rfl

theorem readCommand_notStarted_yields (reason : String) (o : ReadOptions) :
    (feed o (.notStarted reason)).Yields o.maxFiles (readCommand (.notStarted reason) o) :=
  ⟨rfl, rfl⟩

theorem readCommand_ended_yields (output : Stream) (status : ExitStatus) (o : ReadOptions) :
    (feed o (.ended output status)).Yields o.maxFiles (readCommand (.ended output status) o) := by
  suffices h : readCommand (.ended output status) o
      = .ofCollected (.ofList (Feed.gather o.maxFiles [] (feed o (.ended output status))).1)
          (Feed.gather o.maxFiles [] (feed o (.ended output status))).2.error? by
    rw [h]
    exact Feed.yields_ofCollected ..
  rw [readCommand_ended, Stream.collect_eq, feed, Feed.gather_append]
  -- the failure of the command stands behind all of its output
  rcases Feed.gather o.maxFiles [] (output.feed o) with ⟨l, _ | _ | e⟩
  · cases hsuccess : status.isSuccess <;> rfl
  · rfl
  · rfl

/-- A command whose end could not be found out brings what its output brings. It is reported even where
enough candidates are there, while a bad end is reported only behind all of the output. -/
theorem readCommand_lost (output : Stream) (reason : String) (o : ReadOptions) :
    (readCommand (.lost output reason) o).corpus.toList = (readStream output o).corpus.toList ∧
    (readCommand (.lost output reason) o).error
      = some ((readStream output o).error.getD (.read reason)) := by
  rw [readCommand, readStream, Stream.collect_eq]
  simp only [Prod.map, id, ScanResult.toList_ofCollected, ScanResult.error_ofCollected, true_and]

/-- When reading stops before the end of the output, it makes no difference how the command
ends. -/
theorem readCommand_congr {status' : ExitStatus}
    (h : (output.collect o).2 = .exhausted → status' = status) :
    readCommand (.ended output status') o = readCommand (.ended output status) o := by
  rw [readCommand_ended, readCommand_ended]
  generalize output.collect o = r at h ⊢
  obtain ⟨collected, _ | _ | e⟩ := r
  · rw [h rfl]
  · rfl
  · rfl

end CommandRun

end FuzzyFinder
