import FuzzyFinder.Intake.Stream

/-!
# FuzzyFinder — candidates from a command

A command's output is split like any other stream. When splitting itself did not fail and did not
stop at the wanted number of candidates, the exit status is looked at: a command that ended badly
is reported next to what it wrote. A command that was stopped because enough candidates were there
is never blamed for it. That its end could not be found out is reported even then.
-/

namespace FuzzyFinder

/-- What became of a command. -/
inductive CommandRun where
  /-- It could not be started. -/
  | notStarted (reason : String)
  /-- It wrote a stream and ended. -/
  | ended (output : Stream) (status : ExitStatus)
  /-- It wrote a stream, and how it ended could not be found out. -/
  | lost (output : Stream) (reason : String)

/-- Splits the output of a command into candidates. -/
def readCommand (run : CommandRun) (o : ReadOptions) : ScanResult :=
  match run with
  | .notStarted reason => .failed (.spawn reason)
  | .ended output status =>
    let (collected, stop) := output.collect o
    let error := match stop.error? with
      | some error => some error
      | none =>
        if !status.isSuccess && !collected.isFull o.maxFiles then some (.commandFailed status)
        else none
    .ofCollected collected error
  | .lost output reason =>
    let (collected, stop) := output.collect o
    .ofCollected collected (some (stop.error?.getD (.read reason)))

end FuzzyFinder
