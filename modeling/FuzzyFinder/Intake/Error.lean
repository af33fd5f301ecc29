import FuzzyFinder.Corpus
import FuzzyFinder.Signal

/-!
# FuzzyFinder — failures of an intake

What can cut the production of candidates short. A failure travels next to the candidates that
were collected before it; it never takes their place.
-/

namespace FuzzyFinder

/-- How a command ended. -/
inductive ExitStatus where
  /-- By itself, with a code. -/
  | exited (code : UInt8)
  /-- By a signal. -/
  | killed (signal : Nat)
deriving DecidableEq

/-- The command ended well. -/
def ExitStatus.isSuccess (s : ExitStatus) : Bool := s == .exited 0

/-- The wording of an end. -/
def ExitStatus.message : ExitStatus → String
  | .exited code => s!"exit status: {code}"
  | .killed signal =>
    match Signal.name? signal with
    | some name => s!"signal: {signal} ({name})"
    | none => s!"signal: {signal}"

/-- Why the production of candidates ended early. -/
inductive ScanError where
  /-- The command could not be started. -/
  | spawn (reason : String)
  /-- A read failed. -/
  | read (reason : String)
  /-- The directory walk met a fault. -/
  | walk (reason : String)
  /-- An entry of `length` bytes has fewer than the `drop` bytes that are to be removed. -/
  | dropExceedsEntry (drop length : Nat)
  /-- The command ended badly. -/
  | commandFailed (status : ExitStatus)
  /-- What was collected does not make a corpus. -/
  | layout (reason : MatchError)
deriving DecidableEq

/-- The wording of a failure. -/
def ScanError.message : ScanError → String
  | .spawn reason => s!"could not spawn command: {reason}"
  | .read reason => s!"read failed: {reason}"
  | .walk reason => s!"directory walk failed: {reason}"
  | .dropExceedsEntry drop length =>
    s!"entry of {length} bytes is too short to drop {drop} bytes"
  | .commandFailed status => "command exited with " ++ status.message
  | .layout reason => reason.message

end FuzzyFinder
