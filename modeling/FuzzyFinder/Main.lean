import FuzzyFinder.Cli.Run
import FuzzyFinder.Shell.Run

/-!
# FuzzyFinder — the entry point

Gathers what one call of the program depends on, and carries out what it decides. The entry point
has the arguments, the environment and the standard streams at its disposal, but no file system:
the tree it offers is empty, so that a directory argument leads nowhere.
-/

namespace FuzzyFinder

namespace Cli

/-- The variable that holds default options. -/
def defaultOptionsVariable : String := "FZM_DEFAULT_OPTIONS"

/-- Everything that can still be read, behind the pieces in `taken`. -/
partial def readAll (input : IO.FS.Stream) (taken : Array Delivery) : IO Stream := do
  let piece ← input.read 65536
  if piece.isEmpty then return { deliveries := taken.toList }
  else readAll input (taken.push (.bytes piece.toList))

end Cli

end FuzzyFinder

open FuzzyFinder in
/-- One call of the program. -/
def main (arguments : List String) : IO UInt32 := do
  let files : FileTree := { mount := [Byte.dot] }
  let input ← IO.getStdin
  let terminal ← input.isTty
  let stdin : Stream ← if terminal then pure { deliveries := [] } else Cli.readAll input #[]
  let outcome := Cli.run {
    arguments
    defaultOptions := ← IO.getEnv Cli.defaultOptionsVariable
    stdin
    terminal
    files
    command := Shell.run { files } }
  let output ← IO.getStdout
  output.write outcome.stdout.toByteArray
  output.flush
  for line in outcome.report do
    IO.eprintln line
  return outcome.exitCode.toUInt32
