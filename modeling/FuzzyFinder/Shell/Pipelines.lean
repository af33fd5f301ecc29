import FuzzyFinder.Shell.Naming
import FuzzyFinder.Shell.Runner

/-!
# FuzzyFinder — pipelines

The stages of a pipeline are processes of their own, with a channel between each two of them. The
shell starts them all and lets go of the channels, so that each channel has nobody at its ends but
the two stages; then it waits for all of them, or goes on if they are in the background.
-/

namespace FuzzyFinder

namespace Shell

namespace Runner

/-- How many bytes the channel between two stages has room for. -/
def stageRoom : Nat := 65536

/-- The state of a stage at its beginning. -/
def stageState (inBackground : Bool) (input output : Option Handle) (s : State) : State :=
  let s := if inBackground then s.inBackground else s
  let s := if input.isSome then s.setHandle 0 input else s
  if output.isSome then s.setHandle 1 output else s

/-- Lets go of a handle. -/
def letGo (h : Option Handle) : Run Unit := modify fun s => s.release h

/-- Starts the stages of a pipeline and gives their processes. `input` is what the first one reads,
if that is not what the shell reads. -/
def stages (r : Runner) (tested inBackground : Bool) : (input : Option Handle) → List Command →
    Run (List Nat)
  | _, [] => return []
  | input, c :: rest => do
    if let .simple _ _ words _ := c then Naming.lookAhead words
    unless rest.isEmpty || (← get).canOpen 2 do fail (Text.ofString "Pipe call failed")
    let next ← if rest.isEmpty then pure none
      else some <$> addChannel { room := some stageRoom, readers := 1, writers := 1 }
    let output := next.map Handle.sink
    let process ← start (stageState inBackground input output) (r.toEnd (r.runLast tested c))
    letGo input
    letGo output
    return process :: (← stages r tested inBackground (next.map Handle.source) rest)

/-- Runs a pipeline, perhaps in the background. -/
def pipeline (r : Runner) (tested inBackground : Bool) (cs : List Command) : Run Unit := do
  let number ← Jobs.claim
  let processes ← r.stages (tested && !inBackground) inBackground none cs
  if inBackground then Jobs.add number processes
  else
    let endings ← processes.mapM fun p => Jobs.awaitEnding p Reader.patience
    settle endings
    setStatus (((endings.getLast?).map (·.status)).getD 0)

end Runner

end Shell

end FuzzyFinder
