import FuzzyFinder.Intake.Command
import FuzzyFinder.Shell.Interpreter
import FuzzyFinder.Shell.Schedule

/-!
# FuzzyFinder — running scripts

Runs a script with nothing to read and with nobody to listen to its messages, and gives what it
writes. A script is stopped as soon as its reader has read enough, so that even a script without an
end comes to one.
-/

namespace FuzzyFinder

namespace Shell

/-- Commands are run to this depth. -/
def maxNesting : Nat := 20000

/-- More than any script writes whose reader stops by itself. -/
def outputRoom : Nat := 1000000000

/-- What a reader with the given options wants. -/
def demandOf (o : ReadOptions) : Demand where
  delimiter := Char.ofNat o.delimiter.toNat
  least := o.drop
  entries := if o.maxFiles == 0 then none else some o.maxFiles

/-- The variables that are there from the beginning. -/
def initialVariables (directory : Text) : List (Text × Variable) :=
  let plain (name : String) (value : Text) : Text × Variable := (name.toList, { value })
  let exported (name : String) (value : Text) : Text × Variable :=
    (name.toList, { value, exported := true })
  [plain "IFS" Fields.defaultSeparators, plain "OPTIND" ['1'],
    exported "PATH" Naming.standardPath, plain "PPID" ['1'], plain "PS1" "# ".toList,
    plain "PS2" "> ".toList, plain "PS4" "+ ".toList, exported "PWD" directory]

/-- Where a script runs. -/
structure Surroundings where
  files : FileTree
  /-- The working directory. -/
  directory : Place := files.top

/-- A shell at its beginning. -/
def initialState (around : Surroundings) (o : ReadOptions) : State :=
  let path := System.pathOf around.directory
  let output : Channel :=
    { room := some outputRoom, demand := some (demandOf o), readers := 1, writers := 1 }
  { tree := around.files
    channels := [(outputChannel, output)]
    nextChannel := outputChannel + 1
    bindings := initialVariables path
    handles := [(0, .device .null ⟨true, false⟩), (1, .sink outputChannel),
      (2, .device .null ⟨false, true⟩)]
    directory := around.directory
    directoryPath := path }

/-- Runs a script to its end. -/
def runScript (script : Text) : Run Unit :=
  let r : Runner := { run := runCommand maxNesting }
  r.toEnd (discard (r.runText false script))

/-- Takes a text for switches, which leave no script to run. At first all options count as set. -/
def runSwitches (on : Bool) (letters : Text) : Run Unit := do
  modify fun s => { s with options := ShellOption.all.map (·.1) }
  let known := letters.filter fun c => c != 'c' && c != 'l'
  let read ← Settings.setLetters on known []
  let _ ← writeTo 1 read.output
  setStatus 2

/-- Runs a text as a script, or takes it for switches if it opens like these. -/
def runWhole (t : Text) : Run Unit :=
  match t with
  | '-' :: letters => runSwitches true letters
  | '+' :: letters => runSwitches false letters
  | t => runScript t

/-- What the end of a process is to those outside. -/
def Ending.exitStatus : Ending → ExitStatus
  | .exited status => .exited status.toUInt8
  | .killed signal => .killed signal

/-- What becomes of a script whose output is read under the given options. -/
def run (around : Surroundings) (o : ReadOptions) (script : String) : CommandRun :=
  if script.toList.contains '\x00' then .notStarted "nul byte found in provided data"
  else
    let s := runProcesses (runWhole (Text.ofString script)) (initialState around o)
    let output := ((s.channel? outputChannel).map Channel.content).getD []
    let ending := (s.endings.lookup mainProcess).getD (.exited 0)
    .ended (.whole (Text.toBytes output)) ending.exitStatus

end Shell

end FuzzyFinder
