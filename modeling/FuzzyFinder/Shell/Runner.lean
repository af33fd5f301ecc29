import FuzzyFinder.Shell.Input
import FuzzyFinder.Shell.Jobs
import FuzzyFinder.Shell.Parser
import FuzzyFinder.Shell.Redirection
import FuzzyFinder.Shell.Signals

/-!
# FuzzyFinder — commands inside of commands

The commands inside of a command are run by a `Runner`, so that each kind of command is defined by
itself. Here are the things that run commands on the way to something else: texts, the actions of
traps, further shells and the words that stand for the output of a command. A command whose status
decides what happens next is `tested`: its failure does not end a shell that is to end at the first
failure.
-/

namespace FuzzyFinder

namespace Shell

/-- The running of the commands inside of others. -/
structure Runner where
  /-- Runs a command. -/
  run : (tested : Bool) → Command → Run Unit

namespace Runner

/-! ## Texts and traps -/

/-- Runs the lines of a text one after the other; tells whether there is any command in it. -/
def runLines (r : Runner) (tested : Bool) : (fuel : Nat) → (ran : Bool) → Reader → Run Bool
  | 0, ran, _ => return ran
  | fuel + 1, ran, reader => do
    let s ← get
    match readLine { reader with aliases := s.aliases, documents := s.documents } with
    | .error fault reader =>
      modify fun s => { s with line := reader.line }
      fail (Text.ofString ("Syntax error: " ++ fault.message))
    | .ok line reader =>
      modify fun s => { s with documents := reader.documents, lineRead := reader.line }
      match line with
      | .over => return ran
      | .empty => runLines r tested fuel ran reader
      | .command c =>
        r.run tested c
        runLines r tested fuel true reader

/-- Runs a text; tells whether there is any command in it. -/
def runText (r : Runner) (tested : Bool) (t : Text) : Run Bool := do
  let before := (← get).lineRead
  let ran ← runLines r tested Reader.patience false { text := t }
  modify fun s => { s with lineRead := before }
  return ran

/-- Runs the action of a trap. The status of the last command comes back behind it, unless the
action leaves the shell or the function. -/
def runTrap (r : Runner) (action : Text) : Run Unit := do
  let before ← get
  modify fun s => { s with statusBefore := s.statusBefore.or (some s.status) }
  let leap ← attempt (discard (r.runText false action))
  modify fun s => { s with statusBefore := before.statusBefore }
  match leap with
  | none => setStatus before.status
  | some (.leaveLoop n) =>
    setStatus before.status
    throw (.leaveLoop n)
  | some (.nextRound n) =>
    setStatus before.status
    throw (.nextRound n)
  | some leap => throw leap

/-- Does what is to be done on a signal that has come in. -/
def takeSignal (r : Runner) (n : Nat) : Run Unit := do
  match (← get).traps.lookup n with
  | none | some [] => return ()
  | some action => r.runTrap action

/-- Does what is to be done on the signals that have come in. -/
def takeSignals (r : Runner) : Run Unit := do
  receive
  let s ← get
  unless s.caught.isEmpty do
    modify fun s => { s with caught := [] }
    (s.caught.mergeSort).forM r.takeSignal

/-- Does something as the last thing of a shell, and then what is to be done at its end. A signal
that ends the shell leaves no time for that. -/
def toEnd (r : Runner) (action : Run Unit) : Run Unit := do
  match ← attempt action with
  | some (.killed n) => throw (.killed n)
  | _ =>
    let s ← get
    match s.traps.lookup 0 with
    | none | some [] => return ()
    | some action =>
      modify fun s => { s with
        traps := s.traps.filter (·.1 != 0), statusBefore := some s.status, loops := 0 }
      match ← attempt (discard (r.runText false action)) with
      | some .exit | some .failure => return ()
      | some (.killed n) => throw (.killed n)
      | _ => setStatus s.status

/-! ## Further shells -/

/-- Does what is to be done about processes that have been waited for. -/
def settle (endings : List Ending) : Run Unit := do
  giveWay
  takeIn childSignal
  receive
  Jobs.report endings
  Jobs.reap

/-- Runs a command as the last thing of a shell. -/
def runLast (r : Runner) (tested : Bool) (c : Command) : Run Unit := do
  modify fun s => { s with isLast := true }
  r.run tested c

/-- Runs the last part of a command that may be the `last` thing of a shell itself. -/
def runTail (r : Runner) (last tested : Bool) (c : Command) : Run Unit :=
  if last then r.runLast tested c else r.run tested c

/-- Does something in a further shell, and gives the status of that. -/
def inSubshell (r : Runner) (action : Run Unit) : Run Nat := do
  giveWay
  let ending ← inFurther (r.toEnd action)
  settle [ending]
  return ending.status

/-- More than any script writes into a word. -/
def wordRoom : Nat := 50000000

/-- The output of a command in a word. -/
def substitute (r : Runner) (c : Command) : Run Text := do
  unless (← get).canOpen 2 do fail (Text.ofString "Pipe call failed")
  let _ ← Jobs.claim
  let n ← addChannel { room := some wordRoom, readers := 1, writers := 1 }
  let status ← r.inSubshell do
    modify fun s => s.setHandle 1 (some (.sink n))
    r.runLast false c
  modifySystem fun s => s.release (.sink n)
  let text ← readToEnd n Reader.patience []
  modifySystem fun s => s.release (.source n)
  modify fun s => { s with wordStatus := status }
  return text

/-- Ends a shell that is to end at the first failure, if the last command has failed. -/
def checkFailure (tested : Bool) : Run Unit := do
  let s ← get
  if s.status != 0 && !tested && s.has .errexit then throw .exit

/-- Runs a command in a further shell. As the `last` thing of a shell that has no traps it takes the
place of that. -/
def subshell (r : Runner) (last tested inBackground : Bool) (body : Command)
    (rs : List Redirection) : Run Unit := do
  let prepared ← rs.mapM (Redirection.prepare r.substitute)
  let inside (tested : Bool) : Run Unit := do
    Redirection.applyEach r.substitute (prepared.map (·.descriptor)) prepared
    r.runLast tested body
  if inBackground then
    let number ← Jobs.claim
    let process ← start State.inBackground (r.toEnd (inside false))
    Jobs.add number [process]
  else if last && (← get).traps.all (·.2.isEmpty) then inside tested
  else
    let _ ← Jobs.claim
    setStatus (← r.inSubshell (inside tested))

end Runner

end Shell

end FuzzyFinder
