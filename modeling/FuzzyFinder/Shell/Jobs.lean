import FuzzyFinder.Shell.Reply
import FuzzyFinder.Signal

/-!
# FuzzyFinder — commands in the background

A command in the background is kept as a job: under a number, until it has ended and that has been
shown, or until the script has waited for it and its number is needed again. The shell takes note of
processes that have ended when it waits for anything. Any command in a further shell needs a number
while it runs.
-/

namespace FuzzyFinder

namespace Shell

namespace Jobs

/-! ## Numbers -/

/-- The least number that is free, from `n` on. Jobs that have been waited for do not hold theirs.
-/
def freeFrom (jobs : List Job) : (fuel : Nat) → (n : Nat) → Nat
  | 0, n => n
  | fuel + 1, n =>
    if jobs.any fun j => j.number == n && !j.waited then freeFrom jobs fuel (n + 1) else n

/-- A number for a new job; one that has been waited for gives it up. -/
def claim : Run Nat :=
  modifyGet fun s =>
    let n := freeFrom s.jobs s.jobs.length 1
    (n, { s with jobs := s.jobs.filter (·.number != n) })

/-- Takes note of a command in the background. -/
def add (number : Nat) (processes : List Nat) : Run Unit :=
  modify fun s => { s with
    jobs := { number, processes } :: s.jobs
    lastProcess := processes.getLast?
    status := 0 }

/-! ## Ends -/

/-- A shell that has taken note of the processes of its jobs that have ended. -/
def reaped (s : State) : State :=
  let own (e : Nat × Ending) : Bool := s.jobs.any (·.processes.contains e.1)
  let (here, elsewhere) := s.endings.partition own
  { s with
    endings := elsewhere
    jobs := s.jobs.map fun j =>
      { j with endings := j.endings ++ here.filter (j.processes.contains ·.1) } }

/-- Takes note of the processes of jobs that have ended. -/
def reap : Run Unit :=
  modify fun s => if s.endings.isEmpty || s.jobs.isEmpty then s else reaped s

/-- Waits for the end of a process, and takes note of it. -/
def awaitEnding (process : Nat) : (fuel : Nat) → Run Ending
  | 0 => return .exited 0
  | fuel + 1 => do
    match (← get).endings.lookup process with
    | some e =>
      modifySystem fun s => { s with endings := s.endings.filter (·.1 != process) }
      return e
    | none =>
      await (.ending process)
      awaitEnding process fuel

/-! ## Names -/

/-- The job that a name stands for. Commands have no texts, so nothing but a number tells jobs
apart. -/
def find (name : Text) : Run Job := do
  let jobs := (← get).jobs
  let orNone (job : Option Job) (complaint : Text) : Run Job :=
    match job with
    | some j => return j
    | none => fail complaint
  match name with
  | ['%'] | ['%', '%'] | ['%', '+'] => orNone jobs.head? (Text.ofString "No current job")
  | ['%', '-'] => orNone jobs.tail.head? (Text.ofString "No previous job")
  | ['%', '?'] =>
    if jobs.length ≤ 1 then orNone jobs.head? (Text.ofString "No such job: %?")
    else fail (Text.ofString "%?: ambiguous")
  | '%' :: rest =>
    let number := if rest.all Char.isDigit then Text.valueIn 10 rest else 0
    orNone (jobs.find? (·.number == number)) (Text.ofString "No such job: " ++ name)
  | _ => fail (Text.ofString "No such job: " ++ name)

/-! ## Builtins -/

/-- The signals whose killing of a process goes without saying. -/
def silentSignals : List Nat := [2, channelSignal]

/-- Says by what signals processes were killed. -/
def report (endings : List Ending) : Run Unit :=
  endings.forM fun e => do
    if let .killed n := e then
      unless silentSignals.contains n do warn (Text.ofString (Signal.description n))

/-- Waits for the end of a job; gives the number of a signal with a trap that comes in before. -/
def awaitJob (number : Nat) (reports : Bool) : (fuel : Nat) → Run (Option Nat)
  | 0 => return none
  | fuel + 1 => do
    let known := (((← get).jobs.find? (·.number == number)).map (·.endings.length)).getD 0
    reap
    match (← get).jobs.find? (·.number == number) with
    | none => return none
    | some job =>
      if reports then report ((job.endings.drop known).map (·.2))
      match job.running? with
      | none => return none
      | some process =>
        await (.ending process)
        match (← get).caught.find? (· != childSignal) with
        | some n => return some n
        | none => awaitJob number reports fuel

/-- Changes a job. -/
def update (number : Nat) (f : Job → Job) : Run Unit :=
  modify fun s => { s with jobs := s.jobs.map fun j => if j.number == number then f j else j }

/-- Waits for a job. Gives its status, or that of a signal that has come in before. -/
def waitForJob (number : Nat) (reports : Bool) : Run (Except Nat Nat) := do
  match ← awaitJob number reports Reader.patience with
  | some n => return .error (128 + n)
  | none =>
    update number fun j => { j with waited := true }
    let job := (← get).jobs.find? (·.number == number)
    return .ok (((job.bind (·.result?)).map (·.status)).getD 0)

/-- Waits for one command in the background after the other, of which the last one gives the status.
One that there is not changes nothing about that. -/
def waitForEach : (status : Nat) → List Text → Run Nat
  | status, [] => return status
  | status, target :: rest => do
    let job ← match target with
      | '%' :: _ => some <$> find target
      | t => do
        let process ← number t
        pure ((← get).jobs.find? (·.process == process))
    match job with
    | none => waitForEach status rest
    | some job =>
      match ← waitForJob job.number true with
      | .ok status => waitForEach status rest
      | .error status => return status

/-- Waits for all of some jobs. -/
def waitForAll : List Nat → Run Nat
  | [] => return 0
  | number :: rest => do
    match ← waitForJob number false with
    | .ok _ => waitForAll rest
    | .error status => return status

/-- Waits for commands in the background. -/
def wait (arguments : List Text) : Run Reply := do
  let (_, targets) ← takeSwitches "" arguments
  let status ← if targets.isEmpty then waitForAll ((← get).jobs.map (·.number))
    else waitForEach 127 targets
  return { status }

/-- How a job is doing. -/
def condition (j : Job) : Text :=
  match j.result? with
  | none => "Running".toList
  | some (.exited 0) => "Done".toList
  | some (.exited status) => "Done(".toList ++ Text.ofNat status ++ [')']
  | some (.killed n) => Text.ofString (Signal.description n)

/-- The line that shows a job. A plus sign marks the newest one, a minus sign the one before it. -/
def line (jobs : List Job) (withProcess : Bool) (j : Job) : Text :=
  let isAt (i : Nat) : Bool := (jobs[i]?).any (·.number == j.number)
  let mark := if isAt 0 then '+' else if isAt 1 then '-' else ' '
  let process := if withProcess then Text.ofNat j.process ++ [' '] else []
  let front := ['['] ++ Text.ofNat j.number ++ [']', ' ', mark, ' '] ++ process ++ condition j
  front ++ List.replicate (max 1 (33 - front.length)) ' ' ++
    (List.replicate (j.processes.length - 1) [' ', '|', ' ']).flatten

/-- Shows jobs, the newest first. One that has ended is then gone. -/
def shown (arguments : List Text) : Run Reply := do
  let (switches, names) ← takeSwitches "lp" arguments
  if names.isEmpty then reap
  let jobs ← if names.isEmpty then pure (← get).jobs else names.mapM find
  let withProcess := (switches.getLast?).any (·.letter == 'l')
  if (switches.getLast?).any (·.letter == 'p') then
    return .lines (jobs.map fun j => Text.ofNat j.process)
  let ts ← jobs.mapM fun j => do
    let t := line (← get).jobs withProcess j
    modify fun s => { s with
      jobs := s.jobs.filter fun k => k.number != j.number || k.result?.isNone }
    return t
  return .lines ts

/-- Complains that a job cannot be gone on with. -/
def resume (arguments : List Text) : Run Reply := do
  let (_, names) ← takeSwitches "" arguments
  let name := names.headD ['%']
  let _ ← find name
  let written := if names.isEmpty then "(null)".toList else name
  fail (Text.ofString "job " ++ written ++ Text.ofString " not created under job control")

end Jobs

end Shell

end FuzzyFinder
