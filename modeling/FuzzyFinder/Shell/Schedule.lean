import FuzzyFinder.Shell.Process

/-!
# FuzzyFinder — the schedule

Processes run by turns: one that need not wait any longer queues up behind those for which that is
so already, and when it is its turn it goes on until it has to wait again. Everything is over as
soon as the reader of the output wants no more, or when there is nobody left who could write it and
the script has ended, or when nobody can go on.
-/

namespace FuzzyFinder

namespace Shell

/-- A process that waits for its turn. -/
structure Task where
  process : Nat
  /-- What it has to wait for. -/
  wait : Wait
  goOn : System → Activity

/-- The channel for the output of a script. -/
def outputChannel : Nat := 0

/-- What is waited for is there. -/
def Wait.isOver (s : System) : Wait → Bool
  | .input n => (s.channel? n).all (·.isReadable)
  | .space n => (s.channel? n).all (·.isWritable)
  | .ending p => s.endings.any (·.1 == p)
  | .turn => true
  | .signal => false

/-- A process need not wait any longer. -/
def Task.isReady (s : System) (t : Task) : Bool :=
  t.wait.isOver s || s.signals.any (·.1 == t.process)

/-- Nothing that could still happen matters. -/
def System.isOver (s : System) : Bool :=
  match s.channel? outputChannel with
  | none => true
  | some c => c.isMet || (c.writers == 0 && !s.living.contains mainProcess)

/-- What a process does up to the point where it waits: what it does then, unless it has ended, and
the processes that it has started, the newest first. -/
def Activity.advance : Activity → (started : List Task) → Option Task × List Task × System
  | .ended s, started => (none, started, s)
  | .waits process wait s goOn, started => (some { process, wait, goOn }, started, s)
  | .starts process child s goOn, started =>
    (goOn s).advance ({ process, wait := .turn, goOn := child } :: started)

/-- It waits for the end of a process. -/
def Task.awaitsEnding (t : Task) : Bool := t.wait matches .ending _

/-- The processes in their order. -/
structure Tasks where
  /-- Those that wait for nothing but their turn. -/
  ready : List Task
  /-- The others. -/
  waiting : List Task := []

/-- Queues up the processes that need not wait any longer. A process that waits for the end of
another one comes after those that wait for what that has written. -/
def Tasks.wake (ts : Tasks) (s : System) : Tasks :=
  let (woken, waiting) := ts.waiting.partition (·.isReady s)
  let (later, sooner) := woken.partition (·.awaitsEnding)
  { ready := ts.ready ++ sooner ++ later, waiting }

/-- Adds a process that has had its turn. -/
def Tasks.add (ts : Tasks) (s : System) (t : Task) : Tasks :=
  if t.isReady s then { ts with ready := ts.ready ++ [t] }
  else { ts with waiting := ts.waiting ++ [t] }

/-- Gives turns to processes until everything is over. -/
def runTasks : (fuel : Nat) → Tasks → System → System
  | 0, _, s => s
  | fuel + 1, ts, s =>
    match ts.ready with
    | [] => s
    | t :: rest =>
      let (again, started, s) := (t.goOn s).advance []
      if s.isOver then s
      else
        let ts : Tasks := { ts with ready := rest ++ started.reverse }
        let ts := ts.wake s
        runTasks fuel (again.toList.foldl (·.add s) ts) s

/-- Runs the process of a script and all that it starts, from a state on. -/
def runProcesses (action : Run Unit) (s : State) : System :=
  let script (system : System) : Activity :=
    (action { s with toSystem := system }).toActivity fun result s => s.finished result
  let task : Task := { process := s.process, wait := .turn, goOn := script }
  runTasks Reader.patience { ready := [task] } s.toSystem

end Shell

end FuzzyFinder
