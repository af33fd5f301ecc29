import FuzzyFinder.Shell.Jobs

/-!
# FuzzyFinder — traps and the sending of signals

A trap says what a shell does on a signal, which has a name or a number here; zero stands for the
end of the shell. A signal is taken note of by its process as soon as that goes on, and the trap for
it runs behind the current command.
-/

namespace FuzzyFinder

namespace Shell

namespace Signals

/-- The last signal. -/
def last : Nat := 64

/-- The signals in the middle of those at the disposal of programs, up to which these are counted
from the first one. -/
def middle : Nat := 49

/-- What a signal is called in a script. Some have a number only. -/
def called (n : Nat) : String :=
  if n == 0 then "EXIT"
  else if n == Signal.firstFree then "RTMIN"
  else if n == last then "RTMAX"
  else if Signal.firstFree < n && n ≤ middle then s!"RTMIN+{n - Signal.firstFree}"
  else if middle < n then s!"RTMAX-{last - n}"
  else
    match Signal.known? n with
    | some (name, _) => if name == "STKFLT" then toString n else name
    | none => toString n

/-- The names of the signals, from zero on. -/
def names : List String := (List.range (last + 1)).map called

/-- The number that a text stands for, if it is that of a signal. -/
def ofDigits? (t : Text) : Option Nat :=
  if t.isEmpty || !t.all Char.isDigit then none
  else
    let n := Text.valueIn 10 t
    if n ≤ last then some n else none

/-- The signal that a text stands for; names count from the number `least` on. -/
def ofText? (least : Nat) (t : Text) : Option Nat :=
  match ofDigits? t with
  | some n => some n
  | none =>
    let name := t.map Char.toUpper
    (names.findIdx? (·.toList == name)).filter (least ≤ ·)

/-! ## Traps -/

/-- The traps that have been set, one to a line. -/
def shown (s : State) : Reply :=
  .lines <| (List.range (last + 1)).filterMap fun n =>
    (s.traps.lookup n).map fun action =>
      "trap -- ".toList ++ Text.quoted action ++ ' ' :: (called n).toList

/-- Sets a trap, or takes it back. -/
def setTrap (n : Nat) (action : Option Text) : Run Unit :=
  modify fun s =>
    let others := s.traps.filter (·.1 != n)
    { s with traps := match action with
      | some a => (n, a) :: others
      | none => others }

/-- Sets traps for the signals that arguments name, up to the first one that is no signal. -/
def setTraps (action : Option Text) : List Text → Run Reply
  | [] => return {}
  | a :: rest => do
    match ofText? 0 a with
    | none =>
      warn (Text.ofString "trap: " ++ a ++ Text.ofString ": bad trap")
      return { status := 1 }
    | some n =>
      setTrap n action
      setTraps action rest

/-- Sets traps, or shows them. -/
def trap (arguments : List Text) : Run Reply := do
  let (_, arguments) ← takeSwitches "" arguments
  match arguments with
  | [] => return shown (← get)
  | [a] => setTraps none [a]
  | a :: rest =>
    if (ofDigits? a).isSome then setTraps none (a :: rest)
    else setTraps (if a == ['-'] then none else some a) rest

/-! ## Sending signals -/

/-- How signals are sent. -/
def usage : Text :=
  Text.ofString ("Usage: kill [-s sigspec | -signum | -sigspec] [pid | job]... or\n" ++
    "kill -l [exitstatus]")

/-- Shows the names of signals. -/
def list (arguments : List Text) : Run Reply := do
  match arguments with
  | [] => return .lines (['0'] :: (names.drop 1).map String.toList)
  | a :: _ =>
    let n ← number a
    let n := if 128 < n then n - 128 else n
    if 0 < n && n ≤ last then return .lines [(called n).toList]
    else fail (Text.ofString "invalid signal number or exit status: " ++ a)

/-- Sends a signal to a process; tells whether there is one. Jobs are no groups of processes, so
that nothing can be sent to one as a whole. -/
def send (n : Nat) (target : Text) : Run Bool := do
  let process ← match target with
    | '%' :: _ => do
      let _ ← Jobs.find target
      pure none
    | '-' :: rest => do
      let _ ← number rest
      pure none
    | t => some <$> number t
  let s ← get
  match process.filter fun p => s.living.contains p || s.endings.any (·.1 == p) with
  | none =>
    complain (Text.ofString "No such process\n")
    return false
  | some p =>
    if n != 0 && s.living.contains p then
      modifySystem fun s => { s with signals := s.signals ++ [(p, n)] }
      receive
    return true

/-- Sends a signal to processes. -/
def sendAll (n : Nat) : List Text → Run Reply
  | [] => return {}
  | a :: rest => do
    let sent ← send n a
    let r ← sendAll n rest
    return if sent then r else { r with status := 1 }

/-- The signal for ending a process. -/
def termination : Nat := 15

/-- Sends signals, or shows their names. -/
def kill (arguments : List Text) : Run Reply := do
  let direct := match arguments with
    | ('-' :: name) :: _ => ofText? 1 name
    | _ => none
  match direct, arguments with
  | some n, _ :: targets => if targets.isEmpty then fail usage else sendAll n targets
  | _, arguments =>
    let opens := arguments.head?.any (·.head? == some '-')
    let (switches, targets) ← if opens then takeSwitches "ls:" arguments else pure ([], arguments)
    let lists := switches.any (·.letter == 'l')
    let named ← switches.foldlM (fun (n : Option Nat) s =>
      match s.letter, s.argument with
      | 's', some name =>
        match ofText? 1 name with
        | some n => return some n
        | none => fail (Text.ofString "invalid signal number or name: " ++ name)
      | _, _ => return n) none
    if lists then
      if named.isSome then fail usage else list targets
    else if targets.isEmpty then fail usage
    else sendAll (named.getD termination) targets

end Signals

end Shell

end FuzzyFinder
