import FuzzyFinder.Shell.Calls
import FuzzyFinder.Shell.Directories
import FuzzyFinder.Shell.Limits

/-!
# FuzzyFinder — functions, programs and builtins

Runs what a name stands for. A function sees its arguments as those of the script while it runs. A
mistake in a builtin ends the builtin only, unless the builtin is a special one, which ends the
shell.
-/

namespace FuzzyFinder

namespace Shell

namespace Runner

/-- No more functions may be running in one another. -/
def maxCalls : Nat := 1000

def callFunction (r : Runner) (tested : Bool) (body : Command) (arguments : List Text) :
    Run Unit := do
  let before ← get
  if maxCalls ≤ before.calls then
    fail (Text.ofString s!"Maximum function recursion depth ({maxCalls}) reached")
  modify fun s => { s with arguments, optionCursor := {}, loops := 0, calls := before.calls + 1 }
  let leap ← attempt (r.run tested body)
  modify fun s => { s with
    arguments := before.arguments
    optionCursor := before.optionCursor
    loops := before.loops
    calls := before.calls }
  match leap with
  | none | some .leaveFunction => return ()
  | some leap => throw leap

/-- The status of a command that cannot be run. -/
def statusOfFault : FileFault → Nat
  | .missing | .notDirectory | .tooManyLinks | .nameTooLong => 127
  | _ => 126

/-- Does what a program does. It may be ended by a signal that its shell does not get, unless it is
the `last` thing and has taken the place of the shell. -/
def asProgram (last : Bool) (action : Run Unit) : Run Unit := do
  giveWay
  if last then modify fun s => s.forgetKept 0
  modify fun s => { s with inProgram := true }
  let endings ← settling action fun result => do
    modify fun s => { s with inProgram := false }
    match result with
    | .ok () => return []
    | .error (.struck n) =>
      if last then throw (.killed n)
      setStatus (128 + n)
      return [.killed n]
    | .error leap => throw leap
  settle endings

/-- Complains that what a program needs cannot be opened. -/
def cannotLoad (name : Text) : Run Unit := do
  warn (name ++ Text.ofString (": error while loading shared libraries: libc.so.6: " ++
    "cannot open shared object file: Error 24"))
  setStatus 127

/-- Runs the program at a path. -/
def runProgram (last : Bool) (name path : Text) (arguments : List Text) : Run Unit := do
  match Naming.programAt (← get) path with
  | .ok (some p) =>
    let canLoad := (← get).canOpen 1
    asProgram last (if canLoad then p.run arguments else cannotLoad name)
  | .ok none => setStatus 0
  | .error e =>
    complain (Naming.cannotRun name e)
    setStatus (statusOfFault e)

/-- Runs a program in the place of the shell. -/
def execute (arguments : List Text) : Run Unit := do
  match arguments with
  | [] => setStatus 0
  | name :: rest =>
    let s ← get
    let found := if name.contains '/' then Except.ok name
      else Naming.search s name (Naming.parts (Naming.currentPath s)) .missing
    match found.bind fun path => (Naming.programAt s path).map fun _ => path with
    | .error e => exitWith (statusOfFault e) (Naming.cannotRun name e)
    | .ok path =>
      runProgram true name path rest
      modify fun s => { s with traps := [] }
      throw .exit

/-- Runs arguments as a script. -/
def evaluate (r : Runner) (tested : Bool) (arguments : List Text) : Run Unit := do
  let ran ← if arguments.isEmpty then pure false
    else r.runText tested (Text.join [' '] arguments)
  unless ran do setStatus 0

/-- The file that is to be run as a part of the script. -/
def sourceFile (name : Text) : Run Text := do
  let s ← get
  let isFile (path : Text) : Bool :=
    match s.find? s.directory path with
    | .ok (_, .file _) => true
    | _ => false
  if name.contains '/' then return name
  let paths := (Naming.parts (Naming.currentPath s)).map fun d => Naming.pathIn d name
  match paths.find? isFile with
  | some path => return path
  | none => fail (name ++ Text.ofString ": not found")

/-- Runs a file as a part of the script. -/
def source (r : Runner) (arguments : List Text) : Run Unit := do
  let (_, arguments) ← takeSwitches "" arguments
  match arguments with
  | [] => setStatus 0
  | name :: _ =>
    let path ← sourceFile name
    let h ← Redirection.openFile .read path
    let s ← get
    if (s.limit? 'n').any (· ≤ Redirection.leastKept + s.keptHandles) then
      Redirection.refuse s.freeDescriptor "Invalid argument"
    match ← readAll (some h) with
    | .error _ => setStatus 0
    | .ok text =>
      modify fun s => { s with commandName := some path }
      let mut ran := true
      match ← attempt (discard (r.runText false text)) with
      | none => ran := !(text.all Text.isSpace)
      | some .leaveFunction => pure ()
      | some leap => throw leap
      unless ran do setStatus 0

/-- Ends the shell. -/
def exit (arguments : List Text) : Run Unit := do
  let s ← get
  match arguments with
  | [] => setStatus (s.statusBefore.getD s.status)
  | a :: _ => setStatus (← number a)
  throw .exit

/-- Leaves the current function. -/
def leaveFunction (tested : Bool) (arguments : List Text) : Run Unit := do
  if let a :: _ := arguments then setStatus (← number a)
  checkFailure tested
  throw .leaveFunction

/-- Leaves loops, or goes on with the next round of one. -/
def leaveLoops (leap : Nat → Leap) (arguments : List Text) : Run Unit := do
  let count ← match arguments with
    | [] => pure 1
    | a :: _ => do
      let n ← number a
      if n == 0 then illegalNumber a else pure n
  setStatus 0
  let loops := (← get).loops
  unless loops == 0 do throw (leap (min count loops))

/-- Complains that what a builtin has written could not be taken. -/
def complainOutput (name : Text) : Run Unit := complain (name ++ Text.ofString ": I/O error")

/-- Writes the answer of a builtin. -/
def answer (name : Text) (r : Reply) : Run Unit := do
  match ← writeTo 1 r.output with
  | .ok () => setStatus r.status
  | .error _ =>
    complainOutput name
    setStatus (r.status ||| 1)

/-- Writes arguments, with their escapes resolved. -/
def echo : List Text → Reply
  | ['-', 'n'] :: rest => .text (Escape.resolveAll false rest)
  | arguments => .text (Escape.resolveAll true arguments)

/-- Fills arguments into a format. -/
def printf (name : Text) (arguments : List Text) : Run Unit := do
  let (_, arguments) ← takeSwitches "" arguments
  match arguments with
  | [] => fail (Text.ofString "usage: printf format [arg ...]")
  | format :: rest =>
    if let .error _ ← Program.fillFormat complain format rest then
      complainOutput name
      modify fun s => { s with status := s.status ||| 1 }

/-- The answer about the time that a shell has been running. -/
def times : Reply := .lines (List.replicate 2 "0m0.000000s 0m0.000000s".toList)

/-- Runs a builtin. -/
def builtin (r : Runner) (tested : Bool) (b : Builtin) (name : Text) (arguments : List Text) :
    Run Unit := do
  let reply (action : Run Reply) : Run Unit := do answer name (← action)
  match b with
  | .defineAlias => reply (Naming.defineAliases arguments)
  | .resume => reply (Jobs.resume arguments)
  | .leaveLoop => leaveLoops .leaveLoop arguments
  | .changeDirectory => reply (Directories.change arguments)
  | .command => reply (Naming.explain arguments)
  | .nextRound => leaveLoops .nextRound arguments
  | .echo => answer name (echo arguments)
  | .evaluate => r.evaluate tested arguments
  | .execute => execute arguments
  | .exit => exit arguments
  | .export => reply (Settings.declare "export" true false arguments)
  | .fail => setStatus 1
  | .getOptions => reply (Settings.getOptions arguments)
  | .hash => reply (Naming.hash arguments)
  | .jobs => reply (Jobs.shown arguments)
  | .kill => reply (Signals.kill arguments)
  | .own => reply (Settings.own arguments)
  | .printf => printf name arguments
  | .showDirectory => reply (Directories.shown arguments)
  | .read => reply (Input.read arguments)
  | .lock => reply (Settings.declare "readonly" false true arguments)
  | .leaveFunction => leaveFunction tested arguments
  | .set => reply (Settings.set arguments)
  | .shift => reply (Settings.shift arguments)
  | .source => r.source arguments
  | .succeed _ => setStatus 0
  | .test bracketed => Program.evaluateCondition complain bracketed arguments
  | .times => answer name times
  | .trap => reply (Signals.trap arguments)
  | .type => reply (Naming.type arguments)
  | .limit => reply (Limits.limit arguments)
  | .mask => reply (Directories.mask arguments)
  | .unalias => reply (Naming.unalias arguments)
  | .unset => reply (Settings.unset arguments)
  | .wait => reply (Jobs.wait arguments)

/-- Runs a builtin under its name in messages. A mistake costs no more than the builtin, unless it
is special. -/
def callBuiltin (r : Runner) (tested isSpecial : Bool) (b : Builtin) (name : Text)
    (arguments : List Text) : Run Unit := do
  let before ← get
  modify fun s => { s with commandName := some name }
  let leap ← attempt (r.builtin tested b name arguments)
  modify fun s => { s with commandName := before.commandName }
  match leap with
  | none => return ()
  | some .failure => if isSpecial then throw .failure
  | some leap => throw leap

end Runner

end Shell

end FuzzyFinder
