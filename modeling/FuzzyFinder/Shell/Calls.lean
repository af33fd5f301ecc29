import FuzzyFinder.Shell.Naming
import FuzzyFinder.Shell.Runner
import FuzzyFinder.Shell.Settings

/-!
# FuzzyFinder — calls

Makes out what the words of a simple command call, before anything of it is carried out: the first
word says what kind of arguments the others are. Also the assignments in front of a call, and the
trace of one.
-/

namespace FuzzyFinder

namespace Shell

namespace Runner

/-- A command whose name has been made out, while its arguments are partly still to be expanded. -/
structure Call where
  /-- What was in front of the name. -/
  front : List Text := []
  /-- The name and the arguments that have been expanded. -/
  ready : List Text
  /-- The words of the other arguments. -/
  words : List Word
  /-- What the name stands for. -/
  meaning : Meaning
  /-- It cannot be a function. -/
  noFunction : Bool := false
  /-- Where programs are looked for, if not in the usual place. -/
  path : Option Text := none
  /-- The first name in it is that of a special builtin. -/
  isSpecial : Bool

/-- The next one of the arguments, of which some are expanded and others are words. -/
def nextArgument (r : Runner) : (ready : List Text) → List Word →
    Run (Option (Text × List Text × List Word))
  | a :: rest, words => return some (a, rest, words)
  | [], [] => return none
  | [], w :: words => do
    match ← expandFields r.substitute w with
    | a :: rest => return some (a, rest, words)
    | [] => nextArgument r [] words

/-- What is behind the name `command` and its switches, if these do not ask for something else: what
has been passed over, whether the standard path is meant, and the arguments from the next name on.
-/
def behindCommand (r : Runner) : (fuel : Nat) → (passed : List Text) → (standard : Bool) →
    (ready : List Text) → List Word → Run (Option (List Text × Bool × List Text × List Word))
  | 0, _, _, _, _ => return none
  | fuel + 1, passed, standard, ready, words => do
    match ← r.nextArgument ready words with
    | none => return none
    | some (['-', '-'], ready, words) =>
      match ← r.nextArgument ready words with
      | none => return none
      | some (a, ready, words) =>
        return some (passed ++ [['-', '-']], standard, a :: ready, words)
    | some ('-' :: c :: letters, ready, words) =>
      if (c :: letters).all (· == 'p') then
        behindCommand r fuel (passed ++ ['-' :: c :: letters]) true ready words
      else return none
    | some (a, ready, words) => return some (passed, standard, a :: ready, words)

/-- Makes out what a name stands for; the name `command` leads on to the one behind it. -/
def resolveFrom (r : Runner) : (fuel : Nat) → Call → Run Call
  | 0, call => return call
  | fuel + 1, call => do
    let s ← get
    let path := call.path.getD (Naming.currentPath s)
    let name := call.ready.headD []
    let meaning := Naming.lookUp s (!call.noFunction) path name
    let isSpecial := match meaning with
      | .builtin b => call.isSpecial || (b.isSpecial && call.front.isEmpty)
      | _ => call.isSpecial
    let call := { call with meaning, isSpecial }
    match meaning with
    | .builtin .command =>
      match ← r.behindCommand patience [] false call.ready.tail call.words with
      | none => return call
      | some (passed, standard, ready, words) =>
        resolveFrom r fuel { call with
          front := call.front ++ name :: passed
          ready
          words
          noFunction := true
          path := if standard then some Naming.standardPath else call.path }
    | _ => return call
where
  /-- More switches than a command has. -/
  patience : Nat := 1000

/-- Makes out what words stand for, `none` if they amount to nothing. -/
def resolve (r : Runner) (words : List Word) : Run (Option Call) := do
  match ← r.nextArgument [] words with
  | none => return none
  | some (name, rest, words) =>
    let call : Call :=
      { ready := name :: rest, words, meaning := .nothing .missing, isSpecial := false }
    return some (← r.resolveFrom 1000 call)

/-- The arguments that a word stands for, where it may be an assignment. -/
def expandArgument (r : Runner) (assignments : Bool) (w : Word) : Run (List Text) := do
  if assignments && (Word.assignee? w).isSome then
    return [← expandText r.substitute { assignment := true } w]
  else expandFields r.substitute w

/-- Expands the arguments of a call that are still words. -/
def Call.expanded (r : Runner) (call : Call) : Run Call := do
  let assignments := match call.meaning with
    | .builtin b => b.takesAssignments
    | _ => false
  let more ← call.words.mapM (r.expandArgument assignments)
  return { call with ready := call.ready ++ more.flatten, words := [] }

/-- Expands an assignment and carries it out; also gives its text. -/
def assignWord (r : Runner) (own : Bool) (w : Word) : Run Text := do
  let t ← expandText r.substitute { assignment := true } w
  let (name, value) := Settings.splitAssignment t
  if own then shadowVariable name
  setVariable name value false false
  return t

/-- What stands in front of the trace of a command. -/
def traceFront (r : Runner) : Run Text := do
  let t := ((← get).value? "PS4".toList).getD []
  match readQuoted t with
  | none => return t
  | some w =>
    modify fun s => s.setOption .xtrace false
    let t ← expandText r.substitute {} w
    modify fun s => s.setOption .xtrace true
    return t

/-- Shows a command before it runs, where that is asked for. -/
def trace (r : Runner) (h : Option Handle) (parts : List Text) : Run Unit := do
  if (← get).has .xtrace then
    let front ← r.traceFront
    let _ ← write h (front ++ Text.join [' '] parts ++ ['\n'])

end Runner

end Shell

end FuzzyFinder
