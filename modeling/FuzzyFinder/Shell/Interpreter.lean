import FuzzyFinder.Shell.Execution
import FuzzyFinder.Shell.Loops
import FuzzyFinder.Shell.Pipelines

/-!
# FuzzyFinder — running commands

Runs commands of each kind, given what runs the commands inside of them. Running a whole script
takes these together up to some depth.
-/

namespace FuzzyFinder

namespace Shell

namespace Runner

/-! ## Simple commands -/

/-- Carries out a call whose arguments have all been expanded. -/
def carryOut (r : Runner) (tested last : Bool) (call : Call) : Run Unit := do
  let name := call.ready.headD []
  let arguments := call.ready.tail
  let s ← get
  let meaning : Meaning := match call.meaning with
    | .builtin b => .builtin b
    | _ => Naming.lookUp s (!call.noFunction) (call.path.getD (Naming.currentPath s)) name
  match meaning with
  | .builtin b => r.callBuiltin tested call.isSpecial b name arguments
  | .function body => r.callFunction tested body arguments
  | .program path =>
    if call.path.isNone then Naming.remember name path
    let _ ← Jobs.claim
    runProgram last name path arguments
  | .nothing e =>
    complain (Naming.cannotRun name e)
    setStatus 127

/-- The builtin that lets redirections last. -/
def Call.isExecute (call : Call) : Bool :=
  match call.meaning with
  | .builtin b => b == .execute
  | _ => false

def Call.isProgram (call : Call) : Bool := call.meaning matches .program _

/-- Runs an expanded call with its assignments and redirections. It may be the `last` thing of a
shell: then the redirections of a program last. -/
def runCall (r : Runner) (tested own last : Bool) (call : Option Call) (assignments : List Word)
    (rs : List Redirection) : Run Unit := do
  let traceHandle := (← get).handle? 2
  let isSpecial := call.any (·.isSpecial)
  let failed : Run Unit := do
    setStatus 2
    if isSpecial then throw .failure
  let action : Run Unit := do
    let assigned ← assignments.mapM (r.assignWord own)
    let shown := match call with
      | some c => c.front ++ c.ready
      | none => []
    unless assigned.isEmpty && shown.isEmpty do r.trace traceHandle (assigned ++ shown)
    match call with
    | some c => r.carryOut tested last c
    | none => modify fun s => { s with status := s.wordStatus }
  let lasts := call.any fun c => c.isExecute || (last && c.isProgram)
  Redirection.redirecting r.substitute lasts rs failed action

/-- Runs a simple command. Assignments in front of a function, of a program or of a builtin that is
not special hold only for its duration. -/
def simple (r : Runner) (last tested : Bool) (assignments words : List Word)
    (rs : List Redirection) : Run Unit := do
  modify fun s => { s with wordStatus := 0 }
  match ← r.resolve words with
  | none => r.runCall tested false last none assignments rs
  | some call =>
    let call ← call.expanded r
    if call.isSpecial then r.runCall tested false last (some call) assignments rs
    else withOwnVariables (r.runCall tested true last (some call) assignments rs)

/-! ## Commands -/

/-- The commands of a sequence. -/
def steps (c : Command) : List Command :=
  match c with
  | .sequence first second => steps first ++ [second]
  | c => [c]

/-- Runs the commands of a sequence. -/
def sequence (r : Runner) (last tested : Bool) : List Command → Run Unit
  | [] => return ()
  | [c] => r.runTail last tested c
  | c :: rest => do
    r.run tested c
    sequence r last tested rest

/-- Notes the line that messages name. -/
def atLine (line : Nat) : Run Unit := modify fun s => { s with line }

/-- Runs a command whose parts are run by `r`. -/
def body (r : Runner) (last tested : Bool) (c : Command) : Run Unit := do
  match c with
  | .simple line assignments words rs =>
    atLine line
    r.simple last tested assignments words rs
    r.takeSignals
    checkFailure tested
  | .redirected line body rs =>
    atLine line
    let failed : Run Unit := do
      setStatus 2
      checkFailure tested
    Redirection.redirecting r.substitute false rs failed (r.run tested body)
  | .pipeline inBackground cs =>
    r.pipeline tested inBackground cs
    r.takeSignals
    checkFailure tested
  | .negation body =>
    r.run true body
    modify fun s => { s with status := if s.status == 0 then 1 else 0 }
  | .conjunction first second =>
    r.run true first
    if (← get).status == 0 then r.runTail last tested second
  | .disjunction first second =>
    r.run true first
    if (← get).status != 0 then r.runTail last tested second
  | .sequence first second => r.sequence last tested (steps (.sequence first second))
  | .subshell line inBackground body rs =>
    atLine line
    r.subshell last tested inBackground body rs
    r.takeSignals
    checkFailure tested
  | .choice condition body otherwise =>
    r.run true condition
    if (← get).status == 0 then r.runTail last tested body
    else
      match otherwise with
      | some c => r.runTail last tested c
      | none => setStatus 0
  | .loop untilSuccess condition body =>
    inLoop (r.loop tested untilSuccess condition body Reader.patience 0)
  | .each line name words body =>
    atLine line
    let values ← words.mapM (expandFields r.substitute)
    inLoop (r.each tested name body 0 values.flatten)
  | .select line subject branches =>
    atLine line
    let t ← expandText r.substitute { tilde := true } subject
    r.select last tested t branches
  | .define _ name body =>
    modify fun s => { s with
      functions := putEntry name (some body) s.functions
      lookedUp := putEntry name none s.lookedUp
      status := 0 }

/-- Runs a command, unless commands are not to be run. -/
def command (r : Runner) (tested : Bool) (c : Command) : Run Unit := do
  let last := (← get).isLast
  if last then modify fun s => { s with isLast := false }
  unless (← get).has .noexec do
    tick
    r.takeSignals
    r.body last tested c
    r.takeSignals

end Runner

/-- Runs a command, with at most `depth` commands in one another. -/
def runCommand : (depth : Nat) → (tested : Bool) → Command → Run Unit
  | 0, _, _ => exitWith 2 (Text.ofString "too many nested commands")
  | depth + 1, tested, c => Runner.command { run := runCommand depth } tested c

end Shell

end FuzzyFinder
