import FuzzyFinder.Shell.Builtin
import FuzzyFinder.Shell.Reply
import FuzzyFinder.Shell.Programs

/-!
# FuzzyFinder — what the names of commands stand for

A command is a function, a builtin or a program. Programs are looked for in the directories that a
variable lists. The builtins that define aliases, remember programs and explain names are here as
well.
-/

namespace FuzzyFinder

namespace Shell

/-- What a name stands for. -/
inductive Meaning where
  | function (body : Command)
  | builtin (b : Builtin)
  /-- A program, by its path. -/
  | program (path : Text)
  /-- Nothing, for some reason. -/
  | nothing (fault : FileFault)

namespace Naming

/-- The directories where programs are, in the first place. -/
def standardPath : Text :=
  "/usr/local/sbin:/usr/local/bin:/usr/sbin:/usr/bin:/sbin:/bin".toList

/-- The directories that the script has set. -/
def currentPath (s : State) : Text := (s.value? pathName).getD []

/-- The texts between colons. -/
def parts (t : Text) : List Text :=
  t.foldr (fun c parts =>
    match parts with
    | part :: rest => if c == ':' then [] :: part :: rest else (c :: part) :: rest
    | [] => [[c]]) [[]]

/-- The path of a name in a directory. -/
def pathIn (directory name : Text) : Text :=
  if directory.isEmpty then name else directory ++ '/' :: name

/-- The program at a path, `none` if a program is there that does nothing. -/
def programAt (s : State) (path : Text) : Except FileFault (Option Program) := do
  match ← s.find? s.directory path with
  | (place, .file _) =>
    if Condition.isProgramPlace place then
      return Program.ofName? (Text.ofBytes (place.getLastD []))
    else .error .permission
  | _ => .error .permission

/-- Looks for a program in directories. -/
def search (s : State) (name : Text) : (directories : List Text) → (fault : FileFault) →
    Except FileFault Text
  | [], fault => .error fault
  | d :: rest, fault =>
    match programAt s (pathIn d name) with
    | .ok _ => .ok (pathIn d name)
    | .error .missing | .error .notDirectory => search s name rest fault
    | .error e => search s name rest e

/-- What a name stands for, where programs are looked for in the directories of `path`. -/
def lookUp (s : State) (functions : Bool) (path name : Text) : Meaning :=
  if name.contains '/' then .program name
  else
    match if functions then s.functions.lookup name else none with
    | some f => .function f
    | none =>
      match Builtin.ofName? name with
      | some b => .builtin b
      | none =>
        match search s name (parts path) .missing with
        | .ok found => .program found
        | .error e => .nothing e

/-- Remembers where a program is. -/
def remember (name path : Text) : Run Unit :=
  unless name.contains '/' do
    modify fun s => { s with lookedUp := putEntry name (some { path }) s.lookedUp }

/-- Looks up the first word of a command, if it is a name, so that it is remembered. -/
def lookAhead (words : List Word) : Run Unit := do
  match ((words.head?).bind Word.plain?).filter Text.isName with
  | none => return ()
  | some name =>
    let s ← get
    if let .program path := lookUp s true (currentPath s) name then remember name path

/-- The complaint about a command that cannot be run. -/
def cannotRun (name : Text) (e : FileFault) : Text :=
  name ++ Text.ofString (": " ++ e.describe "not found")

/-! ## Aliases -/

/-- An alias in a form that can be read back. -/
def aliasLine (entry : Text × Text) : Text := entry.1 ++ '=' :: Text.quoted entry.2

/-- Complains that there is no such alias. -/
def unknownAlias (command : String) (name : Text) : Run Unit :=
  warn (Text.ofString (command ++ ": ") ++ name ++ Text.ofString " not found")

/-- Splits the definition of an alias, whose name is not empty. -/
def splitAlias? (t : Text) : Option (Text × Text) :=
  match t with
  | [] => none
  | c :: rest =>
    match rest.span (· != '=') with
    | (name, _ :: value) => some (c :: name, value)
    | (_, []) => none

/-- Defines and shows aliases. -/
def defineAliases (arguments : List Text) : Run Reply := do
  if arguments.isEmpty then return .lines ((bySlot 39 (← get).aliases).map aliasLine)
  arguments.foldlM (fun (r : Reply) a => do
    match splitAlias? a with
    | some (name, value) =>
      modify fun s => { s with aliases := putEntry name (some value) s.aliases }
      return r
    | none =>
      match (← get).aliases.lookup a with
      | some value => return { r with output := r.output ++ aliasLine (a, value) ++ ['\n'] }
      | none =>
        unknownAlias "alias" a
        return { r with status := 1 }) {}

/-- Takes aliases away. -/
def unalias (arguments : List Text) : Run Reply := do
  let (switches, names) ← takeSwitches "a" arguments
  if !switches.isEmpty then
    modify fun s => { s with aliases := [] }
    return {}
  names.foldlM (fun (r : Reply) name => do
    if ((← get).aliases.lookup name).isSome then
      modify fun s => { s with aliases := putEntry name none s.aliases }
      return r
    else
      unknownAlias "unalias" name
      return { r with status := 1 }) {}

/-! ## Remembered programs -/

/-- Remembers programs, forgets them all, or shows them. -/
def hash (arguments : List Text) : Run Reply := do
  let (switches, names) ← takeSwitches "r" arguments
  if !switches.isEmpty then
    modify fun s => { s with lookedUp := [] }
    return {}
  if names.isEmpty then
    return .lines <| (bySlot 31 (← get).lookedUp).map fun (_, r) =>
      r.path ++ if r.isStale then ['*'] else []
  names.foldlM (fun (r : Reply) name => do
    let s ← get
    match lookUp s true (currentPath s) name with
    | .program path =>
      remember name path
      return r
    | .nothing e =>
      complain (cannotRun name e)
      return { r with status := 1 }
    | _ => return r) {}

/-! ## Explanations -/

/-- Says what a name stands for: in words, or only as a text that can be used again. A program is
looked for in the directories of `path`, and remembered where that is not given. -/
def describe (inWords : Bool) (path : Option Text) (name : Text) : Run Reply := do
  let s ← get
  let say (words : String) (plain : Text) : Reply :=
    .lines [if inWords then name ++ Text.ofString words else plain]
  let unknown : Reply :=
    { status := 127, output := if inWords then name ++ Text.ofString ": not found\n" else [] }
  let program (words : String) (p : Text) : Reply :=
    .lines [if inWords then name ++ Text.ofString words ++ p else p]
  if (Reserved.ofText? name).isSome then return say " is a shell keyword" name
  match s.aliases.lookup name with
  | some value =>
    if inWords then return .lines [name ++ Text.ofString " is an alias for " ++ value]
    else return .lines ["alias ".toList ++ aliasLine (name, value)]
  | none =>
    match lookUp s true (path.getD (currentPath s)) name with
    | .function _ => return say " is a shell function" name
    | .builtin b =>
      return say (if b.isSpecial then " is a special shell builtin" else " is a shell builtin") name
    | .nothing _ => return unknown
    | .program p =>
      if name.contains '/' && !(s.find? s.directory name).isOk then return unknown
      if path.isSome then return program " is " p
      if (s.lookedUp.lookup name).isSome then return program " is a tracked alias for " p
      remember name p
      return program " is " p

/-- Says in words what names stand for. -/
def type (names : List Text) : Run Reply :=
  names.foldlM (fun (r : Reply) name => do
    let next ← describe true none name
    return { status := r.status ||| next.status, output := r.output ++ next.output }) {}

/-- Says what the first of the arguments stands for, if switches ask for that. -/
def explain (arguments : List Text) : Run Reply := do
  let (switches, names) ← takeSwitches "pvV" arguments
  let asks (c : Char) : Bool := switches.any (·.letter == c)
  let path := if asks 'p' then some standardPath else none
  match names with
  | name :: _ => if asks 'v' || asks 'V' then describe (asks 'V') path name else return {}
  | [] => return {}

end Naming

end Shell

end FuzzyFinder
