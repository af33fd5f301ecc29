import FuzzyFinder.Cli.Invocation

/-!
# FuzzyFinder — reading arguments

Arguments are taken from left to right. A long option is `--name`, with its value behind `=` or in
the next argument; a short one is a letter behind a single dash, with its value right behind it,
behind `=`, or in the next argument. An option given again replaces its earlier value. What is no
option is the directory to search, of which there is at most one, and behind `--` nothing is an
option. Asking for help or for the version ends the reading at once; otherwise the first argument
that does not fit refuses the call.
-/

namespace FuzzyFinder

/-- What the program is to do. -/
inductive Request where
  /-- Search as asked for. -/
  | search (invocation : Invocation)
  /-- Tell the version. -/
  | version
  /-- Tell how to call the program. -/
  | help

/-- Why a call is refused. -/
inductive UsageError where
  /-- There is no such option. -/
  | unknownOption (option : String)
  /-- The option lacks its value. -/
  | missingValue (option : String)
  /-- The option takes no value. -/
  | unexpectedValue (option : String)
  /-- The option does not take this value. -/
  | invalidValue (option value : String)
  /-- There is a directory already, or an empty one is given. -/
  | unexpectedArgument (argument : String)

/-- The wording of a refusal. -/
def UsageError.message : UsageError → String
  | .unknownOption option => s!"unexpected argument {option} found"
  | .missingValue option => s!"a value is required for {option} but none was supplied"
  | .unexpectedValue option => s!"{option} takes no value"
  | .invalidValue option value => s!"invalid value {value} for {option}"
  | .unexpectedArgument argument => s!"unexpected argument {argument} found"

/-- An option without a value. -/
inductive Flag where
  | read0 | gitignore | noIgnoreSpaces | alwaysShowDotFiles | neverShowDotFiles | noRecurse
  | print0 | benchmark

/-- An option with a value. -/
inductive Setting where
  | command | drop | maxFiles | maxDepth | query | limit | threads | caseMatching

/-- What an option stands for. -/
inductive Meaning where
  | flag (f : Flag)
  | setting (s : Setting)
  | help
  | version

/-- The long options. -/
def Meaning.ofLong? : String → Option Meaning
  | "cmd" => some (.setting .command)
  | "read0" => some (.flag .read0)
  | "drop" => some (.setting .drop)
  | "max-files" => some (.setting .maxFiles)
  | "max-depth" => some (.setting .maxDepth)
  | "gitignore" => some (.flag .gitignore)
  | "query" => some (.setting .query)
  | "limit" => some (.setting .limit)
  | "threads" => some (.setting .threads)
  | "case" => some (.setting .caseMatching)
  | "no-ignore-spaces" => some (.flag .noIgnoreSpaces)
  | "always-show-dot-files" => some (.flag .alwaysShowDotFiles)
  | "never-show-dot-files" => some (.flag .neverShowDotFiles)
  | "no-recurse" => some (.flag .noRecurse)
  | "print0" => some (.flag .print0)
  | "benchmark" => some (.flag .benchmark)
  | "help" => some .help
  | "version" => some .version
  | _ => none

/-- The short options. -/
def Meaning.ofShort? : Char → Option Meaning
  | 'q' => some (.setting .query)
  | 'h' => some .help
  | 'V' => some .version
  | _ => none

/-- The wording of an option. -/
def Setting.name : Setting → String
  | .command => "--cmd"
  | .drop => "--drop"
  | .maxFiles => "--max-files"
  | .maxDepth => "--max-depth"
  | .query => "--query"
  | .limit => "--limit"
  | .threads => "--threads"
  | .caseMatching => "--case"

/-- Numbers on the command line stay below this bound, the range of a machine word. -/
def numberBound : Nat := 0x10000000000000000

/-- Reads a number in decimal digits, a plus sign in front being allowed. -/
def readNumber? (s : String) : Option Nat :=
  let digits := match s.toList with
    | '+' :: rest => rest
    | cs => cs
  if digits.isEmpty || !digits.all Char.isDigit then none
  else
    let n := digits.foldl (fun n c => n * 10 + (c.toNat - 48)) 0
    if n < numberBound then some n else none

/-- Reads a case mode. -/
def CaseMatching.ofName? : String → Option CaseMatching
  | "respect" => some .respect
  | "ignore" => some .ignore
  | "smart" => some .smart
  | _ => none

namespace Invocation

/-- Sets a flag. -/
def raise (inv : Invocation) : Flag → Invocation
  | .read0 => { inv with read0 := true }
  | .gitignore => { inv with gitignore := true }
  | .noIgnoreSpaces => { inv with noIgnoreSpaces := true }
  | .alwaysShowDotFiles => { inv with alwaysShowDotFiles := true }
  | .neverShowDotFiles => { inv with neverShowDotFiles := true }
  | .noRecurse => { inv with noRecurse := true }
  | .print0 => { inv with print0 := true }
  | .benchmark => { inv with benchmark := true }

/-- Gives an option its value. -/
def assign (inv : Invocation) (s : Setting) (value : String) : Except UsageError Invocation :=
  let refused : UsageError := .invalidValue s.name value
  let number : Except UsageError Nat := (readNumber? value).elim (.error refused) .ok
  match s with
  | .command => .ok { inv with command := some value }
  | .query => .ok { inv with query := .ofString value }
  | .drop => number.map fun n => { inv with drop := n }
  | .maxFiles => number.map fun n => { inv with maxFiles := n }
  | .maxDepth => number.map fun n => { inv with maxDepth := n }
  | .limit => number.map fun n => { inv with limit := n }
  | .threads => number.map fun n => { inv with threads := some n }
  | .caseMatching =>
    match CaseMatching.ofName? value with
    | some mode => .ok { inv with caseMatching := mode }
    | none => .error refused

/-- Takes an argument that is no option. -/
def place (inv : Invocation) (argument : String) : Except UsageError Invocation :=
  if argument.isEmpty || inv.directory.isSome then .error (.unexpectedArgument argument)
  else .ok { inv with directory := some (.ofString argument) }

/-- How the reading goes on behind an argument. -/
inductive Step where
  /-- With the next argument. -/
  | next (inv : Invocation)
  /-- The next argument is the value of an option. -/
  | awaits (inv : Invocation) (s : Setting)
  /-- Nothing behind it is an option. -/
  | rest (inv : Invocation)
  /-- The call is answered. -/
  | done (r : Request)

/-- Takes the letters behind a single dash. -/
def shorts (inv : Invocation) : List Char → Except UsageError Step
  | [] => .ok (.next inv)
  | c :: rest =>
    match Meaning.ofShort? c with
    | none => .error (.unknownOption (String.ofList ['-', c]))
    | some .help => .ok (.done .help)
    | some .version => .ok (.done .version)
    | some (.flag f) => shorts (inv.raise f) rest
    | some (.setting s) =>
      match rest with
      | [] => .ok (.awaits inv s)
      | '=' :: value => (inv.assign s (String.ofList value)).map .next
      | value => (inv.assign s (String.ofList value)).map .next

/-- Takes what is behind a double dash. -/
def long (inv : Invocation) (option : List Char) : Except UsageError Step :=
  let name := String.ofList (option.takeWhile (· != '='))
  let value? := match option.dropWhile (· != '=') with
    | _ :: value => some (String.ofList value)
    | [] => none
  match Meaning.ofLong? name, value? with
  | none, _ => .error (.unknownOption name)
  | some (.setting s), some value => (inv.assign s value).map .next
  | some (.setting s), none => .ok (.awaits inv s)
  | some _, some _ => .error (.unexpectedValue name)
  | some (.flag f), none => .ok (.next (inv.raise f))
  | some .help, none => .ok (.done .help)
  | some .version, none => .ok (.done .version)

/-- Takes one argument where an option may stand. -/
def step (inv : Invocation) (argument : String) : Except UsageError Step :=
  match argument.toList with
  | ['-', '-'] => .ok (.rest inv)
  | '-' :: '-' :: option => inv.long option
  | '-' :: c :: letters => inv.shorts (c :: letters)
  | _ => (inv.place argument).map .next

/-- An argument that is read as an option, so never as the value of the option in front. -/
def isOption (argument : String) : Bool :=
  match argument.toList with
  | '-' :: _ :: _ => true
  | _ => false

/-- Reads arguments; `awaited` is the option whose value comes next. -/
def readFrom (inv : Invocation) (awaited : Option Setting) :
    List String → Except UsageError Request
  | [] =>
    match awaited with
    | some s => .error (.missingValue s.name)
    | none => .ok (.search inv)
  | argument :: rest =>
    match awaited with
    | some s =>
      if isOption argument then .error (.missingValue s.name)
      else
        match inv.assign s argument with
        | .ok inv => readFrom inv none rest
        | .error e => .error e
    | none =>
      match inv.step argument with
      | .error e => .error e
      | .ok (.next inv) => readFrom inv none rest
      | .ok (.awaits inv s) => readFrom inv (some s) rest
      | .ok (.rest inv) => (rest.foldlM place inv).map .search
      | .ok (.done r) => .ok r

/-- Reads the arguments of a call. -/
def read (arguments : List String) : Except UsageError Request := readFrom {} none arguments

end Invocation

end FuzzyFinder
