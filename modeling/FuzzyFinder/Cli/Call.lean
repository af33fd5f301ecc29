import FuzzyFinder.Cli.Invocation
import FuzzyFinder.Intake.Command
import FuzzyFinder.Intake.Files
import FuzzyFinder.Session
import FuzzyFinder.Text.Quoted

/-!
# FuzzyFinder — a call of the program

The arguments of a call, default options in front of those given, decide where the candidates come
from, how they are searched and how the matches are written. A failure of the intake costs no more
than the candidates that it kept from coming. The exit code tells whether anything matched, and `2`
says that the call made no sense.

How a line is split into words, how arguments are read, what a walk yields and what becomes of a
command is not for a call to say: a `World` brings all of it. Three things are left out: how long the
rounds of a benchmark take, the words in which refused options are reported, and a reader of the
output that goes away before all of it is written.
-/

namespace FuzzyFinder

namespace Cli

/-- What one call leaves behind. -/
structure Outcome where
  exitCode : UInt8
  /-- What is written to the standard output. -/
  stdout : Bytes := []
  /-- What is reported besides, line by line. -/
  report : List String := []

/-- What the standard input is connected to. -/
inductive StandardInput where
  /-- Somebody at a terminal. -/
  | terminal
  /-- A source of bytes. -/
  | piped (input : Stream)

/-- Everything that one call depends on. -/
structure World where
  /-- The arguments, without the name of the program. -/
  arguments : List String
  /-- The line of default options, if there is one. -/
  defaultOptions : Option String := none
  /-- The words of a line, if it has any reading. -/
  split : String → Option (List String)
  /-- Reads arguments. If they do not ask for a search the call is over with what the reading itself
  leaves behind. -/
  read : List String → Except Outcome Invocation
  stdin : StandardInput
  walker : Walker
  /-- What becomes of a shell command whose output is read under the given options. -/
  command : ReadOptions → String → CommandRun
  /-- How many workers can work at a time, as far as that is known. -/
  parallelism : Option Nat := none

/-- The number of workers when none is asked for and nobody knows how many can work at a time. -/
def fallbackThreads : Nat := 4

/-- How the input of a call is split. -/
def readOptions (inv : Invocation) : ReadOptions :=
  let o : ReadOptions := { drop := inv.drop, maxFiles := inv.maxFiles }
  o.read0 inv.read0

/-- How the candidates of a call are searched. -/
def searchOptions (w : World) (inv : Invocation) : SearchOptions where
  alwaysShowDotFiles := inv.alwaysShowDotFiles
  neverShowDotFiles := inv.neverShowDotFiles
  caseMatching := inv.caseMatching
  ignoreSpaces := !inv.noIgnoreSpaces
  limit := inv.limit
  threads := inv.threads.getD (w.parallelism.getD fallbackThreads)
  recurse := !inv.noRecurse

/-- The candidates of a call: from a command if one is given, else from a directory if one is given,
else from the standard input unless that is a terminal, else from the current directory. -/
def candidates (w : World) (inv : Invocation) : ScanResult :=
  let below (directory : Bytes) : ScanResult :=
    findFiles w.walker directory { maxDepth := inv.maxDepth, respectGitignore := inv.gitignore }
      inv.maxFiles
  match inv.command, inv.directory, w.stdin with
  | some command, _, _ => readCommand (w.command (readOptions inv) command) (readOptions inv)
  | none, some directory, _ => below directory
  | none, none, .piped input => readStream input (readOptions inv)
  | none, none, .terminal => below [Byte.dot]

/-- Writes matches, each with its ending. -/
def write (ending : UInt8) (found : List Bytes) : Bytes := found.flatMap (· ++ [ending])

/-- The byte behind every match of a call. -/
def ending (inv : Invocation) : UInt8 := if inv.print0 then Byte.nul else Byte.newline

/-! ## Benchmarks -/

/-- How often the query is typed. -/
def rounds : Nat := 10

/-- How many matches there are after each byte of a query. -/
def countsFrom (s : Session) : List Bytes → List Nat
  | [] => []
  | query :: rest =>
    let (found, s) := s.run query
    found.results.length :: countsFrom s rest

/-- A text in at least `width` columns, blanks behind it. -/
def padRight (width : Nat) (text : List Char) : List Char :=
  text ++ List.replicate (width - text.length) ' '

/-- A text in at least `width` columns, blanks in front of it. -/
def padLeft (width : Nat) (text : List Char) : List Char :=
  List.replicate (width - text.length) ' ' ++ text

/-- The report on typing a query, but for the times that it took. Every round starts afresh, so that
all rounds count the same matches. -/
def benchmark (s : Session) (threads : Nat) (query : Bytes) : List String :=
  let typed := (List.range (query.length + 1)).map query.take
  let line (q : Bytes) (count : Nat) : String :=
    String.ofList (padRight 24 (Quoted.encode (Utf8.decode q)) ++
      ' ' :: padLeft 6 (toString count).toList ++ " matches".toList)
  s!"{s.candidateCount} candidates, {threads} threads, {rounds} rounds" ::
    typed.zipWith line (countsFrom s typed)

/-! ## Calls -/

/-- A search as asked for. -/
def search (w : World) (inv : Invocation) : Outcome :=
  let options := searchOptions w inv
  match Session.start (candidates w inv).corpus options with
  | .error _ => { exitCode := 2 }
  | .ok s =>
    let found := (s.run inv.query).1.results
    { exitCode := if found.isEmpty then 1 else 0
      stdout := write (ending inv) found
      report := if inv.benchmark then benchmark s options.threads inv.query else [] }

/-- The arguments of a call with the default options in front. A line of default options that has
no reading counts for nothing. -/
def allArguments (w : World) : List String :=
  ((w.defaultOptions.bind w.split).getD []) ++ w.arguments

/-- One call of the program. -/
def World.run (w : World) : Outcome :=
  match w.read (allArguments w) with
  | .error outcome => outcome
  | .ok inv => search w inv

end Cli

end FuzzyFinder
