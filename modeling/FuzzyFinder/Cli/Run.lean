import FuzzyFinder.Cli.Arguments
import FuzzyFinder.Cli.Call
import FuzzyFinder.Cli.Words
import FuzzyFinder.FileTree.Walk

/-!
# FuzzyFinder — the program

Settles on one `World` for a call: with the reading of arguments and the splitting of lines that the
program comes with, and with a tree for the directories that can be reached. What is proved about
calls, intakes and searches is proved for every `World` and needs nothing of this.
-/

namespace FuzzyFinder

namespace Cli

/-- The name of the program and its version. -/
def versionLine : String := "fzm 0.1.0\n"

/-- How to call the program. -/
def usage : String :=
  "Usage: fzm [OPTIONS] [DIR]\n\n" ++
  "Reads candidate paths from a command, from standard input or from a directory walk,\n" ++
  "and prints the ones matching the query, best first.\n\n" ++
  "  --cmd CMD  --read0  --drop N  --max-files N  --max-depth N  --gitignore\n" ++
  "  -q, --query QUERY  --limit N  --threads N  --case respect|ignore|smart\n" ++
  "  --no-ignore-spaces  --always-show-dot-files  --never-show-dot-files  --no-recurse\n" ++
  "  --print0  --benchmark  -h, --help  -V, --version\n"

/-- Reads arguments; only a search is left to do. -/
def readArguments (arguments : List String) : Except Outcome Invocation :=
  match Invocation.read arguments with
  | .error e => .error { exitCode := 2, report := [e.message] }
  | .ok .help => .error { exitCode := 0, stdout := .ofString usage }
  | .ok .version => .error { exitCode := 0, stdout := .ofString versionLine }
  | .ok (.search inv) => .ok inv

/-- Where a call is made. -/
structure Surroundings where
  arguments : List String
  defaultOptions : Option String := none
  stdin : Stream
  /-- The standard input is a terminal, and `stdin` is not read. -/
  terminal : Bool := false
  files : FileTree
  command : ReadOptions → String → CommandRun

/-- What a call there depends on. -/
def Surroundings.world (around : Surroundings) : World where
  arguments := around.arguments
  defaultOptions := around.defaultOptions
  split := Words.split?
  read := readArguments
  stdin := if around.terminal then .terminal else .piped around.stdin
  walker := around.files.walk
  command := around.command

/-- One call of the program. -/
def run (around : Surroundings) : Outcome := around.world.run

end Cli

end FuzzyFinder
