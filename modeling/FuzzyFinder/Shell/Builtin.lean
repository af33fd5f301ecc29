import FuzzyFinder.Shell.Text

/-!
# FuzzyFinder — builtins

The commands that a shell carries out itself. Some are special: a mistake in one of these ends the
shell, assignments in front of it last, and no function can have its name.
-/

namespace FuzzyFinder

namespace Shell

/-- A command that a shell carries out itself. -/
inductive Builtin where
  /-- Defines and shows aliases. -/
  | defineAlias
  /-- Goes on with a job, in the foreground or not. -/
  | resume
  | leaveLoop
  | changeDirectory
  /-- Runs a command that is no function. -/
  | command
  /-- Goes on with the next round of a loop. -/
  | nextRound
  /-- Writes its arguments. -/
  | echo
  /-- Runs its arguments as a script. -/
  | evaluate
  /-- Runs a program in the place of the shell. -/
  | execute
  /-- Ends the shell. -/
  | exit
  /-- Marks variables for programs. -/
  | export
  /-- Always fails. -/
  | fail
  /-- Reads options off arguments. -/
  | getOptions
  /-- Remembers where programs are. -/
  | hash
  /-- Shows jobs. -/
  | jobs
  /-- Sends signals. -/
  | kill
  /-- Makes variables the current function's own. -/
  | own
  /-- Fills its arguments into a format. -/
  | printf
  | showDirectory
  /-- Reads a line into variables. -/
  | read
  /-- Makes variables keep their values. -/
  | lock
  | leaveFunction
  /-- Sets options and arguments. -/
  | set
  /-- Drops arguments in front. -/
  | shift
  /-- Runs a file as a part of the script. -/
  | source
  /-- Always succeeds; `special` if it is written as a colon. -/
  | succeed (special : Bool)
  /-- Evaluates a condition, perhaps between brackets. -/
  | test (bracketed : Bool)
  /-- Shows how long the shell has been running. -/
  | times
  /-- Says what is done on signals. -/
  | trap
  /-- Says what commands are. -/
  | type
  /-- Shows and sets limits. -/
  | limit
  /-- Shows and sets the permissions that new files do not get. -/
  | mask
  /-- Takes aliases away. -/
  | unalias
  /-- Takes variables and functions away. -/
  | unset
  /-- Waits for commands in the background. -/
  | wait
deriving DecidableEq

namespace Builtin

/-- All names of builtins. -/
def names : List (String × Builtin) :=
  [(".", .source), (":", .succeed true), ("[", .test true), ("alias", .defineAlias),
    ("bg", .resume), ("break", .leaveLoop), ("cd", .changeDirectory),
    ("chdir", .changeDirectory), ("command", .command), ("continue", .nextRound), ("echo", .echo),
    ("eval", .evaluate), ("exec", .execute), ("exit", .exit), ("export", .export),
    ("false", .fail), ("fg", .resume), ("getopts", .getOptions), ("hash", .hash),
    ("jobs", .jobs), ("kill", .kill), ("local", .own), ("printf", .printf),
    ("pwd", .showDirectory), ("read", .read), ("readonly", .lock), ("return", .leaveFunction),
    ("set", .set), ("shift", .shift), ("test", .test false), ("times", .times), ("trap", .trap),
    ("true", .succeed false), ("type", .type), ("ulimit", .limit), ("umask", .mask),
    ("unalias", .unalias), ("unset", .unset), ("wait", .wait)]

/-- The builtin with a name. -/
def ofName? (name : Text) : Option Builtin :=
  (names.find? fun (n, _) => n.toList == name).map (·.2)

/-- A mistake in it ends the shell, and assignments in front of it last. -/
def isSpecial : Builtin → Bool
  | .leaveLoop | .nextRound | .evaluate | .execute | .exit | .export | .own | .lock
  | .leaveFunction | .set | .shift | .source | .succeed true | .times | .trap | .unset => true
  | _ => false

/-- Its arguments may be assignments, which are expanded like those in front of a command. -/
def takesAssignments : Builtin → Bool
  | .defineAlias | .export | .own | .lock => true
  | _ => false

end Builtin

end Shell

end FuzzyFinder
