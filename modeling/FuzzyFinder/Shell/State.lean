import FuzzyFinder.Shell.Reader
import FuzzyFinder.Shell.System

/-!
# FuzzyFinder — the state of a shell

What a shell has set up while it runs a script: variables, functions, aliases, options, open
descriptors and the like. A part of a script that runs in a further shell works on a copy of the
state, of which only the shared `System` comes back.
-/

namespace FuzzyFinder

namespace Shell

structure Variable where
  /-- Its value, if it has one. -/
  value : Option Text := none
  /-- Programs can see it. -/
  exported : Bool := false
  /-- It must not change. -/
  readOnly : Bool := false

inductive ShellOption where
  | errexit | noglob | ignoreeof | interactive | monitor | noexec | stdin | xtrace | verbose | vi
  | emacs | noclobber | allexport | notify | nounset | privileged | nolog | debug
deriving DecidableEq

namespace ShellOption

/-- All options with their names and, where they have one, their letters, in the order in which they
are listed. -/
def all : List (ShellOption × String × Option Char) :=
  [(.errexit, "errexit", some 'e'), (.noglob, "noglob", some 'f'),
    (.ignoreeof, "ignoreeof", some 'I'), (.interactive, "interactive", some 'i'),
    (.monitor, "monitor", some 'm'), (.noexec, "noexec", some 'n'), (.stdin, "stdin", some 's'),
    (.xtrace, "xtrace", some 'x'), (.verbose, "verbose", some 'v'), (.vi, "vi", some 'V'),
    (.emacs, "emacs", some 'E'), (.noclobber, "noclobber", some 'C'),
    (.allexport, "allexport", some 'a'), (.notify, "notify", some 'b'),
    (.nounset, "nounset", some 'u'), (.privileged, "privileged", some 'p'),
    (.nolog, "nolog", none), (.debug, "debug", none)]

/-- The option with a letter. -/
def ofLetter? (c : Char) : Option ShellOption :=
  (all.find? fun (_, _, letter) => letter == some c).map (·.1)

/-- The option with a name. -/
def ofName? (name : Text) : Option ShellOption :=
  (all.find? fun (_, n, _) => n.toList == name).map (·.1)

end ShellOption

/-- A command in the background. -/
structure Job where
  /-- The number that the shell gave it. -/
  number : Nat
  /-- The processes that it is made of. -/
  processes : List Nat
  /-- How those of them ended that the shell has taken note of. -/
  endings : List (Nat × Ending) := []
  /-- The script has waited for it, so that its number is free again. -/
  waited : Bool := false

namespace Job

/-- How one of its processes ended, if the shell knows. -/
def ending? (j : Job) (process : Nat) : Option Ending := j.endings.lookup process

/-- A process of it that has not ended as far as the shell knows. -/
def running? (j : Job) : Option Nat := j.processes.find? fun p => (j.ending? p).isNone

/-- Its last process, which it is known by. -/
def process (j : Job) : Nat := j.processes.getLastD 0

/-- How it ended, once it has. -/
def result? (j : Job) : Option Ending := if j.running?.isSome then none else j.ending? j.process

end Job

/-- Something that a call has of its own, as it was before the call. -/
inductive Shadowed where
  | variable (name : Text) (old : Option Variable)
  | options (old : List ShellOption)

/-- A program that has been looked up. -/
structure Remembered where
  path : Text
  /-- The working directory has changed since, so that it is to be looked up again. -/
  isStale : Bool := false

/-- Limits on a resource: the one that holds, and the one that it cannot exceed. -/
structure Limit where
  soft : Nat
  hard : Nat

/-- How far options in arguments have been looked at. -/
structure OptionCursor where
  /-- The number of the next argument. -/
  index : Nat := 1
  /-- How much of the argument in front of it has been looked at, if it holds more letters. -/
  offset : Option Nat := none

/-- The state of a shell. -/
structure State extends System where
  /-- The variables. -/
  bindings : List (Text × Variable) := []
  /-- For each call that may have something of its own, the innermost one first, what that was
  before it. -/
  shadowed : List (List Shadowed) := []
  scriptName : Text := ['s', 'h']
  /-- The arguments of the script or of the function it is in. -/
  arguments : List Text := []
  /-- How far options in the arguments have been looked at. -/
  optionCursor : OptionCursor := {}
  /-- How many functions are running in one another. -/
  calls : Nat := 0
  /-- The functions with what they do. -/
  functions : List (Text × Command) := []
  /-- The aliases, in the order of their definition. -/
  aliases : List (Text × Text) := []
  /-- The contents of documents. -/
  documents : Array Word := #[]
  /-- What the descriptors stand for. -/
  handles : List (Nat × Handle) := []
  /-- What descriptors are to stand for again, the newest first. -/
  kept : List (Nat × Option Handle) := []
  /-- The options that are set. -/
  options : List ShellOption := []
  /-- What is done on signals, by number; 0 stands for the end of the shell. -/
  traps : List (Nat × Text) := []
  /-- Signals that it takes no notice of, whatever traps there are. -/
  unheard : List Nat := []
  /-- Signals that have come in and wait for their traps. -/
  caught : List Nat := []
  /-- The number of its process. -/
  process : Nat := mainProcess
  /-- The process that started it, if there is one. -/
  parent : Option Nat := none
  /-- A program is running in it. -/
  inProgram : Bool := false
  /-- Nothing comes behind the next command. -/
  isLast : Bool := false
  /-- How many commands have run in it. -/
  ticks : Nat := 0
  /-- The status of the last command. -/
  status : Nat := 0
  /-- While a trap runs, the status of the last command in front of it. -/
  statusBefore : Option Nat := none
  /-- The status of the last command in a word of the current command. -/
  wordStatus : Nat := 0
  /-- The commands in the background, the newest first. -/
  jobs : List Job := []
  /-- The number of the last process in the background. -/
  lastProcess : Option Nat := none
  /-- The working directory. -/
  directory : Place := []
  /-- Its path as the script got there. -/
  directoryPath : Text := ['/']
  /-- The permissions that new files do not get. -/
  mask : Nat := 0o022
  /-- The limits that have been changed, by their letters. -/
  limits : List (Char × Limit) := []
  /-- The number of loops that the current command is in. -/
  loops : Nat := 0
  /-- The line that messages name. -/
  line : Nat := 1
  /-- The line up to which the script has been read. -/
  lineRead : Nat := 1
  /-- The builtin that messages name. -/
  commandName : Option Text := none
  /-- The programs that were looked up, with their paths. -/
  lookedUp : List (Text × Remembered) := []

/-- A leap out of the commands that a shell is in. -/
inductive Leap where
  /-- To the end of the shell. -/
  | exit
  /-- To the end of the shell, or of the builtin that failed. -/
  | failure
  /-- Out of a number of loops. -/
  | leaveLoop (loops : Nat)
  /-- To the next round of a loop, out of a number of loops in it. -/
  | nextRound (loops : Nat)
  /-- Out of a function. -/
  | leaveFunction
  /-- Out of everything, as a signal ends the process. -/
  | killed (signal : Nat)
  /-- Out of a program that is ended by a signal, while its shell goes on. -/
  | struck (signal : Nat)

/-- Puts an entry in the place of the one with the same key, or else at the end; `none` takes the
entry away. -/
def putEntry {κ α : Type} [BEq κ] (key : κ) (value : Option α) : List (κ × α) → List (κ × α)
  | [] => (value.map (key, ·)).toList
  | (k, old) :: rest =>
    if k == key then
      match value with
      | some v => (k, v) :: rest
      | none => rest
    else (k, old) :: putEntry key value rest

/-! ## Descriptors -/

/-- What a descriptor stands for. -/
def State.handle? (s : State) (descriptor : Nat) : Option Handle := s.handles.lookup descriptor

/-- One more descriptor stands for a handle. -/
def State.retain (s : State) (h : Option Handle) : State :=
  match h with
  | some h => { s with toSystem := s.toSystem.retain h }
  | none => s

/-- A descriptor less stands for a handle. -/
def State.release (s : State) (h : Option Handle) : State :=
  match h with
  | some h => { s with toSystem := s.toSystem.release h }
  | none => s

/-- Lets a descriptor stand for something else, or closes it. -/
def State.setHandle (s : State) (descriptor : Nat) (h : Option Handle) : State :=
  let s := (s.retain h).release (s.handle? descriptor)
  let others := s.handles.filter (·.1 != descriptor)
  { s with handles := match h with
    | some h => (descriptor, h) :: others
    | none => others }

/-- The least descriptor that is free. -/
def State.freeDescriptor (s : State) : Nat :=
  ((List.range s.handles.length).find? fun n => (s.handle? n).isNone).getD s.handles.length

/-- How many handles are kept. -/
def State.keptHandles (s : State) : Nat := (s.kept.filter (·.2.isSome)).length

/-- Keeps what a descriptor stands for. -/
def State.keep (s : State) (descriptor : Nat) : State :=
  let h := s.handle? descriptor
  { s.retain h with kept := (descriptor, h) :: s.kept }

/-- Forgets all but some number of what is kept. -/
def State.forgetKept (s : State) (count : Nat) : State :=
  let (own, others) := s.kept.splitAt (s.kept.length - count)
  { own.foldl (fun s (_, h) => s.release h) s with kept := others }

/-- Lets descriptors stand for what is kept, of which some number of entries are left. -/
def State.restoreKept (s : State) (count : Nat) : State :=
  let own := s.kept.take (s.kept.length - count)
  (own.foldl (fun s (d, h) => s.setHandle d h) s).forgetKept count

/-- All descriptors are closed. -/
def State.closeAll (s : State) : State :=
  let s := s.forgetKept 0
  { s.handles.foldl (fun s (_, h) => s.release (some h)) s with handles := [] }

/-- A further shell, which is a process of its own. -/
def State.further (s : State) : State :=
  let s := s.handles.foldl (fun s (_, h) => s.retain (some h)) s
  let s := s.kept.foldl (fun s (_, h) => s.retain h) s
  { s with
    process := s.nextProcess
    parent := some s.process
    nextProcess := s.nextProcess + 1
    traps := s.traps.filter (·.2.isEmpty)
    caught := []
    ticks := 0
    statusBefore := none
    lineRead := 1
    jobs := [] }

/-- The signals from a keyboard, which commands in the background take no notice of. -/
def keyboardSignals : List Nat := [2, 3]

/-- A shell in the background has nothing to read, and nobody at a keyboard. -/
def State.inBackground (s : State) : State :=
  { s.setHandle 0 (some (.device .null ⟨true, false⟩)) with unheard := keyboardSignals }

/-! ## Limits -/

/-- The limit that holds on a resource with a letter, if the script has set one. -/
def State.limit? (s : State) (letter : Char) : Option Nat := (s.limits.lookup letter).map (·.soft)

/-- There is room for some more descriptors. -/
def State.canOpen (s : State) (count : Nat) : Bool :=
  match s.limit? 'n' with
  | none => true
  | some limit =>
    count ≤ ((List.range (min limit 100)).filter fun n => (s.handle? n).isNone).length

/-! ## Options -/

/-- An option is set. -/
def State.has (s : State) (o : ShellOption) : Bool := s.options.contains o

/-- Sets an option, or takes it back. -/
def State.setOption (s : State) (o : ShellOption) (on : Bool) : State :=
  let others := s.options.filter (· != o)
  { s with options := if on then o :: others else others }

/-- The letters of the options that are set. -/
def State.optionLetters (s : State) : Text :=
  (ShellOption.all.reverse.filterMap fun (o, _, letter) => if s.has o then letter else none)

end Shell

end FuzzyFinder
