/-!
# FuzzyFinder — signals

A signal ends a command from outside. Signals are known by their numbers; most of them have names,
and all of them are described in words.
-/

namespace FuzzyFinder

namespace Signal

/-- The names of the signals and what they are about, from number one on. -/
def table : List (String × String) :=
  [("HUP", "Hangup"), ("INT", "Interrupt"), ("QUIT", "Quit"), ("ILL", "Illegal instruction"),
    ("TRAP", "Trace/breakpoint trap"), ("ABRT", "Aborted"), ("BUS", "Bus error"),
    ("FPE", "Floating point exception"), ("KILL", "Killed"), ("USR1", "User defined signal 1"),
    ("SEGV", "Segmentation fault"), ("USR2", "User defined signal 2"), ("PIPE", "Broken pipe"),
    ("ALRM", "Alarm clock"), ("TERM", "Terminated"), ("STKFLT", "Stack fault"),
    ("CHLD", "Child exited"), ("CONT", "Continued"), ("STOP", "Stopped (signal)"),
    ("TSTP", "Stopped"), ("TTIN", "Stopped (tty input)"), ("TTOU", "Stopped (tty output)"),
    ("URG", "Urgent I/O condition"), ("XCPU", "CPU time limit exceeded"),
    ("XFSZ", "File size limit exceeded"), ("VTALRM", "Virtual timer expired"),
    ("PROF", "Profiling timer expired"), ("WINCH", "Window changed"), ("IO", "I/O possible"),
    ("PWR", "Power failure"), ("SYS", "Bad system call")]

/-- The signals from this one on are at the disposal of programs. -/
def firstFree : Nat := 34

/-- The entry of a signal. -/
def known? (n : Nat) : Option (String × String) := if n == 0 then none else table[n - 1]?

/-- The name of a signal, if it has one. -/
def name? (n : Nat) : Option String := (known? n).map ("SIG" ++ ·.1)

/-- What a signal is about. -/
def description (n : Nat) : String :=
  match known? n with
  | some (_, words) => words
  | none =>
    if n < firstFree then s!"Unknown signal {n}" else s!"Real-time signal {n - firstFree}"

end Signal

end FuzzyFinder
