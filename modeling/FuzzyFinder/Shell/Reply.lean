import FuzzyFinder.Shell.Switches
import FuzzyFinder.Shell.Variables

/-!
# FuzzyFinder — the answers of builtins

Most builtins answer with a status and with what they write, and change the state of the shell on
the way.
-/

namespace FuzzyFinder

namespace Shell

/-- What a builtin answers. -/
structure Reply where
  status : Nat := 0
  /-- What it writes. -/
  output : Text := []

/-- An answer that consists of a text. -/
def Reply.text (t : Text) : Reply := { output := t }

/-- An answer that consists of lines. -/
def Reply.lines (ts : List Text) : Reply := { output := ts.flatMap (· ++ ['\n']) }

/-- Writes a line for messages as it is. -/
def warn (t : Text) : Run Unit := discard (writeTo 2 (t ++ ['\n']))

/-- The switches in front of the arguments of a builtin. -/
def takeSwitches (letters : String) (arguments : List Text) : Run (List Switch × List Text) := do
  let a := (Switches.ofLetters letters).front arguments
  if let some f := a.fault then fail f.message
  return (a.switches, a.others)

/-- The slot of a name in a table of a given size; lists that have no other order show the names
slot by slot. -/
def slot (size : Nat) (name : Text) : Nat :=
  (name.foldl (fun n c => n + c.toNat) ((name.headD '\x00').toNat * 16)) % size

/-- Entries in the order of the slots of their names. -/
def bySlot {α : Type} (size : Nat) (entries : List (Text × α)) : List (Text × α) :=
  entries.mergeSort fun a b => slot size a.1 ≤ slot size b.1

end Shell

end FuzzyFinder
