import FuzzyFinder.Shell.Reply
import FuzzyFinder.Shell.Fields

/-!
# FuzzyFinder — reading lines into variables

A line of the input is split like an expansion, with at most as many fields as there are variables.
A backslash keeps the byte behind it from separating fields, and joins lines.
-/

namespace FuzzyFinder

namespace Shell

namespace Input

/-- A line under way. -/
structure Progress where
  /-- The finished segments, the last one first. -/
  segments : List Segment := []
  /-- Bytes that may separate fields, the last one first. -/
  loose : List Cell := []
  /-- The last byte was a backslash that keeps the next one. -/
  escaping : Bool := false

namespace Progress

/-- Ends the bytes that may separate fields. -/
def close (p : Progress) : Progress :=
  if p.loose.isEmpty then p
  else
    let s : Segment := { cells := p.loose.reverse, splitting := .atSeparators }
    { p with segments := s :: p.segments, loose := [] }

/-- Takes in a byte. -/
def add (raw : Bool) (p : Progress) (c : Char) : Progress :=
  if c == '\x00' then p
  else if p.escaping then
    let p := p.close
    { p with
      segments := { cells := [.char c false], splitting := .never } :: p.segments
      escaping := false }
  else if c == '\\' && !raw then { p with escaping := true }
  else { p with loose := .char c false :: p.loose }

def line (p : Progress) : List Segment := p.close.segments.reverse

end Progress

/-- Reads a line, and the lines joined to it; also tells whether a newline ends it. -/
def readJoined (raw : Bool) (h : Option Handle) : (fuel : Nat) → Progress → Run (Progress × Bool)
  | 0, p => return (p, false)
  | fuel + 1, p => do
    match ← readLineFrom h with
    | .error _ => return (p, false)
    | .ok (line, ended) =>
      let p := line.foldl (Progress.add raw) p
      if p.escaping && ended then readJoined raw h fuel { p with escaping := false }
      else return (p, ended)

/-- Gives variables values; those without one become empty. -/
def store : (names values : List Text) → Run Unit
  | [], _ => return ()
  | name :: names, values => do
    assign name (values.headD [])
    store names values.tail

/-- Reads a line into variables. -/
def read (arguments : List Text) : Run Reply := do
  let (switches, names) ← takeSwitches "p:r" arguments
  if names.isEmpty then fail (Text.ofString "arg count")
  let s ← get
  let raw := switches.any (·.letter == 'r')
  let (p, ended) ← readJoined raw (s.handle? 0) Reader.patience {}
  let fields := Fields.split s.separators? (some names.length) p.line
  store names (fields.map Cell.toText)
  return { status := if ended then 0 else 1 }

end Input

end Shell

end FuzzyFinder
