import FuzzyFinder.Shell.Text

/-!
# FuzzyFinder — from expanded words to arguments

An expanded word is a row of segments. What an unquoted expansion brought in is split at
separators, and so is the row of all arguments; quoted text and text that stands in the script are
not. White space that separates is of no account in front of and behind arguments, while every other
separator ends an argument, even an empty one. A line that is read into variables is split in the
same way, but only as often as there are variables.
-/

namespace FuzzyFinder

namespace Shell

/-- An element of an expanded word. -/
inductive Cell where
  /-- A byte; if it is quoted, it has no meaning in a pattern. -/
  | char (c : Char) (quoted : Bool)
  /-- Here a quotation began or ended, so that even an empty argument counts. -/
  | mark

/-- How a segment is split. -/
inductive Splitting where
  /-- Not at all. -/
  | never
  | atSeparators
  /-- Between arguments, where NUL bytes stand. -/
  | atNul
deriving DecidableEq

/-- A part of an expanded word. -/
structure Segment where
  cells : List Cell
  splitting : Splitting

namespace Cell

/-- The byte of a cell. -/
def char? : Cell → Option Char
  | .char c _ => some c
  | .mark => none

/-- A text as cells. -/
def ofText (quoted : Bool) (t : Text) : List Cell := t.map (.char · quoted)

/-- The text of cells. -/
def toText (cells : List Cell) : Text := cells.filterMap char?

end Cell

/-- The text of an expanded word. -/
def Segment.toText (segments : List Segment) : Text :=
  segments.flatMap fun s => Cell.toText s.cells

namespace Fields

/-- Separators unless the script sets its own. -/
def defaultSeparators : Text := [' ', '\t', '\n']

/-- Splitting under way. -/
structure Progress where
  /-- Finished fields, the last one first. -/
  finished : List (List Cell) := []
  /-- The field under way, the last cell first. -/
  current : List Cell := []
  /-- White space has just ended a field, so that more of it and one other separator count with
  it. -/
  behindSpace : Bool := false
  /-- The current segment holds arguments. -/
  atNul : Bool := false
  /-- The segment in front of it holds arguments. -/
  afterNul : Bool := false
  /-- How many more fields may be split off, if there is a bound. -/
  remaining : Option Nat := none
  /-- The field under way without the white space at its end. -/
  trimmed : Option (List Cell) := none

namespace Progress

/-- Ends the field under way. -/
def close (p : Progress) : Progress :=
  { p with finished := p.current.reverse :: p.finished, current := [] }

/-- Takes in a byte of the last field, which is not split any more. -/
def lastField (p : Progress) (cell : Cell) (separates white : Bool) : Progress :=
  let next := { p with current := cell :: p.current }
  if white then { next with trimmed := p.trimmed.or (some p.current) }
  else
    let keeps := separates && p.behindSpace
    { next with trimmed := if keeps then p.trimmed else none, behindSpace := false }

/-- Takes in a separator. -/
def separator (p : Progress) (cell : Cell) (white : Bool) : Progress :=
  let p := if p.afterNul || p.atNul then p else { p with behindSpace := white }
  if p.current.isEmpty && p.behindSpace then { p with behindSpace := false }
  else
    match p.remaining with
    | some 1 =>
      { p with remaining := some 0, trimmed := some p.current, current := cell :: p.current }
    | some n => { p.close with remaining := some (n - 1) }
    | none => p.close

/-- Takes in a cell of a segment that is split. -/
def cell (separators : Text) (p : Progress) (cell : Cell) : Progress :=
  let c? := cell.char?
  let separates := c?.any fun c => c == '\x00' || (!p.atNul && separators.contains c)
  let white := separates && c?.any fun c => c == '\x00' || defaultSeparators.contains c
  if p.remaining == some 0 then p.lastField cell separates white
  else if p.behindSpace then
    if white then { p with current := [] }
    else { p with current := if separates then [] else [cell], behindSpace := false }
  else if separates then p.separator cell white
  else { p with current := cell :: p.current }

/-- Takes in a segment. -/
def segment (separators : Text) (p : Progress) (s : Segment) : Progress :=
  match s.splitting with
  | .never => { p with current := s.cells.reverse ++ p.current }
  | splitting =>
    let p := { p with behindSpace := false, afterNul := p.atNul, atNul := splitting == .atNul }
    s.cells.foldl (cell separators) p

/-- All fields. The one under way counts unless it is empty, and also where arguments end. -/
def fields (p : Progress) : List (List Cell) :=
  let last := p.trimmed.getD p.current
  let finished := if last.isEmpty && !p.atNul then p.finished else last.reverse :: p.finished
  finished.reverse

end Progress

/-- The fields of an expanded word, at most `limit` of them if there is a limit. -/
def split (separators : Option Text) (limit : Option Nat) (segments : List Segment) :
    List (List Cell) :=
  (segments.foldl (Progress.segment (separators.getD defaultSeparators))
    { remaining := limit }).fields

end Fields

end Shell

end FuzzyFinder
