import FuzzyFinder.Shell.Switches

/-!
# FuzzyFinder — showing files

Files are written one behind the other as they are, or with numbers in front of their lines, with
their ends and tabs marked, with characters that leave no mark made visible, and with several empty
lines taken as one.
-/

namespace FuzzyFinder

namespace Shell

/-- How files are shown. -/
structure ShowOptions where
  /-- Lines get numbers. -/
  numbers : Bool := false
  /-- Empty lines get no numbers. -/
  onlyFilled : Bool := false
  /-- The ends of lines are marked. -/
  ends : Bool := false
  /-- Several empty lines count as one. -/
  squeezes : Bool := false
  /-- Tabs are marked. -/
  tabs : Bool := false
  /-- Characters that leave no mark are made visible. -/
  visible : Bool := false

/-- Where showing files is. -/
structure ShowState where
  /-- The number of the last line. -/
  number : Nat := 0
  /-- How many line ends there have been since the last character, `none` within a line. The ones
  behind the second one are not counted. -/
  lineEnds : Option Nat := some 0
  /-- A carriage return that is not shown yet. -/
  pending : Bool := false

/-- Files are written as they are. -/
def ShowOptions.isPlain (o : ShowOptions) : Bool :=
  !(o.numbers || o.ends || o.squeezes || o.tabs || o.visible)

namespace Catenation

/-- The switches of showing files. -/
def switches : Switches where
  letters := ("AbeEnstTuv".toList).map fun c => (c, SwitchArgument.none)
  names := [("number-nonblank", 'b', .none), ("number", 'n', .none),
    ("squeeze-blank", 's', .none), ("show-nonprinting", 'v', .none), ("show-ends", 'E', .none),
    ("show-tabs", 'T', .none), ("show-all", 'A', .none), ("help", 'H', .none),
    ("version", 'H', .none)]

/-- Changes options by a switch. -/
def applySwitch (o : ShowOptions) (s : Switch) : ShowOptions :=
  match s.letter with
  | 'A' => { o with visible := true, ends := true, tabs := true }
  | 'b' => { o with numbers := true, onlyFilled := true }
  | 'e' => { o with visible := true, ends := true }
  | 'E' => { o with ends := true }
  | 'n' => { o with numbers := true }
  | 's' => { o with squeezes := true }
  | 't' => { o with visible := true, tabs := true }
  | 'T' => { o with tabs := true }
  | 'v' => { o with visible := true }
  | _ => o

/-- A number in front of a line. -/
def lineNumber (n : Nat) : Text :=
  let digits := Text.ofNat n
  List.replicate (6 - digits.length) ' ' ++ digits ++ ['\t']

/-- A character below 128 in visible form. -/
def visibleLow (n : Nat) : Text :=
  if n < 32 then ['^', Char.ofNat (n + 64)]
  else if n == 127 then ['^', '?']
  else [Char.ofNat n]

/-- A character of a line as it is shown. -/
def character (o : ShowOptions) (c : Char) : Text :=
  if c == '\t' then if o.tabs then ['^', 'I'] else [c]
  else if !o.visible then [c]
  else if c.toNat < 128 then visibleLow c.toNat
  else ['M', '-'] ++ visibleLow (c.toNat - 128)

/-- Adds a text to the output, which is kept backwards. -/
def add (output : Text) (t : Text) : Text := t.reverse ++ output

/-- Shows one character behind the output so far. -/
def step (o : ShowOptions) (s : ShowState) (output : Text) (c : Char) : ShowState × Text :=
  if c == '\n' then
    let output := if s.pending then add output ['^', 'M'] else output
    let s := { s with pending := false }
    let count := s.lineEnds.elim 0 (· + 1)
    if 2 ≤ count && o.squeezes then ({ s with lineEnds := some 2 }, output)
    else
      let numbered := 0 < count && o.numbers && !o.onlyFilled
      let number := if numbered then s.number + 1 else s.number
      let output := if numbered then add output (lineNumber number) else output
      ({ s with number, lineEnds := some (min 2 count) },
        add output (if o.ends then ['$', '\n'] else ['\n']))
  else
    let output := if s.pending then '\r' :: output else output
    let starts := s.lineEnds.isSome && o.numbers
    let number := if starts then s.number + 1 else s.number
    let output := if starts then add output (lineNumber number) else output
    let s := { s with number, lineEnds := none }
    if c == '\r' && o.ends && !o.visible then ({ s with pending := true }, output)
    else ({ s with pending := false }, add output (character o c))

/-- Shows what has been read of files. -/
def chunk (o : ShowOptions) (s : ShowState) (t : Text) : ShowState × Text :=
  if o.isPlain then (s, t)
  else
    let (s, output) := t.foldl (fun (s, output) c => step o s output c) (s, [])
    (s, output.reverse)

/-- What is left to be shown at the end. -/
def rest (s : ShowState) : Text := if s.pending then ['\r'] else []

end Catenation

end Shell

end FuzzyFinder
