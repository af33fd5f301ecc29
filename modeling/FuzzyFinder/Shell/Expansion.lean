import FuzzyFinder.Shell.Arithmetic
import FuzzyFinder.Shell.Paths
import FuzzyFinder.Shell.Trimming
import FuzzyFinder.Shell.Variables

/-!
# FuzzyFinder — the expansion of words

Replaces what words stand for: parameters, the output of commands, the values of arithmetic
expressions, and a tilde for the home directory. Running the commands in words is left to
`substitute`, which gives their output. Where a word becomes arguments, what unquoted expansions
brought in is split into fields, and fields that are patterns become the names of files.
-/

namespace FuzzyFinder

namespace Shell

/-- Gives the output of commands in a word. -/
abbrev Substitute := Command → Run Text

/-- How a word is expanded. -/
structure Expanding where
  /-- It becomes arguments. -/
  full : Bool := false
  /-- A tilde in front stands for a home directory. -/
  tilde : Bool := false
  /-- So does one behind the first equals sign or behind a colon. -/
  assignment : Bool := false
  /-- It is the word of a parameter expansion, in which unquoted text is split. -/
  inner : Bool := false

namespace Expansion

/-- Words are expanded to this depth. -/
def maxDepth : Nat := 5000

/-! ## Parameters -/

/-- An expansion that is split unless it is quoted. -/
def loose (quoted : Bool) (t : Text) : Segment :=
  { cells := Cell.ofText quoted t, splitting := if quoted then .never else .atSeparators }

/-- Texts as segments, one behind the other, with a separator between them. -/
def joined (quoted : Bool) (splitting : Splitting) (separator : Text) (texts : List Text) :
    Segment :=
  { cells := Cell.ofText quoted (Text.join separator texts), splitting }

/-- All arguments. Where they become arguments themselves they are kept apart, or else joined with
the first separator. -/
def allArguments (s : State) (full quoted star : Bool) : Segment :=
  let first : Text := match s.separators? with
    | none => [' ']
    | some separators => separators.take 1
  let splitting : Splitting := if quoted then .never else .atSeparators
  if full && quoted && !star then
    joined quoted (if s.arguments.isEmpty then .never else .atNul) ['\x00'] s.arguments
  else if full && !quoted then
    let separator : Text := if s.separators?.isSome then ['\x00'] else [' ']
    joined quoted splitting separator s.arguments
  else joined quoted splitting first s.arguments

/-- The value of a parameter, with the way it is split. -/
def lookUp (s : State) (name : Text) (full quoted : Bool) : Option Segment :=
  match name with
  | ['@'] => some (allArguments s full quoted false)
  | ['*'] => some (allArguments s full quoted true)
  | ['#'] => some (loose quoted (Text.ofNat s.arguments.length))
  | ['?'] => some (loose quoted (Text.ofNat s.status))
  | ['$'] => some (loose quoted (Text.ofNat mainProcess))
  | ['!'] => s.lastProcess.map fun n => loose quoted (Text.ofNat n)
  | ['-'] => some (loose quoted s.optionLetters)
  | _ =>
    if name.all Char.isDigit then
      match Text.valueIn 10 name with
      | 0 => some (loose quoted s.scriptName)
      | n + 1 => s.arguments[n]?.map (loose quoted)
    else (s.value? name).map (loose quoted)

/-- Complains that a parameter has no value. -/
def complainUnset {α : Type} (name : Text) (message : Text) : Run α :=
  fail (name ++ Text.ofString ": " ++ message)

/-- The usual complaint about a parameter without a value. -/
def unsetMessage (orEmpty : Bool) : Text :=
  Text.ofString (if orEmpty then "parameter not set or null" else "parameter not set")

/-! ## Arithmetic -/

/-- The variables of a shell as numbers. A variable without a value counts as zero. -/
def numericVariables : Arithmetic.Variables State where
  get s name :=
    let value := (s.value? name).getD []
    let n := Text.numeral 0 value
    if n.overflows || !(n.rest.all Text.isSpace) then .error (.illegalNumber value)
    else .ok n.value
  set s name n :=
    if ((s.binding? name).getD {}).readOnly then .error (.readOnly name)
    else .ok (s.store name (some (Text.ofInt n)) false false)

/-- Complains about an expression, as far as there is time for that. -/
def complainArithmetic {α : Type} (expression : Text) (e : ArithmeticFault) : Run α :=
  let about (reason : String) : Run α :=
    fail (Text.ofString s!"arithmetic expression: {reason}: \"" ++ expression ++ ['\x22'])
  match e with
  | .expectingPrimary => about "expecting primary"
  | .expectingEnd => about "expecting EOF"
  | .expectingParenthesis => about "expecting ')'"
  | .expectingColon => about "expecting ':'"
  | .divisionByZero => about "division by zero"
  | .quotientTooLarge => throw (.killed arithmeticSignal)
  | .illegalNumber value => illegalNumber value
  | .readOnly name => fail (name ++ Text.ofString ": is read only")

/-- The value of an expression. -/
def evaluate (expression : Text) : Run Text := do
  match Arithmetic.evaluate numericVariables (← get) expression with
  | .ok (n, s) =>
    set s
    return Text.ofInt n
  | .error e => complainArithmetic expression e

/-! ## Tildes -/

/-- The name behind a tilde and the pieces behind that, `none` where no home directory can be
meant. -/
def tildeName? (assignment : Bool) : Word → Option (Text × Word)
  | [] => some ([], [])
  | .char c false :: rest =>
    if c == '/' || (c == ':' && assignment) then some ([], .char c false :: rest)
    else (tildeName? assignment rest).map fun (name, rest) => (c :: name, rest)
  | _ :: _ => none

/-- The users that there always are, with their home directories. -/
def homes : List (String × String) :=
  [("root", "/root"), ("daemon", "/usr/sbin"), ("bin", "/bin"), ("sys", "/dev"), ("sync", "/bin"),
    ("games", "/usr/games"), ("man", "/var/cache/man"), ("lp", "/var/spool/lpd"),
    ("mail", "/var/mail"), ("news", "/var/spool/news"), ("uucp", "/var/spool/uucp"),
    ("proxy", "/bin"), ("www-data", "/var/www"), ("backup", "/var/backups"), ("list", "/var/list"),
    ("irc", "/run/ircd"), ("_apt", "/nonexistent"), ("nobody", "/nonexistent")]

/-- The home directory of a user, or of the one who runs the script. -/
def homeOf (s : State) (user : Text) : Option Text :=
  if user.isEmpty then s.value? "HOME".toList
  else (homes.lookup (String.ofList user)).map String.toList

/-- Replaces a tilde in front of pieces by a home directory, if it stands for one. -/
def withTilde (s : State) (assignment : Bool) (w : Word) : Word :=
  match w with
  | .char '~' false :: rest =>
    match tildeName? assignment rest with
    | none => w
    | some (user, rest) =>
      match homeOf s user with
      | none => w
      | some home => home.map (.char · true) ++ rest
  | w => w

/-- Replaces tildes behind the first equals sign and behind colons. -/
def withTildes (s : State) : (equals : Bool) → Word → Word
  | _, [] => []
  | equals, .char c false :: rest =>
    let rest := withTildes s (equals && c != '=') rest
    .char c false :: if c == ':' || (c == '=' && equals) then withTilde s true rest else rest
  | equals, p :: rest => p :: withTildes s equals rest

/-! ## Words -/

/-- The expansion of a word inside of another one. -/
abbrev ExpandInner := Expanding → Word → Run (List Segment)

/-- Expands the use of a parameter. -/
def useParameter (inner : ExpandInner) (full : Bool) (name : Text) (use : Use)
    (orEmpty quoted : Bool) (word : Word) : Run (List Segment) := do
  let found := lookUp (← get) name full quoted
  let found := found.filter fun v => !(orEmpty && v.cells.isEmpty)
  let value (v : Option Segment) : Run (List Segment) := do
    if v.isNone && (← get).has .nounset then complainUnset name (unsetMessage false)
    return v.toList
  match use with
  | .value => value found
  | .malformed => fail (Text.ofString "Bad substitution")
  | .length =>
    let _ ← value found
    let counted := lookUp (← get) name false quoted
    return [loose quoted (Text.ofNat ((counted.map (·.cells.length)).getD 0))]
  | .default =>
    match found with
    | some v => return [v]
    | none => inner { full, tilde := true, inner := true } word
  | .alternative =>
    match found with
    | some _ => inner { full, tilde := true, inner := true } word
    | none => return [loose quoted []]
  | .assign =>
    match found with
    | some v => return [v]
    | none =>
      let text := Segment.toText (← inner { tilde := true } word)
      assign name text
      value (lookUp (← get) name full quoted)
  | .require =>
    match found with
    | some v => return [v]
    | none =>
      let message := Segment.toText (← inner { tilde := true } word)
      complainUnset name (if word.isEmpty then unsetMessage orEmpty else message)
  | .trim t =>
    match found with
    | none => value none
    | some v =>
      let pattern := (← inner { tilde := true } word).flatMap (·.cells)
      let count := t.count (Cell.toPatternText true pattern) quoted (Cell.toText v.cells)
      let cells := if t.atEnd then v.cells.take (v.cells.length - count) else v.cells.drop count
      return [{ v with cells }]

/-- Without the newlines at its end, and without NUL bytes. -/
def outputText (t : Text) : Text :=
  Text.dropEndWhile (· == '\n') (t.filter (· != '\x00'))

/-- Expands a piece that is neither a character nor a mark. -/
def expandPiece (substitute : Substitute) (inner : ExpandInner) (full : Bool) (p : Piece) :
    Run (List Segment) := do
  match p with
  | .char c quoted => return [{ cells := [.char c quoted], splitting := .never }]
  | .mark _ => return [{ cells := [.mark], splitting := .never }]
  | .parameter name use orEmpty quoted word => useParameter inner full name use orEmpty quoted word
  | .command none quoted => return [loose quoted []]
  | .command (some body) quoted => return [loose quoted (outputText (← substitute body))]
  | .arithmetic expression quoted =>
    let text := Segment.toText (← inner {} expression)
    return [loose quoted (← evaluate text)]

/-- Characters that stand side by side in the script. -/
structure Literals where
  /-- The cells, the last one first. -/
  cells : List Cell := []
  /-- They are split. -/
  loose : Bool := false

/-- The segment that characters make, if there are any. -/
def Literals.segments (l : Literals) : List Segment :=
  if l.cells.isEmpty then []
  else [{ cells := l.cells.reverse, splitting := if l.loose then .atSeparators else .never }]

/-- Expands pieces one behind the other, behind the characters `l`. The quoted arguments as a whole
leave no mark, so that they stand for no argument at all where there are none. -/
def expandPieces (substitute : Substitute) (inner : ExpandInner) (e : Expanding) :
    (l : Literals) → Word → Run (List Segment)
  | l, [] => return l.segments
  | l, .mark true :: .parameter ['@'] .value false quoted word :: .mark false :: rest => do
    let s ← expandPiece substitute inner e.full (.parameter ['@'] .value false quoted word)
    return l.segments ++ s ++ (← expandPieces substitute inner e {} rest)
  | l, .mark _ :: rest =>
    if l.loose then do
      let s ← expandPieces substitute inner e { cells := [.mark] } rest
      return l.segments ++ s
    else expandPieces substitute inner e { l with cells := .mark :: l.cells } rest
  | l, .char c quoted :: rest =>
    let isLoose := e.inner && !quoted
    if l.loose == isLoose || l.cells.isEmpty then
      expandPieces substitute inner e ⟨.char c quoted :: l.cells, isLoose⟩ rest
    else do
      let s ← expandPieces substitute inner e ⟨[.char c quoted], isLoose⟩ rest
      return l.segments ++ s
  | l, p :: rest => do
    let s ← expandPiece substitute inner e.full p
    return l.segments ++ s ++ (← expandPieces substitute inner e {} rest)

/-- Expands a word, with at most `depth` words in one another. -/
def expand (substitute : Substitute) : (depth : Nat) → ExpandInner
  | 0, _, _ => fail (Text.ofString "Bad substitution")
  | depth + 1, e, w => do
    let s ← get
    let w := if e.tilde then withTilde s false w else w
    let w := if e.assignment then withTildes s true w else w
    expandPieces substitute (expand substitute depth) e {} w

end Expansion

open Expansion

/-- The text that a word stands for. -/
def expandText (substitute : Substitute) (e : Expanding) (w : Word) : Run Text := do
  return Segment.toText (← expand substitute Expansion.maxDepth e w)

/-- The pattern that a word stands for. -/
def expandPattern (substitute : Substitute) (w : Word) : Run Pattern := do
  let segments ← expand substitute Expansion.maxDepth { tilde := true } w
  return Cell.toPattern (segments.flatMap (·.cells))

/-- The arguments that a word stands for. -/
def expandFields (substitute : Substitute) (w : Word) : Run (List Text) := do
  let segments ← expand substitute Expansion.maxDepth { full := true, tilde := true } w
  let s ← get
  return (Fields.split s.separators? none segments).flatMap (Paths.ofField s)

end Shell

end FuzzyFinder
