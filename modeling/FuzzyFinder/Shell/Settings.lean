import FuzzyFinder.Shell.Reply

/-!
# FuzzyFinder — variables, arguments and options

The builtins that declare variables and take them away, that set the options and the arguments of
the shell, and that go through options in arguments one by one.
-/

namespace FuzzyFinder

namespace Shell

namespace Settings

/-! ## Variables -/

/-- Splits an assignment that stands as an argument. -/
def splitAssignment (t : Text) : Text × Option Text :=
  match t.span (· != '=') with
  | (name, _ :: value) => (name, some value)
  | (name, []) => (name, none)

/-- Variables in the order of their names, one to a line, each with `front` before it. A variable
without a value is shown only where `bare`. -/
def list (front : Text) (bare : Bool) (bindings : List (Text × Variable)) : Reply :=
  let sorted := bindings.mergeSort fun a b =>
    compare (Text.toBytes a.1) (Text.toBytes b.1) != .gt
  .lines <| sorted.filterMap fun (name, v) =>
    match v.value with
    | some value => some (front ++ name ++ '=' :: Text.quoted value)
    | none => if bare then some (front ++ name) else none

/-- The arguments behind a switch that asks for a list, `none` if it is there. Nothing else that
stands in one argument with it counts. -/
def withoutList (arguments : List Text) : Run (Option (List Text)) := do
  if let ('-' :: 'p' :: _) :: _ := arguments then return none
  return some (← takeSwitches "" arguments).2

/-- Declares variables, or shows those that have been declared. -/
def declare (name : String) (exports locks : Bool) (arguments : List Text) : Run Reply := do
  let arguments := (← withoutList arguments).getD []
  if arguments.isEmpty then
    let declared := (← get).bindings.filter fun (_, v) =>
      (exports && v.exported) || (locks && v.readOnly)
    return list (name.toList ++ [' ']) true declared
  for a in arguments do
    let (name, value) := splitAssignment a
    setVariable name value exports locks
  return {}

/-- Makes variables the current function's own. A hyphen stands for the options. -/
def own (arguments : List Text) : Run Reply := do
  if (← get).calls == 0 then fail (Text.ofString "not in a function")
  for a in arguments do
    if a == ['-'] then shadow (.options (← get).options)
    else
      let (name, value) := splitAssignment a
      shadowVariable name
      if value.isSome || ((← get).binding? name).isNone then setVariable name value false false
  return {}

/-- Takes variables, or functions, away. -/
def unset (arguments : List Text) : Run Reply := do
  let (switches, names) ← takeSwitches "vf" arguments
  let functions := (switches.getLast?).any (·.letter == 'f')
  for name in names do
    if functions then
      modify fun s => { s with functions := putEntry name none s.functions }
    else
      unsetVariable (← checkedName name)
  return {}

/-! ## Arguments -/

/-- Gives the shell, or the current function, other arguments. -/
def setArguments (arguments : List Text) : Run Unit :=
  modify fun s => { s with arguments, optionCursor := {} }

/-- Drops arguments in front. -/
def shift (arguments : List Text) : Run Reply := do
  let count ← match arguments with
    | [] => pure 1
    | a :: _ => number a
  let s ← get
  if s.arguments.length < count then fail (Text.ofString "can't shift that many")
  setArguments (s.arguments.drop count)
  return {}

/-! ## Options -/

/-- A text with blanks behind it up to a width. -/
def padRight (width : Nat) (t : Text) : Text := t ++ List.replicate (width - t.length) ' '

/-- Shows the options, in a form that can be read back unless `plainly`. -/
def listOptions (s : State) (plainly : Bool) : Text :=
  let line (o : ShellOption × String × Option Char) : Text :=
    let on := s.has o.1
    let name := o.2.1.toList
    if plainly then padRight 16 name ++ (if on then "on\n" else "off\n").toList
    else (if on then "set -o " else "set +o ").toList ++ name ++ ['\n']
  (if plainly then "Current option settings\n".toList else []) ++ ShellOption.all.flatMap line

/-- What setting options brings. -/
structure OptionsRead where
  /-- The arguments that are left. -/
  rest : List Text
  /-- What is written. -/
  output : Text := []
  /-- The option that there is not, as it was written. -/
  unknown : Option Text := none

/-- Sets the options that letters stand for, or takes them back. The letter `o` takes the name of an
option from the arguments behind it, and shows all options where there is none. -/
def setLetters (on : Bool) : Text → List Text → Run OptionsRead
  | [], rest => return { rest }
  | 'o' :: letters, [] => do
    let shown := listOptions (← get) on
    let more ← setLetters on letters []
    return { more with output := shown ++ more.output }
  | 'o' :: letters, name :: rest => do
    match ShellOption.ofName? name with
    | some o =>
      modify fun s => s.setOption o on
      setLetters on letters rest
    | none => return { rest, unknown := some ("-o ".toList ++ name) }
  | c :: letters, rest => do
    match ShellOption.ofLetter? c with
    | some o =>
      modify fun s => s.setOption o on
      if on && c == 'V' then modify fun s => s.setOption .emacs false
      if on && c == 'E' then modify fun s => s.setOption .vi false
      setLetters on letters rest
    | none => return { rest, unknown := some ['-', c] }

/-- Reads options in front of arguments; the arguments behind them become those of the shell. -/
def readOptions : (fuel : Nat) → List Text → Run OptionsRead
  | 0, rest => return { rest }
  | fuel + 1, arguments => do
    let rest (arguments : List Text) : Run OptionsRead := do
      unless arguments.isEmpty do setArguments arguments
      return { rest := [] }
    match arguments with
    | ['-'] :: others =>
      modify fun s => (s.setOption .xtrace false).setOption .verbose false
      rest others
    | ['-', '-'] :: others =>
      setArguments others
      return { rest := [] }
    | (sign :: letters) :: others =>
      if sign != '-' && sign != '+' then rest arguments
      else
        let here ← setLetters (sign == '-') letters others
        if here.unknown.isSome then return here
        let more ← readOptions fuel here.rest
        return { more with output := here.output ++ more.output }
    | others => rest others

/-- Without a terminal there is no control over jobs. -/
def checkMonitor : Run Unit := do
  if (← get).has .monitor then
    complain (Text.ofString "can't access tty; job control turned off")
    modify fun s => s.setOption .monitor false

/-- Sets options and arguments, or shows all variables. -/
def set (arguments : List Text) : Run Reply := do
  if arguments.isEmpty then return list [] false (← get).bindings
  let read ← readOptions (arguments.length + 1) arguments
  match read.unknown with
  | some written =>
    complain (Text.ofString "Illegal option " ++ written)
    let _ ← writeTo 1 read.output
    setStatus 2
    throw .failure
  | none =>
    checkMonitor
    return { output := read.output }

/-! ## Options in arguments -/

/-- What is known of an option letter: `none` that there is none, and otherwise whether it takes an
argument. -/
def letterKind? (c : Char) : Text → Option Bool
  | d :: ':' :: rest => if c == d then some true else letterKind? c rest
  | d :: rest => if c == d then some false else letterKind? c rest
  | [] => none

/-- What looking for the next option brings. -/
structure NextOption where
  /-- The letter, or a question mark or colon if something is wrong. -/
  letter : Char := '?'
  /-- The new value of the variable for arguments; `none` takes it away. -/
  argument : Option Text := none
  /-- That variable stays as it is. -/
  keepsArgument : Bool := false
  /-- There are no more options. -/
  isOver : Bool := false
  /-- What is complained about. -/
  complaint : Option Text := none
  /-- Where looking goes on. -/
  cursor : OptionCursor

/-- Goes on behind the argument number `index`, of which `rest` is still to be looked at. -/
def cursorBehind (index : Nat) (argument rest : Text) : OptionCursor :=
  { index := index + 1, offset := some (argument.length - rest.length) }

/-- Looks at an option letter in an argument, with `rest` behind it. A colon in front of the known
letters asks for silence. -/
def lookAtLetter (known : Text) (arguments : List Text) (index : Nat) (argument : Text) (c : Char)
    (rest : Text) : NextOption :=
  let cursor := cursorBehind index argument rest
  let silent := known.head? == some ':'
  match letterKind? c known with
  | none =>
    if silent then { argument := some [c], cursor }
    else { complaint := some (Text.ofString "Illegal option -" ++ [c]), cursor }
  | some false => { letter := c, argument := some [], cursor }
  | some true =>
    if !rest.isEmpty then
      { letter := c, argument := some rest, cursor := { index := index + 1 } }
    else
      match arguments[index]? with
      | some a => { letter := c, argument := some a, cursor := { index := index + 2 } }
      | none =>
        let cursor : OptionCursor := { index := index + 1 }
        if silent then { letter := ':', argument := some [c], cursor }
        else
          { complaint := some (Text.ofString "No arg for -" ++ c :: Text.ofString " option")
            cursor }

/-- Looks for the next option in arguments. -/
def nextOption (known : Text) (arguments : List Text) (cursor : OptionCursor) : NextOption :=
  let current := arguments[cursor.index - 2]?
  let rest : Text := match cursor.offset, current with
    | some offset, some a => if cursor.index ≤ 1 then [] else a.drop offset
    | _, _ => []
  match rest, current with
  | c :: rest, some a => lookAtLetter known arguments (cursor.index - 1) a c rest
  | _, _ =>
    let finished (index : Nat) : NextOption :=
      { isOver := true, keepsArgument := true, cursor := { index } }
    match arguments[cursor.index - 1]? with
    | some ['-', '-'] => finished (cursor.index + 1)
    | some ('-' :: c :: rest) =>
      lookAtLetter known arguments cursor.index ('-' :: c :: rest) c rest
    | _ => finished cursor.index

/-- Reads the next option off arguments into a variable. -/
def getOptions (arguments : List Text) : Run Reply := do
  match arguments with
  | known :: name :: given =>
    let s ← get
    let arguments := if given.isEmpty then s.arguments else given
    let start := if arguments.length + 1 < s.optionCursor.index then {} else s.optionCursor
    let next := nextOption known arguments start
    if let some t := next.complaint then warn t
    let argumentName := "OPTARG".toList
    unless next.keepsArgument do
      match next.argument with
      | some t => assign argumentName t
      | none => unsetVariable argumentName
    modify fun s => s.store optionIndexName (some (Text.ofNat next.cursor.index)) false false
    assign name [next.letter]
    modify fun s => { s with optionCursor := next.cursor }
    return { status := if next.isOver then 1 else 0 }
  | _ => fail (Text.ofString "Usage: getopts optstring var [arg...]")

end Settings

end Shell

end FuzzyFinder
