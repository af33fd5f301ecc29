import FuzzyFinder.Shell.Text

/-!
# FuzzyFinder — switches among arguments

Builtins take switches, which are letters behind a hyphen, only in front of their other arguments.
Programs take them anywhere, and also know some of them by longer names behind two hyphens, which
may be cut short as long as they stay distinct.
-/

namespace FuzzyFinder

namespace Shell

/-- Whether a switch takes an argument. -/
inductive SwitchArgument where
  | none | required | optional
  /-- One right behind it, or digits. -/
  | digits
deriving DecidableEq

/-- A letter with the argument behind it. -/
structure Switch where
  letter : Char
  argument : Option Text := none
  /-- The longer name that stands for the letter. -/
  name : Option String := none

/-- An argument by its role. -/
inductive Argument where
  | switch (s : Switch)
  /-- An argument that is no switch, together with the next one if that belongs to it. -/
  | other (t : Text) (next : Option Text)

/-- The switches that a command takes. -/
structure Switches where
  letters : List (Char × SwitchArgument)
  /-- The longer names, with the letter that each of them stands for. -/
  names : List (String × Char × SwitchArgument) := []
  /-- The second one of two arguments belongs to the first one, which is no switch. -/
  pairs : (first second : Text) → Bool := fun _ _ => false

/-- Why arguments make no sense. -/
inductive SwitchFault where
  /-- There is no such letter. -/
  | unknownLetter (c : Char)
  /-- There is no argument for a letter. -/
  | missingArgument (c : Char)
  /-- There is no such name. -/
  | unknownName (written : Text)
  /-- Several names open like this. -/
  | ambiguous (written : Text) (names : List String)
  /-- There is no argument for a name. -/
  | missingNamed (name : String)
  /-- There is an argument for a name that takes none. -/
  | needlessNamed (name : String)

namespace SwitchFault

/-- What a builtin says about a fault. -/
def message : SwitchFault → Text
  | .unknownLetter c => Text.ofString "Illegal option -" ++ [c]
  | .missingArgument c => Text.ofString "No arg for -" ++ c :: Text.ofString " option"
  | _ => []

/-- What a program says about a fault. -/
def programMessage : SwitchFault → Text
  | .unknownLetter c => Text.ofString "invalid option -- '" ++ [c, '\x27']
  | .missingArgument c => Text.ofString "option requires an argument -- '" ++ [c, '\x27']
  | .unknownName written =>
    Text.ofString "unrecognized option '" ++ written ++ ['\x27']
  | .ambiguous written names =>
    Text.ofString "option '" ++ written ++ Text.ofString "' is ambiguous; possibilities:" ++
      names.flatMap fun n => Text.ofString (" '--" ++ n ++ "'")
  | .missingNamed name => Text.ofString ("option '--" ++ name ++ "' requires an argument")
  | .needlessNamed name => Text.ofString ("option '--" ++ name ++ "' doesn't allow an argument")

end SwitchFault

namespace Switches

/-- Switches given by their letters; one with a colon behind it takes an argument. -/
def ofLetters (letters : String) : Switches :=
  { letters := read letters.toList }
where
  /-- The letters of a text. -/
  read : Text → List (Char × SwitchArgument)
    | c :: ':' :: rest => (c, .required) :: read rest
    | c :: rest => (c, .none) :: read rest
    | [] => []

/-- What has been read of arguments, which ends at the first fault. -/
structure Arguments where
  /-- The arguments in order. -/
  items : List Argument := []
  /-- Arguments that have not been looked at. -/
  rest : List Text := []
  /-- What is wrong behind them. -/
  fault : Option SwitchFault := none

namespace Arguments

def switches (a : Arguments) : List Switch :=
  a.items.filterMap fun
    | .switch s => some s
    | .other .. => none

/-- The other arguments. -/
def others (a : Arguments) : List Text :=
  a.items.filterMap (fun
    | .switch _ => none
    | .other t _ => some t) ++ a.rest

/-- Puts arguments in front. -/
def behind (a : Arguments) (items : List Argument) : Arguments :=
  { a with items := items ++ a.items }

end Arguments

/-- Reads letters behind a hyphen, with `rest` behind them. -/
def readLetters (s : Switches) (rest : List Text) : Text → Arguments
  | [] => { rest }
  | c :: behind =>
    let here (argument : Option Text) (rest : List Text) : Arguments :=
      { items := [.switch { letter := c, argument }], rest }
    match s.letters.lookup c with
    | none => { fault := some (.unknownLetter c) }
    | some .none => (readLetters s rest behind).behind [.switch { letter := c }]
    | some .optional => here (some behind) rest
    | some kind =>
      if !behind.isEmpty then here (some behind) rest
      else match rest with
      | [] => { fault := some (.missingArgument c) }
      | a :: others =>
        if kind == .digits && !a.all Char.isDigit then here none rest else here (some a) others

/-- Reads the switches in front of the other arguments. -/
def readFront (s : Switches) : (fuel : Nat) → List Text → Arguments
  | 0, arguments => { rest := arguments }
  | fuel + 1, arguments =>
    match arguments with
    | ['-', '-'] :: rest => { rest }
    | ('-' :: c :: letters) :: rest =>
      let here := readLetters s rest (c :: letters)
      if here.fault.isSome then here else (readFront s fuel here.rest).behind here.items
    | rest => { rest }

/-- The switches in front of the other arguments of a builtin. -/
def front (s : Switches) (arguments : List Text) : Arguments :=
  readFront s (arguments.length + 1) arguments

/-- Reads a name behind two hyphens, with `rest` behind it. -/
def readName (s : Switches) (rest : List Text) (written : Text) : Arguments :=
  let name := written.takeWhile (· != '=')
  let value := match written.dropWhile (· != '=') with
    | _ :: v => some v
    | [] => none
  let whole := s.names.filter fun (n, _) => n.toList == name
  let candidates :=
    if whole.isEmpty then s.names.filter fun (n, _) => name.isPrefixOf n.toList else whole
  match candidates with
  | [] => { fault := some (.unknownName ('-' :: '-' :: written)) }
  | [(n, letter, kind)] =>
    let here (argument : Option Text) (rest : List Text) : Arguments :=
      { items := [.switch { letter, argument, name := some n }], rest }
    match kind, value with
    | .none, some _ => { fault := some (.needlessNamed n) }
    | .required, none =>
      match rest with
      | [] => { fault := some (.missingNamed n) }
      | a :: rest => here (some a) rest
    | _, value => here value rest
  | several => { fault := some (.ambiguous ('-' :: '-' :: written) (several.map (·.1))) }

/-- Reads switches anywhere among other arguments. -/
def readAnywhere (s : Switches) : (fuel : Nat) → List Text → Arguments
  | 0, arguments => { rest := arguments }
  | fuel + 1, arguments =>
    let goOn (here : Arguments) : Arguments :=
      if here.fault.isSome then here else (readAnywhere s fuel here.rest).behind here.items
    match arguments with
    | [] => {}
    | ['-', '-'] :: rest => { rest }
    | ('-' :: '-' :: name) :: rest => goOn (readName s rest name)
    | ('-' :: c :: letters) :: rest => goOn (readLetters s rest (c :: letters))
    | first :: second :: rest =>
      if s.pairs first second then goOn { items := [.other first (some second)], rest }
      else goOn { items := [.other first none], rest := second :: rest }
    | [other] => { items := [.other other none] }

/-- The switches among the arguments of a program. -/
def anywhere (s : Switches) (arguments : List Text) : Arguments :=
  readAnywhere s (arguments.length + 1) arguments

end Switches

end Shell

end FuzzyFinder
