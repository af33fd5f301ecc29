import FuzzyFinder.Shell.Reply
import FuzzyFinder.Shell.Naming

/-!
# FuzzyFinder — the working directory and permissions

The shell remembers the path by which it got to its directory, so that going up goes back along that
path, whatever links are on it. The permissions that new files do not get are a number, which can
also be described by letters.
-/

namespace FuzzyFinder

namespace Shell

namespace Directories

/-! ## Directories -/

/-- The names in a path, without empty ones. -/
def names (path : Text) : List Text := (Paths.components path).filter (!·.isEmpty)

/-- Takes a step along a path. -/
def step (above : List Text) (name : Text) : List Text :=
  if name == ['.'] then above
  else if name == ['.', '.'] then above.dropLast
  else above ++ [name]

/-- The path that another one leads to from `directory`, without steps back. Two slashes in front
stay. -/
def joined (directory path : Text) : Text :=
  let isAbsolute := path.head? == some '/'
  let slashes (t : Text) : Text :=
    if ['/', '/'].isPrefixOf t && (t.drop 2).head? != some '/' then ['/', '/'] else ['/']
  let front := slashes (if isAbsolute then path else directory)
  let start := if isAbsolute then [] else names directory
  front ++ Text.join ['/'] ((names path).foldl step start)

/-- Makes a directory the working directory. -/
def enter (place : Place) (path : Text) : Run Unit := do
  let s ← get
  setVariable "OLDPWD".toList (some s.directoryPath) true false
  modify fun s => { s with
    directory := place
    directoryPath := path
    lookedUp := s.lookedUp.map fun (name, r) => (name, { r with isStale := true }) }
  setVariable "PWD".toList (some path) true false

/-- Goes to a directory; tells whether that is possible. -/
def goTo (physical : Bool) (path : Text) : Run Bool := do
  let s ← get
  let target := if physical then path else joined s.directoryPath path
  match s.find? s.directory target with
  | .ok (place, .directory) =>
    enter place (if physical then System.pathOf place else target)
    return true
  | _ => return false

/-- The last of some switches asks for paths without links. -/
def isPhysical (switches : List Switch) : Bool := (switches.getLast?).any (·.letter == 'P')

/-- The path opens with a step from the working directory, or from the root. -/
def isAnchored (path : Text) : Bool :=
  path.head? == some '/' || (Paths.components path).head? == some ['.'] ||
    (Paths.components path).head? == some ['.', '.']

/-- The first directory in which there is a directory with the given path; also tells whether it has
been named. -/
def find? (s : State) (path : Text) : List Text → Option (Text × Bool)
  | [] => none
  | d :: rest =>
    match s.find? s.directory (Naming.pathIn d path) with
    | .ok (_, .directory) => some (Naming.pathIn d path, !d.isEmpty)
    | _ => find? s path rest

/-- Changes the working directory. -/
def change (arguments : List Text) : Run Reply := do
  let (switches, arguments) ← takeSwitches "LP" arguments
  let s ← get
  let goesBack := arguments.head? == some ['-']
  let wanted := match arguments with
    | [] => (s.value? "HOME".toList).getD []
    | ['-'] :: _ => (s.value? "OLDPWD".toList).getD []
    | a :: _ => a
  let path := if wanted.isEmpty then ['.'] else wanted
  let listed := if isAnchored wanted then none
    else (s.value? "CDPATH".toList).bind fun t => find? s path (Naming.parts t)
  let (path, named) := listed.getD (path, false)
  unless ← goTo (isPhysical switches) path do
    fail (Text.ofString "can't cd to " ++ wanted)
  let now ← get
  return if goesBack || named then .lines [now.directoryPath] else {}

/-- Shows the working directory. -/
def shown (arguments : List Text) : Run Reply := do
  let (switches, _) ← takeSwitches "LP" arguments
  let s ← get
  return .lines [if isPhysical switches then System.pathOf s.directory else s.directoryPath]

/-! ## Permissions -/

/-- All permissions. -/
def allBits : Nat := 0o777

/-- Permissions without some of them. -/
def without (a b : Nat) : Nat := a &&& (allBits ^^^ (b &&& allBits))

/-- Permissions in letters. -/
def inLetters (granted : Nat) : Text :=
  let one (who : Char) (shift : Nat) : Text :=
    let bits := granted / Nat.pow 8 shift
    let letter (bit : Nat) (c : Char) : Text := if bits / bit % 2 == 1 then [c] else []
    who :: '=' :: letter 4 'r' ++ letter 2 'w' ++ letter 1 'x'
  Text.join [','] [one 'u' 2, one 'g' 1, one 'o' 0]

/-- For whom a letter sets permissions. -/
def holders (c : Char) : Nat :=
  match c with
  | 'u' => 0o100
  | 'g' => 0o010
  | 'o' => 0o001
  | _ => 0o111

/-- The permissions that a letter stands for, where `before` were granted. -/
def granted (before : Nat) (c : Char) : Nat :=
  match c with
  | 'r' => 4
  | 'w' => 2
  | 'x' => 1
  | 'u' => before / 64
  | 'g' => before / 8
  | 'o' => before
  | 'X' => if before &&& 0o111 == 0 then 0 else 1
  | _ => 0

/-- Changes granted permissions as letters describe; `none` if they make no sense. -/
def describe? (before : Nat) : (fuel : Nat) → (who : Nat) → (now : Nat) → Text → Option Nat
  | 0, _, now, _ => some now
  | _, _, now, [] => some now
  | fuel + 1, who, now, t =>
    let isHolder (c : Char) : Bool := "augo".toList.contains c
    let isGrant (c : Char) : Bool := "rwxugoXs".toList.contains c
    let who := (t.takeWhile isHolder).foldl (fun n c => n ||| holders c) who
    let who := if who == 0 then 0o111 else who
    match t.dropWhile isHolder with
    | [] => some now
    | op :: rest =>
      if op != '=' && op != '+' && op != '-' then none
      else
        let bits := ((rest.takeWhile isGrant).foldl (fun n c => n ||| granted before c) 0 % 8) * who
        let now := match op with
          | '-' => without now bits
          | '+' => now ||| bits
          | _ => bits ||| without now (who * 7)
        match rest.dropWhile isGrant with
        | ',' :: rest => describe? before fuel 0 now rest
        | [] => some now
        | c :: rest =>
          if c == '=' || c == '+' || c == '-' then describe? before fuel who now (c :: rest)
          else none

/-- Shows and sets the permissions that new files do not get. -/
def mask (arguments : List Text) : Run Reply := do
  let (switches, arguments) ← takeSwitches "S" arguments
  let s ← get
  match arguments with
  | [] =>
    if switches.isEmpty then
      let digits := Nat.toDigits 8 s.mask
      return .lines [List.replicate (4 - digits.length) '0' ++ digits]
    else return .lines [inLetters (without allBits s.mask)]
  | a :: _ =>
    if a.head?.any Char.isDigit then
      unless a.all (Text.isDigitIn 8) do illegalNumber a
      modify fun s => { s with mask := Text.valueIn 8 a &&& allBits }
      return {}
    else
      let before := without allBits s.mask
      match describe? before (a.length + 1) 0 before a with
      | some now => modify fun s => { s with mask := without allBits now }
      | none => fail (Text.ofString "Illegal mode: " ++ a)
      return {}

end Directories

end Shell

end FuzzyFinder
