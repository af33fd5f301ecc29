import FuzzyFinder.Shell.Quoting
import FuzzyFinder.Shell.Sorting.Key
import FuzzyFinder.Shell.Switches

/-!
# FuzzyFinder — how lines are sorted

Reads how lines are to be sorted from the arguments of a command. Keys are described by switches, or
in the old way by arguments with a plus sign in front. The first mistake ends the reading.
-/

namespace FuzzyFinder

namespace Shell

/-- How lines are sorted. -/
structure SortOptions where
  keys : List SortKey := []
  /-- What applies to lines, and to keys that say nothing of their own. -/
  line : SortKey := {}
  /-- There are no keys but the whole line. -/
  onlyLine : Bool := false
  /-- What separates fields; without that, blanks in front of a field belong to it. -/
  separator : Option Char := none
  unique : Bool := false
  stable : Bool := false
  merges : Bool := false
  /-- Says only whether the lines are sorted; the letter by which that was asked for. -/
  checks : Option Char := none
  /-- The file that is written. -/
  output : Option Text := none
  /-- The file with the names of those to be sorted. -/
  namesFrom : Option Text := none
  /-- What ends lines. -/
  ending : Char := '\n'
  /-- The parts that are compared are marked. -/
  marks : Bool := false
  /-- The program for what does not fit into the memory. -/
  helper : Option Text := none
  /-- The source of random numbers. -/
  chance : Option Text := none

/-- Why sorting makes no sense. -/
inductive SortFault where
  | switch (fault : SwitchFault)
  /-- A number is missing in the description of a key. -/
  | missingCount (place : String) (written : Text)
  /-- The description of a key makes no sense. -/
  | key (reason : String) (written : Text)
  /-- The argument of a switch makes no sense. -/
  | argument (reason : Text)
  /-- Options that contradict one another. -/
  | incompatible (letters : Text)
  /-- A word that is none of those a switch takes, or could be several of them. -/
  | word (isAmbiguous : Bool) (written : Text) (name : String) (choices : List (List String))
  /-- A further file where only one can be looked at. -/
  | extraOperand (name : Text) (letter : Char)
  /-- A file where their names come from elsewhere. -/
  | needlessOperand (name : Text)
  /-- Nothing is to be sorted; something is to be shown instead. -/
  | information

namespace SortFault

/-- The wording of a fault. -/
def message : SortFault → Text
  | .switch f => f.programMessage
  | .missingCount place written =>
    Text.ofString ("invalid number " ++ place ++ ": invalid count at start of ") ++
      Quoting.literal written
  | .key reason written =>
    Text.ofString (reason ++ ": invalid field specification ") ++ Quoting.literal written
  | .argument reason => reason
  | .incompatible letters =>
    Text.ofString "options '-" ++ letters ++ Text.ofString "' are incompatible"
  | .word isAmbiguous written name choices =>
    Text.ofString (if isAmbiguous then "ambiguous argument " else "invalid argument ") ++
      Quoting.literal written ++ Text.ofString (" for '--" ++ name ++ "'\nValid arguments are:") ++
      choices.flatMap fun same =>
        Text.ofString "\n  - " ++ Text.join [',', ' '] (same.map fun w => Quoting.literal w.toList)
  | .extraOperand name letter =>
    Text.ofString "extra operand " ++ Quoting.enclosed name ++
      Text.ofString " not allowed with -" ++ [letter]
  | .needlessOperand name =>
    Text.ofString "extra operand " ++ Quoting.enclosed name ++
      Text.ofString "\nfile operands cannot be combined with --files0-from"
  | .information => []

/-- The status that a fault leads to. -/
def status : SortFault → Nat
  | .word .. => 1
  | .information => 0
  | _ => 2

/-- Help is offered where it has to do with the switches themselves. -/
def offersHelp : SortFault → Bool
  | .switch _ | .word .. | .needlessOperand _ => true
  | _ => false

end SortFault

namespace Sorting

/-- The names of the ways to sort, each with a letter that stands for it as well. -/
def orderWords : List (List String × Char) :=
  [(["general-numeric"], 'g'), (["human-numeric"], 'h'), (["month"], 'M'), (["numeric"], 'n'),
    (["random"], 'R'), (["version"], 'V')]

/-- The names of the ways to check, each with its letter. -/
def checkWords : List (List String × Char) :=
  [(["quiet", "silent"], 'C'), (["diagnose-first"], 'c')]

/-- Letters for switches that have none of their own. -/
def switches : Switches where
  letters :=
    let plain := ("bcCdfghiMmnrRsuVz".toList).map fun c => (c, SwitchArgument.none)
    ('y', .digits) :: plain ++ ['k', 'o', 'S', 't', 'T'].map fun c => (c, .required)
  names :=
    [("ignore-leading-blanks", 'b', .none), ("check", 'c', .optional),
      ("compress-program", 'Z', .required), ("debug", 'D', .none),
      ("dictionary-order", 'd', .none), ("ignore-case", 'f', .none),
      ("files0-from", 'F', .required), ("general-numeric-sort", 'g', .none),
      ("ignore-nonprinting", 'i', .none), ("key", 'k', .required), ("merge", 'm', .none),
      ("month-sort", 'M', .none), ("numeric-sort", 'n', .none),
      ("human-numeric-sort", 'h', .none), ("version-sort", 'V', .none),
      ("random-sort", 'R', .none), ("random-source", 'X', .required), ("sort", 'Q', .required),
      ("output", 'o', .required), ("reverse", 'r', .none), ("stable", 's', .none),
      ("batch-size", 'B', .required), ("buffer-size", 'S', .required),
      ("field-separator", 't', .required), ("temporary-directory", 'T', .required),
      ("unique", 'u', .none), ("zero-terminated", 'z', .none), ("parallel", 'P', .required),
      ("help", 'H', .none), ("version", 'H', .none)]
  pairs first second := first.head? == some '+' && match second with
    | '-' :: c :: _ => c.isDigit
    | _ => false

/-! ## Keys -/

/-- Where a letter about blanks applies. -/
inductive BlankScope where
  | start | stop | both
deriving DecidableEq

/-- Changes a key by a letter. -/
def applyLetter? (scope : BlankScope) (k : SortKey) (c : Char) : Option SortKey :=
  let order (o : KeyOrder) : Option SortKey := some { k with orders := o :: k.orders }
  match c with
  | 'b' => some { k with
      skipsAtStart := k.skipsAtStart || scope != .stop
      skipsAtStop := k.skipsAtStop || scope != .start }
  | 'd' => some { k with ignoring := .others }
  | 'i' => some { k with ignoring := if k.ignoring == .nothing then .unprintable else k.ignoring }
  | 'f' => some { k with foldsCase := true }
  | 'g' => order .general
  | 'h' => order .size
  | 'M' => order .month
  | 'n' => order .numeric
  | 'R' => order .random
  | 'V' => order .version
  | 'r' => some { k with reversed := true }
  | _ => none

/-- Changes a key by the letters that a text opens with; what is behind them. -/
def applyLetters (scope : BlankScope) (k : SortKey) : Text → SortKey × Text
  | [] => (k, [])
  | c :: rest =>
    match applyLetter? scope k c with
    | some k => applyLetters scope k rest
    | none => (k, c :: rest)

/-- A natural number at the beginning of a text, perhaps behind white space and a plus sign. -/
def count? (t : Text) : Option (Nat × Text) :=
  let t := match t.dropWhile Text.isSpace with
    | '+' :: rest => rest
    | rest => rest
  let digits := t.takeWhile Char.isDigit
  if digits.isEmpty then none else some (Text.valueIn 10 digits, t.dropWhile Char.isDigit)

/-- A count at the beginning of a text. -/
def count (place : String) (t : Text) : Except SortFault (Nat × Text) :=
  match count? t with
  | some result => .ok result
  | none => .error (.missingCount place t)

/-- The place where a key begins. -/
def startAt (field character : Nat) : Option KeyPlace :=
  if field == 0 && character == 0 then none else some { field, character }

/-- Reads the description of a key. -/
def readKey (written : Text) : Except SortFault SortKey := do
  let (field, rest) ← count "at field start" written
  if field == 0 then .error (.key "field number is zero" written)
  let (character, rest) ← match rest with
    | '.' :: rest => count "after '.'" rest
    | rest => pure (1, rest)
  if character == 0 then .error (.key "character offset is zero" written)
  let key : SortKey := { start := startAt (field - 1) (character - 1) }
  let (key, rest) := applyLetters .start key rest
  match rest with
  | [] => return key
  | ',' :: rest =>
    let (field, rest) ← count "after ','" rest
    if field == 0 then .error (.key "field number is zero" written)
    let (character, rest) ← match rest with
      | '.' :: rest => count "after '.'" rest
      | rest => pure (0, rest)
    let stop : KeyPlace := { field := field - 1, character }
    let (key, rest) := applyLetters .stop { key with stop := some stop } rest
    if rest.isEmpty then return key
    else .error (.key "stray character in field spec" written)
  | _ => .error (.key "stray character in field spec" written)

/-- Reads where a key begins from an argument in the old way; `none` if it is not one. -/
def readOldStart? (written : Text) : Option SortKey := do
  let (field, rest) ← count? (written.drop 1)
  let (character, rest) ← match rest with
    | '.' :: rest => count? rest
    | rest => some (0, rest)
  let (key, rest) :=
    applyLetters .start { start := startAt field character, isObsolete := true } rest
  if rest.isEmpty then some key else none

/-- Reads where a key ends from an argument in the old way. -/
def readOldStop (key : SortKey) (written : Text) : Except SortFault SortKey := do
  let (field, rest) ← count "after '-'" (written.drop 1)
  let (character, rest) ← match rest with
    | '.' :: rest => count "after '.'" rest
    | rest => pure (0, rest)
  let stop : KeyPlace := { field := if character == 0 then field - 1 else field, character }
  let (key, rest) := applyLetters .stop { key with stop := some stop } rest
  if rest.isEmpty then return key
  else .error (.key "stray character in field spec" written)

/-! ## Switches -/

/-- The separator that an argument names. -/
def separatorOf : Text → Except SortFault Char
  | [] => .error (.argument (Text.ofString "empty tab"))
  | [c] => .ok c
  | ['\\', '0'] => .ok '\x00'
  | t => .error (.argument (Text.ofString "multi-character tab " ++ Quoting.literal t))

/-- A number of 64 bits is less than this. -/
def wordSize : Nat := 0x10000000000000000

/-- The units of sizes, each with the power of 1024 that it stands for. -/
def units : List (Char × Nat) :=
  [('k', 1), ('K', 1), ('m', 2), ('M', 2), ('g', 3), ('G', 3), ('t', 4), ('T', 4), ('P', 5),
    ('E', 6), ('Z', 7), ('Y', 8)]

/-- What is wrong with a quantity. -/
inductive AmountFault where
  | missing | suffix | tooLarge

/-- Complains about the quantity in the argument of a switch. -/
def AmountFault.toFault (f : AmountFault) (s : Switch) : SortFault :=
  let name := match s.name with
    | some n => "--" ++ n
    | none => String.ofList ['-', s.letter]
  let (before, after) := match f with
    | .missing => ("invalid ", "")
    | .suffix => ("invalid suffix in ", "")
    | .tooLarge => ("", " too large")
  .argument <| Text.ofString (before ++ name ++ " argument '") ++ s.argument.getD [] ++
    Text.ofString ("'" ++ after)

/-- A number without a unit. -/
def plainAmount (written : Text) : Except AmountFault Nat :=
  match count? written with
  | none => .error .missing
  | some (n, []) => if n < wordSize then .ok n else .error .tooLarge
  | some (_, _ :: _) => .error .suffix

/-- The size of a buffer: a unit, or a number that may have a unit, `b` or `%` behind it; without
any of these it is counted in units of 1024. -/
def bufferSize (written : Text) : Except AmountFault Nat := do
  let (n, rest) ← match count? written, written.dropWhile Text.isSpace with
    | some result, _ => pure result
    | none, c :: rest => if (units.lookup c).isSome then pure (1, c :: rest) else .error .missing
    | none, [] => .error .missing
  let hasDigits := (count? written).isSome
  let bytes ← match rest with
    | [] => pure (n * 1024)
    | ['b'] | ['%'] => if hasDigits then pure n else .error .suffix
    | [c] =>
      match units.lookup c with
      | some power => pure (n * Nat.pow 1024 power)
      | none => .error .suffix
    | _ => .error .suffix
  if n < wordSize && bytes < wordSize then return bytes else .error .tooLarge

/-- The letter that one of some words stands for, which may be cut short as long as it stays
distinct. -/
def letterOf (name : String) (words : List (List String × Char)) (written : Text) :
    Except SortFault Char :=
  let isMeant (w : String) : Bool := written.isPrefixOf w.toList
  let fault (isAmbiguous : Bool) : SortFault := .word isAmbiguous written name (words.map (·.1))
  match words.find? fun (same, _) => same.any (·.toList == written) with
  | some (_, letter) => .ok letter
  | none =>
    match words.filter fun (same, _) => same.any isMeant with
    | [(_, letter)] => .ok letter
    | [] => .error (fault false)
    | _ => .error (fault true)

/-- The number of files that are merged at a time. -/
def readBatch (s : Switch) : Except SortFault Nat :=
  let written := Quoting.literal (s.argument.getD [])
  match plainAmount (s.argument.getD []) with
  | .ok n =>
    if n < 2 then
      .error <| .argument <| Text.ofString "invalid --batch-size argument " ++ written ++
        Text.ofString "\nsort: minimum --batch-size argument is '2'"
    else .ok n
  | .error e => .error (e.toFault s)

/-- A value that may be given again, but not another one. -/
def once (reason : String) (old : Option Text) (new : Text) : Except SortFault (Option Text) :=
  if old.any (· != new) then .error (.argument (Text.ofString reason)) else .ok (some new)

/-- Changes options by a switch. -/
def applySwitch (o : SortOptions) (s : Switch) : Except SortFault SortOptions := do
  let argument := s.argument.getD []
  let checking (letter : Char) : Except SortFault SortOptions :=
    if o.checks.any (· != letter) then .error (.incompatible ['c', 'C'])
    else .ok { o with checks := some letter }
  let ordering (letter : Char) : SortOptions :=
    { o with line := (applyLetter? .both o.line letter).getD o.line }
  match s.letter with
  | 'B' =>
    let _ ← readBatch s
    return o
  | 'c' =>
    match s.argument with
    | some word => checking (← letterOf "check" checkWords word)
    | none => checking 'c'
  | 'C' => checking 'C'
  | 'D' => return { o with marks := true }
  | 'F' => return { o with namesFrom := some argument }
  | 'H' => .error .information
  | 'k' => return { o with keys := o.keys ++ [← readKey argument] }
  | 'm' => return { o with merges := true }
  | 'o' => return { o with output := ← once "multiple output files specified" o.output argument }
  | 'P' =>
    match plainAmount argument with
    | .ok 0 => .error (.argument (Text.ofString "number in parallel must be nonzero"))
    | .ok _ | .error .tooLarge => return o
    | .error e => .error (e.toFault s)
  | 'Q' => return ordering (← letterOf "sort" orderWords argument)
  | 's' => return { o with stable := true }
  | 'S' =>
    match bufferSize argument with
    | .ok _ => return o
    | .error e => .error (e.toFault s)
  | 't' =>
    let c ← separatorOf argument
    if o.separator.any (· != c) then .error (.argument (Text.ofString "incompatible tabs"))
    return { o with separator := some c }
  | 'T' | 'y' => return o
  | 'u' => return { o with unique := true }
  | 'X' => return { o with chance := ← once "multiple random sources specified" o.chance argument }
  | 'z' => return { o with ending := '\x00' }
  | 'Z' =>
    return { o with helper := ← once "multiple compress programs specified" o.helper argument }
  | letter => return ordering letter

/-- Changes options by an argument, or adds it to the files. -/
def applyArgument : SortOptions × List Text → Argument → Except SortFault (SortOptions × List Text)
  | (o, files), .switch s => return (← applySwitch o s, files)
  | (o, files), .other t next => do
    match (if t.head? == some '+' then readOldStart? t else none), next with
    | some key, none => return ({ o with keys := o.keys ++ [key] }, files)
    | some key, some stop => return ({ o with keys := o.keys ++ [← readOldStop key stop] }, files)
    | none, none => return (o, files ++ [t])
    | none, some next => throw (.switch (.unknownLetter (next.getD 1 '-')))

/-! ## Contradictions -/

/-- The letters of the options of a key. -/
def lettersOf (k : SortKey) : Text :=
  let letter (b : Bool) (c : Char) : Text := if b then [c] else []
  letter (k.skipsAtStart || k.skipsAtStop) 'b' ++ letter (k.ignoring == .others) 'd' ++
    letter k.foldsCase 'f' ++ letter (k.orders.contains .general) 'g' ++
    letter (k.orders.contains .size) 'h' ++ letter (k.ignoring == .unprintable) 'i' ++
    letter (k.orders.contains .month) 'M' ++ letter (k.orders.contains .numeric) 'n' ++
    letter (k.orders.contains .random) 'R' ++ letter k.reversed 'r' ++
    letter (k.orders.contains .version) 'V'

/-- The options of a key contradict one another. -/
def isContradictory (k : SortKey) : Bool :=
  let isText (o : KeyOrder) : Bool := o == .version || o == .random
  let distinct := k.orders.eraseDups
  let others := distinct.filter fun o => !isText o
  1 < others.length + (if k.ignoring != .nothing || distinct.any isText then 1 else 0)

/-- Reads the arguments of sorting: how lines are sorted, and the files that they are in. -/
def read (arguments : List Text) : Except SortFault (SortOptions × List Text) := do
  let a := switches.anywhere arguments
  let (o, files) ← a.items.foldlM applyArgument ({}, [])
  if let some f := a.fault then throw (.switch f)
  let files := files ++ a.rest
  if o.namesFrom.isSome then
    if let file :: _ := files then throw (.needlessOperand file)
  return (o, files)

/-- Options with what keys take over from those for whole lines, if they hold together. -/
def completed (o : SortOptions) : Except SortFault SortOptions := do
  let onlyLine := o.keys.isEmpty && !o.line.isPlain
  let keys := if onlyLine then [o.line] else o.keys.map (SortKey.inheriting o.line)
  if let some k := keys.find? isContradictory then
    throw (.incompatible (lettersOf { k with
      skipsAtStart := false, skipsAtStop := false, reversed := false }))
  let way := o.checks.or (if o.output.isSome then some 'o' else none)
  if let some letter := way then
    if o.marks then throw (.incompatible (letter :: " --debug".toList))
  return { o with keys, onlyLine }

/-- A check is about one file, and writes none. -/
def checkable (o : SortOptions) (files : List Text) : Except SortFault Unit := do
  if let some letter := o.checks then
    if let _ :: extra :: _ := files then throw (.extraOperand extra letter)
    if o.output.isSome then throw (.incompatible [letter, 'o'])

end Sorting

end Shell

end FuzzyFinder
