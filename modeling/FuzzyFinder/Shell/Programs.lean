import FuzzyFinder.Shell.Catenation
import FuzzyFinder.Shell.Condition
import FuzzyFinder.Shell.Format
import FuzzyFinder.Shell.Sorting.Marks

/-!
# FuzzyFinder — programs

The programs that scripts can start besides what a shell does itself. A program reads and writes
what its descriptors stand for, complains under its own name, and ends with a status.
-/

namespace FuzzyFinder

namespace Shell

inductive Program where
  /-- Shows files. -/
  | catenate
  /-- Writes its arguments. -/
  | echo
  /-- Always fails. -/
  | fail
  /-- Fills its arguments into a format. -/
  | printf
  /-- Writes a line over and over. -/
  | repeat
  /-- Sorts lines. -/
  | sort
  /-- Always succeeds. -/
  | succeed
  /-- Evaluates a condition, perhaps between brackets. -/
  | test (bracketed : Bool)

namespace Program

/-- The program with a name. -/
def ofName? (name : Text) : Option Program :=
  match String.ofList name with
  | "cat" => some .catenate
  | "echo" => some .echo
  | "false" => some .fail
  | "printf" => some .printf
  | "yes" => some .repeat
  | "sort" => some .sort
  | "true" => some .succeed
  | "test" => some (.test false)
  | "[" => some (.test true)
  | _ => none

/-! ## Messages -/

/-- Writes a message of a program. -/
def say (name : String) (t : Text) : Run Unit := do
  let _ ← writeTo 2 (name.toList ++ [':', ' '] ++ t ++ ['\n'])

/-- Points out where help is to be found. -/
def offerHelp (name : String) : Run Unit := do
  let _ ← writeTo 2 (Text.ofString s!"Try '{name} --help' for more information.\n")

/-- A message about a file. -/
def about (name : Text) (e : FileFault) : Text :=
  Quoting.shown name ++ Text.ofString (": " ++ e.message)

/-! ## Input -/

/-- What a file argument stands for; a hyphen stands for the standard input. -/
def inputOf (name : Text) : Run (Except FileFault Handle) := do
  if name == ['-'] then
    match (← get).handle? 0 with
    | some h => return .ok h
    | none => return .error .badDescriptor
  else Redirection.openForReading name

/-- Two handles stand for the same file, and the first one has not come to its end. -/
def isAheadIn (s : State) (a b : Handle) : Bool :=
  match a, b with
  | .file i, .file j =>
    match s.openFiles[i]?, s.openFiles[j]? with
    | some f, some g => f.place == g.place && f.offset < s.lengthAt f.place
    | _, _ => false
  | _, _ => false

/-! ## Showing files -/

/-- Complains that what is shown cannot be written. -/
def cannotShow (e : FileFault) : Run Unit :=
  say "cat" (Text.ofString ("write error: " ++ e.message))

/-- Shows what comes in up to the end of a file; tells whether that was possible, and `none` that
nothing more can be written. -/
def showInput (o : ShowOptions) (name : Text) (h : Handle) : (fuel : Nat) → ShowState →
    Run (Option (ShowState × Bool))
  | 0, s => return some (s, true)
  | fuel + 1, s => do
    match ← readSome (some h) with
    | .error e =>
      say "cat" (about name e)
      return some (s, false)
    | .ok [] => return some (s, true)
    | .ok t =>
      let (s, shown) := Catenation.chunk o s t
      match ← writeTo 1 shown with
      | .ok () => showInput o name h fuel s
      | .error e =>
        cannotShow e
        return none

/-- Shows one file, with the same results. -/
def showFile (o : ShowOptions) (s : ShowState) (name : Text) : Run (Option (ShowState × Bool)) := do
  match ← inputOf name with
  | .error e =>
    say "cat" (about name e)
    return some (s, false)
  | .ok h =>
    let state ← get
    if (state.handle? 1).any (isAheadIn state h) then
      say "cat" (Quoting.shown name ++ Text.ofString ": input file is output file")
      return some (s, false)
    showInput o name h Reader.patience s

/-- Shows files one behind the other; tells whether all went well. -/
def showFiles (o : ShowOptions) : (s : ShowState) → List Text → Run Bool
  | s, [] => do
    match ← writeTo 1 (Catenation.rest s) with
    | .ok () => return true
    | .error e =>
      cannotShow e
      return false
  | s, name :: rest => do
    match ← showFile o s name with
    | none => return false
    | some (s, ok) =>
      let more ← showFiles o s rest
      return ok && more

/-- Shows the files that arguments ask for. -/
def runCatenate (arguments : List Text) : Run Unit := do
  let a := Catenation.switches.anywhere arguments
  if a.switches.any (·.letter == 'H') then setStatus 0
  else match a.fault with
  | some f =>
    say "cat" f.programMessage
    offerHelp "cat"
    setStatus 1
  | none =>
    if ((← get).handle? 1).isNone then
      say "cat" (Text.ofString "standard output: Bad file descriptor")
      setStatus 1
    else
      let files := if a.others.isEmpty then [['-']] else a.others
      let mut ok ← showFiles (a.switches.foldl Catenation.applySwitch {}) {} files
      if files.contains ['-'] && ((← get).handle? 0).isNone then
        say "cat" (Text.ofString "closing standard input: Bad file descriptor")
        ok := false
      setStatus (if ok then 0 else 1)

/-! ## Sorting -/

/-- Complains about a file that cannot be sorted. -/
def cannot {α : Type} (doing : String) (name : Text) (e : FileFault) : Run (Option α) := do
  say "sort" (Text.ofString (doing ++ ": ") ++ about name e)
  return none

/-- Complains about what makes no sense, and ends with its status. -/
def sortFault (f : SortFault) : Run Unit := do
  unless f matches .information do say "sort" f.message
  if f.offersHelp then offerHelp "sort"
  setStatus f.status

/-- The content of a file. If the standard input is not there, `without` says what failed. -/
def readFile (without : String) (name : Text) : Run (Option Text) := do
  match ← inputOf name with
  | .error e => cannot (if name == ['-'] then without else "open failed") name e
  | .ok h =>
    match ← readAll h with
    | .error e => cannot "read failed" name e
    | .ok t => return some t

/-- The names of files in a file, each with a NUL behind it. -/
def readNames (source : Text) : Run (Option (List Text)) := do
  let refuse (reason : Text) : Run (Option (List Text)) := do
    say "sort" reason
    return none
  match ← inputOf source with
  | .error e => cannot "open failed" source e
  | .ok h =>
    match ← readAll h with
    | .error _ => refuse (Text.ofString "cannot read file names from " ++ Quoting.enclosed source)
    | .ok t =>
      let names := Sorting.linesOf '\x00' t
      if names.isEmpty then
        return ← refuse (Text.ofString "no input from " ++ Quoting.enclosed source)
      match names.findIdx? fun name => name.isEmpty || name == ['-'] with
      | none => return some names
      | some i =>
        let isEmpty := names[i]? == some []
        refuse <| if isEmpty then Quoting.shown source ++ ':' :: Text.ofNat (i + 1) ++
            Text.ofString ": invalid zero-length file name"
          else Text.ofString "when reading file names from stdin, no file name of '-' allowed"

/-- Says whether the lines of a file are sorted. -/
def checkOrder (o : SortOptions) (name : Text) : Run Unit := do
  match ← readFile "read failed" name with
  | none => setStatus 2
  | some t =>
    match Sorting.disorder? o 1 (Sorting.keyedLines o t) with
    | none => setStatus 0
    | some (number, line) =>
      if o.checks == some 'c' then
        let _ ← writeTo 2 (Text.ofString "sort: " ++ name ++ ':' :: Text.ofNat number ++
          Text.ofString ": disorder: " ++ line ++ [o.ending])
      setStatus 1

/-- Makes sure that files can be read. -/
def checkInputs : List Text → Run Bool
  | [] => return true
  | ['-'] :: rest => checkInputs rest
  | name :: rest => do
    match ← inputOf name with
    | .error e =>
      let _ : Option Unit ← cannot "cannot read" name e
      return false
    | .ok _ => checkInputs rest

/-- Opens what the sorted lines are written to. -/
def openOutput (o : SortOptions) : Run (Option (Option Handle)) := do
  match o.output with
  | none => return some ((← get).handle? 1)
  | some name =>
    match ← Redirection.openPath name ⟨false, true⟩ false false true with
    | .ok h => return some (some h)
    | .error e => cannot "open failed" name e

/-- The contents of files that are to be sorted, or only merged. -/
def readFiles (merges : Bool) : List Text → Run (Option (List Text))
  | [] => return some []
  | name :: rest => do
    match ← readFile (if merges then "read failed" else "stat failed") name with
    | none => return none
    | some t => return (← readFiles merges rest).map (t :: ·)

/-- As much as is written at a time. -/
def blockSize : Nat := 4096

/-- Writes sorted lines. What cannot be written is complained about twice, as it is found out once
more at the end. -/
def writeSorted (o : SortOptions) (h : Option Handle) (t : Text) : Run Unit := do
  if let some (.file index) := h then
    if o.output.isSome then
      modifySystem fun s => match s.openFiles[index]? with
        | some f => s.setContent f.place []
        | none => s
  match ← if t.isEmpty then pure (.ok ()) else write h t with
  | .ok () => setStatus 0
  | .error e =>
    let doing := if t.length < blockSize then "fflush failed: " else "write failed: "
    let name := match o.output with
      | some name => Quoting.shown name
      | none => "'standard output'".toList
    say "sort" (Text.ofString doing ++ name ++ Text.ofString (": " ++ e.message))
    let again := if h.isNone then ": " ++ e.message else ""
    say "sort" (Text.ofString ("write error" ++ again))
    setStatus 2

/-- Sorts the lines of files. -/
def sortFiles (o : SortOptions) (files : List Text) : Run Unit := do
  setStatus 2
  if ← checkInputs files then
    if let some h ← openOutput o then
      if let some texts ← readFiles o.merges files then
        let lines := Sorting.sort o texts
        let ended (line : Text) : Text := line ++ [o.ending]
        writeSorted o h (lines.flatMap (if o.marks then Sorting.marked o else ended))

/-- Sorts the lines of the files that arguments ask for. -/
def runSort (arguments : List Text) : Run Unit := do
  match Sorting.read arguments with
  | .error f => sortFault f
  | .ok (o, files) =>
    match ← match o.namesFrom with
      | some source => readNames source
      | none => pure (some files) with
    | none => setStatus 2
    | some files =>
      match Sorting.completed o with
      | .error f => sortFault f
      | .ok o =>
        if o.marks then (Sorting.remarks o).forM (say "sort")
        let files := if files.isEmpty then [['-']] else files
        match Sorting.checkable o files with
        | .error f => sortFault f
        | .ok () =>
          if o.checks.isSome then checkOrder o (files.headD []) else sortFiles o files

/-! ## Other programs -/

/-- More seconds than a script runs without a limit on them. -/
def longTime : Nat := 1000000

/-- Writes a text over and over, until it cannot be written any more. Where it goes to no channel,
writing it once comes to the same. -/
def writeForever (t : Text) : (fuel : Nat) → Run Unit
  | 0 => return ()
  | fuel + 1 => do
    match ← writeTo 1 t with
    | .error e => say "yes" (Text.ofString ("standard output: " ++ e.message))
    | .ok () =>
      let s ← get
      unless s.handle? 1 matches some (.sink _) do
        match s.signalAfter? longTime with
        | some signal => takeOwn signal
        | none => await .signal
      writeForever t fuel

/-- Writes arguments as a line over and over. -/
def runRepeat (arguments : List Text) : Run Unit := do
  let information := [("help", 'H', SwitchArgument.none), ("version", 'H', .none)]
  let a := ({ letters := [], names := information } : Switches).anywhere arguments
  setStatus 1
  if !a.switches.isEmpty then setStatus 0
  else match a.fault with
  | some f =>
    say "yes" f.programMessage
    offerHelp "yes"
  | none =>
    let line := (if a.others.isEmpty then ['y'] else Text.join [' '] a.others) ++ ['\n']
    let lines := (List.replicate (4096 / line.length + 1) line).flatten
    writeForever lines Reader.patience

/-- Complains that something could not be written, if that is so. -/
def complainOutput (name : String) (written : Except FileFault Unit) : Run Unit := do
  if let .error e := written then
    say name (Text.ofString ("write error: " ++ e.message))
    setStatus 1

/-- The letters that turn escapes in the arguments on and off, or leave out the newline. -/
def isEchoSwitch (a : Text) : Bool :=
  match a with
  | '-' :: c :: letters => (c :: letters).all fun c => c == 'n' || c == 'e' || c == 'E'
  | _ => false

/-- Writes arguments with blanks between them. -/
def runEcho (arguments : List Text) : Run Unit := do
  let letters := (arguments.takeWhile isEchoSwitch).flatten
  let words := arguments.dropWhile isEchoSwitch
  let newline := !letters.contains 'n'
  let escapes := (letters.filter fun c => c == 'e' || c == 'E').getLast? == some 'e'
  let text := if escapes then Escape.resolveAll newline words
    else Text.join [' '] words ++ (if newline then ['\n'] else [])
  setStatus 0
  complainOutput "echo" (← writeTo 1 text)

/-- Fills arguments into a format and writes the result; complaints are left to `say`. -/
def fillFormat (say : Text → Run Unit) (format : Text) (arguments : List Text) :
    Run (Except FileFault Unit) := do
  let f := Format.fillAll format arguments
  f.complaints.reverse.forM say
  if let some fault := f.fault then say fault
  let written ← writeTo 1 f.output.reverse
  setStatus (if f.fault.isSome then 2 else if f.complaints.isEmpty then 0 else 1)
  return written

/-- Evaluates a condition; complaints are left to `say`. -/
def evaluateCondition (say : Text → Run Unit) (bracketed : Bool) (arguments : List Text) :
    Run Unit := do
  match Condition.evaluate (← get) bracketed arguments with
  | .ok value => setStatus (if value then 0 else 1)
  | .error e =>
    say e.message
    setStatus 2

/-- Runs a program. -/
def run (p : Program) (arguments : List Text) : Run Unit := do
  match p with
  | .catenate => runCatenate arguments
  | .echo => runEcho arguments
  | .fail => setStatus 1
  | .printf =>
    match arguments with
    | [] => setStatus 1
    | format :: rest => complainOutput "printf" (← fillFormat (say "printf") format rest)
  | .repeat => runRepeat arguments
  | .sort => runSort arguments
  | .succeed => setStatus 0
  | .test bracketed =>
    evaluateCondition (say (if bracketed then "[" else "test")) bracketed arguments

end Program

end Shell

end FuzzyFinder
