import FuzzyFinder.Shell.Process

/-!
# FuzzyFinder — reading and writing

Reads and writes what descriptors stand for. A channel may make its reader wait for a writer and its
writer wait for a reader; files and devices do not make anybody wait. Messages of the shell are
written from here as well.
-/

namespace FuzzyFinder

namespace Shell

/-! ## Writing -/

/-- Writes to an open file, as far as the limit on the sizes of files lets it. -/
def writeFile (index : Nat) (t : Text) : Run (Except FileFault Unit) := do
  let s ← get
  match s.openFiles[index]? with
  | none => return .error .badDescriptor
  | some f =>
    if !f.access.writes then return .error .badDescriptor
    let length := s.lengthAt f.place
    let offset := if f.appends then length else f.offset
    let now := match s.limit? 'f' with
      | some limit => t.take (limit - offset)
      | none => t
    let f := { f with offset := offset + now.length, ahead := none }
    modifySystem fun s =>
      let s := if offset == length then s.append f.place now else s.overwrite f.place offset now
      { s with openFiles := s.openFiles.setIfInBounds index f }
    if now.length < t.length then
      takeOwn sizeSignal
      return .error .tooLarge
    return .ok ()

/-- Finds out that nobody reads a channel. -/
def failBroken : Run (Except FileFault Unit) := do
  takeOwn channelSignal
  return .error .brokenChannel

/-- Writes to a channel as there is room in it. A reader that wants no more has everything stopped.
-/
def writeChannel (n : Nat) : (fuel : Nat) → Text → Run (Except FileFault Unit)
  | 0, _ => return .ok ()
  | fuel + 1, t => do
    match (← get).channel? n with
    | none => failBroken
    | some c =>
      if c.readers == 0 then failBroken
      else
        let now := match c.free with
          | some free => t.take free
          | none => t
        let later := t.drop now.length
        unless now.isEmpty do modifySystem fun s => s.updateChannel n (·.write now)
        if c.demand.isSome && ((← get).channel? n).any (·.isMet) then await .signal
        if later.isEmpty then return .ok ()
        else
          await (.space n)
          writeChannel n fuel later

/-- Writes to what a handle stands for. -/
def write (h : Option Handle) (t : Text) : Run (Except FileFault Unit) := do
  if t.isEmpty then return .ok ()
  match h with
  | some (.sink n) => writeChannel n Reader.patience t
  | some (.file index) => writeFile index t
  | some (.device d access) =>
    if !access.writes then return .error .badDescriptor
    if d == .full then return .error .noSpace
    return .ok ()
  | _ => return .error .badDescriptor

/-- Writes to a descriptor. -/
def writeTo (descriptor : Nat) (t : Text) : Run (Except FileFault Unit) := do
  write ((← get).handle? descriptor) t

/-! ## Reading -/

/-- What can be read from a channel at once, nothing at its end. -/
def readChannel (n : Nat) : (fuel : Nat) → Run Text
  | 0 => return []
  | fuel + 1 => do
    match (← get).channel? n with
    | none => return []
    | some c =>
      if c.isReadable then
        modifySystem fun s => s.updateChannel n (·.emptied)
        return c.content
      else
        await (.input n)
        readChannel n fuel

/-- What can be read from an open file. -/
def readFile (index : Nat) : Run (Except FileFault Text) := do
  let s ← get
  match s.openFiles[index]? with
  | none => return .error .badDescriptor
  | some f =>
    if !f.access.reads then return .error .badDescriptor
    let text := (s.contentAt f.place).drop f.offset
    let f := { f with offset := f.offset + text.length, ahead := none }
    modifySystem fun s => { s with openFiles := s.openFiles.setIfInBounds index f }
    return .ok text

/-- What can be read at once from what a handle stands for, nothing at its end. -/
def readSome (h : Option Handle) : Run (Except FileFault Text) := do
  match h with
  | some (.source n) => return .ok (← readChannel n Reader.patience)
  | some (.file index) => readFile index
  | some (.device _ access) => return if access.reads then .ok [] else .error .badDescriptor
  | some (.directory _) => return .error .isDirectory
  | _ => return .error .badDescriptor

/-- Everything up to the end of a channel, behind what has been read, the newest first. -/
def readToEnd (n : Nat) : (fuel : Nat) → (before : List Text) → Run Text
  | 0, before => return before.reverse.flatten
  | fuel + 1, before => do
    match ← readChannel n Reader.patience with
    | [] => return before.reverse.flatten
    | t => readToEnd n fuel (t :: before)

/-- Everything that can be read from what a handle stands for, up to its end. -/
def readAll (h : Option Handle) : Run (Except FileFault Text) := do
  match h with
  | some (.source n) => return .ok (← readToEnd n Reader.patience [])
  | h => readSome h

/-- Reads a line from a channel, of which `before` has been read, the newest first. -/
def readChannelLine (n : Nat) : (fuel : Nat) → (before : List Text) → Run (Text × Bool)
  | 0, before => return (before.reverse.flatten, false)
  | fuel + 1, before => do
    match (← get).channel? n with
    | none => return (before.reverse.flatten, false)
    | some c =>
      let (line, ended, c) := c.takeLine
      modifySystem fun s => s.updateChannel n fun _ => c
      if ended || c.writers == 0 then return ((line :: before).reverse.flatten, ended)
      else
        await (.input n)
        readChannelLine n fuel (line :: before)

/-- Reads a line from an open file. -/
def readFileLine (index : Nat) (f : OpenFile) : Run (Text × Bool) := do
  modifySystem fun s => s.settle f.place
  let s ← get
  let ahead := match f.ahead with
    | some ahead => ahead
    | none => (s.bytesAt f.place).drop f.offset
  let line := ahead.takeWhile (· != Byte.newline)
  let behind := ahead.drop line.length
  let ended := behind.head?.isSome
  let offset := f.offset + line.length + if ended then 1 else 0
  let f := { f with offset, ahead := some (behind.drop 1) }
  modifySystem fun s => { s with openFiles := s.openFiles.setIfInBounds index f }
  return (Text.ofBytes line, ended)

/-- Reads one line from what a handle stands for: the line without its newline, and whether it had
one. -/
def readLineFrom (h : Option Handle) : Run (Except FileFault (Text × Bool)) := do
  match h with
  | some (.source n) => return .ok (← readChannelLine n Reader.patience [])
  | some (.file index) =>
    match (← get).openFiles[index]? with
    | none => return .error .badDescriptor
    | some f =>
      if f.access.reads then return .ok (← readFileLine index f) else return .error .badDescriptor
  | h =>
    match ← readSome h with
    | .error e => return .error e
    | .ok _ => return .ok ([], false)

/-! ## New channels -/

def addChannel (c : Channel) : Run Nat :=
  modifyGet fun s =>
    let (n, system) := s.toSystem.addChannel c
    (n, { s with toSystem := system })

/-- The end where a text can be read that nobody adds to. -/
def newSource (t : Text) : Run Handle := do
  return .source (← addChannel { front := t, size := t.length })

/-! ## Messages -/

/-- The wording of a message. -/
def State.message (s : State) (text : Text) : Text :=
  let command := match s.commandName with
    | some name => name ++ [':', ' ']
    | none => []
  s.scriptName ++ [':', ' '] ++ Text.ofNat s.line ++ [':', ' '] ++ command ++ text ++ ['\n']

/-- Writes a message. -/
def complain (text : Text) : Run Unit := do
  let s ← get
  let _ ← writeTo 2 (s.message text)

/-- Complains, and leaps to the end of the shell or of the builtin that failed. -/
def fail {α : Type} (text : Text) : Run α := do
  complain text
  setStatus 2
  throw .failure

/-- Complains, and ends the shell with a status. -/
def exitWith {α : Type} (status : Nat) (text : Text) : Run α := do
  complain text
  setStatus status
  throw .exit

/-- Complains about something that should be a number. -/
def illegalNumber {α : Type} (t : Text) : Run α := fail (Text.ofString "Illegal number: " ++ t)

/-- A natural number in an argument. -/
def number (t : Text) : Run Nat :=
  match Text.toNat? t with
  | some n => return n
  | none => illegalNumber t

end Shell

end FuzzyFinder
