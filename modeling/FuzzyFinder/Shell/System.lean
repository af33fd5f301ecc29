import FuzzyFinder.FileTree.Basic
import FuzzyFinder.Shell.Channel

/-!
# FuzzyFinder — what all processes of a script share

A script runs in a shell, and parts of it run in further shells, each of which is a process. All of
them share the files and the channels between them. A process that has ended is remembered with how
it ended until the shell that waits for it takes note, and signals are kept until the process that
they are for is reached.
-/

namespace FuzzyFinder

namespace Shell

inductive Device where
  /-- Nothing is in it, and it takes anything. -/
  | null
  /-- Nothing but NUL is in it, and it takes anything. -/
  | zero
  /-- Nothing but NUL is in it, and it takes nothing. -/
  | full
  /-- The terminal, of which there is none. -/
  | terminal
deriving DecidableEq

/-- What may be done with an open file or device. -/
structure Access where
  reads : Bool
  writes : Bool

/-- What a descriptor stands for. -/
inductive Handle where
  | device (d : Device) (access : Access)
  /-- The end of a channel where it is read. -/
  | source (channel : Nat)
  /-- The end of a channel where it is written. -/
  | sink (channel : Nat)
  /-- A file that was opened, by number. -/
  | file (index : Nat)
  | directory (place : Place)

/-- A file that was opened. -/
structure OpenFile where
  place : Place
  /-- Where it is read or written next. -/
  offset : Nat := 0
  access : Access
  /-- It is written at its end. -/
  appends : Bool := false
  /-- What is behind the offset, if that is known. -/
  ahead : Option Bytes := none

/-- Why something cannot be done with a file. -/
inductive FileFault where
  /-- There is no such file. -/
  | missing
  /-- A part of the path is no directory. -/
  | notDirectory
  | isDirectory
  /-- It must not be used like this. -/
  | permission
  /-- It is there already. -/
  | exists
  /-- The path leads through too many links. -/
  | tooManyLinks
  | nameTooLong
  | noDevice
  /-- The descriptor is not open, or not for this. -/
  | badDescriptor
  /-- There is no space left. -/
  | noSpace
  /-- Nobody reads the channel any more. -/
  | brokenChannel
  /-- The file would be larger than it may be. -/
  | tooLarge
  /-- There are as many descriptors as there may be. -/
  | tooManyOpen
deriving DecidableEq

namespace FileFault

/-- What the system says about a fault. -/
def message : FileFault → String
  | .missing => "No such file or directory"
  | .notDirectory => "Not a directory"
  | .isDirectory => "Is a directory"
  | .permission => "Permission denied"
  | .exists => "File exists"
  | .tooManyLinks => "Too many levels of symbolic links"
  | .nameTooLong => "File name too long"
  | .noDevice => "No such device or address"
  | .badDescriptor => "Bad file descriptor"
  | .noSpace => "No space left on device"
  | .brokenChannel => "Broken pipe"
  | .tooLarge => "File too large"
  | .tooManyOpen => "Too many open files"

/-- A failed lookup as a fault. -/
def ofLookup : LookupFault → FileFault
  | .missing => .missing
  | .notDirectory => .notDirectory
  | .tooManyLinks => .tooManyLinks
  | .nameTooLong => .nameTooLong

/-- The wording of the shell for a file that cannot be used; `otherwise` says that it is missing. -/
def describe (f : FileFault) (otherwise : String) : String :=
  match f with
  | .missing | .notDirectory => otherwise
  | f => f.message

end FileFault

/-- What has been written behind the content of a file. -/
structure Appended where
  /-- The length of the content with all that is behind it. -/
  length : Nat
  /-- What is behind it, the newest first. -/
  back : List Text

/-- How a process ended. -/
inductive Ending where
  /-- By itself, with a status. -/
  | exited (status : Nat)
  /-- By a signal. -/
  | killed (signal : Nat)

/-- The status that an ending counts as. -/
def Ending.status : Ending → Nat
  | .exited status => status
  | .killed signal => 128 + signal

/-- The number of the process that runs the script. -/
def mainProcess : Nat := 100

/-- What all processes of a script share. -/
structure System where
  /-- The files. -/
  tree : FileTree := { mount := [] }
  /-- The channels that are in use, by number. -/
  channels : List (Nat × Channel) := []
  /-- The number of the next channel. -/
  nextChannel : Nat := 0
  /-- The files that were opened, by number. -/
  openFiles : Array OpenFile := #[]
  /-- What is still to be added to the contents of files. -/
  appended : List (Place × Appended) := []
  /-- The processes that run on their own. -/
  living : List Nat := [mainProcess]
  /-- How processes ended that nobody has taken note of yet. -/
  endings : List (Nat × Ending) := []
  /-- The number of the next process. -/
  nextProcess : Nat := mainProcess + 1
  /-- Signals under way: the process that each of them is for, and its number. -/
  signals : List (Nat × Nat) := []

namespace System

/-- A channel in use. -/
def channel? (s : System) (n : Nat) : Option Channel := s.channels.lookup n

/-- Changes a channel in place. -/
def updateChannel (s : System) (n : Nat) (f : Channel → Channel) : System :=
  { s with channels := s.channels.map fun (m, c) => if m == n then (m, f c) else (m, c) }

/-- A new channel with its number. -/
def addChannel (s : System) (c : Channel) : Nat × System :=
  (s.nextChannel,
    { s with channels := (s.nextChannel, c) :: s.channels, nextChannel := s.nextChannel + 1 })

/-- Changes how many descriptors are at an end of a channel. A channel without any is forgotten. -/
def recount (s : System) (h : Handle) (f : Nat → Nat) : System :=
  let change (n : Nat) (g : Channel → Channel) : System :=
    let s := s.updateChannel n g
    { s with channels := s.channels.filter fun (m, c) => m != n || 0 < c.readers || 0 < c.writers }
  match h with
  | .source n => change n fun c => { c with readers := f c.readers }
  | .sink n => change n fun c => { c with writers := f c.writers }
  | _ => s

/-- One more descriptor stands for a handle. -/
def retain (s : System) (h : Handle) : System := s.recount h (· + 1)

/-- A descriptor less stands for a handle. -/
def release (s : System) (h : Handle) : System := s.recount h (· - 1)

/-! ## Places -/

/-- The path of a place. -/
def pathOf (place : Place) : Text :=
  if place.isEmpty then ['/'] else place.flatMap fun name => '/' :: Text.ofBytes name

/-- The names in a path. -/
def names (path : Text) : List Bytes := (Text.toBytes path).splitOn Byte.slash

/-- The place that a path leads to from a directory. -/
def place? (s : System) (directory : Place) (path : Text) : Except FileFault Place :=
  if path.isEmpty then .error .missing
  else
    let base := if path.head? == some '/' then [] else directory
    match s.tree.follow FileTree.maxLinks base (names path) with
    | .ok place => .ok place
    | .error e => .error (.ofLookup e)

/-- What a path leads to from a directory. -/
def find? (s : System) (directory : Place) (path : Text) : Except FileFault (Place × Node) := do
  let place ← s.place? directory path
  match s.tree.node? place with
  | some n => return (place, n)
  | none => .error .missing

/-- The device at a place. -/
def deviceAt (place : Place) : Device :=
  match String.ofList (pathOf place) with
  | "/dev/null" => .null
  | "/dev/full" => .full
  | "/dev/tty" => .terminal
  | _ => .zero

/-- The descriptor that a path stands for. -/
def descriptorAt? (path : Text) : Option Nat :=
  match String.ofList path with
  | "/dev/stdin" => some 0
  | "/dev/stdout" => some 1
  | "/dev/stderr" => some 2
  | _ =>
    let behind (front : String) : Option Text :=
      if front.toList.isPrefixOf path then some (path.drop front.length) else none
    ((behind "/dev/fd/").or (behind "/proc/self/fd/")).bind fun digits =>
      if digits.isEmpty || !digits.all Char.isDigit then none
      else some (Text.valueIn 10 digits)

/-! ## Files -/

/-- The content of the file at a place, without what is still to be added. -/
def bytesAt (s : System) (place : Place) : Bytes :=
  match s.tree.node? place with
  | some (.file content) => content
  | _ => []

/-- What is still to be added to the file at a place. -/
def appendedAt (s : System) (place : Place) : Appended :=
  (s.appended.lookup place).getD { length := (s.bytesAt place).length, back := [] }

/-- The length of the file at a place. -/
def lengthAt (s : System) (place : Place) : Nat := (s.appendedAt place).length

/-- The content of the file at a place. -/
def contentAt (s : System) (place : Place) : Text :=
  let content := Text.ofBytes (s.bytesAt place)
  match (s.appendedAt place).back with
  | [] => content
  | back => content ++ back.reverse.flatten

/-- What is known of the content of the file at a place holds no longer. -/
def forget (s : System) (place : Place) : System :=
  let isStale (f : OpenFile) : Bool := f.ahead.isSome && f.place == place
  if s.openFiles.any isStale then
    let forgotten (f : OpenFile) : OpenFile := if isStale f then { f with ahead := none } else f
    { s with openFiles := s.openFiles.map forgotten }
  else s

/-- Gives the file at a place a content. -/
def setContent (s : System) (place : Place) (content : Text) : System :=
  { s.forget place with
    tree := s.tree.put place (.file (Text.toBytes content))
    appended := s.appended.filter (·.1 != place) }

/-- Adds to the file at a place what is still to be added. -/
def settle (s : System) (place : Place) : System :=
  if (s.appended.lookup place).isSome then s.setContent place (s.contentAt place) else s

/-- Writes behind the content of the file at a place. -/
def append (s : System) (place : Place) (t : Text) : System :=
  let a := s.appendedAt place
  let next : Appended := { length := a.length + t.length, back := t :: a.back }
  { s.forget place with appended := (place, next) :: s.appended.filter (·.1 != place) }

/-- Writes into the file at a place; up to an offset behind the end it is filled with NUL. -/
def overwrite (s : System) (place : Place) (offset : Nat) (t : Text) : System :=
  let content := s.contentAt place
  let padding := List.replicate (offset - content.length) '\x00'
  s.setContent place
    (content.take offset ++ padding ++ t ++ content.drop (offset + t.length))

/-- Opens a file for the first time. -/
def addFile (s : System) (f : OpenFile) : Handle × System :=
  (.file s.openFiles.size, { s with openFiles := s.openFiles.push f })

/-- The place where a new file with the given path would be. -/
def newPlace? (s : System) (directory : Place) (path : Text) : Except FileFault Place := do
  let all := names path
  match all.getLast? with
  | none => .error .missing
  | some name =>
    if name.isEmpty || name == FileTree.here || name == FileTree.above then .error .isDirectory
    else
      let above := Text.ofBytes ([Byte.slash].intercalate all.dropLast)
      let parent ←
        if path.head? == some '/' then s.place? [] ('/' :: above)
        else if above.isEmpty then .ok directory
        else s.place? directory above
      match s.tree.node? parent with
      | some .directory =>
        if FileTree.maxNameLength < name.length then .error .nameTooLong
        else return parent ++ [name]
      | _ => .error .notDirectory

/-- Opens what a path leads to. A file that is to be written is made if it is missing; unless
`replaces`, a file must not be written from the beginning. -/
def openAt (s : System) (directory : Place) (path : Text) (access : Access)
    (appends truncates replaces : Bool) : Except FileFault (Handle × System) :=
  match s.find? directory path with
  | .ok (place, .file _) =>
    if truncates && !replaces then .error .exists
    else
      let s := if truncates then s.setContent place [] else s
      .ok (s.addFile { place, access, appends })
  | .ok (place, .directory) =>
    if access.writes then .error .isDirectory else .ok (.directory place, s)
  | .ok (place, _) =>
    match deviceAt place with
    | .terminal => .error .noDevice
    | d => .ok (.device d access, s)
  | .error e =>
    let isMissing := e == .missing || (e == .notDirectory && path.getLast? == some '/')
    if !access.writes || path.isEmpty || !isMissing then .error e
    else
      match s.newPlace? directory path with
      | .ok place => .ok ((s.setContent place []).addFile { place, access, appends })
      | .error e => .error e

end System

end Shell

end FuzzyFinder
