import FuzzyFinder.Shell.Text

/-!
# FuzzyFinder — channels

A channel carries bytes from one process to another. It has room only for so much, so that its
writer has to wait when it is full, and its reader when it is empty. As long as somebody could still
write, an empty channel is not at its end, and once nobody can read any more, nothing can be
written. A channel whose reader is known takes no more than that reader wants.
-/

namespace FuzzyFinder

namespace Shell

/-- What the reader of a channel still wants. It reads entries that end in a delimiter, passes over
empty ones, and stops after a number of them or at one that is too short. -/
structure Demand where
  delimiter : Char
  /-- An entry is at least as long as this, or reading stops. -/
  least : Nat
  /-- How many more entries are wanted. -/
  entries : Option Nat
  /-- How much of an entry is there already. -/
  pending : Nat := 0
  /-- Nothing more is wanted. -/
  met : Bool := false

namespace Demand

/-- Takes in a byte. -/
def take (d : Demand) (c : Char) : Demand :=
  if d.met then d
  else if c != d.delimiter then { d with pending := d.pending + 1 }
  else if d.pending == 0 then d
  else
    let entries := d.entries.map (· - 1)
    { d with pending := 0, entries, met := d.pending < d.least || entries == some 0 }

end Demand

/-- Bytes on their way from one process to another. -/
structure Channel where
  /-- The bytes to be read next. -/
  front : Text := []
  /-- What was written behind those, the newest first. -/
  back : List Text := []
  /-- How many bytes that are. -/
  size : Nat := 0
  /-- How many bytes there is room for, if there is a limit. -/
  room : Option Nat := none
  /-- What its reader still wants, if that is known. -/
  demand : Option Demand := none
  /-- How many descriptors can read it. -/
  readers : Nat := 0
  /-- How many descriptors can write it. -/
  writers : Nat := 0

namespace Channel

/-- Everything that is still to be read. -/
def content (c : Channel) : Text :=
  if c.back.isEmpty then c.front else c.front ++ c.back.reverse.flatten

/-- Adds bytes. -/
def write (c : Channel) (t : Text) : Channel :=
  { c with
    back := t :: c.back
    size := c.size + t.length
    demand := c.demand.map (t.foldl Demand.take) }

/-- Everything has been read. -/
def emptied (c : Channel) : Channel := { c with front := [], back := [], size := 0 }

/-- Takes out the first line. Also tells whether there is a newline at its end. -/
def takeLine (c : Channel) : Text × Bool × Channel :=
  match Text.splitLine c.front with
  | (line, true, rest) =>
    (line, true, { c with front := rest, size := c.size - (line.length + 1) })
  | _ =>
    let (line, ended, rest) := Text.splitLine c.content
    (line, ended,
      { c with front := rest, back := [], size := c.size - line.length - if ended then 1 else 0 })

/-- How many bytes there is room for at the moment, if there is a limit. -/
def free (c : Channel) : Option Nat := c.room.map (· - c.size)

/-- Its reader wants no more. -/
def isMet (c : Channel) : Bool := c.demand.any (·.met)

/-- Reading does not have to wait. -/
def isReadable (c : Channel) : Bool := 0 < c.size || c.writers == 0

/-- Writing does not have to wait. -/
def isWritable (c : Channel) : Bool := c.free.all (0 < ·) || c.readers == 0

end Channel

end Shell

end FuzzyFinder
