import FuzzyFinder.Chunks
import FuzzyFinder.Intake.Collected

/-!
# FuzzyFinder — splitting a stream into candidates

A stream hands out its bytes in pieces of any size, may be interrupted in between, and ends
regularly or with a failure. Splitting it cuts the bytes at a delimiter. Empty entries are passed
over; every other entry loses its first `drop` bytes and becomes a candidate. Splitting stops
early at an entry too short for that, and as soon as enough candidates are there. An entry that
the end of the input cuts off still counts; one that a failure cuts off does not, since nobody
knows how it would have gone on.
-/

namespace FuzzyFinder

/-- What an attempt to read from a stream brings. -/
inductive Delivery where
  /-- Some bytes. -/
  | bytes (piece : Bytes)
  /-- Nothing this time; reading goes on. -/
  | interrupted

/-- What a stream does when everything has been delivered. -/
inductive Ending where
  /-- The input is over. -/
  | endOfInput
  /-- Every further read fails. -/
  | failure (reason : String)

/-- A source of bytes. -/
structure Stream where
  deliveries : List Delivery
  ending : Ending := .endOfInput

namespace Stream

/-- Delivers pieces from offset `offset` of the stream on; the first read at or behind the offset
`pause` is interrupted once. -/
def schedule (pause : Option Nat) (offset : Nat) : List Bytes → List Delivery
  | [] => if pause.any (· ≤ offset) then [.interrupted] else []
  | piece :: rest =>
    if pause.any (· ≤ offset) then .interrupted :: .bytes piece :: rest.map .bytes
    else .bytes piece :: schedule pause (offset + piece.length) rest

/-- A stream that hands out `data` in pieces of `size` bytes, at least one. With a failure
`(n, reason)` it delivers the first `n` bytes and then fails, unless the data ends before that. -/
def ofBytes (data : Bytes) (size : Nat) (failure : Option (Nat × String)) (pause : Option Nat) :
    Stream :=
  let deliver (data : Bytes) := schedule pause 0 (chunks (max 1 size) data)
  match failure with
  | some (n, reason) =>
    if n ≤ data.length then ⟨deliver (data.take n), .failure reason⟩
    else ⟨deliver data, .endOfInput⟩
  | none => ⟨deliver data, .endOfInput⟩

/-- A stream that hands out all of `data` at once and ends regularly. -/
def whole (data : Bytes) : Stream := { deliveries := [.bytes data] }

end Stream

/-- How a stream is split. -/
structure ReadOptions where
  /-- The byte that separates entries. -/
  delimiter : UInt8 := Byte.newline
  /-- How many bytes every entry loses at its front. -/
  drop : Nat := 0
  /-- Stop at this number of candidates; `0` sets no bound. -/
  maxFiles : Nat := 0

/-- Separates entries by NUL, or by newline again. -/
def ReadOptions.read0 (o : ReadOptions) (enable : Bool) : ReadOptions :=
  { o with delimiter := if enable then Byte.nul else Byte.newline }

/-- Why splitting stopped. -/
inductive Stop where
  /-- The stream is over. -/
  | exhausted
  /-- Enough candidates are there. -/
  | capped
  /-- Something went wrong. -/
  | failed (error : ScanError)

/-- Splitting under way. -/
structure Intake where
  /-- The candidates so far. -/
  collected : Collected := {}
  /-- The bytes since the last delimiter, the newest first. -/
  unfinished : Bytes := []
  /-- Set once splitting has stopped. -/
  stop : Option Stop := none

namespace Intake

/-- Takes in a complete entry. -/
def entry (o : ReadOptions) (s : Intake) (e : Bytes) : Intake :=
  if e.isEmpty then s
  else if e.length < o.drop then
    { s with stop := some (.failed (.dropExceedsEntry o.drop e.length)) }
  else
    let collected := s.collected.push (e.drop o.drop)
    { s with collected, stop := if collected.isFull o.maxFiles then some .capped else none }

/-- Takes in one byte; after splitting has stopped nothing is looked at. -/
def byte (o : ReadOptions) (s : Intake) (b : UInt8) : Intake :=
  if s.stop.isSome then s
  else if b == o.delimiter then entry o { s with unfinished := [] } s.unfinished.reverse
  else { s with unfinished := b :: s.unfinished }

/-- Takes in what one read brings. -/
def deliver (o : ReadOptions) (s : Intake) : Delivery → Intake
  | .bytes piece => piece.foldl (byte o) s
  | .interrupted => s

/-- Comes to the end of the stream: the last entry needs no delimiter, but it is lost when the
stream fails. -/
def finish (o : ReadOptions) (s : Intake) (ending : Ending) : Collected × Stop :=
  match s.stop, ending with
  | some stop, _ => (s.collected, stop)
  | none, .failure reason => (s.collected, .failed (.read reason))
  | none, .endOfInput =>
    let s := entry o { s with unfinished := [] } s.unfinished.reverse
    (s.collected, s.stop.getD .exhausted)

end Intake

/-- Collects the candidates of a stream. -/
def Stream.collect (s : Stream) (o : ReadOptions) : Collected × Stop :=
  (s.deliveries.foldl (Intake.deliver o) {}).finish o s.ending

/-- The failure that a stop amounts to. -/
def Stop.error? : Stop → Option ScanError
  | .failed error => some error
  | .exhausted | .capped => none

/-- Splits a stream into candidates. -/
def readStream (s : Stream) (o : ReadOptions) : ScanResult :=
  let (collected, stop) := s.collect o
  .ofCollected collected stop.error?

end FuzzyFinder
