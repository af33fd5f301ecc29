import FuzzyFinder.Text.Utf8

/-!
# FuzzyFinder — the candidates

A `Corpus` is an indexed list of candidates. A candidate is a span of one of two buffers: the
arena, into which appended candidates are copied, or a slab taken over whole from a producer. The
arena only ever grows at its end, so an index that was handed out stays good. Adopting a slab
checks each span against it first; `Corpus.dump` lists the candidates for people.
-/

namespace FuzzyFinder

/-- What a corpus or a search refuses. -/
inductive MatchError where
  /-- A search that may return nothing. -/
  | invalidLimit
  /-- A search without workers. -/
  | invalidThreadCount
  /-- An index behind the last of `count` candidates. -/
  | indexOutOfRange (index count : Nat)
  /-- The span at `index` of a list reaches outside of a buffer of `bufferLength` bytes. -/
  | invalidSpan (index start length bufferLength : Nat)
deriving DecidableEq

/-- The wording of a refusal. -/
def MatchError.message : MatchError → String
  | .invalidLimit => "limit must be greater than zero"
  | .invalidThreadCount => "thread count must be greater than zero"
  | .indexOutOfRange index count =>
    s!"candidate index {index} out of range (scanner holds {count} candidates)"
  | .invalidSpan index start length bufferLength =>
    s!"span #{index} ({start}+{length}) lies outside of a {bufferLength} byte buffer"

/-- A stretch of a buffer. -/
structure Span where
  /-- Where it begins. -/
  start : Nat
  /-- How many bytes it covers. -/
  length : Nat
deriving DecidableEq

/-- The first byte behind a span. -/
def Span.stop (s : Span) : Nat := s.start + s.length

/-- The bytes of a buffer under a span. -/
def Span.bytes (s : Span) (buffer : Array UInt8) : Bytes := (buffer.extract s.start s.stop).toList

/-- Which buffer holds a candidate. -/
inductive Region where
  /-- Copies made by the corpus. -/
  | arena
  /-- The adopted slab. -/
  | slab
deriving DecidableEq

/-- Who owns the bytes of the candidates a corpus was made with. -/
inductive Storage where
  /-- Copies, made by the corpus. -/
  | owned
  /-- A slab of the given size, adopted from a producer. -/
  | borrowed (size : Nat)
deriving DecidableEq

/-- An indexed list of candidates. -/
structure Corpus where
  /-- Copies of appended candidates, one after the other. -/
  arena : Array UInt8 := #[]
  /-- The adopted buffer, if there is one. -/
  slab : Option (Array UInt8) := none
  /-- Where each candidate lies. -/
  entries : Array (Region × Span) := #[]

namespace Corpus

/-- A corpus without candidates. -/
def empty : Corpus := {}

/-- Appends a copy of one candidate. -/
def push (c : Corpus) (s : Bytes) : Corpus :=
  -- The span comes first, so that the arena can grow in place.
  let span : Span := ⟨c.arena.size, s.length⟩
  { c with arena := c.arena ++ s, entries := c.entries.push (.arena, span) }

/-- Appends copies of candidates, in order. -/
def append (c : Corpus) (candidates : List Bytes) : Corpus := candidates.foldl push c

/-- A corpus of copies. -/
def ofCopies (candidates : List Bytes) : Corpus := empty.append candidates

/-- The first span, counted from `index` on, that reaches outside of `length` bytes. -/
def firstInvalid (length : Nat) (index : Nat) : List Span → Option MatchError
  | [] => none
  | s :: rest =>
    if s.stop ≤ length then firstInvalid length (index + 1) rest
    else some (.invalidSpan index s.start s.length length)

/-- A corpus over an adopted buffer, refused when a span reaches outside of it. -/
def ofSlab (buffer : Array UInt8) (spans : List Span) : Except MatchError Corpus :=
  match firstInvalid buffer.size 0 spans with
  | some e => .error e
  | none => .ok { slab := some buffer, entries := (spans.map fun s => (.slab, s)).toArray }

/-- The buffer behind a region. -/
def buffer (c : Corpus) : Region → Array UInt8
  | .arena => c.arena
  | .slab => c.slab.getD #[]

/-- The bytes of one entry. -/
def resolve (c : Corpus) (entry : Region × Span) : Bytes := entry.2.bytes (c.buffer entry.1)

/-- The number of candidates. -/
def size (c : Corpus) : Nat := c.entries.size

/-- There are no candidates. -/
def isEmpty (c : Corpus) : Bool := c.entries.isEmpty

/-- The candidate at an index. -/
def get (c : Corpus) (index : Nat) : Except MatchError Bytes :=
  match c.entries[index]? with
  | some entry => .ok (c.resolve entry)
  | none => .error (.indexOutOfRange index c.size)

/-- All candidates in index order. -/
def toList (c : Corpus) : List Bytes := c.entries.toList.map c.resolve

/-- Who owns the candidates the corpus was made with. -/
def storage (c : Corpus) : Storage :=
  match c.slab with
  | some slab => .borrowed slab.size
  | none => .owned

/-- A listing with one candidate a line. -/
def dump (c : Corpus) : String :=
  let lines := c.toList.flatMap fun s => ' ' :: ' ' :: Utf8.decode s ++ [',', '\n']
  String.ofList ('\x7b' :: '\n' :: lines ++ ['\x7d'])

end Corpus

end FuzzyFinder
