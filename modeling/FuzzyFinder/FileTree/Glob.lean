import FuzzyFinder.Bytes

/-!
# FuzzyFinder — path patterns

A glob is a pattern over paths in which `?` stands for one byte and `*` for any number of them
within a path component, `[…]` for one byte out of a class, `**` between slashes for any number of
whole components, and `{…,…}` for any one of several globs. A backslash takes away the special
meaning of the character behind it. A bracket that is never closed stands for itself; a brace that
has no partner makes the glob malformed. Globs are read as text and matched against bytes.
-/

namespace FuzzyFinder

/-- One element of a glob. -/
inductive GlobToken where
  /-- This very byte. -/
  | literal (b : UInt8)
  /-- Any byte but a slash. -/
  | anyByte
  /-- Any number of bytes but slashes. -/
  | anyBytes
  /-- Any number of whole components in front of what follows. -/
  | leading
  /-- A slash, with any number of whole components behind it. -/
  | between
  /-- A slash and everything behind it. -/
  | trailing
  /-- A byte in one of the ranges, or in none of them when `negated`. -/
  | oneOf (negated : Bool) (ranges : List (UInt8 × UInt8))
  /-- What one of these globs matches, or nothing at all where there is none. -/
  | alternatives (branches : List (List GlobToken))

/-- A parsed glob. -/
abbrev Glob := List GlobToken

namespace GlobToken

/-- A path with any number of leading bytes but slashes taken off. -/
def withinComponent : Bytes → List Bytes
  | [] => [[]]
  | b :: rest => (b :: rest) :: if b == Byte.slash then [] else withinComponent rest

/-- What is behind each slash of a path. -/
def behindSlashes : Bytes → List Bytes
  | [] => []
  | b :: rest => if b == Byte.slash then rest :: behindSlashes rest else behindSlashes rest

/-- A path with any number of leading bytes taken off. -/
def suffixes : Bytes → List Bytes
  | [] => [[]]
  | b :: rest => (b :: rest) :: suffixes rest

/-- A byte is in one of the ranges. -/
def inRanges (b : UInt8) (ranges : List (UInt8 × UInt8)) : Bool :=
  ranges.any fun (low, high) => low ≤ b && b ≤ high

/-- A path without its first byte, provided that there is one with the given property. -/
def dropIf (p : UInt8 → Bool) : Bytes → List Bytes
  | [] => []
  | b :: rest => if p b then [rest] else []

/-- A path without a slash in front, followed by any of what `f` makes of the rest. -/
def behindSlash (f : Bytes → List Bytes) : Bytes → List Bytes
  | [] => []
  | b :: rest => if b == Byte.slash then f rest else []

mutual

/-- All that may be left of a path behind this element. -/
def remainders : GlobToken → Bytes → List Bytes
  | .literal l, path => dropIf (· == l) path
  | .anyByte, path => dropIf (· != Byte.slash) path
  | .oneOf negated ranges, path => dropIf (fun b => inRanges b ranges != negated) path
  | .anyBytes, path => withinComponent path
  | .leading, path => path :: behindSlashes path
  | .between, path => behindSlash (fun rest => rest :: behindSlashes rest) path
  | .trailing, path => behindSlash suffixes path
  | .alternatives [], path => [path]
  | .alternatives (branch :: branches), path => remaindersOfAny (branch :: branches) path

/-- All that may be left of a path behind one of several globs. -/
def remaindersOfAny : List (List GlobToken) → Bytes → List Bytes
  | [], _ => []
  | branch :: branches, path => remaindersOfAll branch [path] ++ remaindersOfAny branches path

/-- All that may be left of any of the paths behind a whole glob, each remainder once. -/
def remaindersOfAll : List GlobToken → List Bytes → List Bytes
  | [], paths => paths
  | t :: ts, paths => remaindersOfAll ts (paths.flatMap (remainders t)).eraseDups

end

/-- An element that matches nothing at all. -/
def isSilent : GlobToken → Bool
  | .alternatives [] => true
  | _ => false

/-! ## Nesting -/

/-- How many parts an element is made of where it stands in a sequence. -/
def parts : GlobToken → Nat
  | .trailing => 2
  | .alternatives [] => 0
  | _ => 1

mutual

/-- How deeply an element is nested. Alternations count, and so do repetitions, classes and
sequences of several parts. -/
def depth : GlobToken → Nat
  | .literal _ => 0
  | .anyByte | .trailing => 1
  | .anyBytes => 2
  | .leading | .between => 4
  | .oneOf _ ranges => if ranges.length == 1 then 1 else 2
  | .alternatives [] => 0
  | .alternatives [branch] => depthOfBranch branch + 1
  | .alternatives (first :: second :: branches) => depthOfAny (first :: second :: branches) + 2

/-- How deeply the deepest one of several branches is nested. -/
def depthOfAny : List (List GlobToken) → Nat
  | [] => 0
  | branch :: branches => max (depthOfBranch branch) (depthOfAny branches)

/-- How deeply a branch is nested. -/
def depthOfBranch (branch : List GlobToken) : Nat :=
  deepest branch + if branch.foldl (fun n t => n + parts t) 0 ≤ 1 then 0 else 1

/-- How deeply the deepest one of several elements is nested. -/
def deepest : List GlobToken → Nat
  | [] => 0
  | t :: ts => max (depth t) (deepest ts)

end

end GlobToken

namespace Glob

/-- The elements of a glob are nested less deeply than this. -/
def maxDepth : Nat := 250

/-- The glob is nested too deeply. -/
def isTooDeep (glob : Glob) : Bool :=
  maxDepth ≤ GlobToken.deepest glob

/-- The glob matches the whole path. Components in front of nothing at all are any path. -/
def isMatch : Glob → Bytes → Bool
  | [.leading], _ => true
  | glob, path => (GlobToken.remaindersOfAll glob [path]).any List.isEmpty

/-! ## Classes -/

/-- What a bracket opens. -/
inductive Class where
  /-- A class with these ranges, and what is behind its closing bracket. -/
  | closed (ranges : List (Char × Char)) (rest : List Char)
  /-- No class, as the closing bracket is missing. -/
  | unclosed
  /-- A range in it runs backwards. -/
  | malformed

/-- Reads the members of a class behind those in `ranges`, the last one first. The first member
may be a closing bracket or a hyphen. A hyphen between two members makes the last range reach to the
second one, and a hyphen at the end is a member. -/
def readClass (first inRange : Bool) (ranges : List (Char × Char)) : List Char → Class
  | [] => .unclosed
  | c :: rest =>
    if c == ']' && !first then
      .closed (if inRange then ('-', '-') :: ranges else ranges).reverse rest
    else if c == '-' && !first && !inRange then readClass false true ranges rest
    else if inRange then
      match ranges with
      | (low, _) :: others =>
        if c < low then .malformed else readClass false false ((low, c) :: others) rest
      | [] => readClass false false [(c, c)] rest
    else readClass false false ((c, c) :: ranges) rest

/-- The bytes of a range of characters: those of its first character up to the last one, the range
from there to the first byte of its last character, and the other bytes of that one. -/
def bytesOfRange (low high : Char) : List (UInt8 × UInt8) :=
  let single (b : UInt8) : UInt8 × UInt8 := (b, b)
  let lows := String.utf8EncodeChar low
  let highs := String.utf8EncodeChar high
  if low == high then lows.map single
  else
    match lows.getLast?, highs with
    | some b, c :: others => lows.dropLast.map single ++ (b, c) :: others.map single
    | _, _ => []

/-! ## Reading -/

/-- An alternation whose closing brace has not been seen yet. -/
structure Open where
  /-- The elements in front of it, the last one first. -/
  before : Glob
  /-- Its finished branches, the last one first. -/
  branches : List Glob

/-- How far a glob has been read. -/
structure Reading where
  /-- The character in front of the next one. -/
  previous : Option Char := none
  /-- Brackets stand for themselves, as one of them was never closed. -/
  plainBrackets : Bool := false
  /-- The elements of the innermost branch, the last one first. -/
  current : Glob := []
  /-- The alternations around it, the innermost one first. -/
  around : List Open := []

namespace Reading

/-- Adds elements to the innermost branch. -/
def add (r : Reading) (previous : Char) (tokens : Glob) : Reading :=
  { r with previous := some previous, current := tokens.reverse ++ r.current }

/-- Adds a character that stands for itself. -/
def addLiteral (r : Reading) (c : Char) : Reading :=
  r.add c ((String.utf8EncodeChar c).map .literal)

/-- Opens an alternation. -/
def openBrace (r : Reading) : Reading :=
  { r with previous := some '\x7b', current := [], around := ⟨r.current, []⟩ :: r.around }

/-- Ends a branch of the innermost alternation. -/
def nextBranch (r : Reading) : Reading :=
  match r.around with
  | [] => r.addLiteral ','
  | o :: around =>
    { r with
      previous := some ','
      current := []
      around := { o with branches := r.current.reverse :: o.branches } :: around }

/-- Closes the innermost alternation, if there is one. Branches that match nothing at all do not
count. -/
def closeBrace? (r : Reading) : Option Reading :=
  match r.around with
  | [] => none
  | o :: around =>
    let branches := (r.current.reverse :: o.branches).filter fun b => !b.all GlobToken.isSilent
    some { r with
      previous := some '\x7d'
      current := .alternatives branches.reverse :: o.before
      around }

/-- Adds whole components in the place of the element in front, which is the slash before them
unless those components follow others. -/
def addComponents (r : Reading) (previous : Char) (token : GlobToken) : Reading :=
  let current := match r.current with
    | .leading :: _ => r.current
    | .trailing :: _ => r.current
    | _ :: before => token :: before
    | [] => [token]
  { r with previous := some previous, current }

/-- Reads what two stars stand for, the characters behind them being `rest`; also gives what is
left of these. They stand for whole components only where a component could begin and end. -/
def doubleStar (r : Reading) (rest : List Char) : Reading × List Char :=
  let plain : Reading := r.add '*' [.anyBytes, .anyBytes]
  if r.current.isEmpty then
    match rest with
    | [] => (r.add '*' [.leading], [])
    | c :: behind => if c == '/' then (r.add c [.leading], behind) else (plain, rest)
  else
    let atStart := r.previous == some '/' ||
      (!r.around.isEmpty && (r.previous == some ',' || r.previous == some '\x7b'))
    if !atStart then (plain, rest)
    else
      match rest with
      | [] => (r.addComponents '*' .trailing, [])
      | c :: behind =>
        if c == '/' then (r.addComponents c .between, behind)
        else if !r.around.isEmpty && (c == ',' || c == '\x7d') then
          (r.addComponents '*' .trailing, rest)
        else (plain, rest)

/-- Reads what a bracket opens, the characters behind it being `rest`; also gives what is left of
these. -/
def bracket? (r : Reading) (rest : List Char) : Option (Reading × List Char) :=
  let (negated, members) := match rest with
    | '!' :: members | '^' :: members => (true, members)
    | members => (false, members)
  match readClass true false [] members with
  | .malformed => none
  | .unclosed => some ({ r with plainBrackets := true }.addLiteral '[', rest)
  | .closed ranges behind =>
    let bytes := ranges.flatMap fun (low, high) => bytesOfRange low high
    some (r.add ']' [.oneOf negated bytes], behind)

/-- Reads one element; also gives what is left of the characters behind `c`. -/
def step? (r : Reading) (c : Char) (rest : List Char) : Option (Reading × List Char) :=
  if c == '?' then some (r.add c [.anyByte], rest)
  else if c == '*' then
    match rest with
    | '*' :: rest => some (r.doubleStar rest)
    | rest => some (r.add c [.anyBytes], rest)
  else if c == '[' && !r.plainBrackets then r.bracket? rest
  else if c == '\x7b' then some (r.openBrace, rest)
  else if c == '\x7d' then r.closeBrace?.map (·, rest)
  else if c == ',' then some (r.nextBranch, rest)
  else if c == '\\' then
    match rest with
    | [] => none
    | escaped :: rest => some (r.addLiteral escaped, rest)
  else some (r.addLiteral c, rest)

/-- The glob that has been read, unless an alternation is still open. -/
def glob? (r : Reading) : Option Glob :=
  if r.around.isEmpty then some r.current.reverse else none

/-- Reads on to the end. At most `fuel` elements are read. -/
def run? (r : Reading) : (fuel : Nat) → List Char → Option Glob
  | _, [] => r.glob?
  | 0, _ :: _ => none
  | fuel + 1, c :: rest => do
    let (r, rest) ← r.step? c rest
    r.run? fuel rest

end Reading

/-- Parses a glob, `none` if it is malformed. -/
def parse (text : List Char) : Option Glob := Reading.run? {} text.length text

end Glob

end FuzzyFinder
