import FuzzyFinder.Shell.Script

/-!
# FuzzyFinder — patterns of scripts

A pattern stands for texts: `*` for any, `?` for any byte, `[…]` for a byte out of a set, and a
backslash takes away the special meaning of the byte behind it. Patterns select the branch of a
`case`, the part of a value that a trim takes off, and files by their names. Bytes are compared as
numbers with a sign, so those beyond ASCII come first in ranges.
-/

namespace FuzzyFinder

namespace Shell

/-- The named sets of bytes. -/
inductive CharClass where
  | alnum | alpha | blank | cntrl | digit | graph | lower | print | punct | space | upper | xdigit
deriving DecidableEq

namespace CharClass

/-- The named sets with their names, as a pattern has them between brackets. -/
def names : List (String × CharClass) :=
  [(":alnum:]", .alnum), (":alpha:]", .alpha), (":blank:]", .blank), (":cntrl:]", .cntrl),
    (":digit:]", .digit), (":graph:]", .graph), (":lower:]", .lower), (":print:]", .print),
    (":punct:]", .punct), (":space:]", .space), (":upper:]", .upper), (":xdigit:]", .xdigit)]

/-- A byte that leaves a mark. -/
def isGraph (c : Char) : Bool := '!' ≤ c && c ≤ '~'

/-- The set has a byte. -/
def contains (k : CharClass) (c : Char) : Bool :=
  match k with
  | .alnum => c.isAlphanum
  | .alpha => c.isAlpha
  | .blank => Text.isBlank c
  | .cntrl => c < ' ' || c == '\x7f'
  | .digit => c.isDigit
  | .graph => isGraph c
  | .lower => c.isLower
  | .print => c == ' ' || isGraph c
  | .punct => isGraph c && !c.isAlphanum
  | .space => Text.isSpace c
  | .upper => c.isUpper
  | .xdigit => Text.isDigitIn 16 c

end CharClass

/-- A member of a set of bytes. -/
inductive SetMember where
  /-- The bytes from one to another. -/
  | range (low high : Char)
  /-- The bytes of a named set. -/
  | named (k : CharClass)

/-- An element of a pattern. -/
inductive PatternToken where
  /-- This very byte. -/
  | literal (c : Char)
  | anyByte
  | anyText
  /-- A byte that is among the members, or not among them. -/
  | oneOf (negated : Bool) (members : List SetMember)

abbrev Pattern := List PatternToken

namespace SetMember

/-- A byte as a number with a sign. -/
def signed (c : Char) : Int := if c.toNat < 128 then c.toNat else Int.ofNat c.toNat - 256

/-- The member covers a byte. -/
def contains (m : SetMember) (c : Char) : Bool :=
  match m with
  | .range low high => signed low ≤ signed c && signed c ≤ signed high
  | .named k => k.contains c

end SetMember

namespace Pattern

/-- The named set that a text opens with, and what is behind it. -/
def className? (t : Text) : Option (CharClass × Text) :=
  CharClass.names.findSome? fun (name, k) =>
    if name.toList.isPrefixOf t then some (k, t.drop name.length) else none

/-- Reads the members of a set up to the closing bracket; that one is a member itself in first
place. A set that is never closed is none. -/
def setMembers? : (fuel : Nat) → (first : Bool) → Text → Option (List SetMember × Text)
  | 0, _, _ => none
  | _, _, [] => none
  | fuel + 1, first, c :: rest => do
    if c == ']' && !first then return ([], rest)
    if c == '[' then
      if let some (k, rest) := className? rest then
        let (members, rest) ← setMembers? fuel false rest
        return (.named k :: members, rest)
    let (low, rest) ← match c, rest with
      | '\\', d :: rest => some (d, rest)
      | '\\', [] => none
      | c, rest => some (c, rest)
    let (high, rest) ← match rest with
      | '-' :: ']' :: _ => some (low, rest)
      | '-' :: '\\' :: d :: rest | '-' :: d :: rest => some (d, rest)
      | '-' :: [] => none
      | rest => some (low, rest)
    let (members, rest) ← setMembers? fuel false rest
    return (.range low high :: members, rest)

/-- Reads what an opening bracket begins, if that is a set. -/
def set? (t : Text) : Option (PatternToken × Text) :=
  let (negated, t) := match t with
    | '!' :: t => (true, t)
    | t => (false, t)
  (setMembers? (t.length + 1) true t).map fun (members, rest) => (.oneOf negated members, rest)

/-- Reads a pattern of at most `fuel` bytes. -/
def ofTextFrom : (fuel : Nat) → Text → Pattern
  | 0, _ => []
  | _, [] => []
  | fuel + 1, c :: rest =>
    match c with
    | '?' => .anyByte :: ofTextFrom fuel rest
    | '*' => .anyText :: ofTextFrom fuel rest
    | '[' =>
      match set? rest with
      | some (t, rest) => t :: ofTextFrom fuel rest
      | none => .literal '[' :: ofTextFrom fuel rest
    | '\\' =>
      match rest with
      | [] => [.literal '\\']
      | d :: rest => .literal d :: ofTextFrom fuel rest
    | c => .literal c :: ofTextFrom fuel rest

/-- Reads a pattern. -/
def ofText (t : Text) : Pattern := ofTextFrom t.length t

/-- A text with any number of bytes taken off in front. -/
def suffixes : Text → List Text
  | [] => [[]]
  | c :: rest => (c :: rest) :: suffixes rest

/-- The pattern matches a whole text. -/
def isMatch : Pattern → Text → Bool
  | [], t => t.isEmpty
  | .anyText :: ps, t => (suffixes t).any (isMatch ps)
  | .literal l :: ps, c :: t => c == l && isMatch ps t
  | .anyByte :: ps, _ :: t => isMatch ps t
  | .oneOf negated members :: ps, c :: t =>
    members.any (·.contains c) != negated && isMatch ps t
  | _ :: _, [] => false

end Pattern

end Shell

end FuzzyFinder
