import FuzzyFinder.Bytes

/-!
# FuzzyFinder — the text of scripts

A script, the values in it and all that it writes are byte strings. They are kept as lists of
characters, one character below 256 for each byte, so that they can be read and written here as
text. This module also has the little that all parts of the shell need to know about such text:
names, numbers and quoting.
-/

namespace FuzzyFinder

namespace Shell

/-- A byte string, one character for each byte. -/
abbrev Text := List Char

namespace Text

/-- A byte string as text. -/
def ofBytes (s : Bytes) : Text := s.map fun b => Char.ofNat b.toNat

/-- The byte string that a text stands for. -/
def toBytes (t : Text) : Bytes := t.map fun c => c.toNat.toUInt8

/-- The bytes of a string. -/
def ofString (s : String) : Text := ofBytes (Bytes.ofString s)

/-- The decimal digits of a natural number. -/
def ofNat (n : Nat) : Text := Nat.toDigits 10 n

/-- The decimal digits of a number, with its sign if it is negative. -/
def ofInt (n : Int) : Text :=
  match n with
  | .ofNat n => ofNat n
  | .negSucc n => '-' :: ofNat (n + 1)

/-- Texts with `separator` between them. -/
def join (separator : Text) : List Text → Text
  | [] => []
  | [t] => t
  | t :: rest => t ++ separator ++ join separator rest

/-- A text without the given characters at its end. -/
def dropEndWhile (p : Char → Bool) (t : Text) : Text := (t.reverse.dropWhile p).reverse

/-- The first line of a text, whether a newline ends it, and what is behind that. -/
def splitLine (t : Text) : Text × Bool × Text :=
  match t.span (· != '\n') with
  | (line, _ :: rest) => (line, true, rest)
  | (line, []) => (line, false, [])

/-! ## Characters -/

/-- White space in the narrow sense: what separates words. -/
def isBlank (c : Char) : Bool := c == ' ' || c == '\t'

/-- White space in the wide sense, that of numbers. -/
def isSpace (c : Char) : Bool := c == ' ' || ('\t' ≤ c && c ≤ '\r')

/-- May open a name. -/
def opensName (c : Char) : Bool := c.isAlpha || c == '_'

/-- May continue a name. -/
def continuesName (c : Char) : Bool := c.isAlphanum || c == '_'

/-- A name: a letter or underscore followed by letters, digits and underscores. -/
def isName (t : Text) : Bool :=
  match t with
  | c :: rest => opensName c && rest.all continuesName
  | [] => false

/-- The value of a digit, also of a letter as a digit beyond nine. -/
def digitValue? (c : Char) : Option Nat :=
  if c.isDigit then some (c.toNat - '0'.toNat)
  else if c.isLower then some (c.toNat - 'a'.toNat + 10)
  else if c.isUpper then some (c.toNat - 'A'.toNat + 10)
  else none

/-- The character is a digit in a base. -/
def isDigitIn (base : Nat) (c : Char) : Bool := (digitValue? c).any (· < base)

/-- The number that digits in a base amount to. -/
def valueIn (base : Nat) (digits : Text) : Nat :=
  digits.foldl (fun n c => n * base + (digitValue? c).getD 0) 0

/-! ## Numbers -/

/-- The greatest number of 64 bits with a sign. -/
def maxInt : Int := 0x7fffffffffffffff

/-- The least number of 64 bits with a sign. -/
def minInt : Int := -0x8000000000000000

/-- A number read from the front of a text. -/
structure Numeral where
  /-- The number, brought to the nearer end of the range if it lies outside of it. -/
  value : Int
  /-- It lies outside of the range. -/
  overflows : Bool
  /-- What is behind it. -/
  rest : Text
  /-- There was no digit at all. -/
  missing : Bool := false

/-- The text opens with `0x` and a hexadecimal digit. -/
def isHexadecimal : Text → Bool
  | '0' :: x :: c :: _ => (x == 'x' || x == 'X') && isDigitIn 16 c
  | _ => false

/-- Splits the digits of a number off a text, and also gives the base that they are in. Base 0
stands for hexadecimal digits behind `0x`, octal ones behind `0` and decimal ones otherwise; base 16
also allows for a leading `0x`. -/
def digits (base : Nat) (t : Text) : Nat × Text × Text :=
  let split (base : Nat) (t : Text) :=
    (base, t.takeWhile (isDigitIn base), t.dropWhile (isDigitIn base))
  if (base == 0 || base == 16) && isHexadecimal t then split 16 (t.drop 2)
  else if base == 0 then split (if t.head? == some '0' then 8 else 10) t
  else split base t

/-- Reads a number with an optional sign behind optional white space: whether it is negative, its
magnitude, and what is behind it. -/
def signed? (base : Nat) (t : Text) : Option (Bool × Nat × Text) :=
  let behind := t.dropWhile isSpace
  let (negative, behind) := match behind with
    | '-' :: rest => (true, rest)
    | '+' :: rest => (false, rest)
    | rest => (false, rest)
  let (base, digits, rest) := digits base behind
  if digits.isEmpty then none else some (negative, valueIn base digits, rest)

/-- Reads a number with an optional sign behind optional white space. Where there is none, the
whole text is left. -/
def numeral (base : Nat) (t : Text) : Numeral :=
  match signed? base t with
  | none => ⟨0, false, t, true⟩
  | some (negative, magnitude, rest) =>
    let value : Int := if negative then -Int.ofNat magnitude else Int.ofNat magnitude
    if value < minInt then ⟨minInt, true, rest, false⟩
    else if maxInt < value then ⟨maxInt, true, rest, false⟩
    else ⟨value, false, rest, false⟩

/-- A whole text as a decimal number, white space around it being of no account. -/
def toInt? (t : Text) : Option Int :=
  let n := numeral 10 t
  if n.missing || n.overflows || !(n.rest.all isSpace) then none else some n.value

/-- The greatest number of 31 bits. -/
def maxNat : Int := 0x7fffffff

/-- A whole text as a natural number of at most 31 bits. -/
def toNat? (t : Text) : Option Nat :=
  (toInt? t).bind fun n => if 0 ≤ n && n ≤ maxNat then some n.toNat else none

/-! ## Quoting -/

/-- Splits a text in front of each run of single quotes. -/
def quoteSpans (t : Text) : List (Bool × Text) :=
  t.foldr (fun c spans =>
    match spans with
    | (isQuote, span) :: others =>
      if isQuote == (c == '\x27') then (isQuote, c :: span) :: others
      else (c == '\x27', [c]) :: spans
    | [] => [(c == '\x27', [c])]) []

/-- A text in a form that a script reads back as this text: single quotes around everything but
single quotes, and double quotes around these. -/
def quoted (t : Text) : Text :=
  let spans := (quoteSpans t).flatMap fun (isQuote, span) =>
    if isQuote then '\x22' :: span ++ ['\x22'] else '\x27' :: span ++ ['\x27']
  let startsQuoted := t.head?.all (· == '\x27')
  (if startsQuoted then ['\x27', '\x27'] else []) ++ spans

end Text

end Shell

end FuzzyFinder
