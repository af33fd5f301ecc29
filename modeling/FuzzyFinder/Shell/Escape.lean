import FuzzyFinder.Shell.Text

/-!
# FuzzyFinder — backslash escapes

What a backslash and the characters behind it stand for where a script writes text: control
characters, and bytes by their octal numbers. A backslash without a meaning stands for itself.
-/

namespace FuzzyFinder

namespace Shell

namespace Escape

/-- An octal digit. -/
def isOctal (c : Char) : Bool := Text.isDigitIn 8 c

/-- The character that a letter behind a backslash stands for. -/
def control? (c : Char) : Option Char :=
  match c with
  | 'a' => some '\x07'
  | 'b' => some '\x08'
  | 'e' => some '\x1b'
  | 'f' => some '\x0c'
  | 'n' => some '\n'
  | 'r' => some '\r'
  | 't' => some '\t'
  | 'v' => some '\x0b'
  | '\\' => some '\\'
  | _ => none

/-- The byte with an octal number, of which the low bits count. -/
def octal (digits : Text) : Char := Char.ofNat (Text.valueIn 8 digits % 256)

/-- What stands behind a backslash: the character it amounts to, and the rest. -/
def read (t : Text) : Char × Text :=
  match t with
  | [] => ('\\', [])
  | c :: rest =>
    if isOctal c then
      let digits := (t.take 3).takeWhile isOctal
      (octal digits, t.drop digits.length)
    else
      match control? c with
      | some d => (d, rest)
      | none => ('\\', t)

/-- Resolves the escapes of a text, in which octal numbers may have a zero more in front. The
second result says that `\c` has ended all output. -/
def resolveFrom : (fuel : Nat) → (resolved : Text) → Text → Text × Bool
  | 0, resolved, _ => (resolved.reverse, false)
  | _, resolved, [] => (resolved.reverse, false)
  | _ + 1, resolved, '\\' :: 'c' :: _ => (resolved.reverse, true)
  | fuel + 1, resolved, '\\' :: rest =>
    let rest := match rest with
      | '0' :: d :: more => if isOctal d then d :: more else rest
      | _ => rest
    let (c, rest) := read rest
    resolveFrom fuel (c :: resolved) rest
  | fuel + 1, resolved, c :: rest => resolveFrom fuel (c :: resolved) rest

/-- Resolves the escapes of a text; the second result says that all output has been ended. -/
def resolve (t : Text) : Text × Bool := resolveFrom t.length [] t

/-- Arguments with blanks between them and their escapes resolved, and a newline behind them if
asked for, unless an escape has ended all output. -/
def resolveAll (newline : Bool) : List Text → Text
  | [] => if newline then ['\n'] else []
  | a :: rest =>
    let (t, ended) := resolve a
    if ended then t
    else
      match rest with
      | [] => if newline then t ++ ['\n'] else t
      | rest => t ++ ' ' :: resolveAll newline rest

end Escape

end Shell

end FuzzyFinder
