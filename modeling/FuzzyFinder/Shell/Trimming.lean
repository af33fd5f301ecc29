import FuzzyFinder.Shell.Pattern

/-!
# FuzzyFinder — trims of values

A trim takes off what a pattern matches at one end of a value, looking at one place after the other.
Matching sees nothing behind a NUL byte, of which a value has some only where it is made of several
arguments. A look at such a value from its end goes byte by byte through a text that is not quite
the value itself: in it guards stand in front of those bytes that could mean something, or else it
is the first argument without guards, and what comes in front of that is the pattern. There are more
places than that argument has bytes, and at the others a longest beginning is looked for with ever
less of the pattern.
-/

namespace FuzzyFinder

namespace Shell

namespace Trim

/-- A text up to the first NUL. -/
def untilNul (t : Text) : Text := t.takeWhile (· != '\x00')

/-- The guard in front of a byte. -/
def guardByte : Char := '\x81'

/-- A byte that has a guard in front of it. -/
def isGuarded (quoted : Bool) (c : Char) : Bool :=
  ('\x81' ≤ c && c ≤ '\x88') || (quoted && "!*?[=~:/-]\\".toList.contains c)

/-- A text with its guards. -/
def withGuards (quoted : Bool) (t : Text) : Text :=
  t.flatMap fun c => if isGuarded quoted c then [guardByte, c] else [c]

/-- What a look from the end goes through, and how much stands in front of the value there. -/
def seenFromEnd (pattern : Text) (quoted : Bool) (t : Text) : Text × Nat :=
  let first := untilNul t
  if first.length == t.length then (t, 0)
  else if first.any (isGuarded quoted) then
    let front := withGuards quoted t ++ '\x00' :: pattern ++ ['\x00']
    (front ++ first, front.length)
  else (withGuards quoted t, 0)

/-- How many bytes of a value a trim takes off. -/
def count (trim : Trim) (pattern : Text) (quoted : Bool) (t : Text) : Nat :=
  let p := Pattern.ofText pattern
  if trim.atEnd == trim.longest then
    let first := untilNul t
    let fits (i : Nat) : Bool := p.isMatch (if trim.atEnd then first.drop i else first.take i)
    match (List.range (first.length + 1)).find? fits with
    | none => 0
    | some i => if trim.atEnd then t.length - i else i
  else
    let (text, front) := seenFromEnd pattern quoted t
    let fits (i : Nat) : Bool :=
      if trim.atEnd then p.isMatch (untilNul (text.drop (text.length - i)))
      else
        let value := text.drop front
        if i ≤ value.length then p.isMatch (untilNul (value.take (value.length - i)))
        else
          let missing := i - value.length - 1
          missing ≤ pattern.length &&
            (Pattern.ofText (pattern.take (pattern.length - missing))).isMatch value
    match (List.range (t.length + 1)).find? fits with
    | none => 0
    | some i => if trim.atEnd then i else t.length - i

end Trim

end Shell

end FuzzyFinder
