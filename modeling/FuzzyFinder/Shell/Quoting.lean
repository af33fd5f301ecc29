import FuzzyFinder.Shell.Text

/-!
# FuzzyFinder — quoting in messages

How programs show the names of files and other texts in their messages. The name of a file is shown
in a form in which a script can use it, other texts between single quotes with escapes in them.
-/

namespace FuzzyFinder

namespace Shell

namespace Quoting

/-- What stands for a character behind a backslash, if it cannot be shown itself. -/
def escapeOf? (c : Char) : Option Text :=
  if ' ' ≤ c && c ≤ '~' then none
  else
    match "abtnvfr".toList[c.toNat - 7]? with
    | some letter => if '\x07' ≤ c then some [letter] else some (octal c)
    | none => some (octal c)
where
  /-- Three octal digits. -/
  octal (c : Char) : Text :=
    let digits := Nat.toDigits 8 c.toNat
    List.replicate (3 - digits.length) '0' ++ digits

/-! ## Names of files -/

/-- A character that keeps a name from being shown as it is. -/
def needsQuotes (c : Char) : Bool :=
  c < ' ' || '~' < c || " !\"$&'()*:;<=>?[\\^`|".toList.contains c

/-- Adds a character to a quoted name; the flag says that escapes are under way. -/
def addQuoted : Text × Bool → Char → Text × Bool
  | (quoted, escaping), c =>
    match escapeOf? c with
    | some e => (quoted ++ (if escaping then [] else "'$'".toList) ++ '\\' :: e, true)
    | none =>
      if c == '\x27' then (quoted ++ "'\\''".toList, false)
      else (quoted ++ (if escaping then "''".toList else []) ++ [c], false)

/-- A character that may stand between double quotes together with single ones. -/
def isMild (c : Char) : Bool := c.isAlphanum || " '%+,-./:]_@".toList.contains c

/-- A name that could mean something else at its beginning. -/
def isMarked (name : Text) : Bool := name.head?.any fun c => c == '#' || c == '~'

/-- The name of a file between quotes. A name with a single quote in it is gone through twice, the
second time as if behind the first. -/
def enclosed (name : Text) : Text :=
  if !name.contains '\x27' then (name.foldl addQuoted (['\x27'], false)).1 ++ ['\x27']
  else if (if isMarked name then name.tail else name).all isMild then '\x22' :: name ++ ['\x22']
  else
    let escaping := (name.foldl addQuoted ([], false)).2
    (name.foldl addQuoted (['\x27'], escaping)).1 ++ ['\x27']

/-- The name of a file, between quotes if it needs them. -/
def shown (name : Text) : Text :=
  let isBrace := name == ['\x7b'] || name == ['\x7d']
  if name.isEmpty || isMarked name || isBrace || name.any needsQuotes then enclosed name else name

/-! ## Other texts -/

/-- A text between single quotes. -/
def literal (t : Text) : Text :=
  let inside := t.flatMap fun c =>
    match escapeOf? c with
    | some e => '\\' :: e
    | none => if c == '\x27' || c == '\\' then ['\\', c] else [c]
  '\x27' :: inside ++ ['\x27']

end Quoting

end Shell

end FuzzyFinder
