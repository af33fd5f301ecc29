/-!
# FuzzyFinder — splitting a line into words

Default options are written in one line, the way they would be typed. Words are separated by
blanks, tabs and newlines. Single quotes keep everything between them, double quotes everything
but a backslash in front of a few characters, and a backslash outside of quotes keeps the
character behind it; a backslash in front of a newline removes both. A `#` where a word could
begin opens a comment up to the end of the line. A line whose quotes do not close, or which ends
in the middle of an escape, has no words at all.
-/

namespace FuzzyFinder

namespace Words

/-- Separates words. -/
def isBlank (c : Char) : Bool := c == ' ' || c == '\t' || c == '\n'

/-- Where the splitter stands. -/
inductive Mode where
  /-- Between words. -/
  | between
  /-- In a comment. -/
  | comment
  /-- In a word, outside of quotes. -/
  | plain
  /-- Behind a backslash outside of quotes. -/
  | escaped
  /-- Between single quotes. -/
  | single
  /-- Between double quotes. -/
  | double
  /-- Behind a backslash between double quotes. -/
  | doubleEscaped

/-- A character that a backslash keeps between double quotes. -/
def isSpecialInDouble (c : Char) : Bool :=
  c == '$' || c == '\x60' || c == '\x22' || c == '\\'

/-- The mode behind a character that stands outside of quotes, and what the word gains by it. -/
def plainStep (c : Char) : Mode × List Char :=
  if c == '\x22' then (.double, [])
  else if c == '\x27' then (.single, [])
  else if c == '\\' then (.escaped, [])
  else (.plain, [c])

/-- Splits the rest of a line; `word` is the current word, backwards. -/
def splitFrom (mode : Mode) (word : List Char) : List Char → Option (List String)
  | [] =>
    match mode with
    | .between | .comment => some []
    | .plain => some [String.ofList word.reverse]
    | .escaped | .single | .double | .doubleEscaped => none
  | c :: rest =>
    match mode with
    | .between =>
      if isBlank c then splitFrom .between [] rest
      else if c == '#' then splitFrom .comment [] rest
      else
        let (mode, gain) := plainStep c
        splitFrom mode gain rest
    | .comment => splitFrom (if c == '\n' then .between else .comment) [] rest
    | .plain =>
      if isBlank c then (splitFrom .between [] rest).map (String.ofList word.reverse :: ·)
      else
        let (mode, gain) := plainStep c
        splitFrom mode (gain ++ word) rest
    | .escaped => splitFrom .plain (if c == '\n' then word else c :: word) rest
    | .single =>
      if c == '\x27' then splitFrom .plain word rest else splitFrom .single (c :: word) rest
    | .double =>
      if c == '\x22' then splitFrom .plain word rest
      else if c == '\\' then splitFrom .doubleEscaped word rest
      else splitFrom .double (c :: word) rest
    | .doubleEscaped =>
      let word :=
        if isSpecialInDouble c then c :: word
        else if c == '\n' then word
        else c :: '\\' :: word
      splitFrom .double word rest

/-- The words of a line, if it has any reading. -/
def split? (line : String) : Option (List String) := splitFrom .between [] line.toList

end Words

end FuzzyFinder
