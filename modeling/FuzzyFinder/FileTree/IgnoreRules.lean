import FuzzyFinder.FileTree.Glob
import FuzzyFinder.Text.Blank
import FuzzyFinder.Text.Utf8

/-!
# FuzzyFinder — ignore rules

A directory may list patterns for files that are of no interest, one a line. A line that opens
with `#` is a comment; one that opens with `!` takes back what earlier lines ignore; one that ends
in a slash speaks of directories only. A pattern with a slash in front or inside is matched
against the whole path below the directory of the list, any other one against the last component
alone. Of all lines that match a path, the last one decides.
-/

namespace FuzzyFinder

/-- One line of an ignore list. -/
structure IgnoreRule where
  /-- The pattern for paths below the directory of the list. -/
  pattern : Glob
  /-- The rule takes back earlier ones. -/
  keeps : Bool
  /-- The rule speaks of directories only. -/
  onlyDirectories : Bool

/-- The rules of an ignore list, in order. -/
abbrev IgnoreRules := List IgnoreRule

namespace IgnoreRule

/-- Removes the blanks at the end of a line, unless the last one is a space behind a backslash. -/
def trimEnd (line : List Char) : List Char :=
  match line.reverse with
  | ' ' :: '\\' :: _ => line
  | reversed => (reversed.dropWhile Blank.contains).reverse

/-- Splits off what a line opens with: whether it keeps, whether it is bound to the directory of
the list, and the pattern itself. A backslash in front of `!` or `#` makes that character part of
the pattern. -/
def opening (line : List Char) : Bool × Bool × List Char :=
  let slashed (rest : List Char) : Bool × List Char :=
    match rest with
    | '/' :: rest => (true, rest)
    | rest => (false, rest)
  match line with
  | '\\' :: '!' :: rest => (false, false, '!' :: rest)
  | '\\' :: '#' :: rest => (false, false, '#' :: rest)
  | '!' :: rest => (true, slashed rest)
  | rest => (false, slashed rest)

/-- Splits off a slash at the end of a pattern, together with a backslash in front of it. -/
def closing (pattern : List Char) : Bool × List Char :=
  match pattern.reverse with
  | '/' :: '\\' :: rest => (true, rest.reverse)
  | '/' :: rest => (true, rest.reverse)
  | _ => (false, pattern)

/-- Both stars of `**`. -/
def doubleStar : List Char := ['*', '*']

/-- The pattern for paths: one without a slash may match at any depth, and one that ends in `/**`
does not match the directory in front of it. -/
def expand (bound : Bool) (pattern : List Char) : List Char :=
  let anywhere := !bound && !pattern.contains '/' && pattern != doubleStar
  let pattern := if anywhere then doubleStar ++ '/' :: pattern else pattern
  if ('/' :: doubleStar).isSuffixOf pattern then pattern ++ ['/', '*'] else pattern

/-- Reads one line; comments, empty lines and malformed patterns give no rule. -/
def ofLine? (line : List Char) : Option IgnoreRule :=
  if line.head? == some '#' then none
  else
    let line := trimEnd line
    if line.isEmpty then none
    else
      let (keeps, bound, pattern) := opening line
      let (onlyDirectories, pattern) := closing pattern
      (Glob.parse (expand bound pattern)).map fun pattern => { pattern, keeps, onlyDirectories }

end IgnoreRule

/-- What ignore rules say about a path. -/
inductive Verdict where
  /-- It is of no interest. -/
  | ignored
  /-- It is of interest whatever less specific rules say. -/
  | kept
deriving DecidableEq

namespace IgnoreRules

/-- The carriage return that may stand in front of a newline. -/
def carriageReturn : UInt8 := 0x0d

/-- The lines of a file, each without its newline and the carriage return in front of that one. -/
def lines (content : Bytes) : List Bytes :=
  let ended (line : Bytes) : Bytes :=
    if line.getLast? == some carriageReturn then line.dropLast else line
  match (content.splitOn Byte.newline).reverse with
  | [] => []
  | last :: others => (last :: others.map ended).reverse

/-- May stand in front of a text to say how it is encoded. -/
def byteOrderMark : Char := '\uFEFF'

/-- Takes byte order marks off the first line. -/
def withoutMarks : List (List Char) → List (List Char)
  | [] => []
  | first :: others => first.dropWhile (· == byteOrderMark) :: others

/-- The lines that are text, up to the first one that is not. -/
def texts : List Bytes → List (List Char)
  | [] => []
  | line :: others =>
    match Utf8.decode? line with
    | some text => text :: texts others
    | none => []

/-- Reads an ignore list. What follows a line that is no text is not read, and a pattern that is
nested too deeply makes all of the list void. -/
def ofContent (content : Bytes) : IgnoreRules :=
  let rules := (withoutMarks (texts (lines content))).filterMap IgnoreRule.ofLine?
  if rules.any (·.pattern.isTooDeep) then [] else rules

/-- The verdict of the last rule that matches a path. -/
def verdict (rules : IgnoreRules) (path : Bytes) (isDirectory : Bool) : Option Verdict :=
  let matching := rules.reverse.find? fun r =>
    (isDirectory || !r.onlyDirectories) && r.pattern.isMatch path
  matching.map fun r => if r.keeps then .kept else .ignored

end IgnoreRules

end FuzzyFinder
