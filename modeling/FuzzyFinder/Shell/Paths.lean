import FuzzyFinder.Shell.Fields
import FuzzyFinder.Shell.Pattern
import FuzzyFinder.Shell.State

/-!
# FuzzyFinder — files by pattern

An argument in which `*`, `?` or a set of bytes stands unquoted is replaced by the paths of all
files that it matches, if there are any. Slashes are matched by slashes only, and a dot in front of
a name only by a dot.
-/

namespace FuzzyFinder

namespace Shell

namespace Cell

/-- The text of cells as a pattern: a backslash stands in front of what is quoted, unless a bare
backslash stands there anyway. -/
def toPatternText : (escaping : Bool) → List Cell → Text
  | _, [] => []
  | _, .mark :: rest => toPatternText true rest
  | escaping, .char c true :: rest =>
    if escaping then '\\' :: c :: toPatternText true rest else c :: toPatternText true rest
  | escaping, .char c false :: rest => c :: toPatternText (!(c == '\\' && escaping)) rest

/-- Cells as a pattern. -/
def toPattern (cells : List Cell) : Pattern := Pattern.ofText (toPatternText true cells)

end Cell

namespace Paths

/-- The bytes that may make a pattern. -/
def isMeta (c : Char) : Bool := c == '*' || c == '?' || c == '['

/-- An element of a pattern that stands for more than one text. -/
def isOpen : PatternToken → Bool
  | .literal _ => false
  | _ => true

/-- The text that a pattern without open elements matches. -/
def literals (p : Pattern) : Text :=
  p.filterMap fun
    | .literal c => some c
    | _ => none

/-- The text between slashes. -/
def components (t : Text) : List Text :=
  t.foldr (fun c parts =>
    match parts with
    | part :: rest => if c == '/' then [] :: part :: rest else (c :: part) :: rest
    | [] => [[c]]) [[]]

/-- The names in the directory that a path leads to, hidden ones and those of the directory itself
and the one above it included. -/
def namesIn (s : State) (path : Text) : List Text :=
  match s.find? s.directory (if path.isEmpty then ['.'] else path) with
  | .ok (place, .directory) =>
    ['.'] :: ['.', '.'] :: (s.tree.children place).map fun (name, _) => Text.ofBytes name
  | _ => []

/-- There is something at a path; a link counts as such. -/
def isThere (s : State) (path : Text) : Bool :=
  match s.find? s.directory path with
  | .ok _ => true
  | .error _ =>
    match s.newPlace? s.directory path with
    | .ok place => (s.tree.node? place).isSome
    | .error _ => false

/-- The pattern of one component matches a name. -/
def matchesName (component : Text) (p : Pattern) (name : Text) : Bool :=
  let dotted := component.head? == some '.' || ['\\', '.'].isPrefixOf component
  (name.head? != some '.' || dotted) && p.isMatch name

/-- The paths that open with `path` and go on with names that match the components; `searched` says
that a directory has been searched in front of them. -/
def expandFrom (s : State) : (components : List Text) → (path : Text) → (searched : Bool) →
    List Text
  | [], path, searched => if searched && isThere s path then [path] else []
  | component :: rest, path, searched =>
    let p := Pattern.ofText component
    let slash : Text := if rest.isEmpty then [] else ['/']
    if p.any isOpen then
      let names := (namesIn s path).filter (matchesName component p)
      if rest.isEmpty then names.map (path ++ ·)
      else names.flatMap fun name => expandFrom s rest (path ++ name ++ slash) true
    else expandFrom s rest (path ++ literals p ++ slash) searched

/-- The paths that a pattern matches, in the order of their bytes. -/
def expand (s : State) (pattern : Text) : List Text :=
  (expandFrom s (components pattern) [] false).mergeSort fun a b =>
    compare (Text.toBytes a) (Text.toBytes b) != .gt

/-- The arguments that a field amounts to. -/
def ofField (s : State) (field : List Cell) : List Text :=
  let t := Cell.toText field
  if s.has .noglob || !t.any isMeta then [t]
  else
    match expand s (Cell.toPatternText true field) with
    | [] => [t]
    | paths => paths

end Paths

end Shell

end FuzzyFinder
