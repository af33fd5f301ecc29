import FuzzyFinder.Shell.Sorting.Options

/-!
# FuzzyFinder — sorting lines

Lines whose keys are all equal are ordered by their bytes, unless they keep the order they came in
or only the first of them is kept.
-/

namespace FuzzyFinder

namespace Shell

/-- A line with its parts as the keys compare them. -/
structure KeyedLine where
  text : Text
  values : List KeyValue

namespace Sorting

/-- A line with its parts as the keys compare them. -/
def keyed (o : SortOptions) (line : Text) : KeyedLine where
  text := line
  values := o.keys.map fun k => KeyValue.ofText k (k.extract o.separator line)

/-- The order of lines by their keys. -/
def compareKeys : List SortKey → List KeyValue → List KeyValue → Ordering
  | k :: ks, a :: as, b :: bs =>
    match a.compare b with
    | .eq => compareKeys ks as bs
    | o => if k.reversed then o.swap else o
  | _, _, _ => .eq

/-- The order of lines. -/
def compareLines (o : SortOptions) (a b : KeyedLine) : Ordering :=
  let byKeys := compareKeys o.keys a.values b.values
  if !o.keys.isEmpty && (byKeys != .eq || o.unique || o.stable) then byKeys
  else
    let byBytes := KeyValue.compareTexts a.text b.text
    if o.line.reversed then byBytes.swap else byBytes

/-- The lines of a text; the last one needs no ending. -/
def linesOf (ending : Char) (t : Text) : List Text :=
  let (line, lines) := t.foldr (fun c (line, lines) =>
    if c == ending then ([], line :: lines) else (c :: line, lines)) ([], [])
  let all := line :: lines
  if all.getLast? == some [] then all.dropLast else all

/-- The lines of a text with their keys. -/
def keyedLines (o : SortOptions) (t : Text) : List KeyedLine := (linesOf o.ending t).map (keyed o)

/-- Adds a line to those in `kept`, the last one of which is first, unless it is equal to that. -/
def addDistinct (o : SortOptions) (kept : List KeyedLine) (line : KeyedLine) : List KeyedLine :=
  match kept with
  | last :: _ => if compareLines o last line == .eq then kept else line :: kept
  | [] => [line]

/-- Keeps the first of neighbours that are equal. -/
def distinct (o : SortOptions) (lines : List KeyedLine) : List KeyedLine :=
  (lines.foldl (addDistinct o) []).reverse

/-- Merges the lines of files as if those were sorted; of equal lines those of the first file come
first. -/
def mergeAll (o : SortOptions) (files : List (List KeyedLine)) : List KeyedLine :=
  files.foldl (fun a b => List.merge a b fun x y => compareLines o x y != .gt) []

/-- The lines of files, given by their texts, in order. -/
def sort (o : SortOptions) (texts : List Text) : List Text :=
  let files := texts.map (keyedLines o)
  let sorted := if o.merges then mergeAll o files
    else files.flatten.mergeSort fun a b => compareLines o a b != .gt
  (if o.unique then distinct o sorted else sorted).map (·.text)

/-- The first line that is not in order, with its number. -/
def disorder? (o : SortOptions) : (number : Nat) → List KeyedLine → Option (Nat × Text)
  | number, a :: b :: rest =>
    let c := compareLines o a b
    if c == .gt || (c == .eq && o.unique) then some (number + 1, b.text)
    else disorder? o (number + 1) (b :: rest)
  | _, _ => none

end Sorting

end Shell

end FuzzyFinder
