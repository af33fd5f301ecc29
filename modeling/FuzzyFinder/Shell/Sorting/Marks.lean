import FuzzyFinder.Shell.Sorting.Order

/-!
# FuzzyFinder — marks under lines

Shows how lines are compared: under each line the part that each key is about is underlined, and
remarks on the keys point out what they might not do as expected.
-/

namespace FuzzyFinder

namespace Shell

namespace Sorting

/-! ## Parts of lines -/

/-- How much of the front of a text the digits of a number take, with a point and digits behind it;
zero without a digit. -/
def numberLength (t : Text) : Nat :=
  let whole := (t.takeWhile Char.isDigit).length
  match t.drop whole with
  | '.' :: rest =>
    let fraction := (rest.takeWhile Char.isDigit).length
    if whole == 0 && fraction == 0 then 0 else whole + 1 + fraction
  | _ => whole

/-- How much of the front of a text, which has no blanks there, counts for a key. -/
def countingLength (k : SortKey) (t : Text) : Nat :=
  match k.orders with
  | .month :: _ => if KeyValue.monthOf t == 0 then 0 else 3
  | .general :: _ => (Floating.read? Floating.extended t).elim 0 fun r => t.length - r.rest.length
  | .numeric :: _ | .size :: _ =>
    let sign := if t.head? == some '-' then 1 else 0
    let digits := numberLength (t.drop sign)
    let hasUnit := k.orders.head? == some .size && KeyValue.sizeRank (t.drop (sign + digits)) != 0
    if digits == 0 then 0 else sign + digits + if hasUnit then 1 else 0
  | _ => t.length

/-- The place and the length of the part of a line that counts for a key. -/
def countingPart (separator : Option Char) (k : SortKey) (line : Text) : Nat × Nat :=
  let front := k.fromStart separator line
  let part := k.extract separator line
  let place := line.length - front.length
  if (k.skipsAtStart && k.start.isNone) || k.orders.head? == some .month || k.isNumeric then
    let behind := part.dropWhile SortKey.isFieldBlank
    (place + (part.length - behind.length), countingLength k behind)
  else (place, part.length)

/-- How many columns a text takes when it is shown with a mark for each tab. -/
def columns (t : Text) : Nat :=
  (t.filter fun c => c == '\t' || (' ' ≤ c && c != '\x7f')).length

/-- The mark for a part of a line. -/
def markOf (line : Text) (place length : Nat) : Text :=
  let width := columns ((line.drop place).take length)
  List.replicate (columns (line.take place)) ' ' ++
    (if width == 0 then "^ no match for key".toList else List.replicate width '_') ++ ['\n']

/-- A line with the marks for all keys under it. -/
def marked (o : SortOptions) (line : Text) : Text :=
  let shown := line.map fun c => if c == '\t' then '>' else c
  let byKeys := o.keys.map fun k =>
    let (place, length) := countingPart o.separator k line
    markOf line place length
  let whole := if o.keys.isEmpty || !(o.unique || o.stable) then markOf line 0 line.length else []
  shown ++ '\n' :: byKeys.flatten ++ whole

/-! ## Remarks -/

/-- A key in the old way, and the same key in the new one. -/
def remarkOld (k : SortKey) : List Text :=
  if !k.isObsolete then []
  else
    let first := (k.start.map (·.field)).getD 0
    let (old, new) : Text × Text := match k.stop with
      | none => ([], [])
      | some p => (' ' :: '-' :: Text.ofNat (p.field + 1), ',' :: Text.ofNat (p.field + 1))
    [Text.ofString "obsolescent key " ++
      Quoting.literal ('+' :: Text.ofNat first ++ old) ++ Text.ofString " used; consider " ++
      Quoting.literal ("-k ".toList ++ Text.ofNat (first + 1) ++ new) ++
      Text.ofString " instead"]

/-- A key with a number spans several fields. -/
def spansFields (k : SortKey) : Bool :=
  let first := (k.start.map (·.field)).getD 0
  k.isNumeric && k.stop.all fun p => first < p.field

/-- Remarks on the key with a number. -/
def remarksOn (o : SortOptions) (number : Nat) (k : SortKey) : List Text :=
  let about (before after : String) : Text :=
    Text.ofString before ++ Text.ofNat number ++ Text.ofString after
  let isEmpty := k.start.any fun p => k.stop.any fun q => q.field < p.field
  let skips := k.isNumeric || k.orders.contains .month
  let withinLine := k.stop.any fun p => p.field == 0 && p.character != 0
  let skipsNoBlanks := (!k.skipsAtStart && !skips) ||
    (!k.skipsAtStart && k.start.any (·.character != 0)) ||
    (!k.skipsAtStop && k.stop.any (·.character != 0))
  let blanksMatter :=
    !isEmpty && !o.onlyLine && o.separator.isNone && !withinLine && skipsNoBlanks
  remarkOld k ++
    (if isEmpty then [about "key " " has zero width and will be ignored"] else []) ++
    (if blanksMatter then
      [about "leading blanks are significant in key " "; consider also specifying 'b'"]
    else []) ++
    (if !o.onlyLine && spansFields k then
      [about "key " " is numeric and spans multiple fields"]
    else [])

/-- What the separator could be taken for in numbers that span fields. -/
def remarkSeparator (o : SortOptions) : List Text :=
  let spanning := if o.onlyLine then [] else o.keys.filter spansFields
  let role : Option String := match o.separator with
    | some '.' => some "decimal point"
    | some '-' => some "minus sign"
    | some '+' => if spanning.any (·.orders.contains .general) then some "plus sign" else none
    | _ => none
  match spanning, role, o.separator with
  | _ :: _, some role, some c =>
    [Text.ofString "field separator " ++ Quoting.literal [c] ++
      Text.ofString (" is treated as a " ++ role ++ " in numbers")]
  | _, _, _ => []

def remarksNumbers (o : SortOptions) : List Text :=
  let remark := remarkSeparator o
  let warned := o.separator == some '.' && !remark.isEmpty
  remark ++ (if o.keys.any SortKey.isNumeric && !warned then
    [Text.ofString "note numbers use '.' as a decimal point in this locale"] else [])

/-- What is said for whole lines, without what some key takes up. -/
def leftOver (o : SortOptions) : SortKey :=
  o.keys.foldl (fun line k =>
    { line with
      ignoring := if line.ignoring == k.ignoring then .nothing else line.ignoring
      foldsCase := line.foldsCase && !k.foldsCase
      skipsAtStart := line.skipsAtStart && !k.skipsAtStart
      skipsAtStop := line.skipsAtStop && !k.skipsAtStop
      orders := line.orders.filter fun x => !k.orders.contains x
      reversed := line.reversed && !k.reversed }) o.line

/-- Remarks on what is said for whole lines and has no effect. -/
def remarksLeftOver (o : SortOptions) : List Text :=
  let line := leftOver o
  let keeps := o.stable || o.unique
  let ignored :=
    if !line.isPlain || (line.reversed && keeps && !o.keys.isEmpty) then
      let letters := lettersOf { line with reversed := line.reversed && keeps }
      let verb := if letters.length == 1 then ("option '-", "' is ignored")
        else ("options '-", "' are ignored")
      [Text.ofString verb.1 ++ letters ++ Text.ofString verb.2]
    else []
  let lastResort :=
    if line.reversed && !keeps && !o.keys.isEmpty then
      [Text.ofString "option '-r' only applies to last-resort comparison"]
    else []
  ignored ++ lastResort

def remarks (o : SortOptions) : List Text :=
  Text.ofString "text ordering performed using simple byte comparison" ::
    (o.keys.zipIdx.flatMap fun (k, i) => remarksOn o (i + 1) k) ++ remarksNumbers o ++
      remarksLeftOver o

end Sorting

end Shell

end FuzzyFinder
