import FuzzyFinder.Shell.Floating
import FuzzyFinder.Shell.VersionOrder

/-!
# FuzzyFinder — keys of lines

Lines are ordered by keys: parts of them that are compared as texts, numbers, sizes, months or
versions. A part is given by the places where it begins and ends, which count fields and characters.
-/

namespace FuzzyFinder

namespace Shell

/-- How keys are compared. -/
inductive KeyOrder where
  /-- As texts. -/
  | text
  /-- As decimal numbers. -/
  | numeric
  /-- As numbers in any notation. -/
  | general
  /-- As numbers with a letter for their size behind them. -/
  | size
  | month
  | version
  /-- In any order in which equal keys are neighbours. -/
  | random
deriving DecidableEq

/-- The characters of a key that are passed over. -/
inductive Ignoring where
  | nothing
  /-- All but letters, digits and blanks. -/
  | others
  /-- Characters that leave no mark. -/
  | unprintable
deriving DecidableEq

/-- A place in a line. -/
structure KeyPlace where
  /-- How many fields are in front of it. -/
  field : Nat
  /-- How many characters of the field are in front of it. -/
  character : Nat

/-- A part of a line that is compared. -/
structure SortKey where
  /-- Where it begins; without that it begins with the line. -/
  start : Option KeyPlace := none
  /-- Where it ends; without that it is at the end of the line. The end of a field is meant where no
  characters are counted. -/
  stop : Option KeyPlace := none
  /-- Blanks in front of the first field do not count. -/
  skipsAtStart : Bool := false
  /-- Blanks in front of the last field do not count. -/
  skipsAtStop : Bool := false
  /-- How it is compared; several ways contradict one another. -/
  orders : List KeyOrder := []
  ignoring : Ignoring := .nothing
  foldsCase : Bool := false
  reversed : Bool := false
  /-- It was written in a way that is out of use. -/
  isObsolete : Bool := false

namespace SortKey

/-- A key says nothing about how it is compared. -/
def isPlain (k : SortKey) : Bool :=
  k.orders.isEmpty && k.ignoring == .nothing && !k.foldsCase && !k.skipsAtStart && !k.skipsAtStop

/-- A key with what applies to all lines, if it says nothing of its own. -/
def inheriting (line k : SortKey) : SortKey :=
  if k.isPlain && !k.reversed then
    { k with
      skipsAtStart := line.skipsAtStart
      skipsAtStop := line.skipsAtStop
      orders := line.orders
      ignoring := line.ignoring
      foldsCase := line.foldsCase
      reversed := line.reversed }
  else k

/-- It is compared as a number. -/
def isNumeric (k : SortKey) : Bool :=
  k.orders.any fun o => o == .numeric || o == .general || o == .size

/-! ## Parts of lines -/

/-- Blanks that separate fields. -/
def isFieldBlank (c : Char) : Bool := c == ' ' || c == '\t' || c == '\n'

/-- A line without a number of fields in front. Behind the last one of them its separator stays if
`keepsLast`. -/
def dropFields (separator : Option Char) (keepsLast : Bool) : (fields : Nat) → Text → Text
  | 0, t => t
  | fields + 1, t =>
    match separator with
    | some c =>
      let behind := t.dropWhile (· != c)
      let behind := if fields == 0 && keepsLast then behind else behind.tail
      dropFields separator keepsLast fields behind
    | none => dropFields separator keepsLast fields
        ((t.dropWhile isFieldBlank).dropWhile fun c => !isFieldBlank c)

/-- What is in a line from the beginning of a key on. -/
def fromStart (separator : Option Char) (k : SortKey) (line : Text) : Text :=
  let p := k.start.getD ⟨0, 0⟩
  let behind := dropFields separator false p.field line
  let behind := if k.skipsAtStart then behind.dropWhile isFieldBlank else behind
  behind.drop p.character

/-- What is in a line behind the end of a key. -/
def behindStop (separator : Option Char) (k : SortKey) (line : Text) : Text :=
  match k.stop with
  | none => []
  | some ⟨field, 0⟩ => dropFields separator true (field + 1) line
  | some ⟨field, character⟩ =>
    let behind := dropFields separator false field line
    let behind := if k.skipsAtStop then behind.dropWhile isFieldBlank else behind
    behind.drop character

/-- The part of a line that a key is about. -/
def extract (separator : Option Char) (k : SortKey) (line : Text) : Text :=
  let front := k.fromStart separator line
  front.take (front.length - (k.behindStop separator line).length)

end SortKey

/-! ## Values -/

/-- A part of a line in the form in which it is compared. -/
inductive KeyValue where
  | text (t : Text)
  | numeric (negative : Bool) (whole fraction : Text)
  | general (v : Option Floating)
  | size (rank : Int) (negative : Bool) (whole fraction : Text)
  | month (n : Nat)
  | version (t : Text)

namespace KeyValue

/-- The number that a text opens with: whether it is below zero, its digits in front of the point
without zeros in front of them, those behind it without zeros behind them, and the rest. -/
def readNumber (t : Text) : Bool × Text × Text × Text :=
  let (negative, t) := match t.dropWhile SortKey.isFieldBlank with
    | '-' :: t => (true, t)
    | t => (false, t)
  let whole := (t.takeWhile Char.isDigit).dropWhile (· == '0')
  let (fraction, rest) := match t.dropWhile Char.isDigit with
    | '.' :: rest => (rest.takeWhile Char.isDigit, rest.dropWhile Char.isDigit)
    | rest => ([], rest)
  let fraction := Text.dropEndWhile (· == '0') fraction
  (negative && !(whole.isEmpty && fraction.isEmpty), whole, fraction, rest)

/-- The rank of the letter behind a number, zero if it stands for no size. -/
def sizeRank (rest : Text) : Nat :=
  match rest with
  | c :: _ =>
    if c == 'k' then 1 else ("KMGTPEZY".toList.findIdx? (· == c)).elim 0 (· + 1)
  | [] => 0

/-- The months by their first letters. -/
def months : List String :=
  ["JAN", "FEB", "MAR", "APR", "MAY", "JUN", "JUL", "AUG", "SEP", "OCT", "NOV", "DEC"]

/-- The number of the month that a text opens with, zero for none. -/
def monthOf (t : Text) : Nat :=
  let letters := ((t.dropWhile SortKey.isFieldBlank).take 3).map Char.toUpper
  (months.findIdx? (·.toList == letters)).elim 0 (· + 1)

/-- The character counts in a key. -/
def keeps (i : Ignoring) (c : Char) : Bool :=
  match i with
  | .nothing => true
  | .others => c.isAlphanum || SortKey.isFieldBlank c
  | .unprintable => ' ' ≤ c && c ≤ '~'

/-- A part of a line as its key compares it. -/
def ofText (k : SortKey) (t : Text) : KeyValue :=
  let t := if k.ignoring == .nothing then t else t.filter (keeps k.ignoring)
  let t := if k.foldsCase then t.map Char.toUpper else t
  let (negative, whole, fraction, rest) := readNumber t
  match k.orders with
  | .numeric :: _ => .numeric negative whole fraction
  | .general :: _ => .general ((Floating.read? Floating.extended t).map (·.value))
  | .size :: _ =>
    let isZero := whole.isEmpty && fraction.isEmpty
    let rank : Int := if isZero then 0 else Int.ofNat (sizeRank rest)
    .size (if negative then -rank else rank) negative whole fraction
  | .month :: _ => .month (monthOf t)
  | .version :: _ => .version t
  | _ => .text t

/-! ## Order -/

/-- The order of texts by their bytes. -/
def compareTexts : Text → Text → Ordering
  | [], [] => .eq
  | [], _ :: _ => .lt
  | _ :: _, [] => .gt
  | a :: as, b :: bs => if a == b then compareTexts as bs else compare a.toNat b.toNat

/-- The order of numbers without a sign, given by their digits. -/
def compareMagnitudes (whole fraction whole' fraction' : Text) : Ordering :=
  ((compare whole.length whole'.length).then (compareTexts whole whole')).then
    (compareTexts fraction fraction')

/-- The order of numbers, given by their signs and digits. -/
def compareNumbers (n : Bool) (whole fraction : Text) (n' : Bool) (whole' fraction' : Text) :
    Ordering :=
  match n, n' with
  | true, false => .lt
  | false, true => .gt
  | false, false => compareMagnitudes whole fraction whole' fraction'
  | true, true => compareMagnitudes whole' fraction' whole fraction

/-- The order of the magnitudes of two quotients. -/
def compareQuotients (a b : Nat × Nat) : Ordering := compare (a.1 * b.2) (b.1 * a.2)

/-- The order of numbers in any notation: first what is no number, then what is undefined. -/
def compareGeneral (a b : Option Floating) : Ordering :=
  let rank (v : Option Floating) : Nat := match v with
    | none => 0
    | some (.undefined true) => 1
    | some (.undefined false) => 2
    | some (.infinite true) => 3
    | some (.finite ..) => 4
    | some (.infinite false) => 5
  match a, b with
  | some (.finite n m e), some (.finite n' m' e') =>
    let a := Floating.quotient (.finite n m e)
    let b := Floating.quotient (.finite n' m' e')
    match n && m != 0, n' && m' != 0 with
    | true, false => .lt
    | false, true => .gt
    | false, false => compareQuotients a b
    | true, true => compareQuotients b a
  | a, b => compare (rank a) (rank b)

end KeyValue

/-- The order of parts of lines. -/
def KeyValue.compare : KeyValue → KeyValue → Ordering
  | .text a, .text b => compareTexts a b
  | .numeric n w f, .numeric n' w' f' => compareNumbers n w f n' w' f'
  | .general a, .general b => compareGeneral a b
  | .size r n w f, .size r' n' w' f' => (Ord.compare r r').then (compareNumbers n w f n' w' f')
  | .month a, .month b => Ord.compare a b
  | .version a, .version b => VersionOrder.compareNames a b
  | _, _ => .eq

end Shell

end FuzzyFinder
