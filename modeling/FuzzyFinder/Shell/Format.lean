import FuzzyFinder.Shell.Escape
import FuzzyFinder.Shell.Floating

/-!
# FuzzyFinder — formatted output

Fills arguments into a format. A format is used again as long as arguments are left, and arguments
that are missing are empty or zero. An argument that is no number is complained about and counts for
as much as there is of it; a malformed format ends everything.
-/

namespace FuzzyFinder

namespace Shell

namespace Format

/-- What stands between the percent sign and the letter of a directive. -/
structure Directive where
  leftAligned : Bool := false
  zeroPadded : Bool := false
  signed : Bool := false
  blankSigned : Bool := false
  alternative : Bool := false
  width : Nat := 0
  precision : Option Nat := none
  /-- The format from a star on that is out of place, if there is one. Then nothing but the
  directive itself is written. -/
  stray : Option Text := none

/-- The state of filling a format. -/
structure Filling where
  /-- The output, backwards. -/
  output : Text := []
  /-- The arguments not used yet. -/
  arguments : List Text
  /-- The complaints about arguments, the last one first. -/
  complaints : List Text := []
  /-- What is wrong with the format. -/
  fault : Option Text := none
  /-- The output has been ended. -/
  ended : Bool := false

namespace Filling

/-- The first argument, if there is one, and the filling without it. -/
def next (f : Filling) : Option Text × Filling :=
  match f.arguments with
  | a :: rest => (some a, { f with arguments := rest })
  | [] => (none, f)

/-- Adds to the output. -/
def write (f : Filling) (t : Text) : Filling := { f with output := t.reverse ++ f.output }

/-- Complains about an argument. -/
def complain (f : Filling) (argument : Text) (reason : String) : Filling :=
  { f with complaints := (argument ++ Text.ofString (": " ++ reason)) :: f.complaints }

/-- Complains about an argument unless it has been read to its end and lies in range. -/
def check (f : Filling) (argument rest : Text) (isNumber outOfRange : Bool) : Filling :=
  if !isNumber then
    if argument.isEmpty then f else f.complain argument "expected numeric value"
  else if !rest.isEmpty then f.complain argument "not completely converted"
  else if outOfRange then f.complain argument "Numerical result out of range"
  else f

/-- The format makes no sense. -/
def fail (f : Filling) (reason : Text) : Filling := { f with fault := some reason, ended := true }

end Filling

/-! ## Arguments -/

/-- A quote in front of a character asks for its number. -/
def character? : Text → Option Nat
  | '\x27' :: rest | '\x22' :: rest => some (((rest.head?).getD '\x00').toNat)
  | _ => none

/-- A whole number with a sign. -/
def integer (f : Filling) : Int × Filling :=
  match f.next with
  | (none, f) => (0, f)
  | (some a, f) =>
    match character? a with
    | some n => (Int.ofNat n, f)
    | none =>
      let n := Text.numeral 0 a
      (n.value, f.check a n.rest (!n.missing) n.overflows)

/-- A whole number without a sign; a negative one is brought into range from below. -/
def natural (f : Filling) : Nat × Filling :=
  let size : Nat := 0x10000000000000000
  match f.next with
  | (none, f) => (0, f)
  | (some a, f) =>
    match character? a with
    | some n => (n, f)
    | none =>
      match Text.signed? 0 a with
      | none => (0, f.check a a false false)
      | some (negative, n, rest) =>
        let value := if size ≤ n then size - 1 else if negative then (size - n) % size else n
        (value, f.check a rest true (size ≤ n))

/-- A number with a fraction. -/
def floating (f : Filling) : Floating × Filling :=
  let zero : Floating := .finite false 0 0
  match f.next with
  | (none, f) => (zero, f)
  | (some a, f) =>
    match character? a with
    | some n => ((Floating.double.nearest false n 1).1, f)
    | none =>
      match Floating.read? Floating.double a with
      | none => (zero, f.check a a false false)
      | some r => (r.value, f.check a r.rest true r.outOfRange)

/-! ## Directives -/

/-- Reads the flags of a directive. -/
def flags (d : Directive) : Text → Directive × Text
  | '-' :: rest => flags { d with leftAligned := true } rest
  | '0' :: rest => flags { d with zeroPadded := true } rest
  | '+' :: rest => flags { d with signed := true } rest
  | ' ' :: rest => flags { d with blankSigned := true } rest
  | '#' :: rest => flags { d with alternative := true } rest
  | rest => (d, rest)

/-- Reads a number in decimal digits, zero when there is none. A star behind the digits is out of
place, and the digits and stars behind it count no more. -/
def decimal (d : Directive) (t : Text) : Nat × Directive × Text :=
  let behind := t.dropWhile Char.isDigit
  let rest := behind.dropWhile fun c => c.isDigit || c == '*'
  let stray := if behind.head? == some '*' then some behind else none
  (Text.valueIn 10 (t.takeWhile Char.isDigit), { d with stray := d.stray.or stray }, rest)

/-- A whole number of which only 32 bits count. -/
def shortInteger (f : Filling) : Int × Filling :=
  let (n, f) := integer f
  (n.bmod 0x100000000, f)

/-- Reads a directive up to its letter; a star takes a number from the arguments. -/
def directive (f : Filling) (t : Text) : Directive × Text × Filling :=
  let (d, t) := flags {} t
  let (d, t, f) : Directive × Text × Filling := match t with
    | '*' :: rest =>
      let (n, f) := shortInteger f
      ({ d with width := n.natAbs, leftAligned := d.leftAligned || n < 0 }, rest, f)
    | t =>
      let (width, d, rest) := decimal d t
      ({ d with width }, rest, f)
  match t with
  | '.' :: '*' :: rest =>
    let (n, f) := shortInteger f
    let precision := if d.stray.isSome || n < 0 then none else some n.toNat
    ({ d with precision }, rest, f)
  | '.' :: rest =>
    let (n, e, rest) := decimal d rest
    ({ e with precision := if d.stray.isSome then none else some n }, rest, f)
  | t => (d, t, f)

/-- Fills a text up to the width of a directive. -/
def pad (d : Directive) (t : Text) : Text :=
  let blanks := List.replicate (d.width - t.length) ' '
  if d.leftAligned then t ++ blanks else blanks ++ t

/-- A number behind its sign, with zeros between them if the directive asks for that. -/
def withSign (d : Directive) (zeros : Bool) (sign digits : Text) : Text :=
  let fill :=
    if zeros && d.zeroPadded && !d.leftAligned then
      List.replicate (d.width - sign.length - digits.length) '0'
    else []
  pad d (sign ++ fill ++ digits)

/-- The sign of a number. -/
def sign (d : Directive) (negative : Bool) : Text :=
  if negative then ['-'] else if d.signed then ['+'] else if d.blankSigned then [' '] else []

/-- The digits of a whole number, at least as many as the precision says. -/
def wholeDigits (d : Directive) (digits : Text) : Text :=
  Floating.padded (d.precision.getD 1) (if digits == ['0'] then [] else digits)

/-- A text as far as the precision goes, filled up to the width. -/
def text (d : Directive) (t : Text) : Text :=
  pad d (match d.precision with
    | some p => t.take p
    | none => t)

/-- A number without a sign in a base. -/
def unsigned (d : Directive) (letter : Char) (n : Nat) : Text :=
  let base := match letter with
    | 'o' => 8
    | 'u' => 10
    | _ => 16
  let digits := wholeDigits d (Nat.toDigits base n)
  let digits := if letter == 'X' then digits.map Char.toUpper else digits
  let digits :=
    if letter == 'o' && d.alternative && digits.head? != some '0' then '0' :: digits else digits
  let front : Text := if base == 16 && d.alternative && n != 0 then ['0', letter] else []
  withSign d d.precision.isNone front digits

/-- A number with a fraction. -/
def fractional (d : Directive) (letter : Char) (v : Floating) : Text :=
  let places := d.precision.getD 6
  let sign := sign d v.isNegative
  let body : Text := match v with
    | .infinite _ => withSign d false sign "inf".toList
    | .undefined _ => withSign d false sign "nan".toList
    | v =>
      match letter.toLower with
      | 'e' => withSign d true sign (v.scientific d.alternative places)
      | 'f' => withSign d true sign (v.fixed d.alternative places)
      | 'g' => withSign d true sign (v.general d.alternative places)
      | _ => withSign d true (sign ++ ['0', 'x']) (v.hexadecimal d.alternative d.precision)
  if letter.isUpper then body.map Char.toUpper else body

/-- More than a width or a precision may be. -/
def tooWide : Nat := 0x7fffffff

/-- The width or the precision of a directive is out of bounds. -/
def isTooWide (d : Directive) : Bool :=
  tooWide ≤ d.width || d.precision.any (tooWide < ·)

/-- Fills a directive, which has the given text; there are not many letters that make one. -/
def fill (f : Filling) (d : Directive) (letter : Char) (written : Text) : Filling :=
  if isTooWide d then f.fail (Text.ofString "xvsnprintf failed")
  else match letter with
  | 's' =>
    let (a, f) := f.next
    f.write (text d (a.getD []))
  | 'c' =>
    let (a, f) := f.next
    f.write (pad d [((a.getD []).head?).getD '\x00'])
  | 'b' =>
    let (a, f) := f.next
    let (t, ended) := Escape.resolve (a.getD [])
    { f.write (text d t) with ended }
  | 'd' | 'i' =>
    let (n, f) := integer f
    f.write (withSign d d.precision.isNone (sign d (n < 0)) (wholeDigits d (Text.ofNat n.natAbs)))
  | 'o' | 'u' | 'x' | 'X' =>
    let (n, f) := natural f
    f.write (unsigned d letter n)
  | 'a' | 'A' | 'e' | 'E' | 'f' | 'F' | 'g' | 'G' =>
    let (v, f) := floating f
    f.write (fractional d letter v)
  | _ => f.fail (written ++ Text.ofString ": invalid directive")

/-- A directive as it is written in front of a star that is out of place. -/
def Directive.front (d : Directive) : Text :=
  let flag (on : Bool) (c : Char) : Text := if on then [c] else []
  let width := if d.width == 0 then [] else Text.ofNat d.width
  let precision := match d.precision with
    | some n => '.' :: Text.ofNat n
    | none => []
  '%' :: flag d.alternative '#' ++ flag d.signed '+' ++ flag (d.blankSigned && !d.signed) ' ' ++
    flag d.leftAligned '-' ++ flag (d.zeroPadded && !d.leftAligned) '0' ++ width ++ precision

/-- A letter as it is written behind a star that is out of place: whole numbers are long, and texts
are alike. -/
def longLetter (c : Char) : Text :=
  if "diouxX".toList.contains c then ['l', c] else if c == 'b' then ['s'] else [c]

/-- Fills a directive in front of `behind`, where a star may be out of place. An argument is used,
but the directive itself is written. -/
def fillAny (f : Filling) (d : Directive) (letter : Char) (written behind : Text) : Filling :=
  let filled := fill f d letter written
  match d.stray with
  | none => filled
  | some t =>
    if filled.fault.isSome then filled
    else
      let middle := t.take (t.length - behind.length - 1)
      { f.write (d.front ++ middle ++ longLetter letter) with
        arguments := filled.arguments
        complaints := filled.complaints
        ended := filled.ended }

/-- Goes through a format once. -/
def pass : (fuel : Nat) → Filling → Text → Filling
  | 0, f, _ => f
  | _, f, [] => f
  | fuel + 1, f, c :: rest =>
    if f.ended then f
    else
      match c, rest with
      | '\\', rest =>
        let (c, rest) := Escape.read rest
        pass fuel (f.write [c]) rest
      | '%', '%' :: rest => pass fuel (f.write ['%']) rest
      | '%', rest =>
        match directive f rest with
        | (_, [], f) => f.fail (Text.ofString "missing format character")
        | (d, letter :: behind, f) =>
          let written := '%' :: rest.take (rest.length - behind.length)
          pass fuel (fillAny f d letter written behind) behind
      | c, rest => pass fuel (f.write [c]) rest

/-- Goes through a format until all arguments are used, as long as it uses any. -/
def passes (format : Text) : (fuel : Nat) → Filling → Filling
  | 0, f => f
  | fuel + 1, f =>
    let after := pass format.length f format
    if after.ended || after.arguments.isEmpty || after.arguments.length == f.arguments.length then
      after
    else passes format fuel after

/-- Fills arguments into a format. -/
def fillAll (format : Text) (arguments : List Text) : Filling :=
  passes format (arguments.length + 1) { arguments }

end Format

end Shell

end FuzzyFinder
