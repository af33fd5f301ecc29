import FuzzyFinder.Shell.Text

/-!
# FuzzyFinder — numbers with a fraction

A number with a fraction is kept with so many binary digits. It is read from decimal or hexadecimal
text, with a half going to the even neighbour, and written again in any number of places: all digits
are those of the exact value, and again a half goes to the even neighbour.
-/

namespace FuzzyFinder

namespace Shell

/-- A number with a fraction. -/
inductive Floating where
  /-- The product of a mantissa and a power of two. -/
  | finite (negative : Bool) (mantissa : Nat) (exponent : Int)
  /-- Greater than all numbers, or less. -/
  | infinite (negative : Bool)
  /-- No number at all. -/
  | undefined (negative : Bool)

namespace Floating

/-- The number is negative. -/
def isNegative : Floating → Bool
  | .finite n .. => n
  | .infinite n => n
  | .undefined n => n

/-! ## Rounding -/

/-- A quotient as the nearest whole number, a half going to the even one. -/
def roundEven (num den : Nat) : Nat :=
  let q := num / den
  let r := 2 * (num % den)
  if r < den then q
  else if den < r then q + 1
  else if q % 2 == 0 then q else q + 1

/-- A quotient of natural numbers times a power of a base. -/
def scale (base : Nat) (power : Int) (num den : Nat) : Nat × Nat :=
  match power with
  | .ofNat n => (num * Nat.pow base n, den)
  | .negSucc n => (num, den * Nat.pow base (n + 1))

/-- Which numbers can be told apart. -/
structure Grid where
  /-- The number of binary digits of a mantissa. -/
  precision : Nat
  /-- The least exponent. -/
  minExponent : Int
  /-- The greatest exponent. -/
  maxExponent : Int

/-- The numbers that are written. -/
def double : Grid := ⟨53, -1074, 971⟩

/-- The numbers that are only compared. -/
def extended : Grid := ⟨64, -16445, 16320⟩

namespace Grid

/-- The mantissa and the exponent of a quotient on a grid without a least exponent. -/
def normalized (g : Grid) (num den : Nat) : Nat × Int :=
  let guess : Int := Int.ofNat num.log2 - Int.ofNat den.log2 - Int.ofNat (g.precision - 1)
  let (n, d) := scale 2 (-guess) num den
  let exponent := if n < d * Nat.pow 2 (g.precision - 1) then guess - 1 else guess
  let (n, d) := scale 2 (-exponent) num den
  let m := roundEven n d
  if m == Nat.pow 2 g.precision then (Nat.pow 2 (g.precision - 1), exponent + 1) else (m, exponent)

/-- The nearest number to a quotient, and whether that lies outside of the range. -/
def nearest (g : Grid) (negative : Bool) (num den : Nat) : Floating × Bool :=
  if num == 0 then (.finite negative 0 g.minExponent, false)
  else
    let (m, exponent) := g.normalized num den
    if exponent < g.minExponent then
      let (n, d) := scale 2 (-g.minExponent) num den
      (.finite negative (roundEven n d) g.minExponent, n % d != 0)
    else if g.maxExponent < exponent then (.infinite negative, true)
    else (.finite negative m exponent, false)

/-- The nearest number to the product of a whole number and a power of a base, also where the power
is far outside of the range. -/
def nearestScaled (g : Grid) (negative : Bool) (base n : Nat) (power : Int) : Floating × Bool :=
  let bound := 2 * (g.maxExponent.natAbs + g.minExponent.natAbs)
  if n == 0 then g.nearest negative 0 1
  else if Int.ofNat bound < power then (.infinite negative, true)
  else if power < -Int.ofNat (bound + 2 * n.log2) then (.finite negative 0 g.minExponent, true)
  else
    let (n, d) := scale base power n 1
    g.nearest negative n d

end Grid

/-! ## Reading -/

/-- A number read from the front of a text. -/
structure Read where
  value : Floating
  /-- It lies outside of the range. -/
  outOfRange : Bool := false
  /-- What is behind it. -/
  rest : Text

/-- Reads an exponent behind one of two letters; without digits there is none. -/
def exponent (letters : List Char) (t : Text) : Int × Text :=
  match t with
  | c :: rest =>
    if !letters.contains c then (0, t)
    else
      let (negative, digits) := match rest with
        | '-' :: digits => (true, digits)
        | '+' :: digits => (false, digits)
        | digits => (false, digits)
      let value := Int.ofNat (Text.valueIn 10 (digits.takeWhile Char.isDigit))
      if (digits.takeWhile Char.isDigit).isEmpty then (0, t)
      else (if negative then -value else value, digits.dropWhile Char.isDigit)
  | [] => (0, t)

/-- Reads digits in a base with perhaps a point among them: the digits, how many of them are behind
the point, and what is behind them all. -/
def digits? (base : Nat) (t : Text) : Option (Text × Nat × Text) :=
  let isDigit := Text.isDigitIn base
  let whole := t.takeWhile isDigit
  let (fraction, rest) := match t.dropWhile isDigit with
    | '.' :: rest => (rest.takeWhile isDigit, rest.dropWhile isDigit)
    | rest => ([], rest)
  if whole.isEmpty && fraction.isEmpty then none
  else some (whole ++ fraction, fraction.length, rest)

/-- What is behind a text that is to be passed over, if a text opens with that in letters of any
case. -/
def behindWord? (word : String) (t : Text) : Option Text :=
  if (t.take word.length).map Char.toLower == word.toList then some (t.drop word.length) else none

/-- A text without letters, digits and underscores in brackets at its front. -/
def behindBrackets (t : Text) : Text :=
  match t with
  | '(' :: inside =>
    match inside.dropWhile Text.continuesName with
    | ')' :: rest => rest
    | _ => t
  | t => t

/-- Reads a number without its sign. -/
def readMagnitude? (g : Grid) (negative : Bool) (t : Text) : Option Read :=
  let hexadecimal : Option Read :=
    match t with
    | '0' :: x :: rest =>
      if x == 'x' || x == 'X' then
        (digits? 16 rest).map fun (digits, places, rest) =>
          let (e, rest) := exponent ['p', 'P'] rest
          let (value, outOfRange) :=
            g.nearestScaled negative 2 (Text.valueIn 16 digits) (e - 4 * Int.ofNat places)
          { value, outOfRange, rest }
      else none
    | _ => none
  let decimal : Option Read :=
    (digits? 10 t).map fun (digits, places, rest) =>
      let (e, rest) := exponent ['e', 'E'] rest
      let (value, outOfRange) :=
        g.nearestScaled negative 10 (Text.valueIn 10 digits) (e - Int.ofNat places)
      { value, outOfRange, rest }
  let named : Option Read :=
    match (behindWord? "infinity" t).or (behindWord? "inf" t) with
    | some rest => some { value := .infinite negative, rest }
    | none => (behindWord? "nan" t).map fun rest =>
        { value := .undefined negative, rest := behindBrackets rest }
  (hexadecimal.or decimal).or named

/-- Reads a number behind optional white space and an optional sign. -/
def read? (g : Grid) (t : Text) : Option Read :=
  match t.dropWhile Text.isSpace with
  | '-' :: rest => readMagnitude? g true rest
  | '+' :: rest => readMagnitude? g false rest
  | rest => readMagnitude? g false rest

/-! ## Writing -/

/-- The magnitude of a number as a quotient. -/
def quotient : Floating → Nat × Nat
  | .finite _ m e => scale 2 e m 1
  | _ => (0, 1)

/-- Digits with zeros in front, so that they are at least `least`. -/
def padded (least : Nat) (digits : Text) : Text :=
  List.replicate (least - digits.length) '0' ++ digits

/-- Puts a point in front of the last `places` digits; without such digits the point is left out
unless `pointed`. -/
def withPoint (pointed : Bool) (places : Nat) (digits : Text) : Text :=
  let digits := padded (places + 1) digits
  let whole := digits.take (digits.length - places)
  if places == 0 && !pointed then whole
  else whole ++ '.' :: digits.drop (digits.length - places)

/-- The magnitude in positional notation. -/
def fixed (pointed : Bool) (places : Nat) (f : Floating) : Text :=
  let (n, d) := f.quotient
  withPoint pointed places (Text.ofNat (roundEven (n * Nat.pow 10 places) d))

/-- The power of ten of the first digit of a quotient. -/
def magnitude (num den : Nat) : Int :=
  if num == 0 then 0
  else if den ≤ num then Int.ofNat ((Text.ofNat (num / den)).length - 1)
  else
    let count := (Text.ofNat (den / num)).length
    if den ≤ num * Nat.pow 10 (count - 1) then -Int.ofNat (count - 1) else -Int.ofNat count

/-- The first digits, `places` of them behind the first one, and the power of ten of that one. -/
def leading (places : Nat) (f : Floating) : Text × Int :=
  let (num, den) := f.quotient
  let power := magnitude num den
  let (n, d) := scale 10 (Int.ofNat places - power) num den
  let digits := Text.ofNat (roundEven n d)
  if digits.length == places + 2 then (digits.dropLast, power + 1)
  else (padded (places + 1) digits, power)

/-- An exponent with its letter and sign, in at least `least` digits. -/
def exponentText (letter : Char) (least : Nat) (e : Int) : Text :=
  letter :: (if e < 0 then '-' else '+') :: padded least (Text.ofNat e.natAbs)

/-- The magnitude with an exponent. -/
def scientific (pointed : Bool) (places : Nat) (f : Floating) : Text :=
  let (digits, power) := f.leading places
  withPoint pointed places digits ++ exponentText 'e' 2 power

/-- Without the zeros at the end of a fraction, and without a bare point. -/
def withoutZeros (t : Text) : Text :=
  if t.contains '.' then Text.dropEndWhile (· == '.') (Text.dropEndWhile (· == '0') t) else t

/-- The magnitude in as many digits as asked for, at least one, with an exponent only where that is
needed. Zeros at the end are left out unless `pointed`. -/
def general (pointed : Bool) (count : Nat) (f : Floating) : Text :=
  let count := max 1 count
  let (digits, power) := f.leading (count - 1)
  if -4 ≤ power && power < Int.ofNat count then
    let t := f.fixed pointed (Int.ofNat (count - 1) - power).toNat
    if pointed then t else withoutZeros t
  else
    let t := withPoint pointed (count - 1) digits
    (if pointed then t else withoutZeros t) ++ exponentText 'e' 2 power

/-- The magnitude in hexadecimal digits, all that are needed unless a number of places is given. -/
def hexadecimal (pointed : Bool) (places : Option Nat) (f : Floating) : Text :=
  let (m, e) : Nat × Int := match f with
    | .finite _ m e => (m, if m == 0 then 0 else e + Int.ofNat (double.precision - 1))
    | _ => (0, 0)
  let all := (double.precision - 1) / 4
  let digits := match places with
    | none =>
      let t := withPoint true all (Nat.toDigits 16 m)
      let t := Text.dropEndWhile (· == '0') t
      if pointed then t else Text.dropEndWhile (· == '.') t
    | some places =>
      let (n, d) := scale 16 (Int.ofNat places - Int.ofNat all) m 1
      withPoint pointed places (Nat.toDigits 16 (roundEven n d))
  digits ++ exponentText 'p' 1 e

end Floating

end Shell

end FuzzyFinder
