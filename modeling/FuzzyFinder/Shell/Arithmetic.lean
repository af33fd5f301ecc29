import FuzzyFinder.Shell.Text

/-!
# FuzzyFinder — arithmetic of scripts

Arithmetic expressions of a script work on whole numbers of 64 bits with a sign: what does not fit
wraps round, but a constant that does not fit is the nearest number that does. Names stand for
variables, whose values have to be numbers; an assignment changes them. A quotient goes toward zero.
Of `&&`, `||` and `?:` only those operands that are needed are evaluated, and the others are merely
read. An assignment can stand at the beginning of an expression, behind an opening parenthesis and
behind a question mark, but not as an operand.
-/

namespace FuzzyFinder

namespace Shell

/-- Why an expression has no value. -/
inductive ArithmeticFault where
  /-- An operand is missing. -/
  | expectingPrimary
  /-- Something is left over at the end. -/
  | expectingEnd
  /-- A parenthesis is missing. -/
  | expectingParenthesis
  /-- The colon of a choice is missing. -/
  | expectingColon
  | divisionByZero
  /-- The quotient in a division is greater than any number. -/
  | quotientTooLarge
  /-- The value of a variable is no number. -/
  | illegalNumber (value : Text)
  /-- The value of a variable must not change. -/
  | readOnly (name : Text)

inductive BinaryOperator where
  | or | and | bitOr | bitXor | bitAnd | equal | notEqual | less | greater | lessEqual
  | greaterEqual | shiftLeft | shiftRight | add | subtract | multiply | divide | remainder
deriving DecidableEq

namespace BinaryOperator

/-- How tightly an operator binds; `&&` and `||` are the loosest. -/
def tightness : BinaryOperator → Nat
  | .or => 1
  | .and => 2
  | .bitOr => 3
  | .bitXor => 4
  | .bitAnd => 5
  | .equal | .notEqual => 6
  | .less | .greater | .lessEqual | .greaterEqual => 7
  | .shiftLeft | .shiftRight => 8
  | .add | .subtract => 9
  | .multiply | .divide | .remainder => 10

/-- How many numbers 64 bits have. -/
def wordSize : Nat := 0x10000000000000000

/-- Brings a number into the range of 64 bits with a sign. -/
def wrap (n : Int) : Int := Int.bmod n wordSize

/-- A number as 64 bits. -/
def bits (n : Int) : Nat := (n % Int.ofNat wordSize).toNat

/-- A truth value as a number. -/
def ofBool (b : Bool) : Int := if b then 1 else 0

/-- The factor that a shift stands for; shifts count modulo 64. -/
def shiftFactor (n : Int) : Int := Int.ofNat (Nat.pow 2 (n % 64).toNat)

/-- The least number. -/
def least : Int := -0x8000000000000000

/-- A division can be carried out: the least number has no quotient by -1. -/
def checkDivision (a b : Int) : Except ArithmeticFault Unit :=
  if b == 0 then .error .divisionByZero
  else if a == least && b == -1 then .error .quotientTooLarge
  else .ok ()

/-- Applies an operator. -/
def apply (op : BinaryOperator) (a b : Int) : Except ArithmeticFault Int :=
  match op with
  | .or => .ok (ofBool (a != 0 || b != 0))
  | .and => .ok (ofBool (a != 0 && b != 0))
  | .bitOr => .ok (wrap (Int.ofNat (bits a ||| bits b)))
  | .bitXor => .ok (wrap (Int.ofNat (bits a ^^^ bits b)))
  | .bitAnd => .ok (wrap (Int.ofNat (bits a &&& bits b)))
  | .equal => .ok (ofBool (a == b))
  | .notEqual => .ok (ofBool (a != b))
  | .less => .ok (ofBool (a < b))
  | .greater => .ok (ofBool (b < a))
  | .lessEqual => .ok (ofBool (a ≤ b))
  | .greaterEqual => .ok (ofBool (b ≤ a))
  | .shiftLeft => .ok (wrap (a * shiftFactor b))
  | .shiftRight => .ok (Int.fdiv a (shiftFactor b))
  | .add => .ok (wrap (a + b))
  | .subtract => .ok (wrap (a - b))
  | .multiply => .ok (wrap (a * b))
  | .divide => (checkDivision a b).map fun () => Int.tdiv a b
  | .remainder => (checkDivision a b).map fun () => Int.tmod a b

end BinaryOperator

/-- An element of an expression. -/
inductive ArithmeticToken where
  | number (n : Int)
  | name (name : Text)
  | binary (op : BinaryOperator)
  /-- An assignment, perhaps one that also applies an operator. -/
  | assign (op : Option BinaryOperator)
  | question | colon | opening | closing | not | complement
  /-- Something that no expression has. -/
  | other
deriving DecidableEq

namespace Arithmetic

open BinaryOperator

/-! ## Reading tokens -/

/-- The operators, longer ones before those they begin with. -/
def operators : List (String × ArithmeticToken) :=
  [("<<=", .assign (some .shiftLeft)), (">>=", .assign (some .shiftRight)),
    ("||", .binary .or), ("&&", .binary .and), ("==", .binary .equal), ("!=", .binary .notEqual),
    ("<=", .binary .lessEqual), (">=", .binary .greaterEqual), ("<<", .binary .shiftLeft),
    (">>", .binary .shiftRight), ("+=", .assign (some .add)), ("-=", .assign (some .subtract)),
    ("*=", .assign (some .multiply)), ("/=", .assign (some .divide)),
    ("%=", .assign (some .remainder)), ("&=", .assign (some .bitAnd)),
    ("^=", .assign (some .bitXor)), ("|=", .assign (some .bitOr)), ("=", .assign none),
    ("|", .binary .bitOr), ("^", .binary .bitXor), ("&", .binary .bitAnd), ("<", .binary .less),
    (">", .binary .greater), ("+", .binary .add), ("-", .binary .subtract),
    ("*", .binary .multiply), ("/", .binary .divide), ("%", .binary .remainder), ("?", .question),
    (":", .colon), ("(", .opening), (")", .closing), ("!", .not), ("~", .complement)]

/-- The operator that a text opens with, and what is behind it. -/
def operator? (t : Text) : Option (ArithmeticToken × Text) :=
  operators.findSome? fun (op, token) =>
    if op.toList.isPrefixOf t then some (token, t.drop op.length) else none

/-- The token that a text without blanks in front opens with, and what is behind it. -/
def firstToken (c : Char) (t : Text) : ArithmeticToken × Text :=
  if c.isDigit then
    let n := Text.numeral 0 (c :: t)
    (.number n.value, n.rest)
  else if Text.opensName c then
    (.name ((c :: t).takeWhile Text.continuesName), (c :: t).dropWhile Text.continuesName)
  else (operator? (c :: t)).getD (.other, t)

/-- The tokens of a text. -/
def tokens : (fuel : Nat) → Text → List ArithmeticToken
  | 0, _ => []
  | _, [] => []
  | fuel + 1, c :: rest =>
    if c == ' ' || c == '\t' || c == '\n' then tokens fuel rest
    else
      let (token, rest) := firstToken c rest
      token :: tokens fuel rest

/-! ## Evaluation -/

/-- What an expression can do to variables. -/
structure Variables (σ : Type) where
  /-- The number in a variable. -/
  get : σ → Text → Except ArithmeticFault Int
  /-- Puts a number into a variable. -/
  set : σ → Text → Int → Except ArithmeticFault σ

/-- What evaluating a part of an expression leaves: its value, the variables, and the tokens behind
it. -/
abbrev Progress (σ : Type) := Int × σ × List ArithmeticToken

mutual

/-- An operand. With `skip` nothing is looked up and nothing is assigned. -/
def operand {σ : Type} (vars : Variables σ) (skip : Bool) :
    (fuel : Nat) → σ → List ArithmeticToken →
      Except ArithmeticFault (Progress σ)
  | 0, _, _ => .error .expectingPrimary
  | fuel + 1, s, ts =>
    match ts with
    | .number n :: ts => .ok (n, s, ts)
    | .name name :: ts => if skip then .ok (0, s, ts) else (vars.get s name).map (·, s, ts)
    | .opening :: ts =>
      match assignment vars skip fuel s ts with
      | .ok (n, s, .closing :: ts) => .ok (n, s, ts)
      | .ok _ => .error .expectingParenthesis
      | .error e => .error e
    | .not :: ts => (operand vars skip fuel s ts).map fun (n, rest) => (ofBool (n == 0), rest)
    | .complement :: ts => (operand vars skip fuel s ts).map fun (n, rest) => (-n - 1, rest)
    | .binary .add :: ts => operand vars skip fuel s ts
    | .binary .subtract :: ts =>
      (operand vars skip fuel s ts).map fun (n, rest) => (wrap (-n), rest)
    | _ => .error .expectingPrimary

/-- The operators that bind at least as tightly as `least`, with the operands behind them, where `a`
is the operand in front of them. -/
def operations {σ : Type} (vars : Variables σ) (skip : Bool) (least : Nat) :
    (fuel : Nat) → (a : Int) → σ → List ArithmeticToken →
      Except ArithmeticFault (Progress σ)
  | 0, _, _, _ => .error .expectingPrimary
  | fuel + 1, a, s, ts =>
    match ts with
    | .binary op :: rest =>
      if op.tightness < least then .ok (a, s, ts)
      else do
        let skipSecond := skip || (op == .and && a == 0) || (op == .or && a != 0)
        let (b, s, rest) ← operand vars skipSecond fuel s rest
        let (b, s, rest) ← operations vars skipSecond (op.tightness + 1) fuel b s rest
        let value ← if skip then .ok 0 else op.apply a b
        operations vars skip least fuel value s rest
    | ts => .ok (a, s, ts)

/-- An expression without an assignment in front. -/
def conditional {σ : Type} (vars : Variables σ) (skip : Bool) :
    (fuel : Nat) → σ → List ArithmeticToken →
      Except ArithmeticFault (Progress σ)
  | 0, _, _ => .error .expectingPrimary
  | fuel + 1, s, ts => do
    let (a, s, ts) ← operand vars skip fuel s ts
    let (a, s, ts) ← operations vars skip 1 fuel a s ts
    match ts with
    | .question :: ts =>
      let (b, s, ts) ← assignment vars (skip || a == 0) fuel s ts
      match ts with
      | .colon :: ts =>
        let (c, s, ts) ← conditional vars (skip || a != 0) fuel s ts
        return (if a != 0 then b else c, s, ts)
      | _ => .error .expectingColon
    | ts => return (a, s, ts)

/-- An expression, perhaps with assignments in front. -/
def assignment {σ : Type} (vars : Variables σ) (skip : Bool) :
    (fuel : Nat) → σ → List ArithmeticToken →
      Except ArithmeticFault (Progress σ)
  | 0, _, _ => .error .expectingPrimary
  | fuel + 1, s, ts =>
    match ts with
    | .name name :: .assign op :: ts => do
      let (n, s, ts) ← assignment vars skip fuel s ts
      if skip then return (n, s, ts)
      let n ← match op with
        | none => .ok n
        | some op =>
          match vars.get s name with
          | .ok old => op.apply old n
          | .error e => .error e
      return (n, ← vars.set s name n, ts)
    | ts => conditional vars skip fuel s ts

end

/-- Evaluates a text as an expression. -/
def evaluate {σ : Type} (vars : Variables σ) (s : σ) (t : Text) :
    Except ArithmeticFault (Int × σ) := do
  let ts := tokens t.length t
  let (n, s, ts) ← assignment vars false (8 * ts.length + 8) s ts
  if ts.isEmpty then return (n, s) else .error .expectingEnd

end Arithmetic

end Shell

end FuzzyFinder
