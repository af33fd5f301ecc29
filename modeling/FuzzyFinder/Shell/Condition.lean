import FuzzyFinder.Shell.Redirection

/-!
# FuzzyFinder — conditions

Evaluates conditions on texts, numbers and files. Up to four arguments are made out by their number
first, so that even an operator may stand as an operand; beyond that, `-o` binds loosest, then `-a`,
then `!`.
-/

namespace FuzzyFinder

namespace Shell

/-- A condition with one operand. -/
inductive UnaryTest where
  | readable | writable | executable | exists | regular | directory | character | block | channel
  | setUser | setGroup | sticky | nonempty | terminal | emptyText | nonemptyText | link | socket
  | owned | ownedByGroup
deriving DecidableEq

/-- A condition with two operands. -/
inductive BinaryTest where
  | same | different | before | behind | equal | notEqual | greater | greaterEqual | less
  | lessEqual | newer | older | sameFile
deriving DecidableEq

/-- An argument as an element of a condition. -/
inductive ConditionToken where
  | unary (test : UnaryTest)
  | binary (test : BinaryTest)
  | not | and | or | opening | closing | operand
  /-- There is no more argument. -/
  | over
deriving DecidableEq

/-- Why a condition makes no sense. -/
inductive ConditionFault where
  /-- There is no closing bracket. -/
  | openBracket
  /-- There is no closing parenthesis. -/
  | openParenthesis
  /-- An argument that does not belong there. -/
  | unexpected (argument : Text)
  /-- There is no operand for an operator. -/
  | missingOperand (op : Text)
  /-- An operand that should be a number. -/
  | illegalNumber (operand : Text)

/-- The wording of a fault. -/
def ConditionFault.message : ConditionFault → Text
  | .openBracket => Text.ofString "missing ]"
  | .openParenthesis => Text.ofString "closing paren expected"
  | .unexpected argument =>
    if argument.isEmpty then Text.ofString "unexpected operator"
    else argument ++ Text.ofString ": unexpected operator"
  | .missingOperand op => op ++ Text.ofString ": argument expected"
  | .illegalNumber operand => Text.ofString "Illegal number: " ++ operand

namespace Condition

/-! ## Files -/

/-- What sits at the end of a path. -/
inductive Found where
  /-- A node with its place. -/
  | node (place : Place) (n : Node)
  /-- The end of a channel. -/
  | channel
  | device

/-- Follows a path, also that of a descriptor. -/
def find (s : State) (path : Text) : Option Found :=
  let lookUp (directory : Place) (path : Text) : Option Found :=
    match s.find? directory path with
    | .ok (place, n) => some (.node place n)
    | .error _ => none
  match System.descriptorAt? path with
  | none => lookUp s.directory path
  | some n =>
    match s.handle? n with
    | none => none
    | some (.device ..) => some .device
    | some (.file index) =>
      (s.openFiles[index]?).bind fun f => lookUp [] (System.pathOf f.place)
    | some (.directory place) => lookUp [] (System.pathOf place)
    | some (.source _) | some (.sink _) => some .channel

/-- There is a symbolic link at the end of a path. -/
def isLink (s : State) (path : Text) : Bool :=
  match s.newPlace? s.directory path with
  | .ok place => (s.tree.node? place).any fun
    | .link _ => true
    | _ => false
  | .error _ => false

def isProgramPlace (place : Place) : Bool :=
  place.dropLast == [Bytes.ofString "usr", Bytes.ofString "bin"]

/-- A file has a property. -/
def holdsOf (s : State) (test : UnaryTest) (found : Found) : Bool :=
  match test, found with
  | .exists, _ | .readable, _ | .writable, _ | .owned, _ | .ownedByGroup, _ => true
  | .channel, .channel => true
  | .character, .device | .character, .node _ .device => true
  | .directory, .node _ .directory | .executable, .node _ .directory => true
  | .nonempty, .node _ .directory => true
  | .sticky, .node place .directory => System.pathOf place == "/tmp".toList
  | .regular, .node _ (.file _) => true
  | .nonempty, .node place (.file _) => s.lengthAt place != 0 || isProgramPlace place
  | .executable, .node place (.file _) => isProgramPlace place
  | _, _ => false

/-! ## Operators -/

/-- The condition with one operand that an operator stands for. -/
def unary? (op : Text) : Option UnaryTest :=
  match String.ofList op with
  | "-r" => some .readable
  | "-w" => some .writable
  | "-x" => some .executable
  | "-e" => some .exists
  | "-f" => some .regular
  | "-d" => some .directory
  | "-c" => some .character
  | "-b" => some .block
  | "-p" => some .channel
  | "-u" => some .setUser
  | "-g" => some .setGroup
  | "-k" => some .sticky
  | "-s" => some .nonempty
  | "-t" => some .terminal
  | "-z" => some .emptyText
  | "-n" => some .nonemptyText
  | "-h" | "-L" => some .link
  | "-O" => some .owned
  | "-G" => some .ownedByGroup
  | "-S" => some .socket
  | _ => none

/-- The condition with two operands that an operator stands for. -/
def binary? (op : Text) : Option BinaryTest :=
  match String.ofList op with
  | "=" => some .same
  | "!=" => some .different
  | "<" => some .before
  | ">" => some .behind
  | "-eq" => some .equal
  | "-ne" => some .notEqual
  | "-gt" => some .greater
  | "-ge" => some .greaterEqual
  | "-lt" => some .less
  | "-le" => some .lessEqual
  | "-nt" => some .newer
  | "-ot" => some .older
  | "-ef" => some .sameFile
  | _ => none

/-- The operator that an argument is by itself. -/
def operator? (t : Text) : Option ConditionToken :=
  match t with
  | ['!'] => some .not
  | ['-', 'a'] => some .and
  | ['-', 'o'] => some .or
  | ['('] => some .opening
  | [')'] => some .closing
  | t => ((unary? t).map .unary).or ((binary? t).map .binary)

/-- The first argument as an element of a condition. An operator with one operand is an operand
itself where none follows it, or where an operator with two operands and one of these follow it. -/
def token : List Text → ConditionToken
  | [] => .over
  | t :: rest =>
    match operator? t with
    | none => .operand
    | some (.unary test) =>
      match rest with
      | [] => .operand
      | [_] => .unary test
      | next :: _ => if (binary? next).isSome then .operand else .unary test
    | some .opening => if rest.isEmpty then .operand else .opening
    | some op => op

/-! ## Evaluation -/

/-- An operand as a number. -/
def number (t : Text) : Except ConditionFault Int :=
  match Text.toInt? t with
  | some n => .ok n
  | none => .error (.illegalNumber t)

/-- A condition with one operand. -/
def evaluateUnary (s : State) (test : UnaryTest) (a : Text) : Except ConditionFault Bool :=
  match test with
  | .emptyText => .ok a.isEmpty
  | .nonemptyText => .ok !a.isEmpty
  | .terminal => (number a).map fun _ => false
  | .link => .ok (isLink s a)
  | test => .ok ((find s a).any (holdsOf s test))

/-- A condition with two operands. -/
def evaluateBinary (s : State) (test : BinaryTest) (a b : Text) : Except ConditionFault Bool :=
  let order := compare (Text.toBytes a) (Text.toBytes b)
  let numbers (holds : Int → Int → Bool) : Except ConditionFault Bool := do
    return holds (← number a) (← number b)
  match test with
  | .same => .ok (a == b)
  | .different => .ok (a != b)
  | .before => .ok (order == .lt)
  | .behind => .ok (order == .gt)
  | .equal => numbers fun m n => m == n
  | .notEqual => numbers fun m n => m != n
  | .greater => numbers fun m n => n < m
  | .greaterEqual => numbers fun m n => n ≤ m
  | .less => numbers fun m n => m < n
  | .lessEqual => numbers fun m n => m ≤ n
  | .newer | .older => .ok false
  | .sameFile =>
    match find s a, find s b with
    | some (.node p _), some (.node q _) => .ok (p == q)
    | _, _ => .ok false

/-- The value of a part of a condition, with the arguments from the last one of that part on. -/
abbrev Progress := Bool × List Text

mutual

/-- A condition without `-o`, `-a` and `!`. Its first argument is taken as the token `t`. -/
def primary (s : State) : (fuel : Nat) → (t : ConditionToken) → List Text →
    Except ConditionFault Progress
  | 0, _, arguments => .ok (false, arguments)
  | fuel + 1, t, arguments =>
    match t, arguments with
    | .over, _ | _, [] => .ok (false, arguments)
    | .opening, _ :: rest =>
      match token rest with
      | .closing => .ok (false, rest)
      | next => do
        let (value, rest) ← disjunction s fuel next rest
        match token rest.tail with
        | .closing => return (value, rest.tail)
        | _ => .error .openParenthesis
    | .unary test, op :: rest =>
      match rest with
      | [] => .error (.missingOperand op)
      | a :: _ => do return (← evaluateUnary s test a, rest)
    | _, a :: rest =>
      match token rest, rest with
      | .binary test, op :: rest =>
        match rest with
        | [] => .error (.missingOperand op)
        | b :: _ => do return (← evaluateBinary s test a b, rest)
      | _, _ => .ok (!a.isEmpty, arguments)

/-- A condition that `!` may stand in front of. -/
def negation (s : State) : (fuel : Nat) → (t : ConditionToken) → List Text →
    Except ConditionFault Progress
  | 0, _, arguments => .ok (false, arguments)
  | fuel + 1, t, arguments =>
    match t with
    | .not => do
      let next := token arguments.tail
      let rest := if next == .over then arguments else arguments.tail
      let (value, rest) ← negation s fuel next rest
      return (!value, rest)
    | t => primary s fuel t arguments

/-- Conditions with `-a` between them. All of them are evaluated. -/
def conjunction (s : State) : (fuel : Nat) → (t : ConditionToken) → List Text →
    Except ConditionFault Progress
  | 0, _, arguments => .ok (false, arguments)
  | fuel + 1, t, arguments => do
    let (value, rest) ← negation s fuel t arguments
    if token rest.tail == .and then
      let rest := rest.drop 2
      let (more, rest) ← conjunction s fuel (token rest) rest
      return (value && more, rest)
    else return (value, rest)

/-- Conditions with `-o` between them. All of them are evaluated. -/
def disjunction (s : State) : (fuel : Nat) → (t : ConditionToken) → List Text →
    Except ConditionFault Progress
  | 0, _, arguments => .ok (false, arguments)
  | fuel + 1, t, arguments => do
    let (value, rest) ← conjunction s fuel t arguments
    if token rest.tail == .or then
      let rest := rest.drop 2
      let (more, rest) ← disjunction s fuel (token rest) rest
      return (value || more, rest)
    else return (value, rest)

end

/-- Evaluates all arguments as one condition, the first one being taken as the token `t`. -/
def evaluateAs (s : State) (t : ConditionToken) (arguments : List Text) :
    Except ConditionFault Bool := do
  let (value, rest) ← disjunction s (8 * arguments.length + 8) t arguments
  match rest with
  | a :: _ :: _ => .error (.unexpected a)
  | _ => return value

/-- Evaluates a condition. Three arguments with an operator in the middle are a comparison; three or
four may stand in parentheses, or be the negation of those behind `!`, for which one more `!` counts
only once. -/
def evaluateFrom (s : State) (negated : Bool) : (fuel : Nat) → List Text →
    Except ConditionFault Bool
  | 0, _ => .ok false
  | fuel + 1, arguments =>
    let whole (t : ConditionToken) (arguments : List Text) : Except ConditionFault Bool := do
      return (← evaluateAs s t arguments) != negated
    let compares := match arguments with
      | [_, op, _] => (binary? op).isSome
      | _ => false
    if compares then whole .operand arguments
    else if arguments.length == 3 || arguments.length == 4 then
      if arguments.head? == some ['('] && arguments.getLast? == some [')'] then
        let inner := arguments.tail.dropLast
        whole (token inner) inner
      else if arguments.head? == some ['!'] then
        evaluateFrom s true fuel arguments.tail
      else whole (token arguments) arguments
    else whole (token arguments) arguments

/-- Evaluates the arguments of a condition; between brackets, the last argument has to open with
one. -/
def evaluate (s : State) (bracketed : Bool) (arguments : List Text) :
    Except ConditionFault Bool :=
  if bracketed && (arguments.getLast?.bind List.head?) != some ']' then .error .openBracket
  else
    let arguments := if bracketed then arguments.dropLast else arguments
    if arguments.isEmpty then .ok false
    else evaluateFrom s false (arguments.length + 1) arguments

end Condition

end Shell

end FuzzyFinder
