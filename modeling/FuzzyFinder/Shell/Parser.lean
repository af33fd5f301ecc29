import FuzzyFinder.Shell.Builtin
import FuzzyFinder.Shell.Lexer

/-!
# FuzzyFinder — the commands of scripts

Reads tokens into commands. A script is read line by line: a line, together with the lines that it
needs to be complete, is read as a whole before any of it runs, so that a fault in it spoils all of
it but nothing in front of it. Reading a command relies on `Inner`, the reading of the commands
inside of it; at the end both are tied together, down to a greatest depth.
-/

namespace FuzzyFinder

namespace Shell

/-- Where a list of commands stands. -/
inductive ListKind where
  /-- On a line of its own, where the end of the line ends it. -/
  | line
  /-- Inside of another command, where it cannot be empty. -/
  | nested
  /-- Inside of a word or a branch, where it can be empty. -/
  | optional
deriving DecidableEq

/-- The reading of commands inside of others. -/
structure Inner where
  /-- Reads a list of commands. -/
  list : ListKind → Read (Option Command)
  /-- Reads one command. -/
  command : Expectation → Read Command

/-- Reads a list of commands in a word. -/
def Inner.body (inner : Inner) : ReadBody := fun closed => do
  let command ← inner.list .optional
  if closed then
    let t ← Lexer.token (fun _ => inner.list .optional) {} Reader.patience
    match t with
    | .closing => pure ()
    | t => throw (.unexpected t (some .closing))
  return command

namespace Parser

open Reader Lexer

/-- Complains about a token. -/
def unexpected {α : Type} (t : Token) (expected : Option Token) : Read α :=
  throw (.unexpected t expected)

/-- The token is the given reserved word. -/
def isReserved (t : Token) (word : Reserved) : Bool :=
  match t with
  | .reserved r => r == word
  | _ => false

/-- The next token. -/
def next (inner : Inner) (e : Expectation) : Read Token := do
  let t ← token inner.body e patience
  match t with
  | .word w _ => modify fun r => { r with lastWord := w }
  | .reserved word => modify fun r => { r with lastWord := word.text.toList.map (.char · false) }
  | _ => pure ()
  return t

/-- Passes over a reserved word, which has to be there. -/
def expect (inner : Inner) (word : Reserved) (e : Expectation) : Read Unit := do
  let t ← next inner e
  unless isReserved t word do unexpected t (some (.reserved word))

/-- Reads a list of commands inside of a command. At the end of the script there may be none, which
what has to follow the list will notice. -/
def block (inner : Inner) : Read Command := do
  return (← inner.list .nested).getD (.simple 0 [] [] [])

/-! ## Redirections -/

/-- Reads what a redirection is to or from. -/
def redirection (inner : Inner) (descriptor : Nat) (kind : Redirecting) : Read Redirection := do
  let marksOnly := match kind with
    | .document _ => true
    | _ => false
  let t ← next inner { marksOnly }
  match t with
  | .word w quoted =>
    match kind with
    | .file opening => return .file descriptor opening w
    | .document stripTabs =>
      return .document descriptor (← wantDocument (Word.characters w) (!quoted) stripTabs)
    | .descriptor =>
      match w with
      | [.char c false] =>
        if c.isDigit then return .duplicate descriptor (some (c.toNat - '0'.toNat))
        if c == '-' then return .duplicate descriptor none
        return .duplicateWord descriptor w
      | w => return .duplicateWord descriptor w
  | t => unexpected t none

/-- Reads redirections as long as there are any. Behind the first one nothing is a reserved word. -/
def redirections (inner : Inner) : (fuel : Nat) → (read : List Redirection) →
    Read (List Redirection)
  | 0, read => return read.reverse
  | fuel + 1, read => do
    match ← next inner (if read.isEmpty then .command else {}) with
    | .redirection descriptor kind =>
      let r ← redirection inner descriptor kind
      redirections inner fuel (r :: read)
    | t =>
      keep t
      return read.reverse

/-! ## Simple commands -/

/-- The parts of a simple command, the last ones first. -/
structure Parts where
  assignments : List Word := []
  words : List Word := []
  redirections : List Redirection := []
  /-- No word but assignments has been read. -/
  atStart : Bool := true

/-- The name of a function that is about to be defined, if it is one. -/
def functionName? (w : Word) : Option Text :=
  (Word.plain? w).filter fun name =>
    Text.isName name && !(Builtin.ofName? name).any Builtin.isSpecial

/-- Reads a simple command or the definition of a function. -/
def simple (inner : Inner) (line : Nat) : (fuel : Nat) → Parts → Read Command
  | 0, p => return .simple line p.assignments.reverse p.words.reverse p.redirections.reverse
  | fuel + 1, p => do
    match ← next inner { expandsAlias := p.atStart } with
    | .word w _ =>
      if p.atStart && (Word.assignee? w).isSome then
        simple inner line fuel { p with assignments := w :: p.assignments }
      else simple inner line fuel { p with words := w :: p.words, atStart := false }
    | .redirection descriptor kind =>
      let r ← redirection inner descriptor kind
      simple inner line fuel { p with redirections := r :: p.redirections }
    | t =>
      match t, p.words, p.assignments.isEmpty && p.redirections.isEmpty with
      | .opening, [name], true =>
        match ← next inner {} with
        | .closing => pure ()
        | t => unexpected t (some .closing)
        match functionName? name with
        | none => throw .functionName
        | some name =>
          let line := (← get).line
          return .define line name (← inner.command .laterCommand)
      | _, _, _ =>
        keep t
        return .simple line p.assignments.reverse p.words.reverse p.redirections.reverse

/-! ## Compound commands -/

/-- Reads what follows the body of a branch of `if`. -/
def otherwise (inner : Inner) : (fuel : Nat) → Read (Option Command)
  | 0 => return none
  | fuel + 1 => do
    match ← next inner {} with
    | .reserved .elif =>
      let condition ← block inner
      expect inner .then {}
      let body ← block inner
      return some (.choice condition body (← otherwise inner fuel))
    | .reserved .else => return some (← block inner)
    | t =>
      keep t
      return none

/-- All arguments, each as a word of its own. -/
def allArguments : Word := [.mark true, .parameter ['@'] .value false true [], .mark false]

/-- Reads words up to another token, and gives that one as well. -/
def words (inner : Inner) : (fuel : Nat) → (read : List Word) → Read (List Word × Token)
  | 0, read => return (read.reverse, .endOfFile)
  | fuel + 1, read => do
    match ← next inner {} with
    | .word w _ => words inner fuel (w :: read)
    | t => return (read.reverse, t)

/-- Reads the words that a loop goes through. -/
def loopWords (inner : Inner) : Read (List Word) := do
  match ← next inner .laterCommand with
  | .reserved .in =>
    let (ws, t) ← words inner patience []
    match t with
    | .newline | .semicolon => return ws
    | t => unexpected t none
  | .semicolon => return [allArguments]
  | t =>
    keep t
    return [allArguments]

/-- Reads a loop over words. -/
def each (inner : Inner) (line : Nat) : Read Command := do
  let name ← match ← next inner {} with
    | .word w false => pure ((Word.plain? w).filter Text.isName)
    | _ => pure none
  match name with
  | none => throw .loopVariable
  | some name =>
    let ws ← loopWords inner
    expect inner .do .laterCommand
    let body ← block inner
    return .each line name ws body

/-- Reads the patterns of a branch behind the first token, up to the parenthesis behind them. A
token that is no word counts as the last word in front of it. -/
def patterns (inner : Inner) : (fuel : Nat) → Read (List Word)
  | 0 => return []
  | fuel + 1 => do
    let pattern := (← get).lastWord
    match ← next inner {} with
    | .bar =>
      let _ ← next inner {}
      return pattern :: (← patterns inner fuel)
    | .closing => return [pattern]
    | t => unexpected t (some .closing)

/-- Reads the branches of a choice by pattern. -/
def branches (inner : Inner) : (fuel : Nat) → Read (List Branch)
  | 0 => return []
  | fuel + 1 => do
    let e : Expectation := { afterLines := true, reserved := true }
    let t ← next inner e
    if isReserved t .esac then return []
    if let .opening := t then
      let _ ← next inner {}
    let ps ← patterns inner patience
    let body ← inner.list .optional
    let t ← next inner e
    match t with
    | .endCase => return .mk ps body :: (← branches inner fuel)
    | t =>
      if isReserved t .esac then return [.mk ps body]
      unexpected t (some .endCase)

/-- Reads a choice by pattern. -/
def select (inner : Inner) (line : Nat) : Read Command := do
  match ← next inner {} with
  | .word subject _ =>
    expect inner .in .laterCommand
    return .select line subject (← branches inner patience)
  | t => unexpected t (some (.word [] false))

/-- Reads redirections behind a compound command. -/
def withRedirections (inner : Inner) (line : Nat) (c : Command) : Read Command := do
  match ← redirections inner patience [] with
  | [] => return c
  | rs =>
    match c with
    | .subshell line inBackground body _ => return .subshell line inBackground body rs
    | c => return .redirected line c rs

/-- Reads a command. -/
def command (inner : Inner) (e : Expectation) : Read Command := do
  let line := (← get).line
  let t ← next inner e
  let ended (c : Command) (word : Reserved) : Read Command := do
    expect inner word {}
    withRedirections inner line c
  match t with
  | .reserved .if =>
    let condition ← block inner
    expect inner .then {}
    let body ← block inner
    let rest ← otherwise inner patience
    ended (.choice condition body rest) .fi
  | .reserved .while | .reserved .until =>
    let condition ← block inner
    expect inner .do {}
    let body ← block inner
    ended (.loop (isReserved t .until) condition body) .done
  | .reserved .for => ended (← each inner line) .done
  | .reserved .case => withRedirections inner line (← select inner line)
  | .opening =>
    let body ← block inner
    match ← next inner {} with
    | .closing => withRedirections inner line (.subshell line false body [])
    | t => unexpected t (some .closing)
  | .reserved .openBrace => ended (← block inner) .closeBrace
  | .word .. | .redirection .. =>
    keep t
    let line := (← get).line
    simple inner line patience {}
  | t => unexpected t none

/-! ## Lists -/

/-- Reads the further stages of a pipeline. -/
def stages (inner : Inner) : (fuel : Nat) → (read : List Command) → Read (List Command)
  | 0, read => return read.reverse
  | fuel + 1, read => do
    match ← next inner {} with
    | .bar =>
      let c ← command inner .laterCommand
      stages inner fuel (c :: read)
    | t =>
      keep t
      return read.reverse

/-- Reads a pipeline. -/
def pipeline (inner : Inner) (e : Expectation) : Read Command := do
  let t ← next inner e
  let negated := isReserved t .bang
  unless negated do keep t
  let first ← command inner (if negated then .command else {})
  let c ← match ← stages inner patience [first] with
    | [c] => pure c
    | cs => pure (.pipeline false cs)
  return if negated then .negation c else c

/-- Reads what follows a pipeline in a chain. -/
def chain (inner : Inner) : (fuel : Nat) → Command → Read Command
  | 0, c => return c
  | fuel + 1, c => do
    match ← next inner {} with
    | .andIf =>
      let d ← pipeline inner .laterCommand
      chain inner fuel (.conjunction c d)
    | .orIf =>
      let d ← pipeline inner .laterCommand
      chain inner fuel (.disjunction c d)
    | t =>
      keep t
      return c

/-- A command that is not waited for. -/
def inBackground (line : Nat) : Command → Command
  | .pipeline _ stages => .pipeline true stages
  | .redirected line body rs => .subshell line true body rs
  | c => .subshell line true c []

/-- A command behind others. -/
def append (before : Option Command) (c : Command) : Command :=
  match before with
  | none => c
  | some before => .sequence before c

/-- Reads the rest of a list behind the commands `before`. -/
def list (inner : Inner) (kind : ListKind) :
    (fuel : Nat) → (mayEnd : Bool) → (before : Option Command) → Read (Option Command)
  | 0, _, before => return before
  | fuel + 1, mayEnd, before => do
    let t ← next inner { Expectation.command with afterLines := kind != .line }
    match t with
    | .newline =>
      readDocuments inner.body
      return before
    | .endOfFile =>
      readDocuments inner.body
      keep .endOfFile
      return before
    | t =>
      keep t
      if mayEnd && kind != .line && t.endsList then return before
      let c ← chain inner patience (← pipeline inner {})
      let line := (← get).line
      let t ← next inner {}
      let c := match t with
        | .ampersand => inBackground line c
        | _ => c
      let before := some (append before c)
      match t with
      | .endOfFile =>
        readDocuments inner.body
        keep .endOfFile
        return before
      | .newline =>
        keep .newline
        list inner kind fuel true before
      | .ampersand | .semicolon => list inner kind fuel true before
      | t =>
        if kind == .line then unexpected t none
        keep t
        return before

end Parser

/-! ## Whole scripts -/

mutual

/-- Reads a list of commands, with at most `depth` commands in one another. -/
def readList : (depth : Nat) → ListKind → Read (Option Command)
  | 0, _ => throw .tooDeep
  | depth + 1, kind =>
    let inner : Inner := { list := readList depth, command := readCommand depth }
    Parser.list inner kind Reader.patience (kind == .optional) none

/-- Reads one command, with at most `depth` commands in one another. -/
def readCommand : (depth : Nat) → Expectation → Read Command
  | 0, _ => throw .tooDeep
  | depth + 1, e => Parser.command { list := readList depth, command := readCommand depth } e

end

/-- The depth to which commands are read. -/
def maxDepth : Nat := 5000

/-- Reads a text as if it stood between double quotes. -/
def readQuoted (t : Text) : Option Word :=
  let inner : Inner := { list := readList maxDepth, command := readCommand maxDepth }
  let document : Wanted := { index := 0, closing := ['\x00'], expands := true, stripTabs := false }
  match Lexer.readDocument inner.body document ({ text := t, documents := #[[]] } : Reader) with
  | .ok () r => r.documents[0]?
  | .error _ _ => none

/-- What a line of a script amounts to. -/
inductive Line where
  /-- The script is over. -/
  | over
  /-- There is nothing on the line. -/
  | empty
  | command (c : Command)

/-- Reads the next line of a script, together with the lines that it needs. -/
def readLine : Read Line := do
  modify fun r => { r with kept := none, aliasNext := false, wanted := [] }
  match ← readList maxDepth .line with
  | some c => return .command c
  | none =>
    match (← get).kept with
    | some .endOfFile => return .over
    | _ => return .empty

end Shell

end FuzzyFinder
