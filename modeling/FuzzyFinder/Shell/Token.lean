import FuzzyFinder.Shell.Script

/-!
# FuzzyFinder — the tokens of scripts

A script is read as a row of tokens: words, operators, redirections and line ends. Some words are
reserved where a command may begin. A script that cannot be read is faulty in one of a few ways,
each of which has its wording.
-/

namespace FuzzyFinder

namespace Shell

/-- The words that are reserved where a command may begin. -/
inductive Reserved where
  | bang | case | do | done | elif | else | esac | fi | for | if | in | then | until | while
  | openBrace | closeBrace
deriving DecidableEq

namespace Reserved

/-- All reserved words. -/
def all : List Reserved :=
  [.bang, .case, .do, .done, .elif, .else, .esac, .fi, .for, .if, .in, .then, .until, .while,
    .openBrace, .closeBrace]

/-- How it is written. -/
def text : Reserved → String
  | .bang => "!"
  | .case => "case"
  | .do => "do"
  | .done => "done"
  | .elif => "elif"
  | .else => "else"
  | .esac => "esac"
  | .fi => "fi"
  | .for => "for"
  | .if => "if"
  | .in => "in"
  | .then => "then"
  | .until => "until"
  | .while => "while"
  | .openBrace => "\x7b"
  | .closeBrace => "\x7d"

/-- The reserved word that is written like this. -/
def ofText? (t : Text) : Option Reserved := all.find? fun r => r.text.toList == t

/-- It ends a list of commands. -/
def endsList : Reserved → Bool
  | .do | .done | .elif | .else | .esac | .fi | .then | .closeBrace => true
  | _ => false

end Reserved

/-- What a redirection operator asks for; the word behind it says the rest. -/
inductive Redirecting where
  | file (opening : Opening)
  /-- Another descriptor. -/
  | descriptor
  /-- A document behind this line; perhaps tabs in front of its lines are left out. -/
  | document (stripTabs : Bool)

/-- An element of a script. -/
inductive Token where
  /-- The end of the script. -/
  | endOfFile
  /-- The end of a line. -/
  | newline
  /-- The operator `;`. -/
  | semicolon
  /-- The operator `&`. -/
  | ampersand
  /-- The operator `&&`. -/
  | andIf
  /-- The operator `||`. -/
  | orIf
  /-- The operator `|`. -/
  | bar
  /-- An opening parenthesis. -/
  | opening
  /-- A closing parenthesis. -/
  | closing
  /-- The operator `;;`. -/
  | endCase
  /-- A redirection of a descriptor. -/
  | redirection (descriptor : Nat) (kind : Redirecting)
  /-- A word; some part of it may be quoted. -/
  | word (w : Word) (quoted : Bool)
  /-- A reserved word. -/
  | reserved (word : Reserved)

namespace Token

/-- It ends a list of commands. -/
def endsList : Token → Bool
  | .endOfFile | .closing | .endCase => true
  | .reserved r => r.endsList
  | _ => false

/-- What a message calls it. -/
def name : Token → String
  | .endOfFile => "end of file"
  | .newline => "newline"
  | .semicolon => "\";\""
  | .ampersand => "\"&\""
  | .andIf => "\"&&\""
  | .orIf => "\"||\""
  | .bar => "\"|\""
  | .opening => "\"(\""
  | .closing => "\")\""
  | .endCase => "\";;\""
  | .redirection .. => "redirection"
  | .word .. => "word"
  | .reserved r => "\"" ++ r.text ++ "\""

end Token

/-- Why a script cannot be read. -/
inductive SyntaxFault where
  /-- A token where it makes no sense, and the one that would make sense if there is just one. -/
  | unexpected (token : Token) (expected : Option Token)
  /-- A quotation that does not end. -/
  | openQuotation
  /-- A parameter expansion that does not end. -/
  | openBrace
  /-- An arithmetic expression that does not end. -/
  | openArithmetic
  /-- A command between back quotes that does not end. -/
  | openBackQuote
  /-- Something that cannot be the name of a function. -/
  | functionName
  /-- Something that cannot be the variable of a loop. -/
  | loopVariable
  /-- More commands in one another than are read. -/
  | tooDeep

namespace SyntaxFault

/-- The wording of a fault. -/
def message : SyntaxFault → String
  | .unexpected token none => token.name ++ " unexpected"
  | .unexpected token (some expected) =>
    token.name ++ " unexpected (expecting " ++ expected.name ++ ")"
  | .openQuotation => "Unterminated quoted string"
  | .openBrace => "Missing '\x7d'"
  | .openArithmetic => "Missing '))'"
  | .openBackQuote => "EOF in backquote substitution"
  | .functionName => "Bad function name"
  | .loopVariable => "Bad for loop variable"
  | .tooDeep => "too many nested commands"

end SyntaxFault

end Shell

end FuzzyFinder
