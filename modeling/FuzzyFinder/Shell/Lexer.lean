import FuzzyFinder.Shell.Reader

/-!
# FuzzyFinder — the words of scripts

Reads tokens off a script. A word is read character by character; what a character means depends on
the quotation it is in and on the expansions that are open around it. What stands between `$(` and
`)` is a list of commands, for which reading a word relies on `body`, the reading of such a list.
The content of a document is read like one long quotation that ends with a certain line.
-/

namespace FuzzyFinder

namespace Shell

/-- The reading of a list of commands in a word; a list that is `closed` has to end at a closing
parenthesis, which is passed over. -/
abbrev ReadBody := (closed : Bool) → Read (Option Command)

/-- How the characters of a word are taken. -/
inductive Quoting where
  /-- Outside of quotes. -/
  | plain
  /-- Between double quotes. -/
  | double
  /-- Between single quotes. -/
  | single
  /-- In an arithmetic expression. -/
  | arithmetic
deriving DecidableEq

/-- The quotation that a word is in. An expansion that sets its own quotation opens a new one above
that of the text around it. -/
structure Quotation where
  quoting : Quoting
  /-- An expansion here stands between double quotes. -/
  expandsQuoted : Bool
  /-- Double quotes have been opened inside of braces. -/
  inner : Bool := false
  /-- How many braces are open. -/
  braces : Nat := 0
  /-- How many of them were opened between double quotes. -/
  quotedBraces : Nat := 0
  /-- How many parentheses of an arithmetic expression are open. -/
  parentheses : Nat := 0
  /-- A brace opened this quotation, and closing that brace ends it. -/
  ofBrace : Bool := false

/-- An expansion that has not come to its end. -/
inductive Unfinished where
  /-- A parameter between braces. -/
  | parameter (name : Text) (use : Use) (orEmpty quoted : Bool)
  /-- An arithmetic expression. -/
  | arithmetic (quoted : Bool)

/-- An unfinished expansion with the word around it. -/
structure Frame where
  kind : Unfinished
  /-- The pieces in front of it, the last one first. -/
  before : Word
  /-- A quotation has been opened in front of it. -/
  marked : Bool

/-- A word under way. -/
structure Building where
  /-- The pieces of the innermost expansion, the last one first. -/
  pieces : Word := []
  /-- A quotation has been opened among these pieces. -/
  marked : Bool := false
  /-- The unfinished expansions, the innermost one first. -/
  frames : List Frame := []
  /-- The current quotation. -/
  quotation : Quotation
  /-- The quotations around it, the innermost one first. -/
  around : List Quotation := []
  /-- Something is quoted. -/
  quoted : Bool := false
  /-- The document that this is the content of, if it is one. -/
  document : Option Wanted := none

namespace Building

/-- A word from its beginning. -/
def start (quoting : Quoting) (document : Option Wanted) : Building :=
  { quotation := { quoting, expandsQuoted := quoting == .double }, document }

/-- Adds a piece. -/
def add (b : Building) (p : Piece) : Building := { b with pieces := p :: b.pieces }

/-- Adds a character as it is taken here. -/
def addChar (b : Building) (c : Char) : Building :=
  b.add (.char c (b.quotation.quoting != .plain))

/-- Adds a character that is quoted. -/
def addQuoted (b : Building) (c : Char) : Building := b.add (.char c true)

/-- Marks that a quotation begins or ends; quotes of a document are no quotations. -/
def addMark (b : Building) : Building :=
  if b.document.isSome then b
  else { b with pieces := .mark (!b.marked) :: b.pieces, marked := !b.marked }

/-- Changes the current quotation. -/
def update (b : Building) (f : Quotation → Quotation) : Building :=
  { b with quotation := f b.quotation }

/-- Opens a new quotation. -/
def push (b : Building) (q : Quotation) : Building :=
  { b with quotation := q, around := b.quotation :: b.around }

/-- Goes back to the quotation around the current one. -/
def pop (b : Building) : Building :=
  match b.around with
  | [] => b
  | q :: around => { b with quotation := q, around }

/-- Opens an expansion. -/
def openFrame (b : Building) (kind : Unfinished) : Building :=
  { b with
    pieces := []
    marked := false
    frames := { kind, before := b.pieces, marked := b.marked } :: b.frames }

/-- Ends the innermost expansion. -/
def closeFrame (b : Building) : Building :=
  match b.frames with
  | [] => b
  | f :: frames =>
    let word := b.pieces.reverse
    let piece : Piece := match f.kind with
      | .parameter name use orEmpty quoted => .parameter name use orEmpty quoted word
      | .arithmetic quoted => .arithmetic word quoted
    { b with pieces := piece :: f.before, marked := f.marked, frames }

/-- Turns round whether double quotes are open inside of braces. -/
def toggleInner (b : Building) : Building :=
  if b.quotation.braces == 0 then b else b.update fun q => { q with inner := !q.inner }

/-- A single quote outside of quotes. -/
def openSingle (b : Building) : Building :=
  (b.update fun q => { q with quoting := .single }).addMark

/-- A double quote outside of quotes. -/
def openDouble (b : Building) : Building :=
  (b.update fun q => { q with quoting := .double, expandsQuoted := true }).toggleInner.addMark

/-- A quote that may end a quotation. Between double quotes that were open before a brace was, it
only changes how a closing brace is taken. -/
def closeQuote (b : Building) (c : Char) : Building :=
  if b.document.isSome && b.quotation.braces == 0 then b.addChar c
  else
    let b := if b.quotation.quotedBraces == 0 then
        b.update fun q => { q with quoting := .plain, expandsQuoted := false }
      else b
    let b := { b with quoted := true }
    (if c == '\x22' then b.toggleInner else b).addMark

/-- A closing brace, which ends an expansion unless it is quoted. -/
def closeBrace (b : Building) : Building :=
  if b.quotation.inner || b.quotation.braces == 0 then b.addChar '\x7d'
  else
    let b := b.closeFrame
    let braces := b.quotation.braces - 1
    if braces == 0 && b.quotation.ofBrace then b.pop
    else b.update fun q => { q with braces, quotedBraces := q.quotedBraces - 1 }

/-- A backslash with the character behind it, if there is one. -/
def escape (b : Building) : Option Char → Building
  | none => b.addQuoted '\\'
  | some c =>
    let q := b.quotation
    let special := c == '\\' || c == '\x60' || c == '$' ||
      (c == '\x22' && !(b.document.isSome && q.braces == 0)) || (c == '\x7d' && q.braces != 0)
    let b := if q.expandsQuoted && !special then b.addQuoted '\\' else b
    { b.addQuoted c with quoted := true }

/-- Opens a braced expansion of a parameter. A pattern has a quotation of its own. -/
def openParameter (b : Building) (name : Text) (use : Use) (orEmpty : Bool) : Building :=
  let quoting := match use with
    | .trim _ => .plain
    | _ => if b.quotation.quoting == .arithmetic then .double else b.quotation.quoting
  let b' := b.openFrame (.parameter name use orEmpty b.quotation.expandsQuoted)
  let b' := if quoting != b.quotation.quoting || b.quotation.inner then
      b'.push { quoting, expandsQuoted := quoting != .plain, ofBrace := true }
    else b'
  b'.update fun q => { q with
    braces := q.braces + 1
    quotedBraces := if q.expandsQuoted then q.quotedBraces + 1 else q.quotedBraces }

/-- Opens an arithmetic expression. -/
def openArithmetic (b : Building) : Building :=
  (b.openFrame (.arithmetic b.quotation.expandsQuoted)).push
    { quoting := .arithmetic, expandsQuoted := true }

/-- The word has come to an end; it is faulty if something is still open. -/
def finish (b : Building) : Read Word := do
  if b.quotation.quoting == .arithmetic then throw .openArithmetic
  if b.quotation.quoting != .plain && b.document.isNone then throw .openQuotation
  if b.quotation.braces != 0 then throw .openBrace
  return b.pieces.reverse

end Building

namespace Lexer

open Reader

/-! ## Parameters -/

/-- Parameters that are written with one character. -/
def isSpecial (c : Char) : Bool :=
  c.isDigit || ['!', '#', '$', '*', '-', '?', '@'].contains c

/-- Reads on as long as characters have a property. -/
def readWhile (p : Char → Bool) : (fuel : Nat) → (read : Text) → Read Text
  | 0, read => return read.reverse
  | fuel + 1, read => do
    match ← nextOfWord with
    | none => return read.reverse
    | some c =>
      if p c then readWhile p fuel (c :: read)
      else
        putBack (some c)
        return read.reverse

/-- Reads the rest of a name or number that a character opens; without braces a number has one
digit. -/
def readName (braced : Bool) (c : Char) : Read Text :=
  if Text.opensName c then readWhile Text.continuesName patience [c]
  else if c.isDigit && braced then readWhile Char.isDigit patience [c]
  else return [c]

/-- What the characters behind a parameter in braces say about its use, and whether an empty value
counts as none. Nothing has to follow where the closing brace has been read as well. -/
def readUse : Read (Option (Use × Bool)) := do
  let c ← nextOfWord
  let orEmpty := c == some ':'
  let c ← if orEmpty then nextOfWord else pure c
  let trim (c : Char) (atEnd : Bool) : Read (Option (Use × Bool)) := do
    return some (.trim ⟨atEnd, ← accepts c⟩, false)
  match c with
  | some '\x7d' => return if orEmpty then some (.value, true) else none
  | some '-' => return some (.default, orEmpty)
  | some '=' => return some (.assign, orEmpty)
  | some '+' => return some (.alternative, orEmpty)
  | some '?' => return some (.require, orEmpty)
  | some '%' => if orEmpty then return some (.malformed, false) else trim '%' true
  | some '#' => if orEmpty then return some (.malformed, false) else trim '#' false
  | _ => return some (.malformed, false)

/-- Reads a parameter in braces up to its name and use. -/
def readBraced (b : Building) : Read Building := do
  let plain (name : Text) : Building :=
    b.add (.parameter name .value false b.quotation.expandsQuoted [])
  let used (name : Text) : Read Building := do
    match ← readUse with
    | none => return plain name
    | some (use, orEmpty) => return b.openParameter name use orEmpty
  match ← nextOfWord with
  | none => return b.openParameter [] .malformed false
  | some '\x7d' =>
    putBack (some '\x7d')
    return b.openParameter [] .malformed false
  | some '#' =>
    let c ← nextOfWord
    match c with
    | none => used ['#']
    | some d =>
      if Text.opensName d || d.isDigit then
        let name ← readName true d
        if ← accepts '\x7d' then
          putBack (some '\x7d')
          return b.openParameter name .length false
        else return b.openParameter name .malformed false
      else
        let e ← nextOfWord
        putBack e
        if d == '\x7d' || e != some '\x7d' then
          putBack (some d)
          used ['#']
        else if isSpecial d then return b.openParameter [d] .length false
        else return b.openParameter [] .malformed false
  | some c =>
    if Text.opensName c || c.isDigit then used (← readName true c)
    else if isSpecial c then used [c]
    else return b.openParameter [] .malformed false

/-! ## Commands in words -/

/-- Reads up to the closing back quote. A backslash keeps a back quote, a backslash, a dollar sign
and, between double quotes, a double quote. -/
def readBackQuoted (quoted : Bool) : (fuel : Nat) → (read : Text) → Read Text
  | 0, _ => throw .openBackQuote
  | fuel + 1, read => do
    match ← nextOfWord with
    | none => throw .openBackQuote
    | some '\x60' => return read.reverse
    | some '\\' =>
      match ← next with
      | none => throw .openBackQuote
      | some c =>
        let kept := c == '\\' || c == '\x60' || c == '$' || (quoted && c == '\x22')
        readBackQuoted quoted fuel (if kept then c :: read else c :: '\\' :: read)
    | some c =>
      if c == '\n' then countLine
      readBackQuoted quoted fuel (c :: read)

/-- Reads a list of commands in a word. It cannot see the documents that the line outside asks
for. -/
def readBody (body : ReadBody) : Read (Option Command) := do
  let outside := (← get).wanted
  modify fun r => { r with wanted := [] }
  let command ← body true
  modify fun r => { r with wanted := outside, kept := none }
  return command

/-- Reads a list of commands between back quotes, which is a script of its own. What does not belong
to the list is of no account. -/
def readOldBody (body : ReadBody) (quoted : Bool) : Read (Option Command) := do
  let text ← readBackQuoted quoted patience []
  let outside ← get
  set ({ text, aliases := outside.aliases, documents := outside.documents } : Reader)
  let command ← body false
  let documents := (← get).documents
  set { outside with documents }
  return command

/-- Reads what a dollar sign opens, if anything. -/
def readDollar (body : ReadBody) (b : Building) : Read Building := do
  let quoted := b.quotation.expandsQuoted
  match ← nextOfWord with
  | none => return b.addChar '$'
  | some '(' =>
    if ← accepts '(' then return b.openArithmetic
    let command ← readBody body
    return b.add (.command command quoted)
  | some '\x7b' => readBraced b
  | some c =>
    if Text.opensName c || isSpecial c then
      return b.add (.parameter (← readName false c) .value false quoted [])
    else
      putBack (some c)
      return b.addChar '$'

/-! ## Words -/

/-- Ends a word unless it is quoted. -/
def endsWord (c : Char) : Bool :=
  Text.isBlank c || ['<', '>', '(', ')', ';', '&', '|'].contains c

/-- Matches the characters of a line, from its first one on, with the line that ends a document.
Where they differ, what has been read is given back. -/
def isClosing (closing : Text) (c : Option Char) : Read Bool := do
  match closing, c with
  | [], none =>
    countLine
    return true
  | [], some c =>
    if c == '\n' then
      countLine
      return true
    return false
  | _ :: _, none => return false
  | l :: rest, some c =>
    if l != c then return false
    let d ← next
    if ← isClosing rest d then return true
    putBack d
    return false

/-- At the beginning of a line of a document: the first character, or `none` at its end. -/
def startLine (document : Option Wanted) (c : Option Char) : Read (Option Char) := do
  match document with
  | none => return c
  | some w =>
    let c ← if w.stripTabs then skipTabs patience c else pure c
    return if ← isClosing w.closing c then none else c
where
  /-- Passes over tabs. -/
  skipTabs : Nat → Option Char → Read (Option Char)
    | 0, c => return c
    | fuel + 1, c => if c == some '\t' then do skipTabs fuel (← next) else return c

/-- The next character as the current quotation takes it: lines are joined everywhere but between
single quotes. -/
def nextIn (b : Building) : Read (Option Char) :=
  if b.quotation.quoting == .single then next else nextOfWord

/-- Reads one character of a word, or an expansion that it opens. -/
def readPiece (body : ReadBody) (marksOnly : Bool) (b : Building) (c : Char) :
    Read Building := do
  let quoting := b.quotation.quoting
  if quoting == .single then return if c == '\x27' then b.closeQuote c else b.addChar c
  match c with
  | '\\' => return b.escape (← next)
  | '\x27' => return if quoting == .plain then b.openSingle else b.addChar c
  | '\x22' =>
    match quoting with
    | .plain => return b.openDouble
    | .double => return b.closeQuote c
    | _ => return b.addChar c
  | '$' => if marksOnly then return b.addChar c else readDollar body b
  | '\x60' =>
    if marksOnly then return b.addChar c
    let quoted := b.quotation.expandsQuoted
    let command ← readOldBody body quoted
    return b.add (.command command quoted)
  | '\x7d' => return b.closeBrace
  | '(' =>
    let b := b.addChar c
    return if quoting == .arithmetic then
        b.update fun q => { q with parentheses := q.parentheses + 1 }
      else b
  | ')' =>
    if quoting != .arithmetic then return b.addChar c
    if b.quotation.parentheses != 0 then
      return (b.addChar c).update fun q => { q with parentheses := q.parentheses - 1 }
    if ← accepts ')' then return b.closeFrame.pop
    return b.addChar c
  | _ => return b.addChar c

/-- Reads a word from its first character on; also gives the character behind it. -/
def readPieces (body : ReadBody) (marksOnly : Bool) :
    (fuel : Nat) → Building → Option Char → Read (Building × Option Char)
  | 0, b, c => return (b, c)
  | _ + 1, b, none => return (b, none)
  | fuel + 1, b, some c => do
    let ends := b.quotation.quoting == .plain && b.quotation.braces == 0
    if ends && (c == '\n' || endsWord c) then return (b, some c)
    if c == '\n' then
      let b := b.addChar c
      countLine
      let c ← startLine b.document (← nextIn b)
      readPieces body marksOnly fuel b c
    else
      let b ← readPiece body marksOnly b c
      readPieces body marksOnly fuel b (← nextIn b)

/-- Reads the content of a document. -/
def readDocument (body : ReadBody) (w : Wanted) : Read Unit := do
  let b := Building.start (if w.expands then .double else .single) (some w)
  let c ← startLine (some w) (← nextIn b)
  let (b, _) ← readPieces body false patience b c
  let content ← b.finish
  modify fun r => { r with documents := r.documents.setIfInBounds w.index content }

/-- Reads the contents of the documents that the line in front asks for. -/
def readDocuments (body : ReadBody) : Read Unit := do
  let wanted := (← get).wanted
  modify fun r => { r with wanted := [] }
  for w in wanted do
    readDocument body w

/-! ## Tokens -/

/-- Reads what follows the `<` or `>` of a redirection. -/
def readRedirection (descriptor? : Option Nat) (c : Char) : Read Token := do
  if c == '>' then
    let descriptor := descriptor?.getD 1
    if ← accepts '>' then return .redirection descriptor (.file .append)
    if ← accepts '|' then return .redirection descriptor (.file .overwrite)
    if ← accepts '&' then return .redirection descriptor .descriptor
    return .redirection descriptor (.file .write)
  else
    let descriptor := descriptor?.getD 0
    if ← accepts '<' then return .redirection descriptor (.document (← accepts '-'))
    if ← accepts '&' then return .redirection descriptor .descriptor
    if ← accepts '>' then return .redirection descriptor (.file .both)
    return .redirection descriptor (.file .read)

/-- The descriptor that stands right in front of a redirection, `none` within if there is none; no
other word can stand there. -/
def descriptorOf? (w : Word) : Option (Option Nat) :=
  match w with
  | [] => some none
  | [.char c false] => if c.isDigit then some (some (c.toNat - '0'.toNat)) else none
  | _ => none

/-- Reads a word or a redirection from its first character on. -/
def readWord (body : ReadBody) (marksOnly : Bool) (c : Char) : Read Token := do
  let (b, behind) ← readPieces body marksOnly patience (.start .plain none) (some c)
  let w ← b.finish
  match behind with
  | some d =>
    if (d == '<' || d == '>') && !b.quoted then
      if let some descriptor := descriptorOf? w then return ← readRedirection descriptor d
  | none => pure ()
  putBack behind
  return .word w b.quoted

/-- Reads the next token, without regard to reserved words and aliases. -/
def readToken (body : ReadBody) (marksOnly : Bool) : (fuel : Nat) → Read Token
  | 0 => return .endOfFile
  | fuel + 1 => do
    match ← nextOfWord with
    | none => return .endOfFile
    | some ' ' | some '\t' => readToken body marksOnly fuel
    | some '#' =>
      skipLine patience
      readToken body marksOnly fuel
    | some '\n' =>
      countLine
      return .newline
    | some '&' => return if ← accepts '&' then .andIf else .ampersand
    | some '|' => return if ← accepts '|' then .orIf else .bar
    | some ';' => return if ← accepts ';' then .endCase else .semicolon
    | some '(' => return .opening
    | some ')' => return .closing
    | some c => readWord body marksOnly c

end Lexer

/-- What a token is looked at for. -/
structure Expectation where
  /-- Line ends in front of it are of no account. -/
  afterLines : Bool := false
  /-- It may be a reserved word. -/
  reserved : Bool := false
  /-- It may be an alias. -/
  expandsAlias : Bool := false
  /-- It says how a document ends, so that nothing in it is expanded. -/
  marksOnly : Bool := false

namespace Expectation

/-- Where a command begins on the same line. -/
def command : Expectation := { reserved := true, expandsAlias := true }

/-- Where a command begins, perhaps on a later line. -/
def laterCommand : Expectation := { command with afterLines := true }

end Expectation

namespace Lexer

open Reader

/-- The token that was kept, or else the next one. -/
def nextToken (body : ReadBody) (marksOnly : Bool) : Read Token := do
  match (← get).kept with
  | some t =>
    modify fun r => { r with kept := none }
    return t
  | none => readToken body marksOnly patience

/-- Passes over line ends; documents asked for in front of them are read. -/
def skipLines (body : ReadBody) : (fuel : Nat) → Token → Read Token
  | 0, t => return t
  | fuel + 1, t =>
    match t with
    | .newline => do
      readDocuments body
      skipLines body fuel (← nextToken body false)
    | t => return t

/-- The next token with regard to reserved words and aliases. -/
def token (body : ReadBody) (e : Expectation) : (fuel : Nat) → Read Token
  | 0 => return .endOfFile
  | fuel + 1 => do
    let t ← nextToken body e.marksOnly
    let t ← if e.afterLines then skipLines body patience t else pure t
    let r ← get
    let expandsAlias := e.expandsAlias || r.aliasNext
    set { r with aliasNext := false }
    match t with
    | .word w false =>
      match Word.plain? w with
      | none => return t
      | some name =>
        if e.reserved then
          if let some word := Reserved.ofText? name then return .reserved word
        if expandsAlias then
          let name := Word.marked name
          match r.aliasText? name with
          | some text =>
            pushAlias name text
            token body { e with expandsAlias } fuel
          | none => return t
        else return t
    | t => return t

end Lexer

end Shell

end FuzzyFinder
