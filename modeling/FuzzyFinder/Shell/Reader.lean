import FuzzyFinder.Shell.Token

/-!
# FuzzyFinder — reading scripts character by character

A reader goes through the text of a script. Where a word is an alias, the text that it stands for is
read first, on a layer of its own above the script; while a layer is being read, its alias is not
looked up again. The reader counts lines, keeps a token that was read too early, and remembers the
documents that the current line asks for.
-/

namespace FuzzyFinder

namespace Shell

/-- The text of an alias, as far as it is still to be read. -/
structure Layer where
  /-- The alias. -/
  name : Text
  /-- The text ends in a blank, so that the word behind it may be an alias as well. -/
  endsBlank : Bool
  /-- What is still to be read. -/
  text : Text
  /-- Aliases that had just come to their end when this one was found; they stay in use with it. -/
  holding : List Text := []

/-- A document that a line asks for. -/
structure Wanted where
  /-- Its number. -/
  index : Nat
  /-- The line that ends it. -/
  closing : Text
  /-- What is in it is expanded. -/
  expands : Bool
  /-- Its lines lose the tabs in front. -/
  stripTabs : Bool

/-- How far a script has been read. -/
structure Reader where
  /-- The script as far as it is still to be read. -/
  text : Text
  /-- The texts of aliases that go before it, the innermost one first. -/
  layers : List Layer := []
  /-- The number of the line. -/
  line : Nat := 1
  /-- The aliases with what they stand for. -/
  aliases : List (Text × Text) := []
  /-- Aliases whose text came to its end with the last character. -/
  leaving : List Text := []
  /-- The next word may be an alias. -/
  aliasNext : Bool := false
  /-- The last word that has been read. -/
  lastWord : Word := []
  /-- A token that is to be read once more. -/
  kept : Option Token := none
  /-- The documents that the current line asks for. -/
  wanted : List Wanted := []
  /-- The contents of all documents, by number. -/
  documents : Array Word := #[]

/-- A step of reading. -/
abbrev Read := EStateM SyntaxFault Reader

namespace Reader

/-- More steps than reading any script takes. -/
def patience : Nat := 1000000000000

/-- The next character of the topmost layer that has any, or else of the script. -/
def advance (r : Reader) : List Layer → Option Char × Reader
  | [] =>
    match r.text with
    | [] => (none, { r with layers := [] })
    | c :: text => (some c, { r with text, layers := [] })
  | layer :: below =>
    match layer.text with
    | [] =>
      advance { r with
        leaving := layer.name :: layer.holding ++ r.leaving
        aliasNext := r.aliasNext || layer.endsBlank } below
    | c :: text => (some c, { r with layers := { layer with text } :: below })

/-- The next character, `none` at the end of the script. -/
def next : Read (Option Char) :=
  modifyGet fun r => advance { r with leaving := [] } r.layers

/-- Gives back a character, so that it is the next one. -/
def putBack : Option Char → Read Unit
  | none => return ()
  | some c => modify fun r =>
    match r.layers with
    | [] => { r with text := c :: r.text }
    | layer :: below => { r with layers := { layer with text := c :: layer.text } :: below }

def countLine : Read Unit := modify fun r => { r with line := r.line + 1 }

/-- The next character, lines that end in a backslash being joined with those behind them. -/
def nextJoined : (fuel : Nat) → Read (Option Char)
  | 0 => next
  | fuel + 1 => do
    let c ← next
    if c != some '\\' then return c
    let d ← next
    if d == some '\n' then
      countLine
      nextJoined fuel
    else
      putBack d
      return c

/-- The next character of a word. -/
def nextOfWord : Read (Option Char) := nextJoined patience

/-- The next character is the given one, and is passed over. -/
def accepts (c : Char) : Read Bool := do
  let d ← nextOfWord
  if d == some c then return true
  putBack d
  return false

/-- Passes over the rest of a line. -/
def skipLine : (fuel : Nat) → Read Unit
  | 0 => return ()
  | fuel + 1 => do
    let c ← next
    if c == some '\n' || c.isNone then putBack c else skipLine fuel

/-- The text that an alias stands for, unless it is being read already. -/
def aliasText? (r : Reader) (name : Text) : Option Text :=
  let inUse := r.leaving ++ r.layers.flatMap fun l => l.name :: l.holding
  if inUse.contains name then none else r.aliases.lookup name

/-- Puts the text of an alias in front. -/
def pushAlias (name text : Text) : Read Unit := do
  unless text.isEmpty do
    let endsBlank := text.getLast?.any Text.isBlank
    modify fun r => { r with
      layers := { name, endsBlank, text, holding := r.leaving } :: r.layers
      leaving := [] }

/-- Keeps a token to be read once more. -/
def keep (t : Token) : Read Unit := modify fun r => { r with kept := some t }

/-- Gives a document that the current line asks for its number. -/
def wantDocument (closing : Text) (expands stripTabs : Bool) : Read Nat := do
  let r ← get
  let index := r.documents.size
  let document : Wanted := { index, closing, expands, stripTabs }
  set { r with documents := r.documents.push [], wanted := r.wanted ++ [document] }
  return index

end Reader

end Shell

end FuzzyFinder
