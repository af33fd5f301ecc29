import FuzzyFinder.Shell.Text

/-!
# FuzzyFinder — shell scripts

The command that writes the candidates is a shell script. This module says what a script is made
of: words with their quoting and expansions, redirections, and commands built from other commands.
Commands remember the line they stand on, for the messages about them. The contents of documents
that follow a line are kept apart, and a redirection refers to its document by number.
-/

namespace FuzzyFinder

namespace Shell

/-- Takes off what a pattern matches at one end of a value. -/
structure Trim where
  /-- The end of the value is meant, not its beginning. -/
  atEnd : Bool
  /-- As much as possible is taken off, not as little. -/
  longest : Bool
deriving DecidableEq

/-- What a parameter expansion does with the parameter. -/
inductive Use where
  /-- Gives the value. -/
  | value
  /-- Gives the number of bytes in the value. -/
  | length
  /-- Gives the word if there is no value. -/
  | default
  /-- Gives the word if there is no value, and keeps it as the value. -/
  | assign
  /-- Gives the word if there is a value. -/
  | alternative
  /-- Complains if there is no value. -/
  | require
  /-- Takes off what the word, as a pattern, matches. -/
  | trim (trim : Trim)
  /-- Nothing that makes sense. -/
  | malformed
deriving DecidableEq

/-- The kinds of redirection to a file. -/
inductive Opening where
  /-- For reading. -/
  | read
  /-- For writing, from the beginning. -/
  | write
  /-- For writing, from the beginning, also where files are to be kept. -/
  | overwrite
  /-- For writing, at the end. -/
  | append
  /-- For reading and writing. -/
  | both
deriving DecidableEq

mutual

/-- A piece of a word. -/
inductive Piece where
  /-- A character that stands for itself. -/
  | char (c : Char) (quoted : Bool)
  /-- Here a quotation begins or ends. -/
  | mark (opening : Bool)
  /-- A parameter; with `orEmpty` an empty value counts as none. -/
  | parameter (name : Text) (use : Use) (orEmpty quoted : Bool) (word : List Piece)
  /-- The output of a command. -/
  | command (body : Option Command) (quoted : Bool)
  /-- The value of an arithmetic expression. -/
  | arithmetic (expression : List Piece) (quoted : Bool)

/-- What a redirection does to a descriptor. -/
inductive Redirection where
  /-- Opens a file. -/
  | file (descriptor : Nat) (opening : Opening) (name : List Piece)
  /-- Makes it stand for what another descriptor stands for; `none` closes it. -/
  | duplicate (descriptor : Nat) (source : Option Nat)
  /-- Makes it stand for what the descriptor that a word names stands for. -/
  | duplicateWord (descriptor : Nat) (source : List Piece)
  /-- Reads from the document with a number. -/
  | document (descriptor : Nat) (index : Nat)

inductive Command where
  /-- A program, builtin or function with its arguments, and assignments in front. -/
  | simple (line : Nat) (assignments words : List (List Piece)) (redirections : List Redirection)
  /-- A command with redirections. -/
  | redirected (line : Nat) (body : Command) (redirections : List Redirection)
  /-- Commands each of which reads what the one before it writes. -/
  | pipeline (inBackground : Bool) (stages : List Command)
  /-- A command whose status is turned round. -/
  | negation (body : Command)
  /-- The second command runs if the first one succeeds. -/
  | conjunction (first second : Command)
  /-- The second command runs if the first one fails. -/
  | disjunction (first second : Command)
  /-- One command after the other. -/
  | sequence (first second : Command)
  /-- A command in a shell of its own. -/
  | subshell (line : Nat) (inBackground : Bool) (body : Command) (redirections : List Redirection)
  /-- One command or another, depending on how a condition ends. -/
  | choice (condition body : Command) (otherwise : Option Command)
  /-- A loop that goes on while its condition succeeds, or until it does. -/
  | loop (untilSuccess : Bool) (condition body : Command)
  /-- A loop over words. -/
  | each (line : Nat) (name : Text) (words : List (List Piece)) (body : Command)
  /-- A choice by pattern. -/
  | select (line : Nat) (subject : List Piece) (branches : List Branch)
  /-- The definition of a function. -/
  | define (line : Nat) (name : Text) (body : Command)

/-- The patterns of a branch and the command they lead to. -/
inductive Branch where
  | mk (patterns : List (List Piece)) (body : Option Command)

end

/-- A word: its pieces, one behind the other. -/
abbrev Word := List Piece

namespace Word

/-- The text of a word in which nothing is quoted and nothing is expanded. -/
def plain? : Word → Option Text
  | [] => some []
  | .char c false :: rest => (plain? rest).map (c :: ·)
  | _ :: _ => none

/-- A text as it stands in a word, where eight characters have a mark in front of them. An alias is
looked up with these marks, so that one whose name holds such a character is mostly not found. -/
def marked (t : Text) : Text :=
  t.flatMap fun c => if '\x81' ≤ c && c ≤ '\x88' then ['\x81', c] else [c]

/-- The characters of a word, without its quotes and without what would be expanded. -/
def characters : Word → Text
  | [] => []
  | .char c _ :: rest => c :: characters rest
  | _ :: rest => characters rest

/-- The characters in front of the first one with a property, provided that they are neither quoted
nor expanded. -/
def plainUntil? (p : Char → Bool) : Word → Option Text
  | .char c false :: rest => if p c then some [] else (plainUntil? p rest).map (c :: ·)
  | _ => none

/-- The name that an assignment is to, if the word is one. -/
def assignee? (w : Word) : Option Text :=
  (plainUntil? (· == '=') w).filter Text.isName

end Word

end Shell

end FuzzyFinder
