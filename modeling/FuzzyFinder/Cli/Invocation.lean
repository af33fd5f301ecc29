import FuzzyFinder.Needle

/-!
# FuzzyFinder — what a call asks for

The settings of one call of the program, each with the value that it has when it is not asked for.
-/

namespace FuzzyFinder

/-- What a call asks for. -/
structure Invocation where
  /-- The directory to walk for candidates. -/
  directory : Option Bytes := none
  /-- The command that writes the candidates. -/
  command : Option String := none
  /-- Entries of the input are separated by NUL. -/
  read0 : Bool := false
  /-- How many bytes every entry of the input loses at its front. -/
  drop : Nat := 0
  /-- The greatest number of candidates, `0` for no bound. -/
  maxFiles : Nat := 0
  /-- How deep the directory walk goes. -/
  maxDepth : Nat := 64
  /-- Leave out what ignore lists name. -/
  gitignore : Bool := false
  query : Bytes := []
  /-- The greatest number of matches. -/
  limit : Nat := 100
  /-- The number of workers, if one is asked for. -/
  threads : Option Nat := none
  /-- How the query treats case. -/
  caseMatching : CaseMatching := .smart
  /-- Blanks in the query are to be matched. -/
  noIgnoreSpaces : Bool := false
  /-- Let dot-files match whatever the query. -/
  alwaysShowDotFiles : Bool := false
  /-- Keep dot-files out whatever the query. -/
  neverShowDotFiles : Bool := false
  /-- Score the first placement of the query only. -/
  noRecurse : Bool := false
  /-- End every match with NUL. -/
  print0 : Bool := false
  /-- Report on typing the query one byte at a time. -/
  benchmark : Bool := false

end FuzzyFinder
