import FuzzyFinder.Shell.Runner

/-!
# FuzzyFinder — choices and loops

Loops over conditions and over values, and the choice of a branch by its patterns. A leap out of a
loop counts down at each loop that it passes.
-/

namespace FuzzyFinder

namespace Shell

namespace Runner

/-- Counts a loop while something is done. -/
def inLoop (action : Run Unit) : Run Unit := do
  modify fun s => { s with loops := s.loops + 1 }
  ensuring action <| modify fun s => { s with loops := s.loops - 1 }

/-- Whether a loop goes on after a leap in it; a leap that is not for this loop goes on itself. -/
def goesOn (leap : Option Leap) : Run Bool := do
  match leap with
  | none => return true
  | some (.leaveLoop n) => if n ≤ 1 then return false else throw (.leaveLoop (n - 1))
  | some (.nextRound n) => if n ≤ 1 then return true else throw (.nextRound (n - 1))
  | some leap => throw leap

/-- Runs a loop; `status` is that of the last round. -/
def loop (r : Runner) (tested untilSuccess : Bool) (condition body : Command) :
    (fuel : Nat) → (status : Nat) → Run Unit
  | 0, status => setStatus status
  | fuel + 1, status => do
    match ← attempt (r.run true condition) with
    | none =>
      if ((← get).status == 0) == untilSuccess then setStatus status
      else if ← goesOn (← attempt (r.run tested body)) then
        loop r tested untilSuccess condition body fuel (← get).status
    | leap =>
      if ← goesOn leap then loop r tested untilSuccess condition body fuel status
      else setStatus status

/-- Runs a loop over values; `status` is that of the last round. -/
def each (r : Runner) (tested : Bool) (name : Text) (body : Command) :
    (status : Nat) → List Text → Run Unit
  | status, [] => setStatus status
  | _, value :: rest => do
    assign name value
    if ← goesOn (← attempt (r.run tested body)) then
      each r tested name body (← get).status rest

/-- One of the patterns matches a text. -/
def matchesAny (r : Runner) (t : Text) : List Word → Run Bool
  | [] => return false
  | w :: rest => do
    let p ← expandPattern r.substitute w
    if p.isMatch t then return true else matchesAny r t rest

/-- Runs the first branch that has a pattern for a text. -/
def select (r : Runner) (last tested : Bool) (t : Text) : List Branch → Run Unit
  | [] => setStatus 0
  | .mk patterns body :: rest => do
    if ← r.matchesAny t patterns then
      match body with
      | some c => r.runTail last tested c
      | none => setStatus 0
    else select r last tested t rest

end Runner

end Shell

end FuzzyFinder
