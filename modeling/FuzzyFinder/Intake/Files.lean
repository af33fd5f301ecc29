import FuzzyFinder.Intake.Collected

/-!
# FuzzyFinder — candidates from a directory walk

A walk through directories yields what it finds one by one. Regular files become candidates, by
their path below the place where the walk began; that place itself has no such path and is passed
over. The first fault ends the intake, and so does the wanted number of candidates. Who walks is left
open (`Walker`): only what a walk yields matters here.
-/

namespace FuzzyFinder

/-- Something found on a walk. -/
structure WalkEntry where
  /-- Its path below the place where the walk began. -/
  path : Bytes
  /-- It is a regular file. -/
  isFile : Bool

/-- One step of a walk: something is found, or a fault is met that is told in words. -/
abbrev WalkResult := Except String WalkEntry

/-- How a walk goes. -/
structure WalkOptions where
  /-- The greatest depth, the names in the first directory being at depth one. -/
  maxDepth : Nat := 64
  /-- Follow symbolic links. -/
  followLinks : Bool := true
  /-- Leave out what ignore lists name. -/
  respectGitignore : Bool := false

/-- Yields all that is found from a path on. -/
abbrev Walker := Bytes → WalkOptions → List WalkResult

/-- Collects the files of a walk behind those in `c`. -/
def collectFiles (maxFiles : Nat) (c : Collected) : List WalkResult → Collected × Option ScanError
  | [] => (c, none)
  | .error fault :: _ => (c, some (.walk fault))
  | .ok entry :: rest =>
    if !entry.isFile || entry.path.isEmpty then collectFiles maxFiles c rest
    else
      let c := c.push entry.path
      if c.isFull maxFiles then (c, none) else collectFiles maxFiles c rest

/-- The files of a walk as candidates. -/
def readWalk (walk : List WalkResult) (maxFiles : Nat) : ScanResult :=
  let (collected, error) := collectFiles maxFiles {} walk
  .ofCollected collected error

/-- The files below a path as candidates. -/
def findFiles (walker : Walker) (start : Bytes) (options : WalkOptions) (maxFiles : Nat) :
    ScanResult :=
  readWalk (walker start options) maxFiles

end FuzzyFinder
