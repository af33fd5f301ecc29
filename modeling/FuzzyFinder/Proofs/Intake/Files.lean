import FuzzyFinder.Intake.Files
import FuzzyFinder.Proofs.Intake.Feed

/-!
# FuzzyFinder — what a walk brings

Of the things found on a walk only regular files below its root are brought, by their paths, and the
faults that it meets (`walkFeed`).
-/

namespace FuzzyFinder

/-- What one step of a walk brings, if anything. -/
def WalkResult.brought? : WalkResult → Option (Except ScanError Bytes)
  | .error fault => some (.error (.walk fault))
  | .ok found => if !found.isFile || found.path.isEmpty then none else some (.ok found.path)

/-- What a walk brings. -/
def walkFeed (walk : List WalkResult) : Feed := walk.filterMap WalkResult.brought?

/-- Going on with a walk behind the files in `l`. -/
theorem collectFiles_ofList (maxFiles : Nat) (l : List Bytes) (walk : List WalkResult) :
    collectFiles maxFiles (.ofList l) walk
      = (Feed.gather maxFiles l (walkFeed walk)).map .ofList Stop.error? := by
  induction walk generalizing l with
  | nil => rfl
  | cons result walk ih =>
    cases result with
    | error fault => rfl
    | ok found =>
      rw [collectFiles, walkFeed, List.filterMap_cons, WalkResult.brought?]
      by_cases hpassed : (!found.isFile || found.path.isEmpty) = true
      · -- no file, or the root itself
        rw [if_pos hpassed, if_pos hpassed]
        exact ih l
      rw [if_neg hpassed, if_neg hpassed, ← Collected.ofList_concat]
      by_cases hfull : 0 < maxFiles ∧ maxFiles ≤ (l ++ [found.path]).length
      · rw [if_pos ((Collected.isFull_ofList_iff ..).mpr hfull), Feed.gather, if_pos hfull]
        rfl
      · rw [if_neg (mt (Collected.isFull_ofList_iff ..).mp hfull), Feed.gather, if_neg hfull]
        exact ih (l ++ [found.path])

theorem readWalk_yields (walk : List WalkResult) (maxFiles : Nat) :
    (walkFeed walk).Yields maxFiles (readWalk walk maxFiles) := by
  rw [readWalk, ← Collected.ofList_nil, collectFiles_ofList]
  exact Feed.yields_ofCollected ..

end FuzzyFinder
