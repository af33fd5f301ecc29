import FuzzyFinder.Text.Utf8

/-!
# FuzzyFinder — what can go wrong on a walk

A walk through a directory tree meets three kinds of trouble: a path that leads nowhere, a path
that goes round in symbolic links, and a link back to a directory that the walk is inside of. A name
longer than any name can be leads nowhere in a way of its own.
-/

namespace FuzzyFinder

/-- A fault met while walking a directory tree. -/
inductive WalkFault where
  /-- Nothing is to be found at the path. -/
  | missing (path : Bytes)
  /-- A part of the path that has to be a directory is none. -/
  | notDirectory (path : Bytes)
  /-- The path leads through more symbolic links than are followed. -/
  | tooManyLinks (path : Bytes)
  /-- A name on the path is longer than any name can be. -/
  | nameTooLong (path : Bytes)
  /-- The link at `path` leads back to the directory at `ancestor`. -/
  | cycle (path ancestor : Bytes)

/-- The wording of a failed operation on a path. -/
def WalkFault.operation (path : Bytes) (reason : String) : String :=
  let shown := String.ofList (Utf8.decode path)
  s!"{shown}: IO error for operation on {shown}: {reason}"

/-- The wording of a fault. -/
def WalkFault.message : WalkFault → String
  | .missing path => operation path "No such file or directory (os error 2)"
  | .notDirectory path => operation path "Not a directory (os error 20)"
  | .tooManyLinks path => operation path "Too many levels of symbolic links (os error 40)"
  | .nameTooLong path => operation path "File name too long (os error 36)"
  | .cycle path ancestor =>
    let child := String.ofList (Utf8.decode path)
    let above := String.ofList (Utf8.decode ancestor)
    s!"File system loop found: {child} points to an ancestor {above}"

end FuzzyFinder
