import FuzzyFinder.Bytes

/-!
# FuzzyFinder — scoring options

A component of a path is hidden when its name starts with a dot. `DotPolicy` says when the search
may enter such a component; `ScoreOptions` holds the switches under which one candidate is scored.
-/

namespace FuzzyFinder

/-- When the search may look at a dot that opens a path component, and so behind it. -/
inductive DotPolicy where
  /-- Never, whatever the needle says. -/
  | never
  /-- Only to place a dot of the needle there. -/
  | onRequest
  /-- As at any other byte. -/
  | always
deriving DecidableEq

namespace DotPolicy

/-- Whether a component-opening dot stops the search for the needle byte `n`. -/
def blocks (p : DotPolicy) (n : UInt8) : Bool :=
  match p with
  | .never => true
  | .onRequest => n != Byte.dot
  | .always => false

/-- Whether a candidate with a hidden component is left out while nothing is searched for. -/
def conceals (p : DotPolicy) : Bool := p != .always

end DotPolicy

/-- The switches that change how a candidate is scored. -/
structure ScoreOptions where
  /-- Compare bytes as they are instead of folding ASCII case. -/
  caseSensitive : Bool := false
  /-- Let needles match inside hidden components. -/
  alwaysShowDotFiles : Bool := false
  /-- Keep needles out of hidden components; wins over `alwaysShowDotFiles`. -/
  neverShowDotFiles : Bool := false
  /-- Explore every placement of the needle instead of committing to the first one. -/
  recurse : Bool := false
deriving DecidableEq

/-- The dot policy that the two dot-file switches amount to. -/
def ScoreOptions.dotPolicy (o : ScoreOptions) : DotPolicy :=
  if o.neverShowDotFiles then .never
  else if o.alwaysShowDotFiles then .always
  else .onRequest

/-- Whether a component opens with a dot; `opening` says that the next byte opens one. -/
def hidesFrom (opening : Bool) : Bytes → Bool
  | [] => false
  | b :: rest => opening && b == Byte.dot || hidesFrom (b == Byte.slash) rest

/-- Whether some path component of a candidate opens with a dot. -/
def hasHiddenComponent (candidate : Bytes) : Bool := hidesFrom true candidate

end FuzzyFinder
