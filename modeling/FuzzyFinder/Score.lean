import FuzzyFinder.Needle
import FuzzyFinder.Score.Search

/-!
# FuzzyFinder — the score of one candidate

`score` rates a candidate against a needle. An empty needle rates every candidate perfect that the
dot-file policy does not hide; an exact match is perfect; otherwise the best placement of the
needle decides. `rate` is the same function for callers who keep the candidate's letters between
calls: it consults them before it looks at the candidate, and fills them in when they are missing.
-/

namespace FuzzyFinder

/-- The candidate is the needle, byte for byte. -/
def isExact (caseSensitive : Bool) (candidate needle : Bytes) : Bool :=
  needle.length == candidate.length &&
    (candidate.zip needle).all fun (b, n) => Byte.agrees caseSensitive b n

/-- Rates a candidate against the needle bytes `needle` with the letters `letters`. `known` holds
the candidate's letters if they have been collected before; the second result is what is known
about them afterwards. -/
def rateBytes (candidate needle : Bytes) (letters : LetterSet) (known : Option LetterSet)
    (options : ScoreOptions) : Score × Option LetterSet :=
  if needle.isEmpty then
    let concealed := options.dotPolicy.conceals && hasHiddenComponent candidate
    (if concealed then Score.concealed else Score.perfect, known)
  else if isExact options.caseSensitive candidate needle then
    let concealed := options.neverShowDotFiles && hasHiddenComponent candidate
    (if concealed then Score.miss else Score.perfect, known)
  -- Letters that the candidate lacks rule out every placement.
  else if known.any (fun seen => !seen.contains letters) then (Score.miss, known)
  else
    match rightmost options.caseSensitive candidate needle known with
    | (none, known) => (Score.miss, known)
    | (some positions, known) =>
      let best := (Search.ofBytes candidate needle positions options).best
      (if best.isFinite && Score.isMatch best then best else Score.miss, known)

/-- Rates a candidate against a prepared needle. -/
def rate (candidate : Bytes) (known : Option LetterSet) (needle : Needle)
    (options : ScoreOptions) : Score × Option LetterSet :=
  rateBytes candidate needle.bytes needle.letters known options

/-- The score of a candidate. The needle may be given as typed: it is folded here unless case
matters. -/
def score (candidate needle : Bytes) (options : ScoreOptions) : Score :=
  let needle := if options.caseSensitive then needle else needle.fold
  (rateBytes candidate needle (.ofBytes needle) none options).1

end FuzzyFinder
