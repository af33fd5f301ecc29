import FuzzyFinder.LetterSet

/-!
# FuzzyFinder — needles

A query is what a person types; a needle is what is searched for. `Needle.ofQuery` decides from
the query whether case matters, drops blanks if asked to, and folds the rest when case does not
matter, so that a candidate byte only has to be folded and compared.
-/

namespace FuzzyFinder

/-- How a query treats letter case. -/
inductive CaseMatching where
  /-- Case always matters. -/
  | respect
  /-- Case never matters. -/
  | ignore
  /-- Case matters as soon as the query holds an upper-case letter. -/
  | smart
deriving DecidableEq

/-- Whether a query is matched case sensitively. The query is looked at as typed, before blanks
are dropped. -/
def CaseMatching.isSensitive (mode : CaseMatching) (query : Bytes) : Bool :=
  match mode with
  | .respect => true
  | .ignore => false
  | .smart => query.any Byte.isUpper

/-- A query prepared for searching. -/
structure Needle where
  /-- The bytes to find, folded unless case matters. -/
  bytes : Bytes
  /-- Whether case matters. -/
  caseSensitive : Bool
  /-- The letters of `bytes`. -/
  letters : LetterSet
deriving DecidableEq

namespace Needle

/-- Prepares a query. -/
def ofQuery (query : Bytes) (mode : CaseMatching) (ignoreSpaces : Bool) : Needle :=
  let caseSensitive := mode.isSensitive query
  let kept := if ignoreSpaces then query.filter (· != Byte.space) else query
  let bytes := if caseSensitive then kept else Bytes.fold kept
  { bytes, caseSensitive, letters := .ofBytes bytes }

/-- The number of bytes to find. -/
def length (n : Needle) : Nat := n.bytes.length

/-- Nothing is searched for. -/
def isEmpty (n : Needle) : Bool := n.bytes.isEmpty

/-- The needle is a single dot. -/
def isDot (n : Needle) : Bool := n.bytes == [Byte.dot]

/-- The needle `n` is `previous` followed by zero or more bytes. -/
def continues (n previous : Needle) : Bool := previous.bytes.isPrefixOf n.bytes

end Needle

end FuzzyFinder
