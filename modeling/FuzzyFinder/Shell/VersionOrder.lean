import FuzzyFinder.Shell.Text

/-!
# FuzzyFinder — the order of versions

Orders names with version numbers in them: digits count as numbers, letters come in front of other
characters, and a tilde comes first of all. A suffix such as that of a file name counts only where
everything in front of it is equal.
-/

namespace FuzzyFinder

namespace Shell

namespace VersionOrder

/-- The rank of the first character of a text, where digits, and the end of the text, are in
between. -/
def rank : Text → Int
  | [] => -1
  | c :: _ =>
    if c.isDigit then 0
    else if c.isAlpha then c.toNat
    else if c == '~' then -2
    else Int.ofNat (c.toNat + 256)

/-- A digit stands in front. -/
def opensDigit (t : Text) : Bool := t.head?.any Char.isDigit

/-- Compares up to the next digits of both texts; what is left of them where they are equal. -/
def compareOthers : (fuel : Nat) → Text → Text → Except Ordering (Text × Text)
  | 0, a, b => .ok (a, b)
  | fuel + 1, a, b =>
    if (a.isEmpty || opensDigit a) && (b.isEmpty || opensDigit b) then .ok (a, b)
    else if rank a != rank b then .error (compare (rank a) (rank b))
    else compareOthers fuel a.tail b.tail

/-- Compares the numbers that both texts open with. -/
def compareNumbers (a b : Text) : Ordering :=
  let number (t : Text) := (t.takeWhile Char.isDigit).dropWhile (· == '0')
  (compare (number a).length (number b).length).then
    (compare (Text.toBytes (number a)) (Text.toBytes (number b)))

/-- Compares texts with numbers in them. -/
def compareFrom : (fuel : Nat) → Text → Text → Ordering
  | 0, _, _ => .eq
  | fuel + 1, a, b =>
    if a.isEmpty && b.isEmpty then .eq
    else
      match compareOthers (a.length + b.length) a b with
      | .error o => o
      | .ok (a, b) =>
        match compareNumbers a b with
        | .eq => compareFrom fuel (a.dropWhile Char.isDigit) (b.dropWhile Char.isDigit)
        | o => o

/-- The length of a text, from its character `i` on, without the suffixes at its end: dots, each
with a letter or a tilde behind it and then letters, digits and tildes. -/
def stemLength : (fuel : Nat) → (i : Nat) → Text → Nat
  | 0, i, _ => i
  | _, i, [] => i
  | fuel + 1, i, _ :: rest =>
    let behind := skipSuffixes fuel rest
    if behind.isEmpty then i + 1
    else stemLength fuel (i + 1 + (rest.length - behind.length)) behind
where
  /-- What is behind the suffixes that a text opens with. -/
  skipSuffixes : Nat → Text → Text
    | 0, t => t
    | fuel + 1, t =>
      match t with
      | '.' :: c :: rest =>
        if c.isAlpha || c == '~' then
          skipSuffixes fuel (rest.dropWhile fun c => c.isAlphanum || c == '~')
        else t
      | t => t

/-- Names that open with a dot come first, and of these a dot alone and then two dots alone. -/
def dotRank (t : Text) : Nat :=
  match t with
  | [] => 0
  | ['.'] => 1
  | ['.', '.'] => 2
  | '.' :: _ => 3
  | _ => 4

/-- Compares two names. -/
def compareNames (a b : Text) : Ordering :=
  let compareTexts (a b : Text) := compareFrom (a.length + b.length + 1) a b
  let stem (t : Text) := t.take (stemLength (t.length + 1) 0 t)
  match compare (dotRank a) (dotRank b) with
  | .eq =>
    if dotRank a < 3 then .eq
    else (compareTexts (stem a) (stem b)).then (compareTexts a b)
  | o => o

end VersionOrder

end Shell

end FuzzyFinder
