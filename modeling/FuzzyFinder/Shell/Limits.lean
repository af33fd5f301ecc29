import FuzzyFinder.Shell.Reply

/-!
# FuzzyFinder — limits

A shell has limits on what it and its commands may use, a soft one that holds and a hard one that
the soft one cannot exceed. Limits are counted in units of their own. A hard limit once lowered
cannot be raised again. The limits on time, on the sizes of files and on descriptors are kept; the
others are so wide that no script comes up to them.
-/

namespace FuzzyFinder

namespace Shell

namespace Limits

/-- A limited resource. -/
structure Resource where
  letter : Char
  name : String
  /-- The unit in which it is shown. -/
  unit : Nat

/-- The resources in the order in which they are listed. -/
def resources : List Resource :=
  [⟨'t', "time(seconds)", 1⟩, ⟨'f', "file(blocks)", 512⟩, ⟨'d', "data(kbytes)", 1024⟩,
    ⟨'s', "stack(kbytes)", 1024⟩, ⟨'c', "coredump(blocks)", 512⟩, ⟨'m', "memory(kbytes)", 1024⟩,
    ⟨'l', "locked memory(kbytes)", 1024⟩, ⟨'p', "process", 1⟩, ⟨'n', "nofiles", 1⟩,
    ⟨'v', "vmemory(kbytes)", 1024⟩, ⟨'w', "locks", 1⟩, ⟨'r', "rtprio", 1⟩]

/-- The numbers of limits are less than this. -/
def size : Nat := 0x10000000000000000

/-- The number that stands for no limit. -/
def unlimited : Nat := size - 1

/-- The limits at the beginning. -/
def initial (letter : Char) : Limit :=
  match letter with
  | 'c' => ⟨0, unlimited⟩
  | 'l' => ⟨8388608, 8388608⟩
  | 'n' => ⟨20000, 20000⟩
  | 'p' => ⟨128619, 128619⟩
  | 'r' => ⟨0, 0⟩
  | 's' => ⟨8388608, unlimited⟩
  | _ => ⟨unlimited, unlimited⟩

/-- The limits on a resource. -/
def limitOn (s : State) (r : Resource) : Limit := (s.limits.lookup r.letter).getD (initial r.letter)

/-- Which of the limits a call is about. -/
inductive Side where
  | soft | hard | both
deriving DecidableEq

/-- A limit as it is shown. -/
def shown (side : Side) (l : Limit) (unit : Nat) : Text :=
  let n := if side == .hard then l.hard else l.soft
  if n == unlimited then "unlimited".toList
  else
    let value : Int := Int.ofNat (n / unit)
    Text.ofInt (value.bmod size)

/-- A line that shows a limit with its name. -/
def line (s : State) (side : Side) (r : Resource) : Text :=
  let name := Text.ofString r.name
  name ++ List.replicate (20 - name.length) ' ' ++ ' ' :: shown side (limitOn s r) r.unit

/-- A limit in an argument, counted in units. -/
def readAmount (unit : Nat) (t : Text) : Run Nat := do
  if t == "unlimited".toList then return unlimited
  unless t.all Char.isDigit do fail (Text.ofString "bad number")
  return Text.valueIn 10 t * unit % size

/-- Sets a limit. -/
def put (side : Side) (r : Resource) (n : Nat) : Run Unit := do
  let refuse (reason : String) : Run Unit :=
    fail (Text.ofString ("error setting limit (" ++ reason ++ ")"))
  let old := limitOn (← get) r
  let new : Limit :=
    { soft := if side == .hard then old.soft else n, hard := if side == .soft then old.hard else n }
  if new.hard < new.soft then refuse "Invalid argument"
  else if old.hard < new.hard then refuse "Operation not permitted"
  else modify fun s => { s with limits := putEntry r.letter (some new) s.limits }

/-- Shows and sets limits. -/
def limit (arguments : List Text) : Run Reply := do
  let (switches, arguments) ← takeSwitches "HSatfdscmlpnvwr" arguments
  let letters := switches.map (·.letter)
  let side := match (letters.filter fun c => c == 'H' || c == 'S').getLast? with
    | some 'H' => Side.hard
    | some _ => .soft
    | none => .both
  let all := letters.contains 'a'
  let what := (letters.filter fun c => !("HSa".toList.contains c)).getLast?.getD 'f'
  match resources.find? (·.letter == what), arguments with
  | none, _ => return {}
  | some _, _ :: _ :: _ => fail (Text.ofString "too many arguments")
  | some r, [a] =>
    if all then fail (Text.ofString "too many arguments")
    put side r (← readAmount r.unit a)
    return {}
  | some r, [] =>
    let s ← get
    if all then return .lines (resources.map (line s side))
    return .lines [shown side (limitOn s r) r.unit]

end Limits

end Shell

end FuzzyFinder
