import FuzzyFinder.Proofs.Letters
import Mathlib.Data.Nat.PSub

/-!
# FuzzyFinder — the two passes stay inside their arrays

The pass from the right counts down the needle bytes that are still to be placed, reads them by
index and notes their positions in an array; the pass from the left adds to positions. Here both are
run once more with every access, every difference and every sum checked: what misses an array, falls
below zero or exceeds the length of the candidate makes the answer `none`. The pass from the right
never gets there (`rightmost?_eq_some`). Nor does the pass from the left when the needle fits, which
is all it is asked for (`leftmost?_eq_some`).
-/

namespace FuzzyFinder

universe u

variable {α : Type u}

/-! ## Checked steps -/

/-- The number `n`, unless it exceeds `limit`. What does not exceed the length of a byte string in
memory is a machine word. -/
def within? (limit n : Nat) : Option Nat := if n ≤ limit then some n else none

theorem within?_eq_some {limit n : Nat} (h : n ≤ limit) : within? limit n = some n := if_pos h

theorem getElem?_eq_some_getD {a : Array α} {i : Nat} (h : i < a.size) (d : α) :
    a[i]? = some (a.getD i d) := by
  rw [Array.getD_eq_getD_getElem?, Array.getElem?_eq_getElem h, Option.getD_some]

def put? (a : Array α) (i : Nat) (x : α) : Option (Array α) :=
  if h : i < a.size then some (a.set i x h) else none

theorem put?_eq_some {a : Array α} {i : Nat} (h : i < a.size) (x : α) :
    put? a i x = some (a.set i x h) := dif_pos h

/-- Adding a letter, with its number and the distance it is shifted by checked. -/
def LetterSet.insert? (s : LetterSet) (b : UInt8) : Option LetterSet :=
  let l := Byte.fold b
  if Byte.isLower l then do
    let shift ← within? 31 (← l.toNat.psub 0x61)
    return ⟨s.bits ||| ((1 : UInt32) <<< shift.toUInt32)⟩
  else some s

theorem LetterSet.insert?_eq_some (s : LetterSet) (b : UInt8) : s.insert? b = some (s.insert b) := by
  unfold insert? insert
  dsimp only
  split
  · rename_i hlower
    obtain ⟨hfirst, hlast⟩ := Bool.and_eq_true_iff.mp hlower
    have hfirst' : 0x61 ≤ (Byte.fold b).toNat := UInt8.le_iff_toNat_le.mp (of_decide_eq_true hfirst)
    have hlast' : (Byte.fold b).toNat ≤ 0x7a := UInt8.le_iff_toNat_le.mp (of_decide_eq_true hlast)
    have hshift : ((Byte.fold b).toNat - 0x61).toUInt32 = (Byte.fold b - 0x61).toUInt32 := by
      rw [← UInt32.toNat_inj, UInt8.toNat_toUInt32,
        UInt8.toNat_sub_of_le _ _ (of_decide_eq_true hfirst), Nat.toUInt32_eq, UInt32.toNat_ofNat',
        Nat.mod_eq_of_lt (by omega)]
      rfl
    rw [Nat.psub_eq_sub hfirst', ← hshift]
    simp only [Option.bind_eq_bind, Option.bind_some]
    rw [within?_eq_some (by omega)]
    rfl
  · rfl

/-! ## From the right -/

namespace Backscan

/-- The pass from the right with its notes in an array: cells from `remaining` on hold the positions
of the needle bytes that have been placed. -/
structure Cells where
  letters : LetterSet
  remaining : Nat
  positions : Array Nat

namespace Cells

def state (needle : Array UInt8) (c : Cells) : Backscan where
  letters := c.letters
  unplaced := (needle.toList.take c.remaining).reverse
  positions := c.positions.toList.drop c.remaining

/-- There is a cell for each needle byte, and no more are to be placed than there are. -/
structure InRange (needle : Array UInt8) (c : Cells) : Prop where
  remaining_le : c.remaining ≤ needle.size
  size_eq : c.positions.size = needle.size

end Cells

/-- The letters met once the byte `b` has been seen. -/
def met? (collect : Bool) (letters : LetterSet) (b : UInt8) : Option LetterSet :=
  if collect then letters.insert? b else some letters

theorem met?_eq_some (collect : Bool) (letters : LetterSet) (b : UInt8) :
    met? collect letters b = some (if collect then letters.insert b else letters) := by
  rw [met?, LetterSet.insert?_eq_some]
  exact (apply_ite some ..).symm

/-- Gives the byte `b` at position `p` to the last needle byte that is still to be placed, if the two
agree. -/
def place? (caseSensitive : Bool) (needle : Array UInt8) (b : UInt8) (p : Nat) (c : Cells) :
    Option Cells := do
  let i ← c.remaining.psub 1
  let n ← needle[i]?
  if Byte.agrees caseSensitive b n then
    let positions ← put? c.positions i p
    return { c with remaining := i, positions }
  else return c

def run? (caseSensitive collect : Bool) (needle : Array UInt8) : Bytes → Cells → Option Cells
  | [], c => some c
  | b :: before, c =>
    (met? collect c.letters b).bind fun letters =>
      if 0 < c.remaining then
        (place? caseSensitive needle b before.length { c with letters }).bind
          (run? caseSensitive collect needle before)
      else if collect then run? caseSensitive collect needle before { c with letters }
      else some c

variable {needle : Array UInt8} {c : Cells}

theorem Cells.state_succ {i : Nat} (hi : i < needle.size) (letters : LetterSet)
    (positions : Array Nat) :
    Cells.state needle { letters, remaining := i + 1, positions } = {
      letters
      unplaced := needle[i] :: (needle.toList.take i).reverse
      positions := positions.toList.drop (i + 1) } := by
  have hi' : i < needle.toList.length := hi
  rw [state, List.take_succ_eq_append_getElem hi', List.reverse_append]
  rfl

theorem drop_set {a : Array Nat} {i : Nat} (hi : i < a.size) (p : Nat) :
    (a.set i p hi).toList.drop i = p :: a.toList.drop (i + 1) := by
  have hi' : i < (a.toList.set i p).length := by
    rw [List.length_set]
    exact hi
  rw [Array.toList_set, List.drop_eq_getElem_cons hi', List.getElem_set_self,
    List.drop_set_of_lt (Nat.lt_succ_self i)]

theorem place?_spec (caseSensitive collect : Bool) (b : UInt8) (before : Bytes)
    (h : c.InRange needle) (hpos : 0 < c.remaining) :
    ∃ c', place? caseSensitive needle b before.length
        { c with letters := if collect then c.letters.insert b else c.letters } = some c' ∧
      c'.InRange needle ∧
      run caseSensitive collect (b :: before) (c.state needle)
        = run caseSensitive collect before (c'.state needle) := by
  obtain ⟨letters, remaining, positions⟩ := c
  obtain ⟨i, rfl⟩ : ∃ i, remaining = i + 1 := ⟨remaining - 1, (Nat.sub_add_cancel hpos).symm⟩
  obtain ⟨hi, hsize⟩ : i + 1 ≤ needle.size ∧ positions.size = needle.size := ⟨h.1, h.2⟩
  have hi' : i < positions.size := by omega
  have hpsub : (i + 1).psub 1 = some i := Nat.psub_eq_sub (Nat.succ_pos i)
  rw [Cells.state_succ hi, run, place?]
  simp only [hpsub, Option.bind_eq_bind, Option.bind_some, Array.getElem?_eq_getElem hi]
  by_cases hagrees : Byte.agrees caseSensitive b needle[i] = true
  · rw [if_pos hagrees, if_pos hagrees, put?_eq_some hi']
    refine ⟨_, rfl, ⟨Nat.le_of_succ_le hi, ?_⟩, ?_⟩
    · rw [Array.size_set, hsize]
    · rw [Cells.state, drop_set]
  · rw [if_neg hagrees, if_neg hagrees]
    refine ⟨_, rfl, ⟨hi, hsize⟩, ?_⟩
    rw [Cells.state_succ hi]

/-- **Every step of the pass stays inside the arrays**, and the cells keep standing for its state. -/
theorem run?_spec (caseSensitive collect : Bool) (before : Bytes) (h : c.InRange needle) :
    ∃ c', run? caseSensitive collect needle before c = some c' ∧ c'.InRange needle ∧
      run caseSensitive collect before (c.state needle) = c'.state needle := by
  induction before generalizing c with
  | nil => exact ⟨c, rfl, h, rfl⟩
  | cons b before ih =>
    rw [run?, met?_eq_some, Option.bind_some]
    by_cases hpos : 0 < c.remaining
    · obtain ⟨c', hplace, hrange, hstep⟩ := place?_spec caseSensitive collect b before h hpos
      rw [if_pos hpos, hplace, Option.bind_some, hstep]
      exact ih hrange
    · -- nothing is left to place, and the pass goes on for the letters' sake only
      obtain ⟨letters, remaining, positions⟩ := c
      obtain rfl : remaining = 0 := Nat.eq_zero_of_not_pos hpos
      rw [if_neg hpos]
      cases collect with
      | true =>
        exact ih (c := { letters := letters.insert b, remaining := 0, positions })
          ⟨h.remaining_le, h.size_eq⟩
      | false => exact ⟨_, rfl, h, rfl⟩

namespace Cells

/-- The pass begins with an empty cell for each needle byte. -/
def start (needle : Array UInt8) : Cells where
  letters := .empty
  remaining := needle.size
  positions := .replicate needle.size 0

theorem start_inRange (needle : Array UInt8) : (start needle).InRange needle :=
  ⟨Nat.le_refl _, Array.size_replicate⟩

theorem state_start (needle : Bytes) :
    (start needle.toArray).state needle.toArray = { unplaced := needle.reverse } := by
  simp [start, state]

theorem InRange.isEmpty_unplaced (h : c.InRange needle) :
    (c.state needle).unplaced.isEmpty = decide (c.remaining = 0) := by
  rw [state, List.isEmpty_reverse, Bool.eq_iff_iff, List.isEmpty_iff_length_eq_zero,
    List.length_take_of_le h.remaining_le, decide_eq_true_iff]

end Cells

end Backscan

/-- `rightmost` with every access checked; the positions stay in their array. -/
def rightmost? (caseSensitive : Bool) (candidate : Bytes) (needle : Array UInt8)
    (known : Option LetterSet) : Option (Option (Array Nat) × Option LetterSet) :=
  (Backscan.run? caseSensitive known.isNone needle candidate.reverse (.start needle)).map fun c =>
    (if c.remaining = 0 then some c.positions else none, known.or (some c.letters))

/-- **The pass from the right never leaves its arrays.** -/
theorem rightmost?_eq_some (caseSensitive : Bool) (candidate needle : Bytes)
    (known : Option LetterSet) :
    rightmost? caseSensitive candidate needle.toArray known
      = some ((rightmost caseSensitive candidate needle known).1.map List.toArray,
        (rightmost caseSensitive candidate needle known).2) := by
  obtain ⟨c, hrun, hrange, hstate⟩ := Backscan.run?_spec caseSensitive known.isNone
    candidate.reverse (Backscan.Cells.start_inRange needle.toArray)
  rw [Backscan.Cells.state_start] at hstate
  rw [rightmost?, hrun, Option.map_some, rightmost, hstate, hrange.isEmpty_unplaced]
  by_cases hzero : c.remaining = 0
  · -- every cell holds a position
    simp [hzero, Backscan.Cells.state]
  · simp [hzero, Backscan.Cells.state]

/-! ## From the left -/

def leftmost? (caseSensitive : Bool) (candidate : Bytes) (start : Nat) : Bytes → Option (List Nat)
  | [] => some []
  | n :: later => do
    let position ← match (candidate.drop start).findIdx? (Byte.agrees caseSensitive · n) with
      | some offset => within? candidate.length (start + offset)
      | none => some candidate.length
    let next ← within? candidate.length (position + 1)
    let positions ← leftmost? caseSensitive candidate next later
    return position :: positions

/-- **The pass from the left stays inside a candidate that the needle fits**: each position it finds
lies no further behind than that of the same byte in any placement. -/
theorem leftmost?_eq_some {caseSensitive : Bool} {candidate needle : Bytes} {start : Nat}
    {js : List Nat} (h : Fits caseSensitive candidate needle js)
    (hstart : start ≤ bound candidate js) :
    leftmost? caseSensitive candidate start needle
      = some (leftmost caseSensitive candidate start needle) := by
  induction needle generalizing start js with
  | nil => rfl
  | cons n later ih =>
    obtain ⟨j, js', rfl, hlt, hagrees, hlater⟩ := (fits_cons_iff ..).mp h
    have hbound := hlater.exists_agrees.1
    have hle : (leftmost caseSensitive candidate start (n :: later)).getD 0 0 ≤ j :=
      leftmost_head_le hstart (by omega) hagrees
    rw [leftmost?, leftmost]
    rw [leftmost, List.getD_cons_zero] at hle
    cases hfind : (candidate.drop start).findIdx? (Byte.agrees caseSensitive · n) with
    | none =>
      -- some position fits, so one is found
      rw [hfind] at hle
      have hle' : candidate.length ≤ j := hle
      omega
    | some offset =>
      rw [hfind] at hle
      have hle' : start + offset ≤ j := hle
      have hlast : start + offset + 1 ≤ bound candidate js' := by omega
      dsimp only
      rw [within?_eq_some (by omega), Option.bind_eq_bind, Option.bind_some,
        within?_eq_some (by omega), Option.bind_eq_bind, Option.bind_some, ih hlater hlast]
      rfl

end FuzzyFinder
