import FuzzyFinder.Proofs.Score.Checked.Bounds
import FuzzyFinder.Proofs.Score.Rate

/-!
# FuzzyFinder — scoring never leaves its arrays

The search reads the candidate, the needle, the bounds and the rows by index, and gets most of the
indices by adding to others or by taking one from another. A function whose name ends in a question
mark is the one without it with all of this checked: an index that misses its array, a difference
below zero, a sum beyond the length of the candidate or a division by zero makes the answer `none`.
That never happens, whatever the candidate, the needle, the switches and the cached letters are
(`rateBytes_checked`).

What keeps the indices inside is that the pass from the right has found its positions inside the
candidate, each no further behind than the last, which decides the width of the rows
(`Search.InRange`); what keeps the differences from falling below zero is that a scan begins right
behind the position it is to follow.
-/

namespace FuzzyFinder

variable {candidate needle : Bytes} {options : ScoreOptions}

/-! ## Hidden components -/

def opensHidden? (hay : Array UInt8) (j : Nat) : Option Bool :=
  hay[j]?.bind fun b =>
    if b == Byte.dot then
      if j == 0 then some true
      else (j.psub 1).bind fun k => hay[k]?.map fun before => before == Byte.slash
    else some false

theorem opensHidden?_eq_some {hay : Array UInt8} {j : Nat} (hj : j < hay.size) :
    opensHidden? hay j
      = some (hay.getD j 0 == Byte.dot && (j == 0 || hay.getD (j - 1) 0 == Byte.slash)) := by
  rw [opensHidden?, getElem?_eq_some_getD hj 0, Option.bind_some]
  cases hay.getD j 0 == Byte.dot with
  | false => rfl
  | true =>
    cases j with
    | zero => rfl
    | succ k =>
      have hpsub : (k + 1).psub 1 = some k := Nat.psub_eq_sub (Nat.succ_pos k)
      rw [hpsub, Option.bind_some, getElem?_eq_some_getD (Nat.lt_of_succ_lt hj) 0]
      rfl

/-- Whether some path component opens with a dot, asked position by position. -/
def hasHiddenComponent? (candidate : Bytes) : Option Bool :=
  (List.range candidate.length).anyM (opensHidden? candidate.toArray)

theorem anyM_eq_some {α : Type} {p : α → Option Bool} {q : α → Bool} {l : List α}
    (h : ∀ a ∈ l, p a = some (q a)) : l.anyM p = some (l.any q) := by
  induction l with
  | nil => rfl
  | cons a l ih =>
    rw [List.anyM, h a List.mem_cons_self, List.any_cons]
    cases q a with
    | true => rfl
    | false => exact ih fun a' ha' => h a' (List.mem_cons_of_mem a ha')

theorem hasHiddenComponent?_eq_some (candidate : Bytes) :
    hasHiddenComponent? candidate = some (hasHiddenComponent candidate) := by
  have hopens : ∀ j ∈ List.range candidate.length,
      opensHidden? candidate.toArray j = some (decide (OpensHidden candidate j)) := by
    intro j hj
    rw [opensHidden?_eq_some (List.mem_range.mp hj), Option.some_inj, Bool.eq_iff_iff]
    simp [OpensHidden, Array.getD_eq_getD_getElem?]
  rw [hasHiddenComponent?, anyM_eq_some hopens, Option.some_inj, Bool.eq_iff_iff,
    hasHiddenComponent_iff, List.any_eq_true]
  constructor
  · rintro ⟨j, -, hj⟩
    exact ⟨j, of_decide_eq_true hj⟩
  · rintro ⟨j, hj⟩
    exact ⟨j, List.mem_range.mpr hj.lt, decide_eq_true hj⟩

namespace Search

/-! ## Setting up -/

/-- The quotient `x / n`, unless `n` is zero. -/
def over? (x : Score) (n : Nat) : Option Score :=
  if n = 0 then none else some (x / Float32.ofNat n)

theorem over?_eq_some {n : Nat} (hn : 0 < n) (x : Score) :
    over? x n = some (x / Float32.ofNat n) := if_neg (Nat.ne_of_gt hn)

def perByteOf? (needleLength candidateLength : Nat) : Option Score :=
  (over? 1 needleLength).bind fun a => (over? 1 candidateLength).map fun b => (a + b) / 2

def ofBytes? (candidate needle : Bytes) (rightmost : Array Nat) (options : ScoreOptions) :
    Option Search :=
  (perByteOf? needle.length candidate.length).bind fun perByte =>
    (leftmost? options.caseSensitive candidate 0 needle).map fun leftmost => {
      hay := candidate.toArray
      needle := needle.toArray
      leftmost := leftmost.toArray
      rightmost
      perByte
      options }

theorem ofBytes?_eq_some {ps : List Nat} (hne : needle ≠ [])
    (hfits : Fits options.caseSensitive candidate needle ps) (hpos : 0 < candidate.length) :
    ofBytes? candidate needle ps.toArray options = some (ofBytes candidate needle ps options) := by
  rw [ofBytes?, perByteOf?, over?_eq_some (List.length_pos_iff.mpr hne), over?_eq_some hpos,
    leftmost?_eq_some hfits (Nat.zero_le _)]
  rfl

/-! ## Ranges -/

/-- Every needle byte has its bounds, and the last positions lie inside the candidate, none behind
that of the last byte. -/
structure InRange (s : Search) : Prop where
  needle_pos : 0 < s.needle.size
  size_leftmost : s.leftmost.size = s.needle.size
  size_rightmost : s.rightmost.size = s.needle.size
  last_lt : ∀ i < s.needle.size, s.last i < s.hay.size
  last_le_top : ∀ i < s.needle.size, s.last i ≤ s.last (s.needle.size - 1)

theorem ofBytes_inRange {ps : List Nat} (hne : needle ≠ [])
    (h : IsRightmost options.caseSensitive candidate needle ps) :
    (ofBytes candidate needle ps options).InRange := by
  refine ⟨List.length_pos_iff.mpr hne, length_leftmost 0, h.length_eq, ?_, ?_⟩
  · intro i hi
    rw [ofBytes_last]
    exact h.getD_lt hi
  · intro i hi
    rw [ofBytes_last, ofBytes_last]
    exact h.getD_le (Nat.le_pred_of_lt hi) (Nat.sub_lt (List.length_pos_iff.mpr hne) Nat.one_pos)

variable {s : Search} {i j start : Nat} {previous : Option Nat} {best : Score} {rest next : Row}

namespace InRange

theorem leftmost_get (h : s.InRange) (hi : i < s.needle.size) :
    s.leftmost[i]? = some (s.first i) :=
  getElem?_eq_some_getD (by rw [h.size_leftmost]; exact hi) 0

theorem rightmost_get (h : s.InRange) (hi : i < s.needle.size) :
    s.rightmost[i]? = some (s.last i) :=
  getElem?_eq_some_getD (by rw [h.size_rightmost]; exact hi) 0

end InRange

/-! ## One position -/

def fits? (s : Search) (i j : Nat) : Option Bool :=
  s.hay[j]?.bind fun b => s.needle[i]?.map fun n => Byte.agrees s.options.caseSensitive b n

def blocked? (s : Search) (i j : Nat) : Option Bool :=
  (opensHidden? s.hay j).bind fun hidden =>
    if hidden then s.needle[i]?.map fun n => s.options.dotPolicy.blocks n else some false

def weight? (before here : UInt8) (distance : Nat) : Option Score :=
  if before == Byte.slash then some 0.9
  else if before == 0x2d || before == 0x5f || before == Byte.space || Byte.isDigit before then
    some 0.8
  else if Byte.isLower before && Byte.isUpper here then some 0.8
  else if before == Byte.dot then some 0.7
  else over? 0.75 distance

def contribution? (s : Search) (j : Nat) (previous : Option Nat) : Option Score :=
  (match previous with
    | some p => j.psub p
    | none => within? s.hay.size (j + 1)).bind fun distance =>
  if distance ≤ 1 then some s.perByte
  else
    (j.psub 1).bind fun k => s.hay[k]?.bind fun before => s.hay[j]?.bind fun here =>
      (weight? before here distance).map fun weight => s.perByte * weight

theorem fits?_eq_some (hi : i < s.needle.size) (hj : j < s.hay.size) :
    s.fits? i j = some (s.fits i j) := by
  rw [fits?, getElem?_eq_some_getD hj 0, getElem?_eq_some_getD hi 0]
  rfl

theorem blocked?_eq_some (hi : i < s.needle.size) (hj : j < s.hay.size) :
    s.blocked? i j = some (s.blocked i j) := by
  rw [blocked?, opensHidden?_eq_some hj, getElem?_eq_some_getD hi 0, blocked]
  change (some (s.opensHidden j)).bind _ = _
  cases s.opensHidden j <;> rfl

theorem weight?_eq_some {distance : Nat} (h : 0 < distance) (before here : UInt8) :
    weight? before here distance = some (weight before here distance) := by
  unfold weight? weight
  rw [over?_eq_some h]
  split_ifs <;> rfl

/-- A position contributes when the previous one does not lie behind it: there is a byte before it
unless it follows the previous one or opens the candidate. -/
theorem contribution?_eq_some (hj : j < s.hay.size) (hprevious : ∀ p ∈ previous, p ≤ j) :
    s.contribution? j previous = some (s.contribution j previous) := by
  -- a distance above one leaves a byte in front of `j`
  have hfrom : ∀ distance ≤ j + 1, (if distance ≤ 1 then some s.perByte
      else (j.psub 1).bind fun k => s.hay[k]?.bind fun before => s.hay[j]?.bind fun here =>
        (weight? before here distance).map fun weight => s.perByte * weight)
      = some (if distance ≤ 1 then s.perByte
        else s.perByte * weight (s.byteAt (j - 1)) (s.byteAt j) distance) := by
    intro distance hle
    by_cases hnear : distance ≤ 1
    · rw [if_pos hnear, if_pos hnear]
    · have hbefore : j - 1 < s.hay.size := by omega
      rw [if_neg hnear, if_neg hnear, Nat.psub_eq_sub (by omega), Option.bind_some,
        getElem?_eq_some_getD hbefore 0, Option.bind_some, getElem?_eq_some_getD hj 0,
        Option.bind_some, weight?_eq_some (by omega), Option.map_some]
      rfl
  cases previous with
  | none =>
    rw [contribution?, within?_eq_some (Nat.succ_le_of_lt hj), Option.bind_some]
    exact hfrom (j + 1) (Nat.le_refl _)
  | some p =>
    rw [contribution?, Nat.psub_eq_sub (hprevious p rfl), Option.bind_some]
    exact hfrom (j - p) (Nat.le_succ_of_le (Nat.sub_le j p))

/-! ## Scans -/

def scan? (s : Search) (i : Nat) (previous : Option Nat) (rest : Row) :
    (count j : Nat) → (best : Score) → Option Score
  | 0, _, best => some best
  | count + 1, j, best =>
    (s.blocked? i j).bind fun blocked =>
      if blocked then some best
      else (s.fits? i j).bind fun fits =>
        if fits then
          (s.contribution? j previous).bind fun part => rest[j]?.bind fun cell =>
            let total := part + cell
            let best := if best < total then total else best
            if s.options.recurse then scan? s i previous rest count (j + 1) best else some best
        else scan? s i previous rest count (j + 1) best

def bestFrom? (s : Search) (i start : Nat) (previous : Option Nat) (rest : Row) : Option Score :=
  s.rightmost[i]?.bind fun last =>
    -- a range of positions, empty when `start` lies behind the last one
    s.scan? i previous rest (last + 1 - start) start Score.unreachable

/-- **A scan stays inside the candidate and the row**: it ends at the last position of its byte, and
it begins behind the position it follows. -/
theorem scan?_eq_some (h : s.InRange) (hi : i < s.needle.size) (hrest : s.last i < rest.size)
    (count : Nat) (hprevious : ∀ p ∈ previous, p ≤ j)
    (hlast : count = 0 ∨ j + count ≤ s.last i + 1) :
    s.scan? i previous rest count j best = some (s.scan i previous rest count j best) := by
  induction count generalizing j best with
  | zero => rfl
  | succ count ih =>
    have hlt := h.last_lt i hi
    have hj : j < s.hay.size := by omega
    have hrow : j < rest.size := by omega
    have hnext : ∀ p ∈ previous, p ≤ j + 1 := fun p hp => Nat.le_succ_of_le (hprevious p hp)
    rw [scan?, scan, blocked?_eq_some hi hj, Option.bind_some]
    by_cases hblocked : s.blocked i j = true
    · rw [if_pos hblocked, if_pos hblocked]
    rw [if_neg hblocked, if_neg hblocked, fits?_eq_some hi hj, Option.bind_some]
    by_cases hfits : s.fits i j = true
    · rw [if_pos hfits, if_pos hfits, contribution?_eq_some hj hprevious, Option.bind_some,
        getElem?_eq_some_getD hrow Score.unreachable, Option.bind_some]
      dsimp only
      by_cases hrecurse : s.options.recurse = true
      · rw [if_pos hrecurse, if_pos hrecurse]
        exact ih hnext (by omega)
      · rw [if_neg hrecurse, if_neg hrecurse]
    · rw [if_neg hfits, if_neg hfits]
      exact ih hnext (by omega)

theorem bestFrom?_eq_some (h : s.InRange) (hi : i < s.needle.size) (hrest : s.last i < rest.size)
    (hprevious : ∀ p ∈ previous, p ≤ start) :
    s.bestFrom? i start previous rest = some (s.bestFrom i start previous rest) := by
  rw [bestFrom?, h.rightmost_get hi, Option.bind_some]
  exact scan?_eq_some h hi hrest _ hprevious (by omega)

/-! ## Levels -/

def fillRow? (s : Search) (i : Nat) (rest : Row) : (count j : Nat) → (next : Row) → Option Row
  | 0, _, next => some next
  | count + 1, j, next =>
    (s.fits? i j).bind fun fits =>
      (if fits then
        (within? s.hay.size (j + 1)).bind fun start =>
          (s.bestFrom? (i + 1) start (some j) rest).bind fun cell => put? next j cell
      else some next).bind fun next => fillRow? s i rest count (j + 1) next

def levels? (s : Search) : (i : Nat) → (rest next : Row) → Option Row
  | 0, rest, _ => some rest
  | i + 1, rest, next =>
    s.leftmost[i]?.bind fun first => s.rightmost[i]?.bind fun last =>
      (s.fillRow? i rest (last + 1 - first) first next).bind fun filled => levels? s i filled rest

def best? (s : Search) : Option Score :=
  (s.needle.size.psub 1).bind fun top => s.rightmost[top]?.bind fun last =>
    -- the rows end where the last needle byte may sit at the latest
    (within? s.hay.size (last + 1)).bind fun width =>
      (s.levels? top (.replicate width 0) (.replicate width Score.unreachable)).bind fun row =>
        s.bestFrom? 0 0 none row

/-- The width of the rows. -/
def width (s : Search) : Nat := s.last (s.needle.size - 1) + 1

theorem InRange.last_lt_width (h : s.InRange) (hi : i < s.needle.size) : s.last i < s.width :=
  Nat.lt_succ_of_le (h.last_le_top i hi)

theorem fillRow?_eq_some (h : s.InRange) (hi : i + 1 < s.needle.size) (hrest : rest.size = s.width)
    (hnext : next.size = s.width) (count : Nat) (hlast : count = 0 ∨ j + count ≤ s.last i + 1) :
    s.fillRow? i rest count j next = some (s.fillRow i rest count j next) := by
  induction count generalizing j next with
  | zero => rfl
  | succ count ih =>
    have hi' : i < s.needle.size := Nat.lt_of_succ_lt hi
    have hlt := h.last_lt i hi'
    have hwidth := h.last_lt_width hi'
    have hwidth' := h.last_lt_width hi
    have hj : j < s.hay.size := by omega
    rw [fillRow?, fillRow, fits?_eq_some hi' hj, Option.bind_some]
    by_cases hfits : s.fits i j = true
    · -- the rows reach to the last position of every byte, so there is a cell
      have hcell : j < next.size := by omega
      rw [if_pos hfits, if_pos hfits, within?_eq_some (Nat.succ_le_of_lt hj), Option.bind_some,
        bestFrom?_eq_some h hi (by omega) (by simp), Option.bind_some, put?_eq_some hcell,
        Option.bind_some, Array.setIfInBounds_def, dif_pos hcell]
      exact ih (by rw [Array.size_set]; exact hnext) (by omega)
    · rw [if_neg hfits, if_neg hfits, Option.bind_some]
      exact ih hnext (by omega)

theorem levels?_eq_some (h : s.InRange) (hi : i < s.needle.size) (hrest : rest.size = s.width)
    (hnext : next.size = s.width) :
    s.levels? i rest next = some (s.levels i rest next) := by
  induction i generalizing rest next with
  | zero => rfl
  | succ i ih =>
    have hi' : i < s.needle.size := Nat.lt_of_succ_lt hi
    rw [levels?, levels, h.leftmost_get hi', Option.bind_some, h.rightmost_get hi',
      Option.bind_some, fillRow?_eq_some h hi hrest hnext _ (by omega), Option.bind_some]
    -- the rows trade places, and are as wide as before
    exact ih hi' (by rw [size_fillRow]; exact hnext) hrest

theorem size_levels (s : Search) (i : Nat) (rest next : Row) (h : rest.size = next.size) :
    (s.levels i rest next).size = rest.size := by
  induction i generalizing rest next with
  | zero => rfl
  | succ i ih =>
    rw [levels, ih _ _ (by rw [size_fillRow, h]), size_fillRow, h]

/-- **The search stays inside its arrays.** -/
theorem best?_eq_some (h : s.InRange) : s.best? = some s.best := by
  have htop : s.needle.size - 1 < s.needle.size := Nat.sub_lt h.needle_pos Nat.one_pos
  have hrest : (Array.replicate s.width (0 : Score)).size = s.width := Array.size_replicate
  have hnext : (Array.replicate s.width Score.unreachable).size = s.width := Array.size_replicate
  have hrow : s.last 0 < (s.levels (s.needle.size - 1) (.replicate s.width 0)
      (.replicate s.width Score.unreachable)).size := by
    rw [size_levels _ _ _ _ (hrest.trans hnext.symm), hrest]
    exact h.last_lt_width h.needle_pos
  rw [best?, Nat.psub_eq_sub h.needle_pos, Option.bind_some, h.rightmost_get htop,
    Option.bind_some, within?_eq_some (Nat.succ_le_of_lt (h.last_lt _ htop)), Option.bind_some]
  change (s.levels? (s.needle.size - 1) (.replicate s.width 0)
    (.replicate s.width Score.unreachable)).bind _ = _
  rw [levels?_eq_some h htop hrest hnext, Option.bind_some,
    bestFrom?_eq_some h h.needle_pos hrow (by simp)]
  rfl

/-- A last position outside the candidate does not go unnoticed. -/
example : (ofBytes [0x61] [0x61] [1] {}).best? = none := rfl

end Search

/-! ## Ratings -/

def rateBytes? (candidate needle : Bytes) (letters : LetterSet) (known : Option LetterSet)
    (options : ScoreOptions) : Option (Score × Option LetterSet) :=
  if needle.isEmpty then
    (if options.dotPolicy.conceals then hasHiddenComponent? candidate else some false).map
      fun concealed => (if concealed then Score.concealed else Score.perfect, known)
  else if isExact options.caseSensitive candidate needle then
    (if options.neverShowDotFiles then hasHiddenComponent? candidate else some false).map
      fun concealed => (if concealed then Score.miss else Score.perfect, known)
  else if known.any (fun seen => !seen.contains letters) then some (Score.miss, known)
  else
    (rightmost? options.caseSensitive candidate needle.toArray known).bind fun
      | (none, known) => some (Score.miss, known)
      | (some positions, known) =>
        (Search.ofBytes? candidate needle positions options).bind fun s => s.best?.map fun best =>
          (if best.isFinite && Score.isMatch best then best else Score.miss, known)

theorem conceals?_eq_some (switch : Bool) (candidate : Bytes) :
    (if switch then hasHiddenComponent? candidate else some false)
      = some (switch && hasHiddenComponent candidate) := by
  cases switch with
  | true => exact hasHiddenComponent?_eq_some candidate
  | false => rfl

/-- **Scoring never leaves its arrays**, never takes a number from a smaller one and never divides by
zero, whatever it is given. -/
theorem rateBytes_checked (candidate needle : Bytes) (letters : LetterSet)
    (known : Option LetterSet) (options : ScoreOptions) :
    rateBytes? candidate needle letters known options
      = some (rateBytes candidate needle letters known options) := by
  unfold rateBytes? rateBytes
  rw [conceals?_eq_some, conceals?_eq_some, rightmost?_eq_some]
  by_cases hempty : needle.isEmpty = true
  · rw [if_pos hempty, if_pos hempty]
    rfl
  rw [if_neg hempty, if_neg hempty]
  by_cases hexact : isExact options.caseSensitive candidate needle = true
  · rw [if_pos hexact, if_pos hexact]
    rfl
  rw [if_neg hexact, if_neg hexact]
  by_cases hlacks : known.any (fun seen => !seen.contains letters) = true
  · rw [if_pos hlacks, if_pos hlacks]
  rw [if_neg hlacks, if_neg hlacks, Option.bind_some]
  cases hfound : rightmost options.caseSensitive candidate needle known with
  | mk found known' =>
    cases found with
    | none => rfl
    | some ps =>
      have hne : needle ≠ [] := fun h => hempty (List.isEmpty_iff.mpr h)
      obtain ⟨hfits, hright⟩ := rightmost_spec (congrArg Prod.fst hfound)
      -- a needle that fits has a byte, and so has the candidate
      have hpos : 0 < candidate.length := by
        have := hright.getD_lt (List.length_pos_iff.mpr hne)
        omega
      rw [Option.map_some]
      dsimp only
      rw [Search.ofBytes?_eq_some hne hfits hpos, Option.bind_some,
        Search.best?_eq_some (Search.ofBytes_inRange hne hright), Option.map_some]

end FuzzyFinder
