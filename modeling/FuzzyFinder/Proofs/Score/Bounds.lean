import FuzzyFinder.Proofs.Score.Placement
import FuzzyFinder.Score.Bounds

/-!
# FuzzyFinder — the bounds lose no placement

The two greedy passes bound where a needle byte may sit. The pass from the right keeps, at every
byte of the candidate, the rightmost placement of a suffix of the needle behind that byte
(`Backscan.Sound`). At the front of the candidate this is the rightmost placement of the whole
needle, or a proof that there is none (`rightmost_fits`, `rightmost_isRightmost`, `rightmost_none`).
The pass from the left stops at the first position that fits, so nothing that fits lies before it
(`leftmost_le`).
-/

namespace FuzzyFinder

variable {caseSensitive : Bool} {candidate needle : Bytes} {options : ScoreOptions}

/-! ## Placements whatever the dot policy -/

/-- The first of some positions, or the end of the candidate. -/
def bound (candidate : Bytes) (js : List Nat) : Nat := js.headD candidate.length

@[simp] theorem bound_nil : bound candidate [] = candidate.length := rfl

@[simp] theorem bound_cons (j : Nat) (js : List Nat) : bound candidate (j :: js) = j := rfl

/-- The positions are increasing, inside the candidate, and hold the needle's bytes. -/
def Fits (caseSensitive : Bool) (candidate : Bytes) : Bytes → List Nat → Prop
  | [], [] => True
  | n :: later, j :: js =>
    j < bound candidate js ∧ Byte.agrees caseSensitive (candidate.getD j 0) n = true
      ∧ Fits caseSensitive candidate later js
  | _, _ => False

@[simp] theorem fits_nil_iff (js : List Nat) : Fits caseSensitive candidate [] js ↔ js = [] := by
  cases js <;> simp [Fits]

@[simp] theorem fits_cons_iff (n : UInt8) (later : Bytes) (js : List Nat) :
    Fits caseSensitive candidate (n :: later) js ↔
      ∃ j js', js = j :: js' ∧ j < bound candidate js'
        ∧ Byte.agrees caseSensitive (candidate.getD j 0) n = true
        ∧ Fits caseSensitive candidate later js' := by
  cases js <;> simp [Fits]

theorem Fits.drop {earlier : Bytes} {js : List Nat}
    (h : Fits caseSensitive candidate (earlier ++ needle) js) :
    Fits caseSensitive candidate needle (js.drop earlier.length) := by
  induction earlier generalizing js with
  | nil => simpa using h
  | cons n rest ih =>
    rw [List.cons_append] at h
    obtain ⟨j, js', rfl, -, -, hfits⟩ := (fits_cons_iff ..).mp h
    exact ih hfits

/-- Every byte of the needle agrees with a byte of the candidate. -/
theorem Fits.exists_agrees {js : List Nat} (h : Fits caseSensitive candidate needle js) :
    bound candidate js ≤ candidate.length
      ∧ ∀ n ∈ needle, ∃ b ∈ candidate, Byte.agrees caseSensitive b n = true := by
  induction needle generalizing js with
  | nil => simp_all
  | cons m later ih =>
    obtain ⟨j, js', rfl, hlt, hagrees, hfits⟩ := (fits_cons_iff ..).mp h
    obtain ⟨hle, hexists⟩ := ih hfits
    have hj : j < candidate.length := Nat.lt_of_lt_of_le hlt hle
    refine ⟨Nat.le_of_lt hj, fun n hn => ?_⟩
    rcases List.mem_cons.mp hn with rfl | hn
    · rw [List.getD_eq_getElem _ _ hj] at hagrees
      exact ⟨candidate[j], List.getElem_mem hj, hagrees⟩
    · exact hexists n hn

theorem Chain.fits {start : Nat} {js : List Nat} (h : Chain candidate options start needle js) :
    Fits options.caseSensitive candidate needle js := by
  induction needle generalizing start js with
  | nil => simpa using h
  | cons n later ih =>
    obtain ⟨j, js', rfl, hreach, hchain⟩ := (chain_cons_iff ..).mp h
    refine (fits_cons_iff ..).mpr ⟨j, js', rfl, ?_, hreach.fits, ih hchain⟩
    cases js' with
    | nil => exact hreach.lt
    | cons j' _ =>
      have := hchain.pairwise.2 j' (by simp)
      rw [bound_cons]
      omega

/-! ## From the right -/

/-- Each position is the last one before the next at which its byte fits. -/
def IsRightmost (caseSensitive : Bool) (candidate : Bytes) : Bytes → List Nat → Prop
  | [], [] => True
  | n :: later, j :: js =>
    j < bound candidate js
      ∧ (∀ q < bound candidate js,
          Byte.agrees caseSensitive (candidate.getD q 0) n = true → q ≤ j)
      ∧ IsRightmost caseSensitive candidate later js
  | _, _ => False

theorem IsRightmost.length_eq {ps : List Nat} (h : IsRightmost caseSensitive candidate needle ps) :
    ps.length = needle.length := by
  induction needle generalizing ps with
  | nil => cases ps <;> simp_all [IsRightmost]
  | cons n later ih =>
    cases ps with
    | nil => exact h.elim
    | cons j js => simp [ih h.2.2]

theorem IsRightmost.drop {ps : List Nat} (h : IsRightmost caseSensitive candidate needle ps)
    (i : Nat) : IsRightmost caseSensitive candidate (needle.drop i) (ps.drop i) := by
  induction i generalizing needle ps with
  | zero => exact h
  | succ i ih =>
    cases needle <;> cases ps
    · simpa using h
    · exact h.elim
    · exact h.elim
    · exact ih h.2.2

/-- Behind the first position there is room for the rest of the needle. -/
theorem IsRightmost.bound_add_length_le {ps : List Nat}
    (h : IsRightmost caseSensitive candidate needle ps) :
    bound candidate ps + needle.length ≤ candidate.length := by
  induction needle generalizing ps with
  | nil => cases ps <;> simp_all [IsRightmost]
  | cons n later ih =>
    cases ps with
    | nil => exact h.elim
    | cons j js =>
      have := ih h.2.2
      have := h.1
      rw [bound_cons, List.length_cons]
      omega

theorem IsRightmost.pairwise {ps : List Nat} (h : IsRightmost caseSensitive candidate needle ps) :
    ps.Pairwise (· < ·) ∧ ∀ p ∈ ps, bound candidate ps ≤ p := by
  induction needle generalizing ps with
  | nil => cases ps <;> simp_all [IsRightmost]
  | cons n later ih =>
    cases ps with
    | nil => exact h.elim
    | cons j js =>
      obtain ⟨hpair, hle⟩ := ih h.2.2
      have hlt := h.1
      refine ⟨List.pairwise_cons.mpr ⟨?_, hpair⟩, ?_⟩
      · intro p hp
        have := hle p hp
        omega
      · intro p hp
        rcases List.mem_cons.mp hp with rfl | hp
        · exact Nat.le_refl _
        · have := hle p hp
          rw [bound_cons]
          omega

/-- A suffix of the positions begins with the position that its index names. -/
theorem IsRightmost.bound_drop {ps : List Nat} (h : IsRightmost caseSensitive candidate needle ps)
    {i : Nat} (hi : i < needle.length) : bound candidate (ps.drop i) = ps.getD i 0 := by
  have hlen := h.length_eq
  rw [List.drop_eq_getElem_cons (by omega), bound_cons, List.getD_eq_getElem _ _ (by omega)]

theorem IsRightmost.getD_lt {ps : List Nat} (h : IsRightmost caseSensitive candidate needle ps)
    {i : Nat} (hi : i < needle.length) : ps.getD i 0 < candidate.length := by
  have hroom := (h.drop i).bound_add_length_le
  rw [h.bound_drop hi, List.length_drop] at hroom
  omega

theorem IsRightmost.getD_le {ps : List Nat} (h : IsRightmost caseSensitive candidate needle ps)
    {i j : Nat} (hij : i ≤ j) (hj : j < needle.length) : ps.getD i 0 ≤ ps.getD j 0 := by
  have hlen := h.length_eq
  rcases Nat.eq_or_lt_of_le hij with rfl | hlt
  · exact Nat.le_refl _
  · rw [List.getD_eq_getElem _ _ (by omega), List.getD_eq_getElem _ _ (by omega)]
    exact Nat.le_of_lt (List.pairwise_iff_getElem.mp h.pairwise.1 i j (by omega) (by omega) hlt)

/-- **The rightmost placement lies behind every other one.** -/
theorem IsRightmost.bound_le {ps js : List Nat} (h : IsRightmost caseSensitive candidate needle ps)
    (hfits : Fits caseSensitive candidate needle js) : bound candidate js ≤ bound candidate ps := by
  induction needle generalizing ps js with
  | nil => cases ps <;> simp_all [IsRightmost]
  | cons n later ih =>
    obtain ⟨j, js', rfl, hlt, hagrees, hfits'⟩ := (fits_cons_iff ..).mp hfits
    cases ps with
    | nil => exact h.elim
    | cons p ps' =>
      have hle := ih h.2.2 hfits'
      exact h.2.1 j (by omega) hagrees

namespace Backscan

/-- The pass has seen the positions from `k` on: it has placed a suffix of the needle as far right
as possible, and the byte to be placed next fits nowhere between `k` and that suffix. -/
structure Sound (caseSensitive : Bool) (candidate needle : Bytes) (k : Nat) (s : Backscan) :
    Prop where
  placed : ∃ later, needle = s.unplaced.reverse ++ later
    ∧ Fits caseSensitive candidate later s.positions
    ∧ IsRightmost caseSensitive candidate later s.positions
  pending : ∀ n ∈ s.unplaced.head?, ∀ q, k ≤ q → q < bound candidate s.positions →
    Byte.agrees caseSensitive (candidate.getD q 0) n = false
  le_bound : k ≤ bound candidate s.positions

theorem sound_start (letters : LetterSet) :
    Sound caseSensitive candidate needle candidate.length
      { letters, unplaced := needle.reverse } where
  placed := ⟨[], by simp, trivial, trivial⟩
  pending n _ q hk hq := by
    rw [bound_nil] at hq
    omega
  le_bound := Nat.le_refl _

/-- A byte that agrees with the next needle byte takes it, and becomes the new bound. -/
theorem Sound.place {k : Nat} {letters : LetterSet} {n : UInt8} {earlier : Bytes}
    {positions : List Nat}
    (h : Sound caseSensitive candidate needle (k + 1)
      { letters, unplaced := n :: earlier, positions })
    (hagrees : Byte.agrees caseSensitive (candidate.getD k 0) n = true) (letters' : LetterSet) :
    Sound caseSensitive candidate needle k
      { letters := letters', unplaced := earlier, positions := k :: positions } := by
  obtain ⟨⟨later, hneedle, hfits, hright⟩, hpending, hle⟩ := h
  refine ⟨⟨n :: later, ?_, ⟨hle, hagrees, hfits⟩, ?_, ?_, hright⟩, ?_, ?_⟩
  · simpa using hneedle
  · exact hle
  · -- a later position would have been taken before
    intro q hq hagrees'
    by_contra hlt
    have := hpending n (by simp) q (by omega) hq
    rw [this] at hagrees'
    exact absurd hagrees' (by decide)
  · intro n' _ q hk hq
    rw [bound_cons] at hq
    omega
  · exact Nat.le_refl _

/-- A byte that does not agree stays without a needle byte. -/
theorem Sound.skip {k : Nat} {s : Backscan}
    (h : Sound caseSensitive candidate needle (k + 1) s)
    (hagrees : ∀ n ∈ s.unplaced.head?, Byte.agrees caseSensitive (candidate.getD k 0) n = false)
    (letters' : LetterSet) :
    Sound caseSensitive candidate needle k { s with letters := letters' } := by
  refine ⟨h.placed, ?_, Nat.le_of_succ_le h.le_bound⟩
  intro n hn q hk hq
  rcases Nat.eq_or_lt_of_le hk with rfl | hlt
  · exact hagrees n hn
  · exact h.pending n hn q hlt hq

/-- **Every step of the pass keeps it sound, up to the front of the candidate.** -/
theorem Sound.run {before seen : Bytes} {s : Backscan} (collect : Bool)
    (hcandidate : candidate = before.reverse ++ seen)
    (h : Sound caseSensitive candidate needle before.length s) :
    Sound caseSensitive candidate needle 0 (run caseSensitive collect before s) := by
  induction before generalizing seen s with
  | nil => exact h
  | cons b before ih =>
    have hsplit : candidate = before.reverse ++ b :: seen := by simpa using hcandidate
    have hbyte : candidate.getD before.length 0 = b := by
      rw [hsplit, List.getD_append_right _ _ _ _ (by simp)]
      simp
    obtain ⟨letters, unplaced, positions⟩ := s
    cases unplaced with
    | nil =>
      cases collect with
      | true => exact ih hsplit (h.skip (by simp) _)
      | false => exact ⟨h.placed, by simp [Backscan.run], Nat.zero_le _⟩
    | cons n earlier =>
      by_cases hagrees : Byte.agrees caseSensitive b n = true
      · rw [Backscan.run]
        simp only [hagrees, if_true]
        exact ih hsplit (h.place (by rw [hbyte]; exact hagrees) _)
      · rw [Backscan.run]
        simp only [hagrees]
        refine ih hsplit (h.skip ?_ _)
        intro n' hn'
        obtain rfl : n = n' := by simpa using hn'
        rw [hbyte]
        exact (Bool.not_eq_true _).mp hagrees

end Backscan

theorem backscan_sound (caseSensitive : Bool) (candidate needle : Bytes)
    (known : Option LetterSet) :
    Backscan.Sound caseSensitive candidate needle 0 (Backscan.run caseSensitive known.isNone
      candidate.reverse { unplaced := needle.reverse }) := by
  have hsplit : candidate = candidate.reverse.reverse ++ [] := by simp
  refine Backscan.Sound.run _ hsplit ?_
  rw [List.length_reverse]
  exact Backscan.sound_start _

theorem rightmost_spec {known : Option LetterSet} {ps : List Nat}
    (h : (rightmost caseSensitive candidate needle known).1 = some ps) :
    Fits caseSensitive candidate needle ps ∧ IsRightmost caseSensitive candidate needle ps := by
  have hsound := backscan_sound caseSensitive candidate needle known
  unfold rightmost at h
  dsimp only at h
  split at h
  · rename_i hempty
    obtain ⟨later, hneedle, hplaced⟩ := hsound.placed
    rw [List.isEmpty_iff.mp hempty] at hneedle
    obtain rfl : needle = later := by simpa using hneedle
    obtain rfl := Option.some_inj.mp h
    exact hplaced
  · exact absurd h (by simp)

/-- What the pass from the right returns is a placement. -/
theorem rightmost_fits {known : Option LetterSet} {ps : List Nat}
    (h : (rightmost caseSensitive candidate needle known).1 = some ps) :
    Fits caseSensitive candidate needle ps := (rightmost_spec h).1

/-- It is the rightmost placement. -/
theorem rightmost_isRightmost {known : Option LetterSet} {ps : List Nat}
    (h : (rightmost caseSensitive candidate needle known).1 = some ps) :
    IsRightmost caseSensitive candidate needle ps := (rightmost_spec h).2

/-- **The pass from the right fails only when nothing fits.** -/
theorem rightmost_none {known : Option LetterSet}
    (h : (rightmost caseSensitive candidate needle known).1 = none) (js : List Nat) :
    ¬ Fits caseSensitive candidate needle js := by
  intro hfits
  have hsound := backscan_sound caseSensitive candidate needle known
  unfold rightmost at h
  dsimp only at h
  split at h
  · exact absurd h (by simp)
  rename_i hrest
  obtain ⟨later, hneedle, -, hright⟩ := hsound.placed
  obtain ⟨n, earlier, hunplaced⟩ := List.exists_cons_of_ne_nil (by simpa using hrest)
  rw [hunplaced, List.reverse_cons, List.append_assoc, List.singleton_append] at hneedle
  rw [hneedle] at hfits
  -- the byte that was left over would have had to sit before the suffix that was placed
  obtain ⟨q, qs, -, hlt, hagrees, hfits'⟩ := (fits_cons_iff ..).mp hfits.drop
  have hle := hright.bound_le hfits'
  have hpending := hsound.pending n (by simp [hunplaced]) q (Nat.zero_le q) (by omega)
  rw [hpending] at hagrees
  exact absurd hagrees (by decide)

/-! ## From the left -/

@[simp] theorem length_leftmost (start : Nat) :
    (leftmost caseSensitive candidate start needle).length = needle.length := by
  induction needle generalizing start with
  | nil => rfl
  | cons n later ih => simp [leftmost, ih]

/-- Nothing that fits lies between `start` and the position found. -/
theorem leftmost_head_le {start j : Nat} {n : UInt8} {later : Bytes} (hstart : start ≤ j)
    (hlt : j < candidate.length) (hfits : Byte.agrees caseSensitive (candidate.getD j 0) n = true) :
    (leftmost caseSensitive candidate start (n :: later)).getD 0 0 ≤ j := by
  have hj : j - start < (candidate.drop start).length := by
    rw [List.length_drop]
    omega
  have hbyte : (candidate.drop start)[j - start] = candidate.getD j 0 := by
    rw [List.getElem_drop, List.getD_eq_getElem _ _ hlt]
    congr 1
    omega
  simp only [leftmost, List.getD_cons_zero]
  split
  · rename_i offset hfind
    obtain ⟨hoffset, -, hbefore⟩ := List.findIdx?_eq_some_iff_getElem.mp hfind
    by_contra hgt
    have hgt' : j < start + offset := Nat.lt_of_not_le hgt
    have := hbefore (j - start) (by omega)
    rw [hbyte] at this
    exact this hfits
  · rename_i hnone
    rw [List.findIdx?_eq_none_iff] at hnone
    have := hnone _ (List.getElem_mem hj)
    rw [hbyte, hfits] at this
    exact absurd this (by decide)

/-- **A byte that fits behind the leftmost position of the byte before lies behind its own.** -/
theorem leftmost_le {start i j : Nat} (hi : i < needle.length) (hlt : j < candidate.length)
    (hstart : scanStart start (leftmost caseSensitive candidate start needle) i ≤ j)
    (hfits : Byte.agrees caseSensitive (candidate.getD j 0) (needle.getD i 0) = true) :
    (leftmost caseSensitive candidate start needle).getD i 0 ≤ j := by
  induction needle generalizing start i with
  | nil => simp at hi
  | cons n later ih =>
    cases i with
    | zero => exact leftmost_head_le hstart hlt hfits
    | succ i =>
      refine ih (by simpa using hi) ?_ hfits
      cases i <;> exact hstart

end FuzzyFinder
