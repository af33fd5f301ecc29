import Mathlib.Algebra.Order.Field.Power
import Mathlib.Data.Int.Log
import Mathlib.Data.Rat.Floor
import Mathlib.Tactic.FieldSimp
import Mathlib.Tactic.Linarith
import Mathlib.Tactic.NormNum
import Mathlib.Tactic.Positivity
import Mathlib.Tactic.Ring

/-!
# FuzzyFinder — rounding to single precision

Every step of the scoring arithmetic is carried out exactly and then rounded to the nearest number
of the format, a tie going to the one with the even mantissa. This module describes that rounding
on the non-negative rationals, away from the bit patterns: the spacing of the format around a
number (`spacing`), the integer nearest to a number (`nearestEven`), and the two together (`round`).

Two facts carry the theory of scores. Rounding is monotone (`round_mono`), so that a better part
never makes a worse whole; and it leaves the numbers of the format alone (`round_of_mantissa`), so
that monotonicity turns bounds by powers of two into bounds on the rounded result.
-/

namespace FuzzyFinder

namespace Binary32

/-! ## The nearest integer -/

/-- The integer nearest to `q`; of two that are equally near, the even one. -/
def nearestEven (q : ℚ) : ℤ :=
  if q - ⌊q⌋ < 1 / 2 then ⌊q⌋
  else if q - ⌊q⌋ = 1 / 2 then ⌊q⌋ + ⌊q⌋ % 2
  else ⌊q⌋ + 1

/-- The nearest integer is one of the two neighbours. -/
theorem floor_le_nearestEven (q : ℚ) : ⌊q⌋ ≤ nearestEven q := by
  have hmod := Int.emod_nonneg ⌊q⌋ (show (2 : ℤ) ≠ 0 by decide)
  unfold nearestEven
  split_ifs <;> omega

theorem nearestEven_le_floor_succ (q : ℚ) : nearestEven q ≤ ⌊q⌋ + 1 := by
  have hmod := Int.emod_lt_of_pos ⌊q⌋ (show (0 : ℤ) < 2 by decide)
  unfold nearestEven
  split_ifs <;> omega

@[simp] theorem nearestEven_intCast (k : ℤ) : nearestEven (k : ℚ) = k := by
  simp [nearestEven]

@[simp] theorem nearestEven_zero : nearestEven 0 = 0 := by
  simpa using nearestEven_intCast 0

/-- Between two integers the nearest one moves up with the number; across an integer the two
neighbours already decide. -/
theorem nearestEven_mono {a b : ℚ} (h : a ≤ b) : nearestEven a ≤ nearestEven b := by
  rcases (Int.floor_le_floor h).eq_or_lt with heq | hlt
  · have hmod := Int.emod_nonneg ⌊b⌋ (show (2 : ℤ) ≠ 0 by decide)
    have hmod' := Int.emod_lt_of_pos ⌊b⌋ (show (0 : ℤ) < 2 by decide)
    have hle : a - ⌊b⌋ ≤ b - ⌊b⌋ := by linarith
    unfold nearestEven
    rw [heq]
    by_cases hb : b - ⌊b⌋ < 1 / 2
    · rw [if_pos hb, if_pos (hle.trans_lt hb)]
    by_cases hb' : b - ⌊b⌋ = 1 / 2
    · -- `a` cannot lie behind the tie at `b`
      rw [if_neg hb, if_pos hb']
      split_ifs with ha ha'
      · omega
      · exact le_rfl
      · exact absurd (le_antisymm (hb' ▸ hle) (not_lt.mp ha)) ha'
    · rw [if_neg hb, if_neg hb']
      split_ifs <;> omega
  · calc nearestEven a ≤ ⌊a⌋ + 1 := nearestEven_le_floor_succ a
      _ ≤ ⌊b⌋ := hlt
      _ ≤ nearestEven b := floor_le_nearestEven b

theorem nearestEven_le_of_le_intCast {q : ℚ} {k : ℤ} (h : q ≤ k) : nearestEven q ≤ k := by
  simpa using nearestEven_mono h

theorem le_nearestEven_of_intCast_le {q : ℚ} {k : ℤ} (h : (k : ℚ) ≤ q) : k ≤ nearestEven q := by
  simpa using nearestEven_mono h

/-! ## The spacing of the format

A normal number has 24 significant bits, so around `q` the format has one number every
`2 ^ (log₂ q - 23)`. Below the normal range the spacing stays what it is at its lower end. -/

/-- The binary logarithm of the spacing of the format around `q`. -/
def spacing (q : ℚ) : ℤ := max (Int.log 2 q - 23) (-149)

theorem neg_149_le_spacing (q : ℚ) : -149 ≤ spacing q := le_max_right _ _

theorem spacing_mono {a b : ℚ} (ha : 0 < a) (h : a ≤ b) : spacing a ≤ spacing b := by
  have := Int.log_mono_right (b := 2) ha h
  unfold spacing
  omega

/-- A number has at most 24 bits before the last place of the format. -/
theorem lt_two_zpow_spacing (q : ℚ) : q < 2 ^ (spacing q + 24) := by
  calc q < 2 ^ (Int.log 2 q + 1) := by
        exact_mod_cast Int.lt_zpow_succ_log_self (R := ℚ) (b := 2) (by decide) q
    _ ≤ 2 ^ (spacing q + 24) := zpow_le_zpow_right₀ (by norm_num) (by unfold spacing; omega)

/-- Above the subnormal range a number has all of the 24 bits. -/
theorem two_zpow_spacing_le {q : ℚ} (hq : 0 < q) (hs : spacing q ≠ -149) :
    2 ^ (spacing q + 23) ≤ q := by
  have hlog : spacing q + 23 = Int.log 2 q := by unfold spacing at hs ⊢; omega
  rw [hlog]
  exact_mod_cast Int.zpow_log_le_self (R := ℚ) (b := 2) (by decide) hq

/-- Bounds on a number bound the spacing around it. -/
theorem le_spacing {q : ℚ} {e : ℤ} (h : 2 ^ (e + 23) ≤ q) : e ≤ spacing q := by
  have hq : 0 < q := lt_of_lt_of_le (by positivity) h
  have hlog : e + 23 ≤ Int.log 2 q := by
    rw [← Int.zpow_le_iff_le_log (R := ℚ) (by decide) hq]
    exact_mod_cast h
  unfold spacing
  omega

theorem spacing_le_of_lt {q : ℚ} {e : ℤ} (hq : 0 < q) (hhigh : q < 2 ^ (e + 24))
    (he : -149 ≤ e) : spacing q ≤ e := by
  have hlog : Int.log 2 q < e + 24 := by
    rw [← Int.lt_zpow_iff_log_lt (R := ℚ) (by decide) hq]
    exact_mod_cast hhigh
  unfold spacing
  omega

/-! ## Rounding -/

/-- The number of the format nearest to `q`, for `0 ≤ q`; the exponent range is unbounded above. -/
def round (q : ℚ) : ℚ := nearestEven (q / 2 ^ spacing q) * 2 ^ spacing q

@[simp] theorem round_zero : round 0 = 0 := by simp [round]

theorem round_nonneg {q : ℚ} (hq : 0 ≤ q) : 0 ≤ round q := by
  have h : (0 : ℤ) ≤ nearestEven (q / 2 ^ spacing q) :=
    le_nearestEven_of_intCast_le (by push_cast; positivity)
  have : (0 : ℚ) ≤ nearestEven (q / 2 ^ spacing q) := by exact_mod_cast h
  unfold round
  positivity

/-- The rounded mantissa needs 24 bits, or is the power of two just behind. -/
theorem nearestEven_spacing_le {q : ℚ} (hq : 0 ≤ q) :
    nearestEven (q / 2 ^ spacing q) ≤ 2 ^ 24 := by
  rcases hq.eq_or_lt with rfl | hpos
  · simp
  · refine nearestEven_le_of_le_intCast ?_
    rw [div_le_iff₀ (by positivity)]
    calc q ≤ 2 ^ (spacing q + 24) := (lt_two_zpow_spacing q).le
      _ = ((2 ^ 24 : ℤ) : ℚ) * 2 ^ spacing q := by
        rw [zpow_add₀ (by norm_num), mul_comm]
        norm_num

/-- Above the subnormal range the rounded mantissa has all of the 24 bits. -/
theorem le_nearestEven_spacing {q : ℚ} (hq : 0 < q) (hs : spacing q ≠ -149) :
    2 ^ 23 ≤ nearestEven (q / 2 ^ spacing q) := by
  refine le_nearestEven_of_intCast_le ?_
  rw [le_div_iff₀ (by positivity)]
  calc ((2 ^ 23 : ℤ) : ℚ) * 2 ^ spacing q = 2 ^ (spacing q + 23) := by
        rw [zpow_add₀ (by norm_num), mul_comm]
        norm_num
    _ ≤ q := two_zpow_spacing_le hq hs

/-- **Rounding is monotone.** Within one binade the mantissas compare; across two binades the
power of two between them separates the results. -/
theorem round_mono {a b : ℚ} (ha : 0 ≤ a) (h : a ≤ b) : round a ≤ round b := by
  rcases ha.eq_or_lt with rfl | hpos
  · simpa using round_nonneg h
  have hb : 0 < b := hpos.trans_le h
  rcases (spacing_mono hpos h).eq_or_lt with heq | hlt
  · unfold round
    rw [heq]
    have hdiv : a / 2 ^ spacing b ≤ b / 2 ^ spacing b := by gcongr
    have hint : (nearestEven (a / 2 ^ spacing b) : ℚ) ≤ nearestEven (b / 2 ^ spacing b) := by
      exact_mod_cast nearestEven_mono hdiv
    gcongr
  · have hsb : spacing b ≠ -149 := by have := neg_149_le_spacing a; omega
    have hlow : (nearestEven (a / 2 ^ spacing a) : ℚ) ≤ 2 ^ 24 := by
      exact_mod_cast nearestEven_spacing_le ha
    have hhigh : (2 : ℚ) ^ 23 ≤ nearestEven (b / 2 ^ spacing b) := by
      exact_mod_cast le_nearestEven_spacing hb hsb
    calc round a ≤ 2 ^ 24 * 2 ^ spacing a := by unfold round; gcongr
      _ = 2 ^ 23 * 2 ^ (spacing a + 1) := by rw [zpow_add₀ (by norm_num)]; ring
      _ ≤ 2 ^ 23 * 2 ^ spacing b := by
        gcongr
        · norm_num
        · omega
      _ ≤ round b := by unfold round; gcongr

/-- The numbers of the format are left alone: an integer mantissa of at most 24 bits above an
exponent in range. -/
theorem round_of_mantissa {m : ℕ} {e : ℤ} (hm : m < 2 ^ 24) (he : -149 ≤ e) :
    round (m * 2 ^ e) = m * 2 ^ e := by
  rcases Nat.eq_zero_or_pos m with rfl | hpos
  · simp
  have hq : (0 : ℚ) < m * 2 ^ e := by positivity
  have hhigh : (m : ℚ) * 2 ^ e < 2 ^ (e + 24) := by
    have hm' : (m : ℚ) < (2 : ℚ) ^ (24 : ℤ) := by exact_mod_cast hm
    rw [zpow_add₀ (by norm_num), mul_comm]
    gcongr
  have hle : spacing (m * 2 ^ e) ≤ e := spacing_le_of_lt hq hhigh he
  -- The mantissa over the finer spacing is still an integer.
  obtain ⟨k, hk⟩ := Int.eq_ofNat_of_zero_le (sub_nonneg.mpr hle)
  have hint : (m : ℚ) * 2 ^ e / 2 ^ spacing (m * 2 ^ e) = ((m * 2 ^ k : ℤ) : ℚ) := by
    rw [mul_div_assoc, ← zpow_sub₀ (by norm_num), hk]
    push_cast
    simp
  unfold round
  rw [hint, nearestEven_intCast, ← hint]
  field_simp

theorem round_two_zpow {e : ℤ} (he : -149 ≤ e) : round (2 ^ e) = 2 ^ e := by
  simpa using round_of_mantissa (m := 1) (by norm_num) he

theorem round_one : round 1 = 1 := by simpa using round_two_zpow (e := 0) (by decide)

/-- Bounds by powers of two survive rounding. -/
theorem two_zpow_le_round {q : ℚ} {e : ℤ} (he : -149 ≤ e) (h : 2 ^ e ≤ q) : 2 ^ e ≤ round q := by
  rw [← round_two_zpow he]
  exact round_mono (by positivity) h

theorem round_le_two_zpow {q : ℚ} {e : ℤ} (hq : 0 ≤ q) (he : -149 ≤ e) (h : q ≤ 2 ^ e) :
    round q ≤ 2 ^ e := by
  rw [← round_two_zpow he]
  exact round_mono hq h

end Binary32

end FuzzyFinder
