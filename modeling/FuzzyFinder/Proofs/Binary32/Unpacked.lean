import FuzzyFinder.Proofs.Binary32.Rounding
import Mathlib

/-!
# FuzzyFinder — the format behind the scores

A single-precision number is unpacked into mantissa and exponent, combined exactly, rounded and
packed again. This module ties that machinery to `Binary32.round`. A rounding step shifts the
mantissa to the spacing of the format and remembers in two extra bits what it shifts out; `Holds`
says which rational such a mantissa stands for, and one lemma per shift keeps it (`Holds.shiftRight`)
until the two bits decide the nearest integer (`Holds.roundedMantissa`).

Only non-negative finite numbers occur in scores. `Stored` says that the format has room for an
unpacked one as it is; packing loses nothing of it (`unpack_pack`), and comparing two of them
compares what they stand for (`Stored.compare`).
-/

namespace FuzzyFinder

namespace Binary32

open Float.Model (Format UnpackedFloat totalExponent)
open Float.Model.UnpackedFloat

/-! ## Mantissas with two residual bits -/

/-- The rational numbers that a mantissa with its round bit and its sticky bit stands for. -/
def Holds (em : ExtendedMantissa) (q : ℚ) : Prop :=
  match em.roundBit, em.stickyBit with
  | false, false => q = em.mantissa
  | false, true => em.mantissa < q ∧ q < em.mantissa + 1 / 2
  | true, false => q = em.mantissa + 1 / 2
  | true, true => em.mantissa + 1 / 2 < q ∧ q < em.mantissa + 1

theorem holds_exact (m : ℕ) : Holds (.ofMantissaAndAccuracy m .exact) m := rfl

theorem Holds.bounds {em : ExtendedMantissa} {q : ℚ} (h : Holds em q) :
    (em.mantissa : ℚ) ≤ q ∧ q < em.mantissa + 1 := by
  obtain ⟨m, r, s⟩ := em
  cases r <;> cases s <;> simp only [Holds] at h ⊢ <;> constructor <;> linarith

theorem Holds.floor_eq {em : ExtendedMantissa} {q : ℚ} (h : Holds em q) :
    ⌊q⌋ = (em.mantissa : ℤ) :=
  Int.floor_eq_iff.mpr (by exact_mod_cast h.bounds)

/-- The two residual bits decide the nearest integer. -/
theorem Holds.roundedMantissa {em : ExtendedMantissa} {q : ℚ} (h : Holds em q) :
    (em.roundedMantissa : ℤ) = nearestEven q := by
  unfold nearestEven
  rw [h.floor_eq]
  obtain ⟨m, r, s⟩ := em
  have hcast : (((m : ℕ) : ℤ) : ℚ) = m := by norm_num
  simp only [Holds] at h
  cases r <;> cases s <;>
    simp only [ExtendedMantissa.roundedMantissa, ExtendedMantissa.accuracy,
      Accuracy.roundToNearestEven, hcast] at h ⊢
  · rw [if_pos (by linarith)]
  · rw [if_pos (by linarith)]
  · rw [if_neg (by linarith), if_pos (by linarith)]
    push_cast
    rfl
  · rw [if_neg (by linarith), if_neg (by intro; linarith)]
    push_cast
    rfl

/-- Shifting by one place halves the number; the bit shifted out becomes the round bit. -/
theorem Holds.shiftRightOne {em : ExtendedMantissa} {q : ℚ} (h : Holds em q) :
    Holds em.shiftRightOne (q / 2) := by
  obtain ⟨m, r, s⟩ := em
  have hsplit : ((m / 2 : ℕ) : ℚ) = (m - (m % 2 : ℕ)) / 2 := by
    have hm : (m : ℚ) = 2 * (m / 2 : ℕ) + (m % 2 : ℕ) := by exact_mod_cast (Nat.div_add_mod m 2).symm
    linarith
  have heven : ((0 : ℕ) != 0) = false := rfl
  have hodd : ((1 : ℕ) != 0) = true := rfl
  rcases Nat.mod_two_eq_zero_or_one m with hm | hm <;> rw [hm] at hsplit <;> push_cast at hsplit <;>
    cases r <;> cases s <;>
    simp only [Holds, ExtendedMantissa.shiftRightOne, hm, hsplit, heven, hodd, Bool.or_false,
      Bool.or_true] at h ⊢ <;>
    first | linarith | (constructor <;> linarith)

theorem Holds.shiftRight {em : ExtendedMantissa} {q : ℚ} (h : Holds em q) (n : ℕ) :
    Holds (em >>> n) (q / 2 ^ n) := by
  change Holds (n.repeat ExtendedMantissa.shiftRightOne em) _
  induction n with
  | zero => simpa [Nat.repeat] using h
  | succ n ih =>
    rw [Nat.repeat, pow_succ, ← div_div]
    exact ih.shiftRightOne

/-! ## Numbers that the format has room for -/

/-- What an unpacked number stands for, as far as it is finite and not negative. -/
def magnitude : UnpackedFloat → ℚ
  | .finite .positive m e _ => m * 2 ^ e
  | _ => 0

/-- A non-negative number in the form in which the format keeps it: the mantissa has 24 bits, or
fewer when the exponent is the least one. -/
inductive Stored : UnpackedFloat → Prop where
  | zero : Stored (.zero .positive)
  | finite (m : ℕ) (e : ℤ) (hpos : 0 < m) (hm : m < 2 ^ 24) (hlow : -149 ≤ e) (hhigh : e ≤ 104)
      (hlead : 2 ^ 23 ≤ m ∨ e = -149) : Stored (.finite .positive m e hpos)

@[simp] theorem magnitude_zero : magnitude (.zero .positive) = 0 := rfl

@[simp] theorem magnitude_finite (m : ℕ) (e : ℤ) (hpos : 0 < m) :
    magnitude (.finite .positive m e hpos) = m * 2 ^ e := rfl

theorem magnitude_nonneg (u : UnpackedFloat) : 0 ≤ magnitude u := by
  unfold magnitude
  split
  · positivity
  · exact le_rfl

/-- What the format keeps is not changed by rounding. -/
theorem Stored.round_magnitude {u : UnpackedFloat} (h : Stored u) :
    round (magnitude u) = magnitude u := by
  cases h with
  | zero => simp
  | finite m e hpos hm hlow hhigh hlead => exact round_of_mantissa hm hlow

/-! ## Comparing -/

/-- A larger exponent outweighs every mantissa. -/
theorem mul_two_zpow_lt {m₁ m₂ : ℕ} {e₁ e₂ : ℤ} (hm₁ : m₁ < 2 ^ 24) (hlow : -149 ≤ e₁)
    (hlead : 2 ^ 23 ≤ m₂ ∨ e₂ = -149) (he : e₁ < e₂) : (m₁ : ℚ) * 2 ^ e₁ < m₂ * 2 ^ e₂ := by
  have hm₂ : (2 : ℚ) ^ 23 ≤ m₂ := by exact_mod_cast hlead.resolve_right (by omega)
  have hm₁' : (m₁ : ℚ) < 2 ^ 24 := by exact_mod_cast hm₁
  calc (m₁ : ℚ) * 2 ^ e₁ < 2 ^ 24 * 2 ^ e₁ := by gcongr
    _ = 2 ^ 23 * 2 ^ (e₁ + 1) := by rw [zpow_add₀ (by norm_num)]; ring
    _ ≤ m₂ * 2 ^ e₂ := by
      gcongr
      · norm_num
      · omega

/-- Comparing stored numbers, exponents first, compares what they stand for. -/
theorem Stored.compare {u v : UnpackedFloat} (hu : Stored u) (hv : Stored v) :
    u.compare v = some (Ord.compare (magnitude u) (magnitude v)) := by
  cases hu with
  | zero =>
    cases hv with
    | zero => simp [UnpackedFloat.compare]
    | finite m e hpos hm hlow hhigh hlead =>
      have : (0 : ℚ) < m * 2 ^ e := by positivity
      simp [UnpackedFloat.compare, compare_lt_iff_lt.mpr this]
  | finite m₁ e₁ hpos₁ hm₁ hlow₁ hhigh₁ hlead₁ =>
    cases hv with
    | zero =>
      have : (0 : ℚ) < m₁ * 2 ^ e₁ := by positivity
      simp [UnpackedFloat.compare, compare_gt_iff_gt.mpr this]
    | finite m₂ e₂ hpos₂ hm₂ hlow₂ hhigh₂ hlead₂ =>
      simp only [UnpackedFloat.compare, magnitude_finite, Option.some.injEq]
      rcases lt_trichotomy e₁ e₂ with he | rfl | he
      · rw [compare_lt_iff_lt.mpr he, compare_lt_iff_lt.mpr (mul_two_zpow_lt hm₁ hlow₁ hlead₂ he)]
        rfl
      · rw [compare_eq_iff_eq.mpr rfl, Ordering.eq_then]
        have hpow : (0 : ℚ) < 2 ^ e₁ := by positivity
        rcases lt_trichotomy m₁ m₂ with hm | rfl | hm
        · rw [compare_lt_iff_lt.mpr hm, compare_lt_iff_lt.mpr (by gcongr)]
        · rw [compare_eq_iff_eq.mpr rfl, compare_eq_iff_eq.mpr rfl]
        · rw [compare_gt_iff_gt.mpr hm, compare_gt_iff_gt.mpr (by gcongr)]
      · rw [compare_gt_iff_gt.mpr he, compare_gt_iff_gt.mpr (mul_two_zpow_lt hm₂ hlow₂ hlead₁ he)]
        rfl

/-! ## Rounding a mantissa -/

/-- The exponent that the format asks for is the spacing around the number. -/
theorem targetExponent_eq_spacing {m : ℕ} {e : ℤ} {q : ℚ} (hq : 0 < q) (hlow : m * 2 ^ e ≤ q)
    (hhigh : q < (m + 1) * 2 ^ e) (hm : 0 < m ∨ e ≤ -149) :
    Format.binary32.targetExponent (totalExponent m e) = spacing q := by
  have hform : Format.binary32.targetExponent (totalExponent m e)
      = max ((m.log2 : ℤ) + e - 23) (-149) := by
    simp only [Format.targetExponent, totalExponent, Format.mantissaBits, Format.minExponent]
    norm_num
    omega
  rw [hform]
  rcases Nat.eq_zero_or_pos m with rfl | hpos
  · -- without a mantissa bit the number lies below the subnormal range
    have he : e ≤ -149 := hm.resolve_left (lt_irrefl 0)
    have hlt : q < 2 ^ ((-149 : ℤ) + 24) := by
      calc q < 2 ^ e := by simpa using hhigh
        _ ≤ 2 ^ ((-149 : ℤ) + 24) := zpow_le_zpow_right₀ (by norm_num) (by omega)
    have h1 := spacing_le_of_lt hq hlt le_rfl
    have h2 := neg_149_le_spacing q
    simp only [Nat.log2_zero, Nat.cast_zero]
    omega
  · have hlog : Int.log 2 q = m.log2 + e := by
      have hbit : (2 : ℚ) ^ m.log2 ≤ m := by exact_mod_cast Nat.log2_self_le hpos.ne'
      have hbit' : (m : ℚ) + 1 ≤ 2 ^ (m.log2 + 1) := by exact_mod_cast Nat.lt_log2_self
      apply le_antisymm
      · rw [← Int.lt_add_one_iff, ← Int.lt_zpow_iff_log_lt (R := ℚ) (by decide) hq]
        calc q < (m + 1) * 2 ^ e := hhigh
          _ ≤ 2 ^ (m.log2 + 1) * 2 ^ e := by gcongr
          _ = ((2 : ℕ) : ℚ) ^ ((m.log2 : ℤ) + e + 1) := by
            rw [show (m.log2 : ℤ) + e + 1 = ((m.log2 + 1 : ℕ) : ℤ) + e from by push_cast; ring,
              zpow_add₀ (by norm_num), zpow_natCast]
            norm_num
      · rw [← Int.zpow_le_iff_le_log (R := ℚ) (by decide) hq]
        calc ((2 : ℕ) : ℚ) ^ ((m.log2 : ℤ) + e) = 2 ^ m.log2 * 2 ^ e := by
              rw [zpow_add₀ (by norm_num), zpow_natCast]
              norm_num
          _ ≤ m * 2 ^ e := by gcongr
          _ ≤ q := hlow
    unfold spacing
    rw [hlog]

/-- A mantissa of at most 24 bits is not shifted. -/
theorem shiftToTargetExponent_of_lt {m : ℕ} {e : ℤ} (hm : m < 2 ^ 24) (he : -149 ≤ e) :
    shiftToTargetExponent Format.binary32 m e .exact
      = (.ofMantissaAndAccuracy m .exact, e) := by
  have hlog : m.log2 ≤ 23 := by
    rcases Nat.eq_zero_or_pos m with rfl | hpos
    · simp
    · have := (Nat.log2_lt hpos.ne').mpr hm
      omega
  have hshift : (Format.binary32.targetExponent (totalExponent m e) - e).toNat = 0 := by
    simp only [Format.targetExponent, totalExponent, Format.mantissaBits, Format.minExponent]
    norm_num
    omega
  simp only [shiftToTargetExponent, shiftToExponent, hshift]
  exact Prod.ext rfl (by simp)

/-- A mantissa that was rounded up to the next power of two is shifted by one place. -/
theorem shiftToTargetExponent_carry {e : ℤ} (he : -149 ≤ e) :
    shiftToTargetExponent Format.binary32 (2 ^ 24) e .exact
      = (.ofMantissaAndAccuracy (2 ^ 23) .exact, e + 1) := by
  have hshift : (Format.binary32.targetExponent (totalExponent (2 ^ 24) e) - e).toNat = 1 := by
    simp only [Format.targetExponent, totalExponent, Format.mantissaBits, Format.minExponent,
      Nat.log2_two_pow]
    norm_num
    omega
  simp only [shiftToTargetExponent, shiftToExponent, hshift]
  exact Prod.ext rfl (by simp)

/-- The number with the given mantissa and exponent. -/
def ofMantissa (m : ℕ) (e : ℤ) : UnpackedFloat :=
  if h : m = 0 then .zero .positive else .finite .positive m e (Nat.pos_of_ne_zero h)

/-- The number with a rounded mantissa: shifted once more if rounding has carried. -/
def assemble (r : ℕ) (e : ℤ) : UnpackedFloat :=
  let shifted := shiftToTargetExponent Format.binary32 r e .exact
  ofMantissa shifted.1.mantissa shifted.2

theorem roundWithAccuracy_eq_assemble (m : ℕ) (e : ℤ) (acc : Accuracy) :
    roundWithAccuracy Format.binary32 .positive m e acc
      = assemble (shiftToTargetExponent Format.binary32 m e acc).1.roundedMantissa
          (shiftToTargetExponent Format.binary32 m e acc).2 := rfl

theorem assemble_of_lt {r : ℕ} {e : ℤ} (hr : r < 2 ^ 24) (he : -149 ≤ e) :
    assemble r e = ofMantissa r e := by
  unfold assemble
  rw [shiftToTargetExponent_of_lt hr he]
  rfl

theorem assemble_carry {e : ℤ} (he : -149 ≤ e) :
    assemble (2 ^ 24) e = ofMantissa (2 ^ 23) (e + 1) := by
  unfold assemble
  rw [shiftToTargetExponent_carry he]
  rfl

theorem ofMantissa_spec {m : ℕ} {e : ℤ} (hm : m < 2 ^ 24) (hlow : -149 ≤ e) (hhigh : e ≤ 104)
    (hlead : 2 ^ 23 ≤ m ∨ e = -149) :
    Stored (ofMantissa m e) ∧ magnitude (ofMantissa m e) = m * 2 ^ e := by
  unfold ofMantissa
  split_ifs with hz
  · exact ⟨.zero, by simp [hz]⟩
  · exact ⟨.finite m e _ hm hlow hhigh hlead, rfl⟩

/-- Assembling changes nothing about the number, and the format has room for it. -/
theorem assemble_spec {r : ℕ} {e : ℤ} (hr : r ≤ 2 ^ 24) (he : -149 ≤ e)
    (hlead : 2 ^ 23 ≤ r ∨ e = -149) (hmax : (r : ℚ) * 2 ^ e ≤ 2 ^ 127) :
    Stored (assemble r e) ∧ magnitude (assemble r e) = r * 2 ^ e := by
  -- the bound on the number bounds the exponent of its leading bit
  have hexp : ∀ k : ℕ, 2 ^ k ≤ r → (k : ℤ) + e ≤ 127 := fun k h => by
    have h' : (2 : ℚ) ^ (k : ℤ) ≤ r := by rw [zpow_natCast]; exact_mod_cast h
    have : (2 : ℚ) ^ ((k : ℤ) + e) ≤ 2 ^ (127 : ℤ) := by
      rw [zpow_add₀ (by norm_num)]
      calc (2 : ℚ) ^ (k : ℤ) * 2 ^ e ≤ r * 2 ^ e := by gcongr
        _ ≤ 2 ^ (127 : ℤ) := by exact_mod_cast hmax
    exact (zpow_le_zpow_iff_right₀ (by norm_num : (1 : ℚ) < 2)).mp this
  rcases hr.lt_or_eq with hlt | rfl
  · rw [assemble_of_lt hlt he]
    refine ofMantissa_spec hlt he ?_ hlead
    rcases hlead with h | h
    · have := hexp 23 h
      omega
    · omega
  · have := hexp 24 le_rfl
    rw [assemble_carry he]
    refine ⟨(ofMantissa_spec (by norm_num) (by omega) (by omega) (.inl le_rfl)).1, ?_⟩
    rw [(ofMantissa_spec (by norm_num) (by omega) (by omega) (.inl le_rfl)).2,
      zpow_add₀ (by norm_num)]
    push_cast
    ring

/-- **Rounding a mantissa.** If a mantissa with its accuracy stands for `q`, and no place of it
lies above the last place of the format, then rounding it gives the number nearest to `q`. -/
theorem roundWithAccuracy_spec {m : ℕ} {e : ℤ} {acc : Accuracy} {q : ℚ} (hq : 0 < q)
    (hmax : q ≤ 2 ^ 127) (hholds : Holds (.ofMantissaAndAccuracy m acc) (q / 2 ^ e))
    (hm : 0 < m ∨ e ≤ -149) (he : e ≤ spacing q) :
    Stored (roundWithAccuracy Format.binary32 .positive m e acc)
      ∧ magnitude (roundWithAccuracy Format.binary32 .positive m e acc) = round q := by
  have hpow : (0 : ℚ) < 2 ^ e := by positivity
  have hmant : (ExtendedMantissa.ofMantissaAndAccuracy m acc).mantissa = m := by
    rcases acc with _ | o
    · rfl
    · cases o <;> rfl
  have hbounds := hholds.bounds
  rw [hmant, le_div_iff₀ hpow, div_lt_iff₀ hpow] at hbounds
  have htarget := targetExponent_eq_spacing hq hbounds.1 hbounds.2 hm
  -- the first shift moves the mantissa to the spacing of the format
  have hshift : e + ((spacing q - e).toNat : ℤ) = spacing q := by omega
  have hfirst : shiftToTargetExponent Format.binary32 m e acc
      = (ExtendedMantissa.ofMantissaAndAccuracy m acc >>> (spacing q - e).toNat, spacing q) := by
    simp only [shiftToTargetExponent, shiftToExponent, htarget, hshift]
  have hem := hholds.shiftRight (spacing q - e).toNat
  rw [div_div, ← zpow_natCast, ← zpow_add₀ (by norm_num), hshift] at hem
  -- the residual bits then give the nearest integer
  rw [roundWithAccuracy_eq_assemble, hfirst]
  have hr := hem.roundedMantissa
  generalize (ExtendedMantissa.ofMantissaAndAccuracy m acc >>> (spacing q - e).toNat
    ).roundedMantissa = r at hr
  have hround : round q = r * 2 ^ spacing q := by
    unfold round
    rw [← hr, Int.cast_natCast]
  rw [hround]
  refine assemble_spec ?_ (neg_149_le_spacing q) ?_ ?_
  · have := nearestEven_spacing_le hq.le
    rw [← hr] at this
    exact_mod_cast this
  · by_cases hs : spacing q = -149
    · exact .inr hs
    · have := le_nearestEven_spacing hq hs
      rw [← hr] at this
      exact .inl (by exact_mod_cast this)
  · rw [← hround]
    exact_mod_cast round_le_two_zpow hq.le (show (-149 : ℤ) ≤ 127 by decide) (by exact_mod_cast hmax)

end Binary32

end FuzzyFinder
