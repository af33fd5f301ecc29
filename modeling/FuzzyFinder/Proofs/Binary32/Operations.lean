import FuzzyFinder.Proofs.Binary32.Unpacked

/-!
# FuzzyFinder — arithmetic on unpacked numbers

Adding, multiplying and dividing stored numbers gives the exact result, rounded: one lemma per
operation (`add_spec`, `mul_spec`, `div_spec`), and one for the conversion of a count
(`ofNat_spec`). Each asks only that the exact result stays below the overflow threshold.
-/

namespace FuzzyFinder

namespace Binary32

open Float.Model (Format UnpackedFloat totalExponent)
open Float.Model.UnpackedFloat

/-! ## Sums -/

/-- Lowering the exponent of a number fills its mantissa with zeros. -/
theorem decreaseExponent_value (m : ℕ) (e t : ℤ) :
    ((decreaseExponent m e t).1 : ℚ) * 2 ^ (decreaseExponent m e t).2 = m * 2 ^ e := by
  simp only [decreaseExponent, Nat.shiftLeft_eq]
  push_cast
  rw [mul_assoc, ← zpow_natCast, ← zpow_add₀ (by norm_num), add_sub_cancel]

theorem decreaseExponent_le (m : ℕ) (e t : ℤ) : (decreaseExponent m e t).2 ≤ t := by
  simp only [decreaseExponent]
  omega

theorem decreaseExponent_snd (m : ℕ) {e t : ℤ} (ht : t ≤ e) : (decreaseExponent m e t).2 = t := by
  simp only [decreaseExponent]
  omega

theorem decreaseExponent_pos {m : ℕ} (hm : 0 < m) (e t : ℤ) : 0 < (decreaseExponent m e t).1 := by
  simp only [decreaseExponent, Nat.shiftLeft_eq]
  positivity

/-- Rounding the number `m * 2 ^ e`, whatever the exponent. -/
theorem round_spec {m : ℕ} {e : ℤ} {q : ℚ} (hm : 0 < m) (hq : q = m * 2 ^ e)
    (hmax : q ≤ 2 ^ 127) :
    Stored (Float.Model.UnpackedFloat.round Format.binary32 .positive m e)
      ∧ magnitude (Float.Model.UnpackedFloat.round Format.binary32 .positive m e) = round q := by
  have hpos : 0 < q := by rw [hq]; positivity
  have htarget : Format.binary32.targetExponent (totalExponent m e) = spacing q :=
    targetExponent_eq_spacing hpos hq.ge (by rw [hq]; gcongr; linarith) (.inl hm)
  unfold Float.Model.UnpackedFloat.round
  rw [htarget]
  refine roundWithAccuracy_spec hpos hmax ?_ (.inl (decreaseExponent_pos hm e _))
    (decreaseExponent_le m e _)
  have hcancel : q / 2 ^ (decreaseExponent m e (spacing q)).2
      = ((decreaseExponent m e (spacing q)).1 : ℚ) := by
    rw [div_eq_iff (by positivity), decreaseExponent_value, hq]
  change Holds _ (q / 2 ^ (decreaseExponent m e (spacing q)).2)
  rw [hcancel]
  exact holds_exact _

theorem add_spec {u v : UnpackedFloat} (hu : Stored u) (hv : Stored v)
    (hmax : magnitude u + magnitude v ≤ 2 ^ 127) :
    Stored (UnpackedFloat.add Format.binary32 u v)
      ∧ magnitude (UnpackedFloat.add Format.binary32 u v)
        = round (magnitude u + magnitude v) := by
  cases hu with
  | zero =>
    cases hv with
    | zero => exact ⟨.zero, by simp [UnpackedFloat.add]⟩
    | finite m e hpos hm hlow hhigh hlead =>
      have hstored := Stored.finite m e hpos hm hlow hhigh hlead
      refine ⟨hstored, ?_⟩
      rw [magnitude_zero, zero_add, hstored.round_magnitude]
      rfl
  | finite m₁ e₁ hpos₁ hm₁ hlow₁ hhigh₁ hlead₁ =>
    cases hv with
    | zero =>
      have hstored := Stored.finite m₁ e₁ hpos₁ hm₁ hlow₁ hhigh₁ hlead₁
      refine ⟨hstored, ?_⟩
      rw [magnitude_zero, add_zero, hstored.round_magnitude]
      rfl
    | finite m₂ e₂ hpos₂ hm₂ hlow₂ hhigh₂ hlead₂ =>
      -- both mantissas are brought to the smaller of the two exponents
      set d₁ := (decreaseExponent m₁ e₁ (min e₁ e₂)).1 with hd₁
      set d₂ := (decreaseExponent m₂ e₂ (min e₁ e₂)).1 with hd₂
      have hvalue₁ := decreaseExponent_value m₁ e₁ (min e₁ e₂)
      have hvalue₂ := decreaseExponent_value m₂ e₂ (min e₁ e₂)
      rw [decreaseExponent_snd m₁ (min_le_left e₁ e₂), ← hd₁] at hvalue₁
      rw [decreaseExponent_snd m₂ (min_le_right e₁ e₂), ← hd₂] at hvalue₂
      have hpos : 0 < d₁ + d₂ := Nat.add_pos_left (decreaseExponent_pos hpos₁ _ _) _
      have hsum : (m₁ : ℚ) * 2 ^ e₁ + m₂ * 2 ^ e₂ = ((d₁ + d₂ : ℕ) : ℚ) * 2 ^ min e₁ e₂ := by
        rw [← hvalue₁, ← hvalue₂]
        push_cast
        ring
      have hadd : UnpackedFloat.add Format.binary32 (.finite .positive m₁ e₁ hpos₁)
            (.finite .positive m₂ e₂ hpos₂)
          = Float.Model.UnpackedFloat.round Format.binary32 .positive (d₁ + d₂) (min e₁ e₂) := by
        have hcmp : Ord.compare ((d₁ : ℤ) + d₂) 0 = .gt := by
          rw [compare_gt_iff_gt]
          exact_mod_cast hpos
        simp only [UnpackedFloat.add, UnpackedFloat.normalize, Sign.apply, ← hd₁, ← hd₂]
        rw [hcmp]
        rfl
      rw [hadd]
      exact round_spec hpos hsum hmax

/-! ## Products -/

theorem mul_spec {u v : UnpackedFloat} (hu : Stored u) (hv : Stored v)
    (hmax : magnitude u * magnitude v ≤ 2 ^ 127) :
    Stored (UnpackedFloat.mul Format.binary32 u v)
      ∧ magnitude (UnpackedFloat.mul Format.binary32 u v)
        = round (magnitude u * magnitude v) := by
  cases hu with
  | zero =>
    cases hv with
    | zero => exact ⟨.zero, by simp [UnpackedFloat.mul, magnitude]⟩
    | finite m e hpos hm hlow hhigh hlead => exact ⟨.zero, by simp [UnpackedFloat.mul, magnitude]⟩
  | finite m₁ e₁ hpos₁ hm₁ hlow₁ hhigh₁ hlead₁ =>
    cases hv with
    | zero => exact ⟨.zero, by simp [UnpackedFloat.mul, magnitude]⟩
    | finite m₂ e₂ hpos₂ hm₂ hlow₂ hhigh₂ hlead₂ =>
      have hq : (0 : ℚ) < m₁ * 2 ^ e₁ * (m₂ * 2 ^ e₂) := by positivity
      have hprod : (m₁ : ℚ) * 2 ^ e₁ * (m₂ * 2 ^ e₂) = ((m₁ * m₂ : ℕ) : ℚ) * 2 ^ (e₁ + e₂) := by
        rw [zpow_add₀ (by norm_num)]
        push_cast
        ring
      refine roundWithAccuracy_spec hq hmax ?_ (.inl (Nat.mul_pos hpos₁ hpos₂)) ?_
      · simp only [magnitude_finite]
        rw [hprod, mul_div_assoc, div_self (by positivity), mul_one]
        exact holds_exact _
      · -- a full mantissa reaches down to the last place, a short one only below the normal range
        simp only [magnitude_finite]
        have hfull : 2 ^ 23 ≤ m₁ * m₂ →
            e₁ + e₂ ≤ spacing ((m₁ : ℚ) * 2 ^ e₁ * (m₂ * 2 ^ e₂)) := fun h => by
          refine le_spacing ?_
          have h' : (2 : ℚ) ^ (23 : ℤ) ≤ ((m₁ * m₂ : ℕ) : ℚ) := by exact_mod_cast h
          rw [hprod, zpow_add₀ (by norm_num), mul_comm]
          gcongr
        rcases hlead₁ with h | h
        · exact hfull (h.trans (Nat.le_mul_of_pos_right _ hpos₂))
        rcases hlead₂ with h' | h'
        · exact hfull (h'.trans (Nat.le_mul_of_pos_left _ hpos₁))
        · have := neg_149_le_spacing ((m₁ : ℚ) * 2 ^ e₁ * (m₂ * 2 ^ e₂))
          omega

/-! ## Quotients -/

/-- The remainder of a division says where the quotient lies between two integers. -/
theorem holds_accuracyOfFraction (m : ℕ) {n : ℕ} (hn : 0 < n) :
    Holds (.ofMantissaAndAccuracy (m / n) (accuracyOfFraction (m % n) n)) ((m : ℚ) / n) := by
  have hn' : (0 : ℚ) < n := by exact_mod_cast hn
  have hlt : ((m % n : ℕ) : ℚ) < n := by exact_mod_cast Nat.mod_lt m hn
  have hsplit : (m : ℚ) / n = (m / n : ℕ) + ((m % n : ℕ) : ℚ) / n := by
    have : (m : ℚ) = n * (m / n : ℕ) + (m % n : ℕ) := by exact_mod_cast (Nat.div_add_mod m n).symm
    rw [div_eq_iff hn'.ne', add_mul, div_mul_cancel₀ _ hn'.ne', this]
    ring
  have hfrac : ((m % n : ℕ) : ℚ) / n < 1 := by rwa [div_lt_one hn']
  rw [hsplit]
  unfold accuracyOfFraction
  split_ifs with hz
  · rw [hz]
    simp [Holds, ExtendedMantissa.ofMantissaAndAccuracy]
  have hpos : (0 : ℚ) < ((m % n : ℕ) : ℚ) / n := by
    have : 0 < m % n := Nat.pos_of_ne_zero hz
    positivity
  -- the remainder lies below, at or above one half of the divisor
  rcases lt_trichotomy (2 * (m % n)) n with h | h | h
  · have h' : ((m % n : ℕ) : ℚ) / n < 1 / 2 := by
      rw [div_lt_div_iff₀ hn' (by norm_num)]
      have : (2 : ℚ) * (m % n : ℕ) < n := by exact_mod_cast h
      linarith
    rw [compare_lt_iff_lt.mpr h]
    simp only [Holds, ExtendedMantissa.ofMantissaAndAccuracy]
    constructor <;> linarith
  · have h' : ((m % n : ℕ) : ℚ) / n = 1 / 2 := by
      rw [div_eq_div_iff hn'.ne' (by norm_num)]
      have : (2 : ℚ) * (m % n : ℕ) = n := by exact_mod_cast h
      linarith
    rw [compare_eq_iff_eq.mpr h, h']
    rfl
  · have h' : 1 / 2 < ((m % n : ℕ) : ℚ) / n := by
      rw [div_lt_div_iff₀ (by norm_num) hn']
      have : (n : ℚ) < 2 * (m % n : ℕ) := by exact_mod_cast h
      linarith
    rw [compare_gt_iff_gt.mpr h]
    simp only [Holds, ExtendedMantissa.ofMantissaAndAccuracy]
    constructor <;> linarith

/-- A mantissa lies between two powers of two, which gives the place of its leading bit. -/
theorem two_zpow_totalExponent_le {m : ℕ} (hm : 0 < m) (e : ℤ) :
    (2 : ℚ) ^ (totalExponent m e - 1) ≤ m * 2 ^ e := by
  have h : (2 : ℚ) ^ (m.log2 : ℤ) ≤ m := by
    rw [zpow_natCast]
    exact_mod_cast Nat.log2_self_le hm.ne'
  rw [show totalExponent m e - 1 = (m.log2 : ℤ) + e from by unfold totalExponent; ring,
    zpow_add₀ (by norm_num)]
  gcongr

theorem lt_two_zpow_totalExponent (m : ℕ) (e : ℤ) : (m : ℚ) * 2 ^ e < 2 ^ totalExponent m e := by
  have h : (m : ℚ) < 2 ^ ((m.log2 + 1 : ℕ) : ℤ) := by
    rw [zpow_natCast]
    exact_mod_cast Nat.lt_log2_self
  have htotal : totalExponent m e = ((m.log2 + 1 : ℕ) : ℤ) + e := by
    unfold totalExponent
    push_cast
    ring
  rw [htotal, zpow_add₀ (by norm_num)]
  gcongr

/-- The leading bits of dividend and divisor give that of the quotient, give or take one. -/
theorem two_zpow_le_div {m₁ m₂ : ℕ} (hpos₁ : 0 < m₁) (hpos₂ : 0 < m₂) (e₁ e₂ : ℤ) :
    (2 : ℚ) ^ (totalExponent m₁ e₁ - totalExponent m₂ e₂ - 1) ≤ m₁ * 2 ^ e₁ / (m₂ * 2 ^ e₂) := by
  rw [le_div_iff₀ (by positivity)]
  calc (2 : ℚ) ^ (totalExponent m₁ e₁ - totalExponent m₂ e₂ - 1) * (m₂ * 2 ^ e₂)
      ≤ 2 ^ (totalExponent m₁ e₁ - totalExponent m₂ e₂ - 1) * 2 ^ totalExponent m₂ e₂ := by
        gcongr
        exact (lt_two_zpow_totalExponent m₂ e₂).le
    _ = 2 ^ (totalExponent m₁ e₁ - 1) := by
        rw [← zpow_add₀ (by norm_num)]
        congr 1
        ring
    _ ≤ m₁ * 2 ^ e₁ := two_zpow_totalExponent_le hpos₁ e₁

/-- Shifting the dividend to the left makes room for the places of the quotient. -/
theorem div_eq_shiftLeft_div (m₁ : ℕ) {m₂ : ℕ} (hpos₂ : 0 < m₂) {e₁ e₂ t : ℤ} (ht : t ≤ e₁ - e₂) :
    (m₁ : ℚ) * 2 ^ e₁ / (m₂ * 2 ^ e₂) / 2 ^ t
      = ((m₁ <<< (e₁ - e₂ - t).toNat : ℕ) : ℚ) / m₂ := by
  have hshift : (((e₁ - e₂ - t).toNat : ℕ) : ℤ) = e₁ - e₂ - t := by omega
  rw [Nat.shiftLeft_eq]
  push_cast
  rw [← zpow_natCast, hshift, zpow_sub₀ (by norm_num), zpow_sub₀ (by norm_num)]
  field_simp

theorem div_spec {u v : UnpackedFloat} (hu : Stored u) (hv : Stored v) (hv0 : 0 < magnitude v)
    (hmax : magnitude u / magnitude v ≤ 2 ^ 127) :
    Stored (UnpackedFloat.div Format.binary32 u v)
      ∧ magnitude (UnpackedFloat.div Format.binary32 u v)
        = round (magnitude u / magnitude v) := by
  cases hv with
  | zero => exact absurd hv0 (lt_irrefl _)
  | finite m₂ e₂ hpos₂ hm₂ hlow₂ hhigh₂ hlead₂ =>
    cases hu with
    | zero => exact ⟨.zero, by simp [UnpackedFloat.div, magnitude]⟩
    | finite m₁ e₁ hpos₁ hm₁ hlow₁ hhigh₁ hlead₁ =>
      simp only [magnitude_finite] at hmax hv0 ⊢
      set q : ℚ := m₁ * 2 ^ e₁ / (m₂ * 2 ^ e₂) with hq
      have hqpos : 0 < q := by positivity
      -- the dividend is shifted so far that the quotient fills a mantissa
      set lead := totalExponent m₁ e₁ - totalExponent m₂ e₂ with hlead
      set t := min (e₁ - e₂) (Format.binary32.targetExponent lead) with ht
      set m := m₁ <<< (e₁ - e₂ - t).toNat
      have hquot : q / 2 ^ t = (m : ℚ) / m₂ := div_eq_shiftLeft_div m₁ hpos₂ (min_le_left _ _)
      have hqlow : (2 : ℚ) ^ (lead - 1) ≤ q := two_zpow_le_div hpos₁ hpos₂ e₁ e₂
      have htarget : Format.binary32.targetExponent lead = max (lead - 24) (-149) := by
        simp only [Format.targetExponent, Format.mantissaBits, Format.minExponent]
        norm_num
      have hspacing : lead - 24 ≤ spacing q := le_spacing (by
        rw [show lead - 24 + 23 = lead - 1 from by ring]
        exact hqlow)
      have hlow := neg_149_le_spacing q
      refine roundWithAccuracy_spec hqpos hmax ?_ ?_ (show t ≤ spacing q by omega)
      · change Holds _ (q / 2 ^ t)
        rw [hquot]
        exact holds_accuracyOfFraction m hpos₂
      · -- above the subnormal range the quotient is at least one
        change 0 < m / m₂ ∨ t ≤ -149
        by_cases hsub : t ≤ -149
        · exact .inr hsub
        · refine .inl (Nat.div_pos ?_ hpos₂)
          have h1 : (1 : ℚ) ≤ q / 2 ^ t := by
            rw [le_div_iff₀ (by positivity), one_mul]
            exact le_trans (zpow_le_zpow_right₀ (by norm_num) (by omega)) hqlow
          rw [hquot, le_div_iff₀ (by exact_mod_cast hpos₂), one_mul] at h1
          exact_mod_cast h1

/-! ## Counts -/

theorem ofNat_spec {n : ℕ} (hmax : n ≤ 2 ^ 127) :
    Stored (UnpackedFloat.ofNat Format.binary32 n)
      ∧ magnitude (UnpackedFloat.ofNat Format.binary32 n) = round n := by
  rcases Nat.eq_zero_or_pos n with rfl | hpos
  · exact ⟨.zero, by simp [UnpackedFloat.ofNat, UnpackedFloat.ofInt, UnpackedFloat.normalize]⟩
  · have hcmp : Ord.compare (n : ℤ) 0 = .gt := by
      rw [compare_gt_iff_gt]
      exact_mod_cast hpos
    have hof : UnpackedFloat.ofNat Format.binary32 n
        = Float.Model.UnpackedFloat.round Format.binary32 .positive n 0 := by
      simp only [UnpackedFloat.ofNat, UnpackedFloat.ofInt, UnpackedFloat.normalize, hcmp,
        Int.toNat_natCast]
    rw [hof]
    exact round_spec hpos (by simp) (by exact_mod_cast hmax)

/-- A whole number comes with 24 more places, of which none is used. -/
theorem ofScientific_spec {n : ℕ} (hpos : 0 < n) (hmax : n ≤ 2 ^ 127) :
    Stored (UnpackedFloat.ofScientific Format.binary32 n 0)
      ∧ magnitude (UnpackedFloat.ofScientific Format.binary32 n 0) = round n := by
  have hrange : ¬ ((0 : ℤ) < -((2 ^ Format.binary32.exponentBits : ℤ) + n.log2)) := by
    have : (0 : ℤ) ≤ 2 ^ Format.binary32.exponentBits := by positivity
    omega
  have hrange' : ¬ ((0 : ℤ) > 2 ^ Format.binary32.exponentBits) := by
    have : (0 : ℤ) ≤ 2 ^ Format.binary32.exponentBits := by positivity
    omega
  -- without an exponent there is no power of ten to multiply by
  have hof : UnpackedFloat.ofScientific Format.binary32 n 0
      = roundWithAccuracy Format.binary32 .positive (n <<< 24 * 1) (-24 + 0) .exact := by
    unfold UnpackedFloat.ofScientific
    rw [dif_neg hpos.ne', if_neg hrange', if_neg hrange, if_pos le_rfl]
    simp only [UnpackedFloat.mul]
    rfl
  have hn : (0 : ℚ) < n := by exact_mod_cast hpos
  have hone : (1 : ℚ) ≤ n := by exact_mod_cast hpos
  have hshift : (n : ℚ) / (2 : ℚ) ^ (-24 + 0 : ℤ) = ((n <<< 24 * 1 : ℕ) : ℚ) := by
    rw [Nat.shiftLeft_eq]
    push_cast
    norm_num
    ring
  rw [hof]
  refine roundWithAccuracy_spec hn (by exact_mod_cast hmax) ?_ (.inl ?_) (le_spacing ?_)
  · rw [hshift]
    exact holds_exact _
  · rw [Nat.shiftLeft_eq]
    positivity
  · exact le_trans (zpow_le_one_of_nonpos₀ (by norm_num) (by decide)) hone

end Binary32

end FuzzyFinder
