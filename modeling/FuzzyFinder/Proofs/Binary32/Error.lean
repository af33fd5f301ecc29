import FuzzyFinder.Proofs.Binary32.Rounding

/-!
# FuzzyFinder — how far rounding moves a number

Rounding moves a number up by at most half the spacing around it. Where the spacing is known this is
an absolute bound (`round_le_add`); above the subnormal range it is a relative one (`round_le_mul`).
Integer multiples of a power of two stay integer multiples of it when they are rounded, and which
ones they become is a matter of integers alone (`round_natCast_mul`), so that a long computation can
be followed exactly.
-/

namespace FuzzyFinder

namespace Binary32

/-! ## Bounds -/

theorem nearestEven_le_add_half (q : ℚ) : (nearestEven q : ℚ) ≤ q + 1 / 2 := by
  have hfloor : (⌊q⌋ : ℚ) ≤ q := Int.floor_le q
  unfold nearestEven
  split_ifs with hbelow htie
  · linarith
  · -- at a tie the integer above is just half away
    have hmod : ⌊q⌋ % 2 ≤ 1 := by omega
    have hmod' : ((⌊q⌋ % 2 : ℤ) : ℚ) ≤ 1 := by exact_mod_cast hmod
    push_cast
    linarith
  · have habove : 1 / 2 < q - ⌊q⌋ := lt_of_le_of_ne (not_lt.mp hbelow) (Ne.symm htie)
    push_cast
    linarith

theorem round_le_add_spacing (q : ℚ) : round q ≤ q + 2 ^ (spacing q - 1) := by
  have hpos : (0 : ℚ) < 2 ^ spacing q := by positivity
  calc round q ≤ (q / 2 ^ spacing q + 1 / 2) * 2 ^ spacing q := by
        unfold round
        gcongr
        exact nearestEven_le_add_half _
    _ = q + 2 ^ spacing q / 2 := by field_simp
    _ = q + 2 ^ (spacing q - 1) := by rw [zpow_sub₀ (by norm_num), zpow_one]

/-- **Below `2 ^ (e + 24)`, rounding adds at most `2 ^ (e - 1)`.** -/
theorem round_le_add {q : ℚ} {e : ℤ} (hq : 0 ≤ q) (hhigh : q < 2 ^ (e + 24)) (he : -149 ≤ e) :
    round q ≤ q + 2 ^ (e - 1) := by
  rcases hq.eq_or_lt with rfl | hpos
  · rw [round_zero, zero_add]
    positivity
  · have hspacing := spacing_le_of_lt hpos hhigh he
    calc round q ≤ q + 2 ^ (spacing q - 1) := round_le_add_spacing q
      _ ≤ q + 2 ^ (e - 1) := by
        gcongr
        · norm_num

/-- **Above the subnormal range, rounding adds at most one part in `2 ^ 24`.** -/
theorem round_le_mul {q : ℚ} (hq : 2 ^ (-126 : ℤ) ≤ q) : round q ≤ q * (1 + 2 ^ (-24 : ℤ)) := by
  have hlow : 2 ^ (spacing q + 23) ≤ q := by
    by_cases hs : spacing q = -149
    · rw [hs]
      exact hq
    · exact two_zpow_spacing_le (lt_of_lt_of_le (by positivity) hq) hs
  have hhalf : (2 : ℚ) ^ (spacing q - 1) = 2 ^ (spacing q + 23) * 2 ^ (-24 : ℤ) := by
    rw [← zpow_add₀ (by norm_num)]
    congr 1
    ring
  calc round q ≤ q + 2 ^ (spacing q - 1) := round_le_add_spacing q
    _ = q + 2 ^ (spacing q + 23) * 2 ^ (-24 : ℤ) := by rw [hhalf]
    _ ≤ q + q * 2 ^ (-24 : ℤ) := by gcongr
    _ = q * (1 + 2 ^ (-24 : ℤ)) := by ring

/-! ## Integers -/

/-- The integer nearest to `m / d`; of two that are equally near, the even one. -/
def nearestEvenDiv (m d : ℕ) : ℕ :=
  if 2 * (m % d) < d then m / d
  else if 2 * (m % d) = d then m / d + m / d % 2
  else m / d + 1

theorem nearestEven_natCast_div {m d : ℕ} (hd : 0 < d) :
    nearestEven ((m : ℚ) / d) = nearestEvenDiv m d := by
  have hd' : (0 : ℚ) < d := by exact_mod_cast hd
  have hfloor : ⌊(m : ℚ) / d⌋ = (m / d : ℕ) := by
    rw [Rat.floor_natCast_div_natCast]
    rfl
  -- what is behind the integer part is the remainder
  have hfract : (m : ℚ) / d - (((m / d : ℕ) : ℤ) : ℚ) = (m % d : ℕ) / d := by
    have hmod : (m : ℚ) = d * (m / d : ℕ) + (m % d : ℕ) := by
      exact_mod_cast (Nat.div_add_mod m d).symm
    rw [Int.cast_natCast, hmod]
    field_simp
    ring
  have hlt : ((m % d : ℕ) : ℚ) / d < 1 / 2 ↔ 2 * (m % d) < d := by
    rw [div_lt_div_iff₀ hd' two_pos, one_mul, mul_comm]
    exact_mod_cast Iff.rfl
  have heq : ((m % d : ℕ) : ℚ) / d = 1 / 2 ↔ 2 * (m % d) = d := by
    rw [div_eq_div_iff hd'.ne' two_ne_zero, one_mul, mul_comm]
    exact_mod_cast Iff.rfl
  unfold nearestEven nearestEvenDiv
  rw [hfloor, hfract]
  simp only [hlt, heq]
  split_ifs <;> push_cast <;> rfl

/-- An integer rounded to 24 significant bits. -/
def roundNat (m : ℕ) : ℕ := nearestEvenDiv m (2 ^ (m.log2 - 23)) * 2 ^ (m.log2 - 23)

theorem roundNat_of_lt {m : ℕ} (hm : m < 2 ^ 24) : roundNat m = m := by
  have hlog : m.log2 - 23 = 0 := by
    rcases Nat.eq_zero_or_pos m with rfl | hpos
    · rfl
    · have := (Nat.log2_lt hpos.ne').mpr hm
      omega
  simp [roundNat, hlog, nearestEvenDiv, Nat.mod_one]

/-- **Rounding a multiple of a power of two is rounding an integer.** -/
theorem round_natCast_mul (m : ℕ) {e : ℤ} (he : -149 ≤ e) :
    round (m * 2 ^ e) = roundNat m * 2 ^ e := by
  rcases Nat.lt_or_ge m (2 ^ 24) with hsmall | hlarge
  · rw [roundNat_of_lt hsmall, round_of_mantissa hsmall he]
  have hpos : 0 < m := by omega
  have hq : (0 : ℚ) < m * 2 ^ e := by positivity
  have hlog : 24 ≤ m.log2 := (Nat.le_log2 hpos.ne').mpr hlarge
  obtain ⟨k, hk⟩ := Nat.exists_eq_add_of_le hlog
  -- the leading bit of the product tells the spacing around it
  have hspacing : spacing (m * 2 ^ e) = e + (k + 1) := by
    refine le_antisymm (spacing_le_of_lt hq ?_ (by omega)) (le_spacing ?_)
    · have hhigh : (m : ℚ) < 2 ^ (k + 25) := by
        exact_mod_cast (Nat.lt_log2_self (n := m)).trans_eq (by rw [hk]; ring_nf)
      calc (m : ℚ) * 2 ^ e < 2 ^ (k + 25) * 2 ^ e := by gcongr
        _ = 2 ^ (e + (k + 1) + 24) := by
          rw [← zpow_natCast, ← zpow_add₀ (by norm_num)]
          congr 1
          push_cast
          ring
    · have hlow : (2 : ℚ) ^ (k + 24) ≤ m := by
        exact_mod_cast (le_of_eq (by rw [hk]; ring_nf)).trans (Nat.log2_self_le hpos.ne')
      calc (2 : ℚ) ^ (e + (k + 1) + 23) = 2 ^ (k + 24) * 2 ^ e := by
            rw [← zpow_natCast, ← zpow_add₀ (by norm_num)]
            congr 1
            push_cast
            ring
        _ ≤ m * 2 ^ e := by gcongr
  have hscale : (2 : ℚ) ^ (e + (k + 1)) = (2 ^ (k + 1) : ℕ) * 2 ^ e := by
    rw [zpow_add₀ (by norm_num), mul_comm]
    norm_cast
  have hquotient : (m : ℚ) * 2 ^ e / 2 ^ (e + (k + 1)) = m / (2 ^ (k + 1) : ℕ) := by
    rw [hscale, mul_div_mul_right _ _ (by positivity)]
  have hexponent : m.log2 - 23 = k + 1 := by omega
  unfold round roundNat
  rw [hspacing, hquotient, nearestEven_natCast_div (by positivity), hexponent, hscale]
  push_cast
  ring

end Binary32

end FuzzyFinder
