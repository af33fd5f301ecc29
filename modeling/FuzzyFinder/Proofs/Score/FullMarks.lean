import FuzzyFinder.Proofs.Binary32.Error
import FuzzyFinder.Proofs.Score.Contribution

/-!
# FuzzyFinder — full marks

A needle earns the most where every byte keeps its base contribution: the base contribution is added
up once per needle byte (`Score.fullMarks`). In exact arithmetic this would stay below one as long
as the candidate is longer than the needle. In single precision each of the additions may round up,
and with ever more of them the sum gets ahead of itself: up to four thousand bytes the exact value
leaves enough room (`Score.fullMarks_lt_perfect`), and at 5908 bytes it does not
(`Score.perfect_lt_fullMarks`).
-/

namespace FuzzyFinder

namespace Score

variable {a b : Score}

/-! ## Adding the same part again and again -/

/-- The part `a` added up `k` times, the last one first. -/
def repeated (a : Score) : ℕ → Score
  | 0 => 0
  | k + 1 => a + repeated a k

theorem IsPart.repeated_isSum (ha : IsPart a) (k : ℕ) : IsSum (repeated a k) := by
  induction k with
  | zero => exact isSum_zero
  | succ k ih => exact ha.add_isSum ih

/-- A greater part adds up to a greater sum. -/
theorem IsPart.value_repeated_mono (ha : IsPart a) (hb : IsPart b) (hab : value a ≤ value b)
    (k : ℕ) : value (repeated a k) ≤ value (repeated b k) := by
  induction k with
  | zero => exact le_rfl
  | succ k ih =>
    exact ha.value_add_le_add hb (ha.repeated_isSum k) (hb.repeated_isSum k) hab ih

/-- **Below one, each addition rounds up by at most `2 ^ -25`.** -/
theorem IsPart.value_repeated_le (ha : IsPart a) (k : ℕ)
    (hk : k * (value a + 2 ^ (-25 : ℤ)) ≤ 1) :
    value (repeated a k) ≤ k * (value a + 2 ^ (-25 : ℤ)) := by
  induction k with
  | zero => simp [repeated]
  | succ k ih =>
    have hpos := ha.pos
    have hulp : (0 : ℚ) < 2 ^ (-25 : ℤ) := by positivity
    push_cast at hk ⊢
    have hsum : value (repeated a k) ≤ k * (value a + 2 ^ (-25 : ℤ)) := ih (by linarith)
    -- the exact sum is still below one, where the numbers of the format are dense enough
    have hbelow : value a + value (repeated a k) < 2 ^ (-24 + 24 : ℤ) := by norm_num; linarith
    calc value (repeated a (k + 1))
        = Binary32.round (value a + value (repeated a k)) := (ha.add_value (ha.repeated_isSum k)).2
      _ ≤ value a + value (repeated a k) + 2 ^ (-24 - 1 : ℤ) :=
        Binary32.round_le_add (add_nonneg hpos.le (value_nonneg _)) hbelow (by decide)
      _ ≤ (k + 1) * (value a + 2 ^ (-25 : ℤ)) := by norm_num at hsum ⊢; linarith

/-- The integer `m` added to `s` another `k` times, each sum rounded to 24 significant bits. The
case on `s` only has it evaluated before it is used. -/
def accumulate (m : ℕ) : (k s : ℕ) → ℕ
  | 0, s => s
  | k + 1, 0 => accumulate m k (Binary32.roundNat m)
  | k + 1, s + 1 => accumulate m k (Binary32.roundNat (m + (s + 1)))

theorem accumulate_succ (m k s : ℕ) :
    accumulate m (k + 1) s = accumulate m k (Binary32.roundNat (m + s)) := by
  cases s <;> rfl

/-- The last addition may as well be taken off. -/
theorem accumulate_succ' (m k s : ℕ) :
    accumulate m (k + 1) s = Binary32.roundNat (m + accumulate m k s) := by
  induction k generalizing s with
  | zero => rw [accumulate_succ, accumulate, accumulate]
  | succ k ih => rw [accumulate_succ, ih, ← accumulate_succ]

/-- **Repeated addition, in integers.** -/
theorem IsPart.value_repeated_eq (ha : IsPart a) {m : ℕ} {e : ℤ} (he : -149 ≤ e)
    (hvalue : value a = m * 2 ^ e) (k : ℕ) : value (repeated a k) = accumulate m k 0 * 2 ^ e := by
  induction k with
  | zero => simp [repeated, accumulate]
  | succ k ih =>
    have hexact : value a + value (repeated a k) = (m + accumulate m k 0 : ℕ) * 2 ^ e := by
      rw [hvalue, ih]
      push_cast
      ring
    calc value (repeated a (k + 1))
        = Binary32.round (value a + value (repeated a k)) := (ha.add_value (ha.repeated_isSum k)).2
      _ = accumulate m (k + 1) 0 * 2 ^ e := by
        rw [hexact, Binary32.round_natCast_mul _ he, accumulate_succ']

/-! ## Full marks -/

theorem perfect_spec : Plain perfect ∧ value perfect = 1 := one_spec

/-- What a needle of `n` bytes earns in a candidate of `c` bytes if every byte keeps its base
contribution. -/
def fullMarks (n c : ℕ) : Score := repeated (Search.perByteOf n c) n

theorem perByteOf_isPart {n c : ℕ} (hn : 1 ≤ n) (hn' : n ≤ 2 ^ 64) (hc : 1 ≤ c)
    (hc' : c ≤ 2 ^ 64) : IsPart (Search.perByteOf n c) :=
  isPart_of_bounds (Search.perByteOf_bounds hn hn' hc hc')

theorem fullMarks_plain {n c : ℕ} (hn : 1 ≤ n) (hn' : n ≤ 2 ^ 64) (hc : 1 ≤ c)
    (hc' : c ≤ 2 ^ 64) : Plain (fullMarks n c) :=
  ((perByteOf_isPart hn hn' hc hc').repeated_isSum n).plain

/-- Full marks are lower in a longer candidate. -/
theorem fullMarks_antitone {n c c' : ℕ} (hn : 1 ≤ n) (hn' : n ≤ 2 ^ 64) (hc : 1 ≤ c)
    (hle : c ≤ c') (hc' : c' ≤ 2 ^ 64) : value (fullMarks n c') ≤ value (fullMarks n c) :=
  (perByteOf_isPart hn hn' (hc.trans hle) hc').value_repeated_mono
    (perByteOf_isPart hn hn' hc (hle.trans hc')) (Search.perByteOf_antitone hn hn' hc hle hc') n

/-- For lengths that the format has, one part in `n` is rounded once. -/
theorem value_one_div_ofNat_le {n : ℕ} (hn : 1 ≤ n) (hmax : n < 2 ^ 24) :
    value (1 / Float32.ofNat n) ≤ 1 / n * (1 + 2 ^ (-24 : ℤ)) := by
  have hround : Binary32.round n = n := by
    simpa using Binary32.round_of_mantissa (e := 0) hmax (by decide)
  have hn' : (0 : ℚ) < n := by exact_mod_cast hn
  have hnormal : (2 : ℚ) ^ (-126 : ℤ) ≤ 1 / n := by
    rw [le_div_iff₀ hn']
    have hmax' : (n : ℚ) ≤ 2 ^ 24 := by exact_mod_cast hmax.le
    calc (2 : ℚ) ^ (-126 : ℤ) * n ≤ 2 ^ (-126 : ℤ) * 2 ^ 24 := by gcongr
      _ ≤ 1 := by norm_num
  rw [(Search.one_div_ofNat_spec hn (hmax.le.trans (by norm_num))).2.1, hround]
  exact Binary32.round_le_mul hnormal

/-- The base contribution is off by three roundings: of the parts, of their sum, and of its half. -/
theorem value_perByteOf_le {n c : ℕ} (hn : 1 ≤ n) (hn' : n < 2 ^ 24) (hc : 1 ≤ c)
    (hc' : c < 2 ^ 24) :
    value (Search.perByteOf n c) ≤ (1 / n + 1 / c) / 2 * (1 + 2 ^ (-24 : ℤ)) ^ 3 := by
  have hn64 : n ≤ 2 ^ 64 := hn'.le.trans (by norm_num)
  have hc64 : c ≤ 2 ^ 64 := hc'.le.trans (by norm_num)
  obtain ⟨-, -, hlow, -⟩ := Search.one_div_ofNat_spec hn hn64
  obtain ⟨-, hsum, hsumlow, -⟩ := Search.add_one_div_ofNat_spec hn hn64 hc hc64
  have hsumle : value (1 / Float32.ofNat n + 1 / Float32.ofNat c)
      ≤ (1 / n + 1 / c) * (1 + 2 ^ (-24 : ℤ)) ^ 2 := by
    rw [hsum]
    calc Binary32.round (value (1 / Float32.ofNat n) + value (1 / Float32.ofNat c))
        ≤ (value (1 / Float32.ofNat n) + value (1 / Float32.ofNat c)) * (1 + 2 ^ (-24 : ℤ)) :=
          Binary32.round_le_mul (le_trans (by norm_num) (hlow.trans
            (le_add_of_nonneg_right (value_nonneg _))))
      _ ≤ (1 / n * (1 + 2 ^ (-24 : ℤ)) + 1 / c * (1 + 2 ^ (-24 : ℤ))) * (1 + 2 ^ (-24 : ℤ)) := by
          gcongr
          · exact value_one_div_ofNat_le hn hn'
          · exact value_one_div_ofNat_le hc hc'
      _ = (1 / n + 1 / c) * (1 + 2 ^ (-24 : ℤ)) ^ 2 := by ring
  rw [(Search.perByteOf_spec hn hn64 hc hc64).2]
  calc Binary32.round (value (1 / Float32.ofNat n + 1 / Float32.ofNat c) / 2)
      ≤ value (1 / Float32.ofNat n + 1 / Float32.ofNat c) / 2 * (1 + 2 ^ (-24 : ℤ)) := by
        refine Binary32.round_le_mul ?_
        rw [le_div_iff₀ two_pos]
        exact le_trans (by norm_num) hsumlow
    _ ≤ (1 / n + 1 / c) * (1 + 2 ^ (-24 : ℤ)) ^ 2 / 2 * (1 + 2 ^ (-24 : ℤ)) := by gcongr
    _ = (1 / n + 1 / c) / 2 * (1 + 2 ^ (-24 : ℤ)) ^ 3 := by ring

/-- In exact arithmetic full marks leave one part in `2 * (n + 1)` free; rounding takes less. -/
theorem rounded_sum_lt_one {x : ℚ} (hx : 1 ≤ x) (hmax : x ≤ 4000) :
    x * ((1 / x + 1 / (x + 1)) / 2 * (1 + 2 ^ (-24 : ℤ)) ^ 3 + 2 ^ (-25 : ℤ)) < 1 := by
  have hfree : x * ((1 / x + 1 / (x + 1)) / 2) = 1 - 1 / (2 * (x + 1)) := by
    field_simp
    ring
  have hroom : (1 : ℚ) / (2 * (4000 + 1)) ≤ 1 / (2 * (x + 1)) := by gcongr
  have hcube : ((1 : ℚ) + 2 ^ (-24 : ℤ)) ^ 3 ≤ 1 + 2 ^ (-22 : ℤ) := by norm_num
  calc x * ((1 / x + 1 / (x + 1)) / 2 * (1 + 2 ^ (-24 : ℤ)) ^ 3 + 2 ^ (-25 : ℤ))
      = (1 - 1 / (2 * (x + 1))) * (1 + 2 ^ (-24 : ℤ)) ^ 3 + x * 2 ^ (-25 : ℤ) := by
        rw [mul_add, ← mul_assoc, hfree]
    _ ≤ (1 - 1 / (2 * (4000 + 1))) * (1 + 2 ^ (-22 : ℤ)) + 4000 * 2 ^ (-25 : ℤ) := by
        gcongr
    _ < 1 := by norm_num

/-- **Up to four thousand bytes, full marks stay below one.** -/
theorem fullMarks_lt_perfect {n : ℕ} (hn : 1 ≤ n) (hmax : n ≤ 4000) :
    fullMarks n (n + 1) < perfect := by
  have hpart : IsPart (Search.perByteOf n (n + 1)) :=
    perByteOf_isPart hn (by omega) (by omega) (by omega)
  have hbase := value_perByteOf_le (c := n + 1) hn (by omega) (by omega) (by omega)
  have hsum : n * (value (Search.perByteOf n (n + 1)) + 2 ^ (-25 : ℤ)) < 1 := by
    push_cast at hbase
    refine lt_of_le_of_lt ?_ (rounded_sum_lt_one (x := n) (by exact_mod_cast hn)
      (by exact_mod_cast hmax))
    gcongr
  unfold fullMarks
  rw [lt_iff (hpart.repeated_isSum n).plain perfect_spec.1, perfect_spec.2]
  exact lt_of_le_of_lt (hpart.value_repeated_le n hsum.le) hsum

/-- **At 5908 bytes, full marks have passed one.** -/
theorem perfect_lt_fullMarks : perfect < fullMarks 5908 5909 := by
  have hpart : IsPart (Search.perByteOf 5908 5909) :=
    perByteOf_isPart (by decide) (by decide) (by decide) (by decide)
  obtain ⟨-, hvalue⟩ := spec_of_unpack (s := Search.perByteOf 5908 5909) (m := 11630613) (e := -36)
    (by decide) rfl (by decide) (by decide) (by decide) (by decide)
  have hpassed : 2 ^ 36 < accumulate 11630613 5908 0 := by decide +kernel
  have hpassed' : (2 : ℚ) ^ 36 < accumulate 11630613 5908 0 := by exact_mod_cast hpassed
  unfold fullMarks
  rw [lt_iff perfect_spec.1 (hpart.repeated_isSum _).plain, perfect_spec.2,
    hpart.value_repeated_eq (by decide) hvalue]
  calc (1 : ℚ) = 2 ^ 36 * 2 ^ (-36 : ℤ) := by norm_num
    _ < accumulate 11630613 5908 0 * 2 ^ (-36 : ℤ) := by gcongr

end Score

end FuzzyFinder
