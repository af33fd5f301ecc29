import FuzzyFinder.Proofs.Binary32.Constants
import FuzzyFinder.Score.Search

/-!
# FuzzyFinder — what a placed byte is worth

The search adds up one contribution per needle byte. This module bounds a single contribution
(`Search.contribution_spec`: positive and at most what a byte contributes at the best position, for
candidates and needles whose lengths fit a machine word) and the sums of contributions. Such a sum
never leaves the range in which adding is well behaved: once it reaches `2 ^ 25`, a further
contribution is too small to be noticed and is rounded away. So adding a contribution to a larger
sum gives a larger sum (`Score.IsPart.add_mono`), which is what lets the search keep only the best
sum of each cell.
-/

namespace FuzzyFinder

namespace Binary32

/-- One more does not move a power of two behind the reach of the mantissa. -/
theorem round_two_pow_25_add_one : round (2 ^ 25 + 1) = 2 ^ 25 := by
  -- around this number the format has every fourth integer
  have hlow : (2 : ℤ) ≤ spacing (2 ^ 25 + 1) := le_spacing (by norm_num)
  have hhigh : spacing (2 ^ 25 + 1) ≤ 2 := spacing_le_of_lt (by norm_num) (by norm_num) (by decide)
  have hspacing : spacing (2 ^ 25 + 1) = 2 := le_antisymm hhigh hlow
  have hfloor : ⌊((2 : ℚ) ^ 25 + 1) / 2 ^ (2 : ℤ)⌋ = 2 ^ 23 := by
    rw [Int.floor_eq_iff]
    norm_num
  have hnearest : nearestEven (((2 : ℚ) ^ 25 + 1) / 2 ^ (2 : ℤ)) = 2 ^ 23 := by
    unfold nearestEven
    rw [hfloor, if_pos (by norm_num)]
  unfold round
  rw [hspacing, hnearest]
  norm_num

end Binary32

namespace Score

variable {a x y : Score}

/-! ## Parts and sums -/

/-- What a single needle byte may contribute. -/
structure IsPart (a : Score) : Prop where
  plain : Plain a
  pos : 0 < value a
  le_one : value a ≤ 1

theorem isPart_of_bounds (h : Plain a ∧ 2 ^ (-64 : ℤ) ≤ value a ∧ value a ≤ 1) : IsPart a :=
  ⟨h.1, lt_of_lt_of_le (by positivity) h.2.1, h.2.2⟩

/-- What contributions may add up to. -/
structure IsSum (x : Score) : Prop where
  plain : Plain x
  le_max : value x ≤ 2 ^ 25

theorem isSum_zero : IsSum 0 := ⟨zero_plain, by simp⟩

theorem IsPart.add_value (ha : IsPart a) (hx : IsSum x) :
    Plain (a + x) ∧ value (a + x) = Binary32.round (value a + value x) := by
  refine add_spec ha.plain hx.plain ?_
  have h1 := ha.le_one
  have h2 := hx.le_max
  calc value a + value x ≤ 1 + 2 ^ 25 := by linarith
    _ ≤ 2 ^ 127 := by norm_num

/-- A sum stays a sum: behind `2 ^ 25` a contribution is rounded away. -/
theorem IsPart.add_isSum (ha : IsPart a) (hx : IsSum x) : IsSum (a + x) := by
  obtain ⟨hplain, hvalue⟩ := ha.add_value hx
  refine ⟨hplain, ?_⟩
  have h1 := ha.le_one
  have h2 := hx.le_max
  have hnonneg : 0 ≤ value a + value x := add_nonneg (value_nonneg a) (value_nonneg x)
  rw [hvalue, ← Binary32.round_two_pow_25_add_one]
  exact Binary32.round_mono hnonneg (by linarith)

theorem IsPart.le_add (ha : IsPart a) (hx : IsSum x) : value a ≤ value (a + x) := by
  rw [(ha.add_value hx).2, ← ha.plain.round_value]
  have := value_nonneg x
  exact Binary32.round_mono ha.pos.le (by rw [ha.plain.round_value]; linarith)

/-- A better part and a better rest make a better whole. -/
theorem IsPart.value_add_le_add (ha : IsPart a) (hb : IsPart b) (hx : IsSum x) (hy : IsSum y)
    (hab : value a ≤ value b) (hxy : value x ≤ value y) : value (a + x) ≤ value (b + y) := by
  rw [(ha.add_value hx).2, (hb.add_value hy).2]
  exact Binary32.round_mono (add_nonneg ha.pos.le (value_nonneg x)) (add_le_add hab hxy)

/-- **A better rest makes a better whole.** -/
theorem IsPart.add_mono (ha : IsPart a) (hx : IsSum x) (hy : IsSum y) (h : x ≤ y) :
    a + x ≤ a + y := by
  rw [le_iff hx.plain hy.plain] at h
  rw [le_iff (ha.add_value hx).1 (ha.add_value hy).1]
  exact ha.value_add_le_add ha hx hy le_rfl h

/-! ## Quotients of counts -/

/-- A count that fits a machine word. -/
theorem ofNat_bounds {n : ℕ} (hn : 1 ≤ n) (hmax : n ≤ 2 ^ 64) :
    Plain (Float32.ofNat n) ∧ 1 ≤ value (Float32.ofNat n) ∧ value (Float32.ofNat n) ≤ 2 ^ 64 := by
  obtain ⟨hplain, hvalue⟩ := ofNat_spec (n := n) (hmax.trans (by norm_num))
  have hn' : (2 : ℚ) ^ (0 : ℤ) ≤ n := by exact_mod_cast hn
  have hmax' : (n : ℚ) ≤ 2 ^ (64 : ℤ) := by exact_mod_cast hmax
  refine ⟨hplain, ?_, ?_⟩
  · rw [hvalue]
    exact_mod_cast Binary32.two_zpow_le_round (by decide) hn'
  · rw [hvalue]
    exact_mod_cast Binary32.round_le_two_zpow (by positivity) (by decide) hmax'

/-- A quotient by a count stays above `2 ^ e` as long as the dividend is `2 ^ 64` times that. -/
theorem div_ofNat_bounds {n : ℕ} {e : ℤ} (hn : 1 ≤ n) (hmax : n ≤ 2 ^ 64) (ha : Plain a)
    (hlow : 2 ^ (e + 64) ≤ value a) (hhigh : value a ≤ 1) (he : -149 ≤ e) :
    Plain (a / Float32.ofNat n) ∧ 2 ^ e ≤ value (a / Float32.ofNat n)
      ∧ value (a / Float32.ofNat n) ≤ 1 := by
  obtain ⟨hplain, hone, hlarge⟩ := ofNat_bounds hn hmax
  have hpos : 0 < value (Float32.ofNat n) := lt_of_lt_of_le one_pos hone
  have hle : value a / value (Float32.ofNat n) ≤ 1 := by
    rw [div_le_one hpos]
    exact hhigh.trans hone
  have hge : 2 ^ e ≤ value a / value (Float32.ofNat n) := by
    rw [le_div_iff₀ hpos]
    calc (2 : ℚ) ^ e * value (Float32.ofNat n) ≤ 2 ^ e * 2 ^ 64 := by gcongr
      _ = 2 ^ (e + 64) := by rw [zpow_add₀ (by norm_num)]; norm_num
      _ ≤ value a := hlow
  obtain ⟨hplain', hvalue⟩ := div_spec ha hplain hpos (hle.trans (by norm_num))
  refine ⟨hplain', ?_, ?_⟩
  · rw [hvalue]
    exact Binary32.two_zpow_le_round he hge
  · rw [hvalue, ← Binary32.round_one]
    exact Binary32.round_mono (le_trans (by positivity) hge) hle

end Score

namespace Search

open Score (Plain value IsPart)

/-! ## Contributions -/

/-- One part in `n`. -/
theorem one_div_ofNat_spec {n : ℕ} (hn : 1 ≤ n) (hmax : n ≤ 2 ^ 64) :
    Plain (1 / Float32.ofNat n)
      ∧ value (1 / Float32.ofNat n) = Binary32.round (1 / Binary32.round n)
      ∧ 2 ^ (-64 : ℤ) ≤ value (1 / Float32.ofNat n) ∧ value (1 / Float32.ofNat n) ≤ 1 := by
  obtain ⟨hone, hone'⟩ := Score.one_spec
  have hlow : (2 : ℚ) ^ (-64 + 64 : ℤ) ≤ value 1 := by rw [hone']; norm_num
  obtain ⟨hplain, hge, hle⟩ := Score.div_ofNat_bounds hn hmax hone hlow hone'.le (by decide)
  obtain ⟨hcount, hcount1, -⟩ := Score.ofNat_bounds hn hmax
  have hquotient : value 1 / value (Float32.ofNat n) ≤ 2 ^ 127 := by
    rw [hone', div_le_iff₀ (by linarith)]
    linarith
  obtain ⟨-, hvalue⟩ := Score.div_spec hone hcount (by linarith) hquotient
  rw [hone', (Score.ofNat_spec (hmax.trans (by norm_num))).2] at hvalue
  exact ⟨hplain, hvalue, hge, hle⟩

/-- The sum of the two parts lies between twice their bounds. -/
theorem add_one_div_ofNat_spec {n c : ℕ} (hn : 1 ≤ n) (hn' : n ≤ 2 ^ 64) (hc : 1 ≤ c)
    (hc' : c ≤ 2 ^ 64) :
    Plain (1 / Float32.ofNat n + 1 / Float32.ofNat c)
      ∧ value (1 / Float32.ofNat n + 1 / Float32.ofNat c)
        = Binary32.round (value (1 / Float32.ofNat n) + value (1 / Float32.ofNat c))
      ∧ 2 ^ (-63 : ℤ) ≤ value (1 / Float32.ofNat n + 1 / Float32.ofNat c)
      ∧ value (1 / Float32.ofNat n + 1 / Float32.ofNat c) ≤ 2 := by
  obtain ⟨hp, -, hp1, hp2⟩ := one_div_ofNat_spec hn hn'
  obtain ⟨hq, -, hq1, hq2⟩ := one_div_ofNat_spec hc hc'
  obtain ⟨hplain, hvalue⟩ := Score.add_spec hp hq (by
    calc value (1 / Float32.ofNat n) + value (1 / Float32.ofNat c) ≤ 1 + 1 := add_le_add hp2 hq2
      _ ≤ 2 ^ 127 := by norm_num)
  refine ⟨hplain, hvalue, ?_, ?_⟩
  · rw [hvalue]
    refine Binary32.two_zpow_le_round (by decide) ?_
    calc (2 : ℚ) ^ (-63 : ℤ) = 2 ^ (-64 : ℤ) + 2 ^ (-64 : ℤ) := by norm_num
      _ ≤ _ := add_le_add hp1 hq1
  · have hnonneg := add_nonneg (Score.value_nonneg (1 / Float32.ofNat n))
      (Score.value_nonneg (1 / Float32.ofNat c))
    rw [hvalue]
    exact_mod_cast Binary32.round_le_two_zpow (e := 1) hnonneg (by decide)
      (by norm_num; linarith)

/-- The base contribution is half of that sum. -/
theorem perByteOf_spec {n c : ℕ} (hn : 1 ≤ n) (hn' : n ≤ 2 ^ 64) (hc : 1 ≤ c) (hc' : c ≤ 2 ^ 64) :
    Plain (perByteOf n c) ∧ value (perByteOf n c)
      = Binary32.round (value (1 / Float32.ofNat n + 1 / Float32.ofNat c) / 2) := by
  obtain ⟨htwo, htwo'⟩ := Score.two_spec
  obtain ⟨hsum, -, -, hsum2⟩ := add_one_div_ofNat_spec hn hn' hc hc'
  have hhalf : value (1 / Float32.ofNat n + 1 / Float32.ofNat c) / value 2 ≤ 2 ^ 127 := by
    rw [htwo']
    linarith
  obtain ⟨hplain, hvalue⟩ := Score.div_spec hsum htwo (by rw [htwo']; norm_num) hhalf
  rw [htwo'] at hvalue
  exact ⟨hplain, hvalue⟩

/-- The base contribution lies between `2 ^ -64` and one. -/
theorem perByteOf_bounds {n c : ℕ} (hn : 1 ≤ n) (hn' : n ≤ 2 ^ 64) (hc : 1 ≤ c) (hc' : c ≤ 2 ^ 64) :
    Plain (perByteOf n c) ∧ 2 ^ (-64 : ℤ) ≤ value (perByteOf n c) ∧ value (perByteOf n c) ≤ 1 := by
  obtain ⟨hplain, hvalue⟩ := perByteOf_spec hn hn' hc hc'
  obtain ⟨-, -, hsum1, hsum2⟩ := add_one_div_ofNat_spec hn hn' hc hc'
  refine ⟨hplain, ?_, ?_⟩
  · rw [hvalue]
    refine Binary32.two_zpow_le_round (by decide) ?_
    rw [le_div_iff₀ (by norm_num)]
    calc (2 : ℚ) ^ (-64 : ℤ) * 2 = 2 ^ (-63 : ℤ) := by norm_num
      _ ≤ _ := hsum1
  · rw [hvalue, ← Binary32.round_one]
    exact Binary32.round_mono (div_nonneg (Score.value_nonneg _) (by norm_num)) (by linarith)

/-- In a longer candidate a byte contributes no more. -/
theorem perByteOf_antitone {n c c' : ℕ} (hn : 1 ≤ n) (hn' : n ≤ 2 ^ 64) (hc : 1 ≤ c)
    (hle : c ≤ c') (hc' : c' ≤ 2 ^ 64) : value (perByteOf n c') ≤ value (perByteOf n c) := by
  obtain ⟨-, hpart, -⟩ := one_div_ofNat_spec hc (hle.trans hc')
  obtain ⟨-, hpart', hlow, -⟩ := one_div_ofNat_spec (hc.trans hle) hc'
  have hcount : (0 : ℚ) < Binary32.round c := by
    have hone : (2 : ℚ) ^ (0 : ℤ) ≤ c := by exact_mod_cast hc
    exact lt_of_lt_of_le (by positivity) (Binary32.two_zpow_le_round (by decide) hone)
  have hcounts : Binary32.round c ≤ Binary32.round c' :=
    Binary32.round_mono (by positivity) (by exact_mod_cast hle)
  have hparts : value (1 / Float32.ofNat c') ≤ value (1 / Float32.ofNat c) := by
    rw [hpart, hpart']
    exact Binary32.round_mono (by have := hcount.trans_le hcounts; positivity)
      (one_div_le_one_div_of_le hcount hcounts)
  -- what follows are monotone steps
  rw [(perByteOf_spec hn hn' (hc.trans hle) hc').2, (perByteOf_spec hn hn' hc (hle.trans hc')).2]
  refine Binary32.round_mono (div_nonneg (Score.value_nonneg _) (by norm_num)) ?_
  have hsums : value (1 / Float32.ofNat n + 1 / Float32.ofNat c')
      ≤ value (1 / Float32.ofNat n + 1 / Float32.ofNat c) := by
    rw [(add_one_div_ofNat_spec hn hn' (hc.trans hle) hc').2.1,
      (add_one_div_ofNat_spec hn hn' hc (hle.trans hc')).2.1]
    exact Binary32.round_mono (add_nonneg (Score.value_nonneg _) (Score.value_nonneg _))
      (add_le_add le_rfl hparts)
  linarith

/-- Every weight lies between `2 ^ -65` and one. -/
theorem weight_bounds (before here : UInt8) {d : ℕ} (hd : 1 ≤ d) (hd' : d ≤ 2 ^ 64) :
    Plain (weight before here d) ∧ 2 ^ (-65 : ℤ) ≤ value (weight before here d)
      ∧ value (weight before here d) ≤ 1 := by
  have hhalf : (2 : ℚ) ^ (-65 : ℤ) ≤ 1 / 2 := by norm_num
  obtain ⟨h9, h9', h9''⟩ := Score.nine_tenths_spec
  obtain ⟨h8, h8', h8''⟩ := Score.eight_tenths_spec
  obtain ⟨h7, h7', h7''⟩ := Score.seven_tenths_spec
  obtain ⟨h75, h75'⟩ := Score.three_quarters_spec
  unfold weight
  split_ifs
  · exact ⟨h9, hhalf.trans h9', h9''⟩
  · exact ⟨h8, hhalf.trans h8', h8''⟩
  · exact ⟨h8, hhalf.trans h8', h8''⟩
  · exact ⟨h7, hhalf.trans h7', h7''⟩
  · exact Score.div_ofNat_bounds hd hd' h75 (by rw [h75']; norm_num) (by rw [h75']; norm_num)
      (by decide)

/-- What a search has to know about its base contribution, and nothing else about lengths. -/
def Moderate (s : Search) : Prop :=
  Plain s.perByte ∧ 2 ^ (-64 : ℤ) ≤ value s.perByte ∧ value s.perByte ≤ 1

theorem ofBytes_moderate {candidate needle : Bytes} (positions : List Nat) (options : ScoreOptions)
    (hn : needle ≠ []) (hlen : needle.length ≤ candidate.length)
    (hmax : candidate.length < 2 ^ 64) : (ofBytes candidate needle positions options).Moderate := by
  have hpos := List.length_pos_iff.mpr hn
  exact perByteOf_bounds hpos (by omega) (by omega) (by omega)

variable {s : Search}

/-- **A contribution is positive and at most the base contribution.** -/
theorem contribution_spec (hs : s.Moderate) {j : ℕ} (hj : j < 2 ^ 64) (previous : Option Nat) :
    IsPart (s.contribution j previous) ∧ value (s.contribution j previous) ≤ value s.perByte := by
  obtain ⟨hplain, hlow, hhigh⟩ := hs
  unfold contribution
  extract_lets d
  have hd : d ≤ 2 ^ 64 := by cases previous <;> simp only [d] <;> omega
  split_ifs with hnear
  · exact ⟨⟨hplain, lt_of_lt_of_le (by positivity) hlow, hhigh⟩, le_rfl⟩
  · obtain ⟨hw, hw1, hw2⟩ := weight_bounds (s.byteAt (j - 1)) (s.byteAt j) (by omega) hd
    have hle : value s.perByte * value (weight (s.byteAt (j - 1)) (s.byteAt j) d)
        ≤ value s.perByte := mul_le_of_le_one_right (Score.value_nonneg _) hw2
    -- the least product is well above the least number of the format
    have hge : (2 : ℚ) ^ (-129 : ℤ)
        ≤ value s.perByte * value (weight (s.byteAt (j - 1)) (s.byteAt j) d) := by
      calc (2 : ℚ) ^ (-129 : ℤ) = 2 ^ (-64 : ℤ) * 2 ^ (-65 : ℤ) := by
            rw [← zpow_add₀ (by norm_num)]; norm_num
        _ ≤ _ := mul_le_mul hlow hw1 (by positivity) (Score.value_nonneg _)
    obtain ⟨hp, hv⟩ := Score.mul_spec hplain hw ((hle.trans hhigh).trans (by norm_num))
    have hbase : value (s.perByte * weight (s.byteAt (j - 1)) (s.byteAt j) d)
        ≤ value s.perByte := by
      rw [hv]
      calc Binary32.round (value s.perByte * value (weight (s.byteAt (j - 1)) (s.byteAt j) d))
          ≤ Binary32.round (value s.perByte) :=
            Binary32.round_mono (le_trans (by positivity) hge) hle
        _ = value s.perByte := hplain.round_value
    refine ⟨⟨hp, ?_, hbase.trans hhigh⟩, hbase⟩
    rw [hv]
    exact lt_of_lt_of_le (by positivity) (Binary32.two_zpow_le_round (by decide) hge)

theorem contribution_isPart (hs : s.Moderate) {j : ℕ} (hj : j < 2 ^ 64) (previous : Option Nat) :
    IsPart (s.contribution j previous) := (contribution_spec hs hj previous).1

end Search

end FuzzyFinder
