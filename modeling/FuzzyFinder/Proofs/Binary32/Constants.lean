import FuzzyFinder.Proofs.Binary32.Value

/-!
# FuzzyFinder — constants and special scores

The values of the constants that scoring uses, the conversion of a length into a score
(`Score.ofNat_spec`), and the two scores that are not worth anything: a miss, and
`Score.unreachable`, which lies below every plain score and swallows whatever is added to it.
-/

namespace FuzzyFinder

namespace Score

open Float.Model (Format UnpackedFloat)
open Float.Model.UnpackedFloat
open Binary32 (Stored magnitude)

/-! ## Constants -/

/-- A score whose fields are known is worth what they say. -/
theorem spec_of_unpack {s : Score} {m : ℕ} {e : ℤ} (hpos : 0 < m)
    (h : s.toModel.unpack = .finite .positive m e hpos) (hm : m < 2 ^ 24) (hlow : -149 ≤ e)
    (hhigh : e ≤ 104) (hlead : 2 ^ 23 ≤ m ∨ e = -149) : Plain s ∧ value s = m * 2 ^ e := by
  unfold Plain value
  rw [h]
  exact ⟨.finite m e hpos hm hlow hhigh hlead, rfl⟩

/-- A score with a full mantissa of the last binade below one. -/
theorem spec_of_unpack_lt_one {s : Score} {m : ℕ} (hpos : 0 < m)
    (h : s.toModel.unpack = .finite .positive m (-24) hpos) (hm : m < 2 ^ 24) (hlead : 2 ^ 23 ≤ m) :
    Plain s ∧ 1 / 2 ≤ value s ∧ value s ≤ 1 := by
  obtain ⟨hplain, hvalue⟩ := spec_of_unpack hpos h hm (by decide) (by decide) (.inl hlead)
  have hm' : (m : ℚ) ≤ 2 ^ 24 := by exact_mod_cast hm.le
  have hlead' : (2 : ℚ) ^ 23 ≤ m := by exact_mod_cast hlead
  have hpow : (2 : ℚ) ^ (-24 : ℤ) = 1 / 2 ^ 24 := by norm_num
  rw [hvalue, hpow, mul_one_div]
  refine ⟨hplain, ?_, ?_⟩
  · rw [div_le_div_iff₀ (by norm_num) (by norm_num)]
    linarith
  · rw [div_le_one (by norm_num)]
    exact hm'

theorem zero_plain : Plain 0 := Stored.zero

@[simp] theorem value_zero : value 0 = 0 := rfl

theorem one_spec : Plain 1 ∧ value 1 = 1 := by
  obtain ⟨hplain, hvalue⟩ := spec_of_unpack (s := 1) (m := 2 ^ 23) (e := -23) (by decide)
    rfl (by decide) (by decide) (by decide) (by decide)
  exact ⟨hplain, hvalue.trans (by norm_num)⟩

theorem two_spec : Plain 2 ∧ value 2 = 2 := by
  obtain ⟨hplain, hvalue⟩ := spec_of_unpack (s := 2) (m := 2 ^ 23) (e := -22) (by decide)
    rfl (by decide) (by decide) (by decide) (by decide)
  exact ⟨hplain, hvalue.trans (by norm_num)⟩

theorem three_quarters_spec : Plain 0.75 ∧ value 0.75 = 3 / 4 := by
  obtain ⟨hplain, hvalue⟩ := spec_of_unpack (s := 0.75) (m := 3 * 2 ^ 22) (e := -24) (by decide)
    rfl (by decide) (by decide) (by decide) (by decide)
  exact ⟨hplain, hvalue.trans (by norm_num)⟩

theorem nine_tenths_spec : Plain 0.9 ∧ 1 / 2 ≤ value 0.9 ∧ value 0.9 ≤ 1 :=
  spec_of_unpack_lt_one (m := 15099494) (by decide) rfl (by decide) (by decide)

theorem eight_tenths_spec : Plain 0.8 ∧ 1 / 2 ≤ value 0.8 ∧ value 0.8 ≤ 1 :=
  spec_of_unpack_lt_one (m := 13421773) (by decide) rfl (by decide) (by decide)

theorem seven_tenths_spec : Plain 0.7 ∧ 1 / 2 ≤ value 0.7 ∧ value 0.7 ≤ 1 :=
  spec_of_unpack_lt_one (m := 11744051) (by decide) rfl (by decide) (by decide)

/-! ## Counts -/

/-- A small count is converted as a machine word and multiplied by one. -/
theorem ofNat_eq_mul {n : ℕ} (hn : n < 2 ^ 23) :
    Float32.ofNat n = n.toUInt64.toFloat32 * Float32.ofBits 0x3f800000 := by
  change Float32.ofScientific n false 0 = _
  unfold Float32.ofScientific
  rw [dif_pos ⟨hn, by decide⟩]
  rfl

/-- A large count is read like a literal. -/
theorem ofNat_eq_ofScientific {n : ℕ} (hn : ¬ n < 2 ^ 23) :
    Float32.ofNat n
      = .ofModel (.pack (UnpackedFloat.ofScientific Format.binary32 n 0)) := by
  change Float32.ofScientific n false 0 = _
  unfold Float32.ofScientific
  rw [dif_neg (fun h => hn h.1)]
  rfl

/-- **A count is rounded like everything else.** -/
theorem ofNat_spec {n : ℕ} (hmax : n ≤ 2 ^ 127) :
    Plain (Float32.ofNat n) ∧ value (Float32.ofNat n) = Binary32.round n := by
  by_cases hsmall : n < 2 ^ 23
  · have hword : n.toUInt64.toNat = n := by
      rw [Nat.toUInt64_eq, UInt64.toNat_ofNat_of_lt']
      exact hsmall.trans (by decide)
    obtain ⟨hstored, hvalue⟩ := Binary32.ofNat_spec (n := n.toUInt64.toNat) (by rwa [hword])
    obtain ⟨hplain, hpack⟩ := plain_pack hstored
    have hcount : value n.toUInt64.toFloat32 = Binary32.round n := by
      refine hpack.trans (hvalue.trans ?_)
      rw [hword]
    have hone : Plain (Float32.ofBits 0x3f800000) ∧ value (Float32.ofBits 0x3f800000) = 1 :=
      one_spec
    have hle : Binary32.round n ≤ 2 ^ 127 := by
      exact_mod_cast Binary32.round_le_two_zpow (e := 127) (by positivity) (by decide)
        (by exact_mod_cast hmax)
    have hmul := mul_spec (a := n.toUInt64.toFloat32) hplain hone.1
      (by rw [hcount, hone.2, mul_one]; exact hle)
    -- what is a number of the format already is not rounded again
    rw [hone.2, mul_one, hcount, ← hcount, Plain.round_value (s := n.toUInt64.toFloat32) hplain,
      hcount] at hmul
    rw [ofNat_eq_mul hsmall]
    exact hmul
  · obtain ⟨hstored, hvalue⟩ := Binary32.ofScientific_spec (n := n) (by omega) hmax
    obtain ⟨hplain, hpack⟩ := plain_pack hstored
    rw [ofNat_eq_ofScientific hsmall]
    exact ⟨hplain, hpack.trans hvalue⟩

/-! ## Misses and what cannot be reached -/

theorem miss_plain : Plain miss := zero_plain

@[simp] theorem value_miss : value miss = 0 := rfl

variable {a : Score}

theorem isMatch_iff (ha : Plain a) : isMatch a = true ↔ 0 < value a := by
  unfold isMatch
  rw [decide_eq_true_iff, lt_iff miss_plain ha, value_miss]

theorem Plain.isFinite (ha : Plain a) : a.isFinite = true := by
  change a.toModel.unpack.isFinite = true
  unfold Plain at ha
  generalize a.toModel.unpack = u at ha ⊢
  cases ha <;> rfl

theorem unreachable_isFinite : unreachable.isFinite = false := rfl

theorem unreachable_lt (ha : Plain a) : unreachable < a := by
  refine decide_eq_true_iff.mpr ?_
  change UnpackedFloat.lt (.infinity .negative) a.toModel.unpack = true
  unfold Plain at ha
  generalize a.toModel.unpack = u at ha ⊢
  cases ha <;> rfl

theorem not_lt_unreachable (ha : Plain a) : ¬ a < unreachable := by
  intro h
  have h' : UnpackedFloat.lt a.toModel.unpack (.infinity .negative) = true := decide_eq_true_iff.mp h
  unfold Plain at ha
  generalize a.toModel.unpack = u at ha h'
  cases ha <;> simp [UnpackedFloat.lt, UnpackedFloat.compare] at h'

theorem not_unreachable_lt_unreachable : ¬ unreachable < unreachable := by decide

/-- What cannot be completed stays so whatever is added. -/
theorem add_unreachable (ha : Plain a) : a + unreachable = unreachable := by
  change Float32.ofModel (.pack
    (UnpackedFloat.add Format.binary32 a.toModel.unpack (.infinity .negative))) = _
  unfold Plain at ha
  generalize a.toModel.unpack = u at ha ⊢
  cases ha <;> rfl

end Score

end FuzzyFinder
