import FuzzyFinder.Proofs.Binary32.Operations
import FuzzyFinder.Score.Value

/-!
# FuzzyFinder — what a score is worth

A score is a bit pattern; `Score.value` is the rational it stands for. `Score.Plain` singles out
the scores that a search adds up: finite and not negative. On these, each arithmetic operation
gives the exact result rounded (`Score.add_spec` and its companions), and comparing two of them
compares their values (`Score.lt_iff`, `Score.le_iff`). `Score.unreachable` lies outside: it loses
every comparison and absorbs every addition.
-/

namespace FuzzyFinder

namespace Binary32

open Float.Model (Format UnpackedFloat)
open Float.Model.UnpackedFloat

/-! ## Packing -/

theorem unpackSign_packComponents (s : Sign) (e : BitVec 8) (m : BitVec 23) :
    unpackSign (packComponents Format.binary32 s e m) = s.toBitVec := by
  change BitVec.extractLsb' 31 1 (s.toBitVec ++ e ++ m : BitVec (1 + 8 + 23)) = s.toBitVec
  rw [BitVec.extractLsb'_append_eq_of_le (by decide), BitVec.extractLsb'_append_eq_of_le (by decide)]
  simp

theorem ofBitVec_toBitVec (s : Sign) : Sign.ofBitVec s.toBitVec = s := by cases s <;> rfl

theorem ofNat_ne_ofNat {w n k : ℕ} (hn : n < 2 ^ w) (hk : k < 2 ^ w) (hne : n ≠ k) :
    BitVec.ofNat w n ≠ BitVec.ofNat w k := by
  intro h
  have hsame := congrArg BitVec.toNat h
  rw [BitVec.toNat_ofNat, BitVec.toNat_ofNat, Nat.mod_eq_of_lt hn, Nat.mod_eq_of_lt hk] at hsame
  exact hne hsame

/-- Unpacking fields whose exponent is neither all ones nor zero restores the leading bit. -/
theorem unpack_normal (s : Sign) {b m : ℕ} (hb : 0 < b) (hb' : b < 255) (hm : m < 2 ^ 23)
    (hpos : 0 < 2 ^ 23 + m) :
    unpack Format.binary32 (packComponents Format.binary32 s (.ofNat 8 b) (.ofNat 23 m))
      = .finite s (2 ^ 23 + m) (b - 150) hpos := by
  have hexp : (BitVec.ofNat 8 b).toNat = b := by
    rw [BitVec.toNat_ofNat, Nat.mod_eq_of_lt (by omega)]
  have hones : BitVec.ofNat 8 b ≠ -1#8 :=
    ofNat_ne_ofNat (k := 255) (by omega) (by decide) (by omega)
  have hzero : BitVec.ofNat 8 b ≠ 0#8 := ofNat_ne_ofNat (by omega) (by decide) (by omega)
  have hmant : (1#1 ++ BitVec.ofNat 23 m).toNat = 2 ^ 23 + m := by
    have hfield : (BitVec.ofNat 23 m).toNat = m := by
      rw [BitVec.toNat_ofNat, Nat.mod_eq_of_lt hm]
    rw [BitVec.toNat_append, hfield, ← Nat.shiftLeft_add_eq_or_of_lt hm]
    rfl
  simp only [unpack, unpackExponent_packComponents, unpackMantissa_packComponents,
    unpackSign_packComponents, ofBitVec_toBitVec]
  simp only [hones, hzero, hexp, hmant, if_false]
  congr 1

/-- Unpacking fields whose exponent is zero leaves the mantissa as it is. -/
theorem unpack_subnormal (s : Sign) {m : ℕ} (hpos : 0 < m) (hm : m < 2 ^ 23) :
    unpack Format.binary32 (packComponents Format.binary32 s 0#8 (.ofNat 23 m))
      = .finite s m (-149) hpos := by
  have hfield : (BitVec.ofNat 23 m).toNat = m := by
    rw [BitVec.toNat_ofNat, Nat.mod_eq_of_lt hm]
  have hones : (0#8 : BitVec 8) ≠ -1#8 := by decide
  have hzero : BitVec.ofNat 23 m ≠ 0#23 := ofNat_ne_ofNat hm (by decide) (by omega)
  simp only [unpack, unpackExponent_packComponents, unpackMantissa_packComponents,
    unpackSign_packComponents, ofBitVec_toBitVec]
  simp only [hones, hzero, hfield, if_false, if_true, dif_neg, not_false_eq_true]
  congr 1

/-- **Packing a stored number loses nothing.** -/
theorem unpack_pack {u : UnpackedFloat} (h : Stored u) :
    unpack Format.binary32 (pack Format.binary32 u) = u := by
  cases h with
  | zero => rfl
  | finite m e hpos hm hlow hhigh hlead =>
    have hbiased : e + (Format.binary32.exponentBias : ℤ)
        + (Format.binary32.mantissaBitsWithoutImplicit : ℤ) = e + 150 := by
      simp only [Format.exponentBias]
      norm_num
      ring
    have hfits : ¬ 2 ^ Format.binary32.exponentBits ≤ (e + 150).toNat + 1 := by
      norm_num
      omega
    by_cases hnormal : 2 ^ 23 ≤ m
    · have hlog : m.log2 + 1 = Format.binary32.mantissaBits := by
        rw [(Nat.log2_eq_iff hpos.ne').mpr ⟨hnormal, hm⟩]
        rfl
      -- the leading bit of a normal number is not kept
      have hmant : BitVec.ofNat 23 m = BitVec.ofNat 23 (m - 2 ^ 23) := by
        apply BitVec.eq_of_toNat_eq
        rw [BitVec.toNat_ofNat, BitVec.toNat_ofNat]
        exact Nat.mod_eq_sub_mod hnormal
      have hpack : pack Format.binary32 (.finite .positive m e hpos)
          = packComponents Format.binary32 .positive (.ofNat 8 (e + 150).toNat)
              (.ofNat 23 (m - 2 ^ 23)) := by
        rw [← hmant]
        simp only [pack, hbiased, if_neg hfits, if_pos hlog]
      have hmant' : 2 ^ 23 + (m - 2 ^ 23) = m := by omega
      have hexp' : ((e + 150).toNat : ℤ) - 150 = e := by omega
      rw [hpack, unpack_normal _ (by omega) (by omega) (by omega) (by omega)]
      simp only [hmant', hexp']
    · have hlog : ¬ m.log2 + 1 = Format.binary32.mantissaBits := by
        have : m.log2 < 23 := (Nat.log2_lt hpos.ne').mpr (by omega)
        simp only [Format.mantissaBits]
        omega
      have hpack : pack Format.binary32 (.finite .positive m e hpos)
          = packComponents Format.binary32 .positive 0#8 (.ofNat 23 m) := by
        simp only [pack, hbiased, if_neg hfits, if_neg hlog]
      rw [hpack, unpack_subnormal _ hpos (by omega), hlead.resolve_left hnormal]

end Binary32

namespace Score

open Float.Model (Format UnpackedFloat)
open Binary32 (Stored magnitude)

/-! ## Values -/

/-- The rational that a score stands for; infinities and negative scores count as zero. -/
def value (s : Score) : ℚ := magnitude s.toModel.unpack

/-- A finite score that is not negative. -/
def Plain (s : Score) : Prop := Stored s.toModel.unpack

theorem value_nonneg (s : Score) : 0 ≤ value s := Binary32.magnitude_nonneg _

/-- What a plain score is worth is a number of the format. -/
theorem Plain.round_value {s : Score} (h : Plain s) : Binary32.round (value s) = value s :=
  Stored.round_magnitude h

theorem plain_pack {u : UnpackedFloat} (h : Stored u) :
    Plain (.ofModel (.pack u)) ∧ value (.ofModel (.pack u)) = magnitude u := by
  have hunpack : (Float32.Model.pack u).unpack = u := Binary32.unpack_pack h
  unfold Plain value
  simp only [hunpack]
  exact ⟨h, trivial⟩

/-! ## Arithmetic -/

variable {a b : Score}

theorem add_spec (ha : Plain a) (hb : Plain b) (hmax : value a + value b ≤ 2 ^ 127) :
    Plain (a + b) ∧ value (a + b) = Binary32.round (value a + value b) := by
  obtain ⟨hstored, hvalue⟩ := Binary32.add_spec ha hb hmax
  obtain ⟨hplain, hpack⟩ := plain_pack hstored
  exact ⟨hplain, hpack.trans hvalue⟩

theorem mul_spec (ha : Plain a) (hb : Plain b) (hmax : value a * value b ≤ 2 ^ 127) :
    Plain (a * b) ∧ value (a * b) = Binary32.round (value a * value b) := by
  obtain ⟨hstored, hvalue⟩ := Binary32.mul_spec ha hb hmax
  obtain ⟨hplain, hpack⟩ := plain_pack hstored
  exact ⟨hplain, hpack.trans hvalue⟩

theorem div_spec (ha : Plain a) (hb : Plain b) (hb0 : 0 < value b)
    (hmax : value a / value b ≤ 2 ^ 127) :
    Plain (a / b) ∧ value (a / b) = Binary32.round (value a / value b) := by
  obtain ⟨hstored, hvalue⟩ := Binary32.div_spec ha hb hb0 hmax
  obtain ⟨hplain, hpack⟩ := plain_pack hstored
  exact ⟨hplain, hpack.trans hvalue⟩

/-! ## Comparing -/

theorem lt_iff (ha : Plain a) (hb : Plain b) : a < b ↔ value a < value b := by
  have hmodel : a < b ↔ a.toModel.unpack.lt b.toModel.unpack = true := decide_eq_true_iff
  rw [hmodel, UnpackedFloat.lt, Stored.compare ha hb, beq_iff_eq, Option.some_inj,
    compare_lt_iff_lt]
  rfl

theorem le_iff (ha : Plain a) (hb : Plain b) : a ≤ b ↔ value a ≤ value b := by
  have hmodel : a ≤ b ↔ a.toModel.unpack.le b.toModel.unpack = true := decide_eq_true_iff
  rw [hmodel, UnpackedFloat.le, Stored.compare ha hb, Option.any_some, Ordering.isLE_iff_ne_gt]
  exact compare_le_iff_le

theorem Plain.le_of_lt (ha : Plain a) (hb : Plain b) (h : a < b) : a ≤ b :=
  (le_iff ha hb).mpr ((lt_iff ha hb).mp h).le

theorem Plain.not_lt_of_lt (ha : Plain a) (hb : Plain b) (h : a < b) : ¬ b < a := by
  rw [lt_iff ha hb] at h
  rw [lt_iff hb ha]
  exact lt_asymm h

theorem Plain.le_of_not_lt (ha : Plain a) (hb : Plain b) (h : ¬ a < b) : b ≤ a := by
  rw [lt_iff ha hb, not_lt] at h
  exact (le_iff hb ha).mpr h

theorem Plain.le_trans {c : Score} (ha : Plain a) (hb : Plain b) (hc : Plain c) (hab : a ≤ b)
    (hbc : b ≤ c) : a ≤ c :=
  (le_iff ha hc).mpr (((le_iff ha hb).mp hab).trans ((le_iff hb hc).mp hbc))

end Score

end FuzzyFinder
