import FuzzyFinder.Proofs.Binary32.Constants

/-!
# FuzzyFinder — the order of bit patterns

Ranking compares bit patterns (`Score.rank`), matching compares numbers. On everything that counts
as a match the two agree (`Score.rank_lt_iff`): the bits of a positive number spell its exponent
before its mantissa, and the implicit leading bit makes up for the step from one exponent to the
next (`Binary32.Encodes`).
-/

namespace FuzzyFinder

namespace Binary32

open Float.Model (Format UnpackedFloat)
open Float.Model.UnpackedFloat

/-- The fields of a bit pattern, from the most significant one down. -/
theorem toNat_eq_fields (b : BitVec Format.binary32.numBits) :
    b.toNat = (unpackSign b).toNat * 2 ^ 31 + (unpackExponent b).toNat * 2 ^ 23
      + (unpackMantissa b).toNat := by
  have hb : b.toNat < 2 ^ 32 := b.isLt
  have hsign : (unpackSign b).toNat = (b.toNat >>> 31) % 2 ^ 1 := by
    simp [unpackSign, BitVec.extractLsb_toNat]
  have hexp : (unpackExponent b).toNat = (b.toNat >>> 23) % 2 ^ 8 := by
    simp [unpackExponent, BitVec.extractLsb_toNat]
  have hmant : (unpackMantissa b).toNat = b.toNat % 2 ^ 23 := by
    simp [unpackMantissa, BitVec.extractLsb_toNat]
  rw [hsign, hexp, hmant, Nat.shiftRight_eq_div_pow, Nat.shiftRight_eq_div_pow]
  omega

/-- The positive numbers, each with the natural number that its bits spell. -/
inductive Encodes : UnpackedFloat → Nat → Prop where
  | infinity : Encodes (.infinity .positive) (255 * 2 ^ 23)
  | finite (m : ℕ) (e : ℤ) (hpos : 0 < m) (k : ℕ) (hm : m < 2 ^ 24) (hlow : -149 ≤ e)
      (hhigh : e ≤ 104) (hlead : 2 ^ 23 ≤ m ∨ e = -149) (hk : (k : ℤ) = (e + 149) * 2 ^ 23 + m) :
    Encodes (.finite .positive m e hpos) k

/-- What is greater than zero is encoded by its bits. -/
theorem encodes_unpack {b : BitVec Format.binary32.numBits}
    (hpos : UnpackedFloat.lt (.zero .positive) (unpack Format.binary32 b) = true) :
    Encodes (unpack Format.binary32 b) b.toNat := by
  have hfields := toNat_eq_fields b
  have hmant : (unpackMantissa b).toNat < 2 ^ 23 := (unpackMantissa b).isLt
  have hlead : (1#1 ++ unpackMantissa b).toNat = 2 ^ 23 + (unpackMantissa b).toNat := by
    rw [BitVec.toNat_append, ← Nat.shiftLeft_add_eq_or_of_lt hmant]
    rfl
  -- a negative number is not greater than zero
  have hsign : unpackSign b = 0#1 := by
    by_contra hneg
    have hnegative : Sign.ofBitVec (unpackSign b) = .negative := if_neg hneg
    simp only [unpack, hnegative] at hpos
    split_ifs at hpos <;> simp [UnpackedFloat.lt, UnpackedFloat.compare] at hpos
  have hpositive : Sign.ofBitVec (unpackSign b) = .positive := if_pos hsign
  have hsign' : (unpackSign b).toNat = 0 := by rw [hsign]; rfl
  have hbias : (Format.binary32.exponentBias + Format.binary32.mantissaBitsWithoutImplicit : ℤ)
      = 150 := by decide
  have hexp : (unpackExponent b).toNat < 2 ^ 8 := (unpackExponent b).isLt
  simp only [unpack, hpositive, hbias, hlead] at hpos ⊢
  -- by the exponent: infinity, not a number, zero, subnormal and normal
  split_ifs at hpos ⊢ with hones hinf hzero hnone
  · have : (unpackExponent b).toNat = 255 := by rw [hones]; rfl
    have : (unpackMantissa b).toNat = 0 := by rw [hinf]; rfl
    have hbits : b.toNat = 255 * 2 ^ 23 := by omega
    rw [hbits]
    exact .infinity
  · simp [UnpackedFloat.lt, UnpackedFloat.compare] at hpos
  · simp [UnpackedFloat.lt, UnpackedFloat.compare] at hpos
  · have : (unpackExponent b).toNat = 0 := by rw [hzero]; rfl
    exact .finite _ _ _ _ (by omega) (by omega) (by omega) (.inr (by omega)) (by push_cast; omega)
  · have : (unpackExponent b).toNat ≠ 0 := fun h => hzero (BitVec.eq_of_toNat_eq h)
    have : (unpackExponent b).toNat ≠ 255 := fun h => hones (BitVec.eq_of_toNat_eq h)
    exact .finite _ _ _ _ (by omega) (by omega) (by omega) (.inl (by omega)) (by push_cast; omega)

theorem Encodes.lt {u : UnpackedFloat} {k : ℕ} (h : Encodes u k) : k < 2 ^ 31 := by
  cases h <;> omega

/-- **Positive numbers compare as their bits do.** -/
theorem Encodes.lt_iff {u v : UnpackedFloat} {k l : ℕ} (hu : Encodes u k) (hv : Encodes v l) :
    UnpackedFloat.lt u v = true ↔ k < l := by
  cases hu with
  | infinity =>
    cases hv with
    | infinity => simp [UnpackedFloat.lt, UnpackedFloat.compare]
    | finite m e hpos l hm hlow hhigh hlead hl =>
      simp only [UnpackedFloat.lt, UnpackedFloat.compare]
      constructor
      · intro h
        exact absurd h (by decide)
      · intro h
        omega
  | finite m e hpos k hm hlow hhigh hlead hk =>
    cases hv with
    | infinity =>
      simp only [UnpackedFloat.lt, UnpackedFloat.compare]
      exact ⟨fun _ => by omega, fun _ => by decide⟩
    | finite m' e' hpos' l hm' hlow' hhigh' hlead' hl =>
      simp only [UnpackedFloat.lt, UnpackedFloat.compare, beq_iff_eq, Option.some_inj,
        Ordering.then_eq_lt, compare_lt_iff_lt, compare_eq_iff_eq]
      constructor
      · rintro (h | ⟨h, h'⟩)
        · omega
        · omega
      · -- a smaller exponent makes a smaller number whatever the mantissas
        intro h
        rcases lt_trichotomy e e' with he | he | he
        · exact .inl he
        · exact .inr ⟨he, by omega⟩
        · omega

end Binary32

namespace Score

variable {a b : Score}

/-- What counts as a match is encoded by its bits. -/
theorem encodes_of_isMatch (ha : a.isMatch = true) :
    Binary32.Encodes a.toModel.unpack a.toBits.toNat :=
  Binary32.encodes_unpack (decide_eq_true_iff.mp (decide_eq_true_iff.mp ha))

/-- What compares equal to a miss is no match. -/
theorem isMatch_eq_false_of_beq_miss (h : (a == miss) = true) : a.isMatch = false := by
  have hbeq : Float.Model.UnpackedFloat.beq a.toModel.unpack (.zero .positive) = true := h
  rw [← Bool.not_eq_true]
  intro hmatch
  have hencodes := encodes_of_isMatch hmatch
  generalize a.toModel.unpack = u at hbeq hencodes
  generalize a.toBits.toNat = k at hencodes
  cases hencodes with
  | infinity => exact Bool.noConfusion hbeq
  | finite => exact Bool.noConfusion hbeq

/-- **Among matches, ranking by bit patterns is ranking by scores.** -/
theorem rank_lt_iff (ha : a.isMatch = true) (hb : b.isMatch = true) : a.rank < b.rank ↔ a < b := by
  have hlt : a < b ↔ Float.Model.UnpackedFloat.lt a.toModel.unpack b.toModel.unpack = true :=
    decide_eq_true_iff
  have hsmall : ∀ s : Score, s.isMatch = true → s.toBits.toNat < 0x80000000 :=
    fun s hs => (encodes_of_isMatch hs).lt
  rw [hlt, (encodes_of_isMatch ha).lt_iff (encodes_of_isMatch hb)]
  simp only [rank, if_pos (hsmall a ha), if_pos (hsmall b hb)]
  omega

/-- The rank is the whole score. -/
theorem eq_of_rank_eq (h : a.rank = b.rank) : a = b := by
  have ha := a.toBits.toNat_lt
  have hb := b.toBits.toNat_lt
  have hbits : a.toBits.toNat = b.toBits.toNat := by
    simp only [rank] at h
    split_ifs at h <;> omega
  obtain ⟨⟨x, hx⟩⟩ := a
  obtain ⟨⟨y, hy⟩⟩ := b
  obtain rfl : x = y := UInt32.toNat_inj.mp hbits
  rfl

/-- A match is determined by what it is worth. -/
theorem eq_of_value_eq (ha : Plain a) (hb : Plain b) (hpos : 0 < value a)
    (h : value a = value b) : a = b := by
  have hmatch := (isMatch_iff ha).mpr hpos
  have hmatch' := (isMatch_iff hb).mpr (h ▸ hpos)
  have hle : ¬ a.rank < b.rank := by
    rw [rank_lt_iff hmatch hmatch', lt_iff ha hb, h]
    exact lt_irrefl _
  have hge : ¬ b.rank < a.rank := by
    rw [rank_lt_iff hmatch' hmatch, lt_iff hb ha, h]
    exact lt_irrefl _
  exact eq_of_rank_eq (by omega)

end Score

end FuzzyFinder
