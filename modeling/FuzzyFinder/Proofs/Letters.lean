import FuzzyFinder.LetterSet
import FuzzyFinder.Proofs.Score.Bounds
import Mathlib.Data.List.Perm.Basic

/-!
# FuzzyFinder — letters rule out placements

A set of letters is built up byte by byte, and the order does not matter. A needle whose bytes all
agree with bytes of the candidate has no letter that the candidate lacks
(`LetterSet.contains_of_fold`), so the test on letters never turns away a needle that can be placed.
-/

namespace FuzzyFinder

namespace LetterSet

/-- The bit that a byte adds to a set; none unless it is a letter. -/
def bit (b : UInt8) : UInt32 := (empty.insert b).bits

theorem insert_bits (s : LetterSet) (b : UInt8) : (s.insert b).bits = s.bits ||| bit b := by
  unfold bit insert
  dsimp only
  split
  · simp [empty]
  · simp [empty]

theorem bit_eq_of_fold_eq {b c : UInt8} (h : Byte.fold b = Byte.fold c) : bit b = bit c := by
  unfold bit insert
  rw [h]

/-- Letters may be added in any order. -/
theorem insert_comm (s : LetterSet) (b c : UInt8) :
    (s.insert b).insert c = (s.insert c).insert b := by
  have h : ((s.insert b).insert c).bits = ((s.insert c).insert b).bits := by
    rw [insert_bits, insert_bits, insert_bits, insert_bits, UInt32.or_assoc, UInt32.or_assoc,
      UInt32.or_comm (bit b)]
  cases hl : (s.insert b).insert c
  cases hr : (s.insert c).insert b
  rw [hl, hr] at h
  rw [mk.injEq]
  exact h

theorem foldl_insert_reverse (s : Bytes) (t : LetterSet) :
    s.reverse.foldl insert t = s.foldl insert t :=
  haveI : RightCommutative insert := ⟨insert_comm⟩
  (List.reverse_perm s).foldl_eq t

/-! ## Containment -/

theorem contains_insert_left {s t : LetterSet} (h : s.contains t = true) (b : UInt8) :
    (s.insert b).contains t = true := by
  have hbits : s.bits &&& t.bits = t.bits := eq_of_beq h
  refine beq_iff_eq.mpr ?_
  rw [insert_bits, ← hbits]
  apply UInt32.eq_of_toBitVec_eq
  ext i
  simp
  tauto

theorem contains_insert_self (s : LetterSet) (b : UInt8) :
    (s.insert b).contains ⟨bit b⟩ = true := by
  refine beq_iff_eq.mpr ?_
  rw [insert_bits]
  apply UInt32.eq_of_toBitVec_eq
  ext i
  simp
  tauto

theorem contains_insert_right {s t : LetterSet} {b : UInt8} (h : s.contains t = true)
    (hb : s.contains ⟨bit b⟩ = true) : s.contains (t.insert b) = true := by
  have hbits : s.bits &&& t.bits = t.bits := eq_of_beq h
  have hbit : s.bits &&& bit b = bit b := eq_of_beq hb
  refine beq_iff_eq.mpr ?_
  rw [insert_bits]
  nth_rewrite 2 [← hbits]
  nth_rewrite 2 [← hbit]
  apply UInt32.eq_of_toBitVec_eq
  ext i
  simp [Bool.and_or_distrib_left]

/-- Letters stay in a set while others are added. -/
theorem contains_foldl {s t : LetterSet} (h : s.contains t = true) (l : Bytes) :
    (l.foldl insert s).contains t = true := by
  induction l generalizing s with
  | nil => exact h
  | cons b l ih => exact ih (contains_insert_left h b)

theorem ofBytes_contains_bit {s : Bytes} {b : UInt8} (hb : b ∈ s) :
    (ofBytes s).contains ⟨bit b⟩ = true := by
  obtain ⟨l, r, rfl⟩ := List.append_of_mem hb
  rw [ofBytes, List.foldl_append, List.foldl_cons]
  exact contains_foldl (contains_insert_self _ b) r

/-- **A needle whose letters all occur in a candidate is not turned away.** -/
theorem contains_of_fold {s t : Bytes} (h : ∀ n ∈ t, ∃ b ∈ s, Byte.fold b = Byte.fold n) :
    (ofBytes s).contains (ofBytes t) = true := by
  -- the letters of `t` come to a set `u` whose letters occur already
  have hfold : ∀ u : LetterSet, (ofBytes s).contains u = true →
      (ofBytes s).contains (t.foldl insert u) = true := by
    induction t with
    | nil => exact fun u hu => hu
    | cons n t ih =>
      intro u hu
      obtain ⟨b, hb, hfold⟩ := h n (by simp)
      refine ih (fun n' hn' => h n' (List.mem_cons_of_mem _ hn')) _ ?_
      refine contains_insert_right hu ?_
      rw [← bit_eq_of_fold_eq hfold]
      exact ofBytes_contains_bit hb
  refine hfold empty (beq_iff_eq.mpr ?_)
  simp [empty]

end LetterSet

/-! ## Letters and placements -/

variable {candidate needle : Bytes}

theorem Byte.fold_eq_of_agrees {caseSensitive : Bool} {b n : UInt8}
    (h : Byte.agrees caseSensitive b n = true) : Byte.fold b = Byte.fold n := by
  cases caseSensitive with
  | true => rw [show b = n from eq_of_beq h]
  | false =>
    have hfold : Byte.fold b = n := eq_of_beq h
    rw [← hfold, Byte.fold_fold]

/-- **The test on letters loses no placement**, whatever the dot policy. -/
theorem Fits.contains_letters {caseSensitive : Bool} {js : List Nat}
    (h : Fits caseSensitive candidate needle js) :
    (LetterSet.ofBytes candidate).contains (.ofBytes needle) = true := by
  apply LetterSet.contains_of_fold
  intro n hn
  obtain ⟨b, hb, hagrees⟩ := h.exists_agrees.2 n hn
  exact ⟨b, hb, Byte.fold_eq_of_agrees hagrees⟩

end FuzzyFinder
