import FuzzyFinder.Proofs.Binary32.Order
import FuzzyFinder.Proofs.Selection
import Mathlib.Data.List.Sort

/-!
# FuzzyFinder — the order of the matches

`Needle.ranking` compares hits by bit patterns and byte strings. `Needle.RanksNoLater` says what
that comes to: dictionary order for the empty needle and the single dot, and otherwise higher
scores first, with dictionary order among equal scores (`ranking_noLater_iff`). Two hits that tie
are about the same candidate, so a list of hits in this order is determined, as far as its
candidates go, by which hits it holds (`map_candidate_eq_of_ranked`).
-/

namespace FuzzyFinder

/-! ## Dictionary order -/

/-- Dictionary order on byte strings: the first byte that differs decides, and a beginning comes
before what it begins. -/
def Bytes.DictionaryLE : Bytes → Bytes → Prop
  | [], _ => True
  | _ :: _, [] => False
  | a :: s, b :: t => a < b ∨ a = b ∧ DictionaryLE s t

theorem compare_isLE_iff (s t : Bytes) : (compare s t).isLE = true ↔ Bytes.DictionaryLE s t := by
  induction s generalizing t with
  | nil =>
    cases t with
    | nil => simp [Bytes.DictionaryLE, Std.ReflCmp.compare_self]
    | cons b t => exact ⟨fun _ => trivial, fun _ => rfl⟩
  | cons a s ih =>
    cases t with
    | nil => exact ⟨fun h => absurd (a := Ordering.gt.isLE = true) h (by decide), fun h => h.elim⟩
    | cons b t =>
      have hcons : compare (a :: s) (b :: t) = (compare a b).then (compare s t) :=
        List.compareLex_cons_cons
      rw [hcons, Bytes.DictionaryLE, ← ih]
      rcases hcmp : compare a b with _ | _ | _
      · have hlt : a < b := Std.compare_eq_lt.mp hcmp
        simp [hlt]
      · have heq : a = b := Std.LawfulEqCmp.eq_of_compare hcmp
        subst heq
        simp
      · have hgt : b < a := Std.compare_eq_gt.mp hcmp
        have hne : a ≠ b := fun h => absurd (h ▸ hgt) (UInt8.lt_irrefl b)
        have hnlt : ¬ a < b := UInt8.not_lt.mpr (UInt8.le_of_lt hgt)
        simp [hne, hnlt]

/-! ## The orders on hits -/

instance : Std.TransCmp Hit.byCandidate := inferInstanceAs (Std.TransCmp (compareOn Hit.candidate))

instance : Std.TransCmp Hit.byScore :=
  have hrank : Std.TransCmp (compareOn fun h : Hit => h.score.rank) := inferInstance
  have : Std.TransCmp fun a b : Hit => Score.compare b.score a.score :=
    @Std.TransCmp.opposite _ _ hrank
  inferInstanceAs (Std.TransCmp (compareLex (fun a b : Hit => Score.compare b.score a.score)
    Hit.byCandidate))

instance (needle : Needle) : Std.TransCmp needle.ranking := by
  unfold Needle.ranking
  split <;> infer_instance

/-- The hit `a` is returned no later than the hit `b`. -/
def Needle.RanksNoLater (needle : Needle) (a b : Hit) : Prop :=
  if needle.bytes = [] ∨ needle.bytes = [Byte.dot] then a.candidate.DictionaryLE b.candidate
  else b.score < a.score ∨ a.score = b.score ∧ a.candidate.DictionaryLE b.candidate

theorem byCandidate_noLater_iff (a b : Hit) :
    NoLater Hit.byCandidate a b = true ↔ a.candidate.DictionaryLE b.candidate :=
  compare_isLE_iff a.candidate b.candidate

/-- Among matches, the order by bit patterns is the order by scores. -/
theorem byScore_noLater_iff {a b : Hit} (ha : a.score.isMatch = true) (hb : b.score.isMatch = true) :
    NoLater Hit.byScore a b = true
      ↔ b.score < a.score ∨ a.score = b.score ∧ a.candidate.DictionaryLE b.candidate := by
  rw [← Score.rank_lt_iff hb ha, ← byCandidate_noLater_iff, NoLater, Hit.byScore, Score.compare]
  -- the ranks decide, unless they are those of one score
  rcases hcmp : compare b.score.rank a.score.rank with _ | _ | _
  · have hlt := Nat.compare_eq_lt.mp hcmp
    simp [hlt]
  · have heq := Nat.compare_eq_eq.mp hcmp
    have hscore := Score.eq_of_rank_eq heq
    simp [hscore, NoLater]
  · have hgt := Nat.compare_eq_gt.mp hcmp
    have hne : a.score ≠ b.score := fun h => by
      rw [h] at hgt
      exact absurd hgt (Nat.lt_irrefl _)
    have hnlt : ¬ b.score.rank < a.score.rank := by omega
    simp [hne, hnlt]

/-- **Hits are ranked as they are returned.** -/
theorem ranking_noLater_iff (needle : Needle) {a b : Hit} (ha : a.score.isMatch = true)
    (hb : b.score.isMatch = true) :
    NoLater needle.ranking a b = true ↔ needle.RanksNoLater a b := by
  have hplain : (needle.isEmpty || needle.isDot) = true
      ↔ needle.bytes = [] ∨ needle.bytes = [Byte.dot] := by
    rw [Bool.or_eq_true, Needle.isEmpty, List.isEmpty_iff, Needle.isDot, beq_iff_eq]
  unfold Needle.ranking Needle.RanksNoLater
  by_cases h : (needle.isEmpty || needle.isDot) = true
  · rw [if_pos h, if_pos (hplain.mp h)]
    exact byCandidate_noLater_iff a b
  · rw [if_neg h, if_neg (fun h' => h (hplain.mpr h'))]
    exact byScore_noLater_iff ha hb

/-! ## Ranked lists are determined -/

theorem eq_of_byScore_noLater {a b : Hit} (hab : NoLater Hit.byScore a b = true)
    (hba : NoLater Hit.byScore b a = true) : a = b := by
  have heq : Hit.byScore a b = .eq := Std.OrientedCmp.isLE_antisymm hab hba
  rw [Hit.byScore, Ordering.then_eq_eq] at heq
  have hscore := Score.eq_of_rank_eq (Nat.compare_eq_eq.mp heq.1)
  have hcandidate : a.candidate = b.candidate := Std.LawfulEqCmp.eq_of_compare heq.2
  cases a
  cases b
  simp_all

/-- **Hits in order are determined by which hits they are**, up to hits of one candidate. -/
theorem map_candidate_eq_of_ranked {needle : Needle} {l l' : List Hit} (hperm : l.Perm l')
    (hl : l.Pairwise fun a b => NoLater needle.ranking a b = true)
    (hl' : l'.Pairwise fun a b => NoLater needle.ranking a b = true) :
    l.map (·.candidate) = l'.map (·.candidate) := by
  unfold Needle.ranking at hl hl'
  split at hl
  · -- in dictionary order only the candidates are determined
    rename_i hplain
    rw [if_pos hplain] at hl'
    have hbytes : ∀ {m : List Hit}, (m.Pairwise fun a b => NoLater Hit.byCandidate a b = true) →
        (m.map (·.candidate)).Pairwise fun s t => (compare s t).isLE = true :=
      fun hm => List.pairwise_map.mpr hm
    refine List.Perm.eq_of_pairwise (fun s t _ _ hst hts => ?_) (hbytes hl) (hbytes hl') (hperm.map _)
    exact Std.LawfulEqCmp.eq_of_compare (Std.OrientedCmp.isLE_antisymm hst hts)
  · rename_i hplain
    rw [if_neg hplain] at hl'
    rw [List.Perm.eq_of_pairwise (fun a b _ _ => eq_of_byScore_noLater) hl hl' hperm]

end FuzzyFinder
