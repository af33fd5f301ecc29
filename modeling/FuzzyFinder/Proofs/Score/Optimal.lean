import FuzzyFinder.Proofs.Score.Rate

/-!
# FuzzyFinder — the exhaustive search is optimal

With every position explored, the score of a candidate is the greatest value of a legal placement,
and a miss when there is none. Legality (`IsLegal`) and value (`placementScore`) speak about the
positions alone; nothing of the bounds, the rows or the test on letters is left in the statement.
-/

namespace FuzzyFinder

variable {candidate needle : Bytes} {options : ScoreOptions}

/-- `v` is the greatest value of a legal placement, and a miss exactly when there is none. -/
structure IsOptimum (candidate needle : Bytes) (options : ScoreOptions) (v : Score) : Prop where
  upper : ∀ ps, IsLegal candidate options needle ps → placementScore candidate needle options ps ≤ v
  attained : (∃ ps, IsLegal candidate options needle ps) →
    ∃ ps, IsLegal candidate options needle ps ∧ v = placementScore candidate needle options ps
  eq_miss_iff : v = Score.miss ↔ ∀ ps, ¬ IsLegal candidate options needle ps

/-- A value depends on the needle through its length alone. -/
theorem placementScore_congr {needle' : Bytes} (hlen : needle'.length = needle.length)
    (ps : List Nat) :
    placementScore candidate needle' options ps = placementScore candidate needle options ps := by
  refine Search.total_congr (fun p previous => ?_) none ps
  simp only [Search.contribution, Search.ofBytes, hlen]
  rfl

/-- Folding the needle does not change whether it matches exactly. -/
theorem isExact_normalize :
    isExact options.caseSensitive candidate (options.normalize needle) = true
      ↔ List.Forall₂ (SameLetter options.caseSensitive) candidate needle := by
  rw [isExact_iff, normalize_eq_map, List.forall₂_map_right_iff]
  simp only [agrees_normalized]

/-- A search that explores every position rates by legal placements. -/
theorem IsRated.isOptimum {rated : Score} (hrecurse : options.recurse = true)
    (h : IsRated candidate (options.normalize needle) options rated) :
    IsOptimum candidate needle options rated := by
  have hmiss := h.eq_miss_iff
  obtain ⟨⟨v, hbest, hrated⟩, hsum, -⟩ := h
  have hvalue : placementScore candidate (options.normalize needle) options
      = placementScore candidate needle options :=
    funext (placementScore_congr (length_normalize options needle))
  have hplain : ∀ ps, IsLegal candidate options needle ps →
      (placementScore candidate needle options ps).Plain := by
    intro ps hps
    rw [← hvalue]
    exact (hsum ps ((chain_iff_isLegal hrecurse).mpr hps)).plain
  have hlegal : Placeable candidate options (options.normalize needle)
      ↔ ∃ ps, IsLegal candidate options needle ps :=
    exists_congr fun ps => chain_iff_isLegal hrecurse
  rw [hlegal, not_exists] at hmiss
  rw [hvalue] at hbest
  -- the best value of a chain becomes the score when there is a chain
  cases hbest with
  | missing hnone =>
    have hnone' : ∀ ps, ¬ IsLegal candidate options needle ps := fun ps hps =>
      hnone ps ((chain_iff_isLegal hrecurse).mpr hps)
    exact ⟨fun ps hps => absurd hps (hnone' ps), fun ⟨ps, hps⟩ => absurd hps (hnone' ps), hmiss⟩
  | attained js hjs hmax =>
    have hjs' := (chain_iff_isLegal hrecurse).mp hjs
    rw [(hplain js hjs').isFinite, if_pos rfl] at hrated
    refine ⟨?_, fun _ => ⟨js, hjs', hrated⟩, hmiss⟩
    intro ps hps
    rw [hrated]
    exact hmax ps ((chain_iff_isLegal hrecurse).mpr hps)

/-- **The exhaustive search is optimal.** For a needle that is not empty and does not match letter
by letter, the score is the greatest value of a legal placement, or a miss if there is none; and
it stays the same whatever letters have been cached. -/
theorem score_isOptimum (hrecurse : options.recurse = true) (hne : needle ≠ [])
    (hexact : ¬ List.Forall₂ (SameLetter options.caseSensitive) candidate needle)
    (hlt : candidate.length < 2 ^ 64) :
    IsOptimum candidate needle options (score candidate needle options)
      ∧ ∀ known, Knows candidate known →
        (rateBytes candidate (options.normalize needle) (.ofBytes (options.normalize needle)) known
          options).1 = score candidate needle options := by
  have hne' : options.normalize needle ≠ [] := by
    intro hnil
    have := length_normalize options needle
    rw [hnil] at this
    exact hne (List.length_eq_zero_iff.mp this.symm)
  have hexact' : isExact options.caseSensitive candidate (options.normalize needle) = false := by
    rw [Bool.eq_false_iff, Ne, isExact_normalize]
    exact hexact
  have hrated := rateBytes_isRated (.ofBytes (options.normalize needle)) hne' hexact' hlt
  exact ⟨hrated.isOptimum hrecurse, fun known hknown => rateBytes_fst_eq_none hknown⟩

/-- In `axxb_ab` the needle `ab` fits at the front, but its best placement is the word behind the
separator. -/
theorem score_isOptimum_behind_separator :
    let candidate := Bytes.ofString "axxb_ab"
    let needle := Bytes.ofString "ab"
    let options : ScoreOptions := { recurse := true }
    IsOptimum candidate needle options (score candidate needle options)
      ∧ (∀ known, Knows candidate known →
        (rateBytes candidate (options.normalize needle) (.ofBytes (options.normalize needle)) known
          options).1 = score candidate needle options)
      ∧ score candidate needle options = placementScore candidate needle options [5, 6] := by
  intro candidate needle options
  have hlength : ¬ candidate.length = needle.length := by decide +kernel
  have hne : needle ≠ [] := by decide +kernel
  have hexact : ¬ List.Forall₂ (SameLetter options.caseSensitive) candidate needle :=
    fun h => hlength h.length_eq
  obtain ⟨hoptimum, hknown⟩ := score_isOptimum rfl hne hexact (by decide +kernel)
  exact ⟨hoptimum, hknown, by decide +kernel⟩

end FuzzyFinder
