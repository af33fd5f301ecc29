import FuzzyFinder.Proofs.Binary32.Order
import FuzzyFinder.Proofs.Score.FullMarks
import FuzzyFinder.Proofs.Score.Optimal

/-!
# FuzzyFinder — the range of scores

An exact match scores one, or misses when it is never shown. Any other candidate is longer than the
needle, and scores at most full marks in a candidate that is longer by one byte
(`score_of_not_exact`). A needle that stands at the front of a longer candidate earns the full marks
of that candidate (`StandsInFront.score_eq`), so the bound cannot be improved, and no candidate of
that length or more does better (`score_le_of_standsInFront`).
-/

namespace FuzzyFinder

open Score (Plain value IsPart IsSum repeated fullMarks)

/-! ## Chains and full marks -/

namespace Search

variable {s : Search}

/-- No positions are worth more than base contributions. -/
theorem total_spec (hs : s.Moderate) {js : List Nat} (hjs : ∀ j ∈ js, j < 2 ^ 64)
    (previous : Option Nat) : IsSum (s.total previous js)
      ∧ value (s.total previous js) ≤ value (repeated s.perByte js.length) := by
  induction js generalizing previous with
  | nil => exact ⟨Score.isSum_zero, le_rfl⟩
  | cons j js ih =>
    obtain ⟨hsum, hle⟩ := ih (fun j hj => hjs j (List.mem_cons_of_mem _ hj)) (some j)
    obtain ⟨hpart, hbase⟩ := contribution_spec hs (hjs j List.mem_cons_self) previous
    have hfull : IsPart s.perByte := Score.isPart_of_bounds hs
    exact ⟨hpart.add_isSum hsum,
      hpart.value_add_le_add hfull hsum (hfull.repeated_isSum js.length) hbase hle⟩

/-- A byte right behind the one before keeps its base contribution, and so do all that follow. -/
theorem total_some_range' (s : Search) (i k : ℕ) :
    s.total (some i) (List.range' (i + 1) k) = repeated s.perByte k := by
  induction k generalizing i with
  | zero => rfl
  | succ k ih =>
    have hbase : s.contribution (i + 1) (some i) = s.perByte := by
      simp [contribution]
    rw [List.range'_succ, total, hbase, ih (i + 1), repeated]

theorem total_none_range' (s : Search) (k : ℕ) :
    s.total none (List.range' 0 k) = repeated s.perByte k := by
  cases k with
  | zero => rfl
  | succ k =>
    have hbase : s.contribution 0 none = s.perByte := by simp [contribution]
    rw [List.range'_succ, total, hbase, total_some_range', repeated]

end Search

variable {candidate needle : Bytes} {options : ScoreOptions}

/-- A chain is worth full marks at most. -/
theorem Chain.value_le_fullMarks {js : List Nat} (h : Chain candidate options 0 needle js)
    (hne : needle ≠ []) (hlt : candidate.length < 2 ^ 64) :
    value (placementScore candidate needle options js)
      ≤ value (fullMarks needle.length candidate.length) := by
  have hlen := h.add_length_le (Nat.zero_le _)
  have hmoderate := Search.ofBytes_moderate [] options hne (by omega) hlt
  have htotal := (Search.total_spec hmoderate (fun j hj => (h.lt_length j hj).trans hlt) none).2
  rw [h.length_eq] at htotal
  exact htotal

/-- The needle at the front of the candidate is worth full marks. -/
theorem placementScore_range' (candidate needle : Bytes) (options : ScoreOptions) :
    placementScore candidate needle options (List.range' 0 needle.length)
      = fullMarks needle.length candidate.length :=
  Search.total_none_range' _ _

/-! ## Exact matches and others -/

/-- The candidate is the needle, letter by letter. -/
def IsExactMatch (caseSensitive : Bool) (candidate needle : Bytes) : Prop :=
  List.Forall₂ (SameLetter caseSensitive) candidate needle

theorem score_of_exact (hne : needle ≠ [])
    (hexact : IsExactMatch options.caseSensitive candidate needle) :
    score candidate needle options = Score.miss ∨ score candidate needle options = Score.perfect := by
  rw [score_eq_rateBytes, rateBytes_of_isExact _ _ (normalize_ne_nil options hne)
    (isExact_normalize.mpr hexact)]
  split
  · exact .inl rfl
  · exact .inr rfl

/-- A rating is full marks for its candidate at most. -/
theorem IsRated.value_le_fullMarks {rated : Score} (h : IsRated candidate needle options rated)
    (hne : needle ≠ []) (hlt : candidate.length < 2 ^ 64) :
    Plain rated ∧ value rated ≤ value (fullMarks needle.length candidate.length) := by
  by_cases hplaceable : Placeable candidate options needle
  · obtain ⟨js, hjs, rfl⟩ := h.exists_chain hplaceable
    exact ⟨(h.isSum js hjs).plain, hjs.value_le_fullMarks hne hlt⟩
  · rw [h.eq_miss_iff.mpr hplaceable]
    exact ⟨Score.miss_plain, Score.value_nonneg _⟩

/-- A candidate that is no exact match is longer than a needle that is placed in it. -/
theorem IsRated.value_le {rated : Score} (h : IsRated candidate needle options rated)
    (hne : needle ≠ []) (hexact : isExact options.caseSensitive candidate needle = false)
    (hlt : candidate.length < 2 ^ 64) :
    Plain rated ∧ value rated ≤ value (fullMarks needle.length (needle.length + 1)) := by
  obtain ⟨hplain, hle⟩ := h.value_le_fullMarks hne hlt
  refine ⟨hplain, ?_⟩
  by_cases hplaceable : Placeable candidate options needle
  · obtain ⟨js, hjs⟩ := hplaceable
    have hlen := hjs.add_length_le (Nat.zero_le _)
    have hlonger : needle.length + 1 ≤ candidate.length := by
      by_contra hnot
      have := hjs.isExact (by omega)
      rw [hexact] at this
      exact Bool.noConfusion this
    have hpos := List.length_pos_iff.mpr hne
    exact hle.trans (Score.fullMarks_antitone hpos (by omega) (by omega) hlonger (by omega))
  · rw [h.eq_miss_iff.mpr hplaceable]
    exact Score.value_nonneg _

/-- **What is no exact match scores full marks for a longer candidate at most.** -/
theorem score_of_not_exact (hne : needle ≠ []) (hlt : candidate.length < 2 ^ 64)
    (hexact : ¬ IsExactMatch options.caseSensitive candidate needle) :
    Plain (score candidate needle options)
      ∧ value (score candidate needle options) ≤ value (fullMarks needle.length (needle.length + 1)) := by
  have hexact' : isExact options.caseSensitive candidate (options.normalize needle) = false := by
    rw [Bool.eq_false_iff, Ne, isExact_normalize]
    exact hexact
  have hne' := normalize_ne_nil options hne
  have hbound := (rateBytes_isRated (.ofBytes (options.normalize needle)) hne' hexact' hlt).value_le
    hne' hexact' hlt
  rw [length_normalize] at hbound
  exact hbound

theorem score_plain (hne : needle ≠ []) (hlt : candidate.length < 2 ^ 64) :
    Plain (score candidate needle options) := by
  by_cases hexact : IsExactMatch options.caseSensitive candidate needle
  · rcases score_of_exact hne hexact with hscore | hscore
    · rw [hscore]
      exact Score.miss_plain
    · rw [hscore]
      exact Score.perfect_spec.1
  · exact (score_of_not_exact hne hlt hexact).1

/-! ## Full marks are earned -/

/-- A rating is no less than the value of any chain. -/
theorem IsRated.le_value {rated : Score} (h : IsRated candidate needle options rated)
    {js : List Nat} (hjs : Chain candidate options 0 needle js) :
    value (placementScore candidate needle options js) ≤ value rated := by
  obtain ⟨⟨v, hbest, hrated⟩, hsum, -⟩ := h
  cases hbest with
  | missing hnone => exact absurd hjs (hnone js)
  | attained js' hjs' hmax =>
    rw [(hsum js' hjs').plain.isFinite, if_pos rfl] at hrated
    rw [hrated, ← Score.le_iff (hsum js hjs).plain (hsum js' hjs').plain]
    exact hmax js hjs

/-- The needle stands at the front of a candidate that goes on behind it, and no component that is
never shown opens there. -/
structure StandsInFront (candidate needle : Bytes) (options : ScoreOptions) : Prop where
  longer : needle.length < candidate.length
  begins : IsExactMatch options.caseSensitive (candidate.take needle.length) needle
  clear : options.neverShowDotFiles = true → ∀ q < needle.length, ¬ OpensHidden candidate q

/-- A needle at the front is placed there. -/
theorem StandsInFront.chain (h : StandsInFront candidate needle options) :
    Chain candidate options 0 (options.normalize needle) (List.range' 0 needle.length) := by
  have hlonger := h.longer
  have hexact := isExact_normalize.mpr h.begins
  have hreach : ∀ i < (options.normalize needle).length,
      Reaches candidate options ((options.normalize needle).getD i 0) i i := by
    intro i hi
    rw [length_normalize] at hi
    have hi' : i < (candidate.take needle.length).length := by
      rw [List.length_take]
      omega
    have hagrees := agrees_of_isExact hexact hi'
    rw [List.getD_eq_getElem _ _ hi', List.getElem_take] at hagrees
    apply reaches_self (by omega)
    · rw [List.getD_eq_getElem _ _ (by omega)]
      exact hagrees
    · exact fun hnever => h.clear hnever i hi
  have hchain := chain_range' hreach
  rw [length_normalize] at hchain
  exact hchain

/-- **A needle at the front earns full marks.** -/
theorem StandsInFront.score_eq (h : StandsInFront candidate needle options) (hne : needle ≠ [])
    (hlt : candidate.length < 2 ^ 64) :
    score candidate needle options = fullMarks needle.length candidate.length := by
  have hlonger := h.longer
  have hpos := List.length_pos_iff.mpr hne
  have hrated : IsRated candidate (options.normalize needle) options
      (score candidate needle options) := score_isRated hne (by omega) hlt
  have hle := (hrated.value_le_fullMarks (normalize_ne_nil options hne) hlt).2
  rw [length_normalize] at hle
  have hge := hrated.le_value h.chain
  have hmarks : placementScore candidate (options.normalize needle) options
      (List.range' 0 needle.length) = fullMarks needle.length candidate.length := by
    rw [placementScore_congr (length_normalize options needle), placementScore_range']
  have hearned := hrated.pos _ h.chain
  rw [hmarks] at hge hearned
  have hplain := Score.fullMarks_plain hpos (by omega) (by omega) hlt.le
  exact (Score.eq_of_value_eq hplain (score_plain hne hlt) hearned (le_antisymm hge hle)).symm

/-- The letter `a`, `n` times. -/
def onlyA (n : ℕ) : Bytes := List.replicate n 0x61

/-- The letter `a`, `n` times, and another letter. -/
def onlyAThenB (n : ℕ) : Bytes := onlyA n ++ [0x62]

@[simp] theorem length_onlyA (n : ℕ) : (onlyA n).length = n := List.length_replicate

@[simp] theorem length_onlyAThenB (n : ℕ) : (onlyAThenB n).length = n + 1 := by simp [onlyAThenB]

theorem onlyA_standsInFront (n : ℕ) :
    StandsInFront (onlyAThenB n) (onlyA n) { caseSensitive := true } where
  longer := by simp
  begins := by
    rw [onlyAThenB, List.take_left]
    exact List.forall₂_same.mpr fun b _ => sameLetter_refl true b
  clear hnever := Bool.noConfusion hnever

/-- **Full marks are earned** by a needle that stands at the front of a candidate that is longer by
one byte. -/
theorem fullMarks_le_score {n : ℕ} (hn : 1 ≤ n) (hmax : n + 1 < 2 ^ 64) :
    value (fullMarks n (n + 1))
      ≤ value (score (onlyAThenB n) (onlyA n) { caseSensitive := true }) := by
  have hne : onlyA n ≠ [] := by
    rw [← List.length_pos_iff, length_onlyA]
    exact hn
  have hscore := (onlyA_standsInFront n).score_eq hne (by rw [length_onlyAThenB]; exact hmax)
  rw [hscore, length_onlyA, length_onlyAThenB]

/-! ## The front is the best place -/

/-- **A candidate with the needle in front is not outscored by one that is as long or longer**,
whether positions are explored or the first fit is taken. So among candidates that begin with the
needle the shorter ones score higher if anything, and putting a directory in front of a candidate
never raises its score. -/
theorem score_le_of_standsInFront (h : StandsInFront candidate needle options) (hne : needle ≠ []) :
    (∀ other : Bytes, candidate.length ≤ other.length → other.length < 2 ^ 64 →
      score other needle options ≤ score candidate needle options)
      ∧ ∀ before : Bytes, (before ++ candidate).length < 2 ^ 64 →
        score (before ++ candidate) needle options ≤ score candidate needle options := by
  have hbest : ∀ other : Bytes, candidate.length ≤ other.length → other.length < 2 ^ 64 →
      score other needle options ≤ score candidate needle options := by
    intro other hlen hlt
    have hlonger := h.longer
    have hpos := List.length_pos_iff.mpr hne
    have hrated : IsRated other (options.normalize needle) options (score other needle options) :=
      score_isRated hne (by omega) hlt
    have hle := (hrated.value_le_fullMarks (normalize_ne_nil options hne) hlt).2
    rw [length_normalize] at hle
    have hmarks := Score.fullMarks_plain (n := needle.length) (c := candidate.length) hpos
      (by omega) (by omega) (by omega)
    rw [h.score_eq hne (by omega), Score.le_iff (score_plain hne hlt) hmarks]
    -- a shorter candidate has the higher base contribution
    exact hle.trans (Score.fullMarks_antitone hpos (by omega) (by omega) hlen hlt.le)
  refine ⟨hbest, fun before hlt => hbest _ ?_ hlt⟩
  rw [List.length_append]
  omega

/-- The needle `foo` is worth more at the front of `foobar` than in `bar_foo` and in `x/foobar`. -/
theorem score_le_of_standsInFront_of_foobar :
    let candidate := Bytes.ofString "foobar"
    let needle := Bytes.ofString "foo"
    let options : ScoreOptions := { recurse := true }
    StandsInFront candidate needle options
      ∧ score (Bytes.ofString "bar_foo") needle options ≤ score candidate needle options
      ∧ score (Bytes.ofString "x/" ++ candidate) needle options
        ≤ score candidate needle options := by
  intro candidate needle options
  have hfront : StandsInFront candidate needle options :=
    ⟨by decide +kernel, isExact_normalize.mp (by decide +kernel),
      fun hnever => Bool.noConfusion hnever⟩
  obtain ⟨hother, hbefore⟩ := score_le_of_standsInFront hfront (by decide +kernel)
  exact ⟨hfront, hother _ (by decide +kernel) (by decide +kernel), hbefore _ (by decide +kernel)⟩

end FuzzyFinder
