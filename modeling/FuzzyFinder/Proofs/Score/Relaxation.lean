import FuzzyFinder.Proofs.Score.FirstFit
import FuzzyFinder.Proofs.Score.Range

/-!
# FuzzyFinder — relaxing a switch never lowers a score

Some switches only take placements away: committing to first fits, closing hidden components, and,
where every position is explored, minding case. What a placement is worth does not depend on the
switches (`placementScore_switches`), so with one of them relaxed the best of the old placements is
still there, and the score can only rise (`score_le_of_relaxes`).

A search that commits to first fits may lose a match when case is folded: an earlier fit may lead it
in front of a closed dot.
-/

namespace FuzzyFinder

open Score (Plain value)

variable {candidate needle : Bytes} {options options' : ScoreOptions}

/-! ## Placements under relaxed switches -/

/-- For this needle, `options'` lets through every placement that `options` lets through. -/
structure ScoreOptions.Relaxes (options' options : ScoreOptions) (needle : Bytes) : Prop where
  sensitive : options'.caseSensitive = true → options.caseSensitive = true
  opens : ∀ n ∈ needle, options'.dotPolicy.blocks n = true → options.dotPolicy.blocks n = true
  commits : options'.recurse = false →
    options.recurse = false ∧ options'.caseSensitive = options.caseSensitive

theorem SameLetter.relax {b n : UInt8} (h : SameLetter options.caseSensitive b n)
    (hcase : options'.caseSensitive = true → options.caseSensitive = true) :
    SameLetter options'.caseSensitive b n := by
  unfold SameLetter at h ⊢
  cases hc' : options'.caseSensitive with
  | true =>
    rw [if_pos (hcase hc')] at h
    rw [if_pos rfl]
    exact h
  | false =>
    rw [if_neg Bool.false_ne_true]
    split at h
    · rw [h]
    · exact h

theorem IsLegal.relax {ps : List Nat} (h : IsLegal candidate options needle ps)
    (hrelax : options'.Relaxes options needle) : IsLegal candidate options' needle ps := by
  obtain ⟨⟨hlen, hincreasing, hsame⟩, hclear⟩ := h
  refine ⟨⟨hlen, hincreasing, ?_⟩, ?_⟩
  · intro i p n hp hn
    obtain ⟨b, hb, hletter⟩ := hsame i p n hp hn
    exact ⟨b, hb, hletter.relax hrelax.sensitive⟩
  · rintro i p n hp hn q hq hbehind ⟨hdot, hopening, hclosed⟩
    -- a dot that is closed now has been closed before
    have hblocks := hrelax.opens n (List.mem_of_getElem? hn) ((blocks_iff ..).mpr hclosed)
    exact hclear i p n hp hn q hq hbehind ⟨hdot, hopening, (blocks_iff ..).mp hblocks⟩

/-- **A chain is still one when the switches are relaxed.** -/
theorem Chain.relax {ps : List Nat} (h : Chain candidate options 0 (options.normalize needle) ps)
    (hrelax : options'.Relaxes options needle) :
    Chain candidate options' 0 (options'.normalize needle) ps := by
  apply (h.isLegal.relax hrelax).chain
  intro hfirst
  obtain ⟨hrecurse, hcase⟩ := hrelax.commits hfirst
  rw [hcase]
  exact h.isFirstFit hrecurse

theorem Placeable.relax (h : Placeable candidate options (options.normalize needle))
    (hrelax : options'.Relaxes options needle) :
    Placeable candidate options' (options'.normalize needle) := by
  obtain ⟨ps, hchain⟩ := h
  exact ⟨ps, hchain.relax hrelax⟩

/-! ## Scores under relaxed switches -/

/-- The switches decide which placements there are, not what they are worth. -/
theorem placementScore_switches (options options' : ScoreOptions) (ps : List Nat) :
    placementScore candidate needle options ps = placementScore candidate needle options' ps := by
  apply Search.total_congr
  intro p previous
  rfl

/-- Nothing is searched for with an empty needle; then it matters who is concealed. -/
theorem score_nil_le
    (hconceals : options'.dotPolicy.conceals = true → options.dotPolicy.conceals = true) :
    score candidate [] options ≤ score candidate [] options' := by
  rw [score_nil, score_nil]
  have hself : Score.concealed ≤ Score.concealed := by decide
  have hperfect : Score.perfect ≤ Score.perfect := by decide
  have hless : Score.concealed ≤ Score.perfect := by decide
  split
  · split
    · exact hself
    · exact hless
  · rename_i hshown
    split
    · rename_i hhidden
      -- who is concealed now has been concealed before
      obtain ⟨hpolicy, hcomponent⟩ := Bool.and_eq_true_iff.mp hhidden
      exact absurd (Bool.and_eq_true_iff.mpr ⟨hconceals hpolicy, hcomponent⟩) hshown
    · exact hperfect

/-- A needle of the candidate's length is placed in an exact match only, and all of these are worth
the same. -/
theorem score_of_placeable (hne : needle ≠ []) (hlen : candidate.length = needle.length)
    (hlt : candidate.length < 2 ^ 64)
    (h : Placeable candidate options (options.normalize needle)) :
    score candidate needle options = Score.perfect := by
  obtain ⟨ps, hchain⟩ := h
  have hexact := hchain.isExact (by rw [length_normalize]; exact hlen)
  rcases score_of_exact hne (isExact_normalize.mp hexact) with hmiss | hperfect
  · exact absurd ⟨ps, hchain⟩ ((score_eq_miss_iff hlt).mp hmiss)
  · exact hperfect

/-- **Relaxed switches never lower a score.** -/
theorem score_le_of_relaxes (hrelax : options'.Relaxes options needle)
    (hconceals : options'.dotPolicy.conceals = true → options.dotPolicy.conceals = true)
    (hlt : candidate.length < 2 ^ 64) :
    score candidate needle options ≤ score candidate needle options' := by
  by_cases hne : needle = []
  · subst hne
    exact score_nil_le hconceals
  rw [Score.le_iff (score_plain hne hlt) (score_plain hne hlt)]
  by_cases hplaceable : Placeable candidate options (options.normalize needle)
  · have hplaceable' := hplaceable.relax hrelax
    by_cases hlen : candidate.length = needle.length
    · rw [score_of_placeable hne hlen hlt hplaceable, score_of_placeable hne hlen hlt hplaceable']
    · -- the best chain is left, and worth what it was worth
      obtain ⟨ps, hchain, hscore⟩ := (score_isRated hne hlen hlt).exists_chain hplaceable
      have hle := (score_isRated hne hlen hlt).le_value (hchain.relax hrelax)
      rw [hscore, placementScore_congr (length_normalize options needle),
        placementScore_switches options options']
      rw [placementScore_congr (length_normalize options' needle)] at hle
      exact hle
  · rw [(score_eq_miss_iff hlt).mpr hplaceable, Score.value_miss]
    exact Score.value_nonneg _

/-- **Relaxing a switch never lowers a score.** Exploring every position, giving up to keep needles
out of hidden components, and showing these all raise the score of a candidate or leave it alone. So
does folding case where every position is explored. -/
theorem score_relaxed (candidate needle : Bytes) (options : ScoreOptions)
    (hlt : candidate.length < 2 ^ 64) :
    score candidate needle { options with recurse := false }
        ≤ score candidate needle { options with recurse := true }
      ∧ score candidate needle { options with neverShowDotFiles := true }
        ≤ score candidate needle { options with neverShowDotFiles := false }
      ∧ score candidate needle { options with alwaysShowDotFiles := false }
        ≤ score candidate needle { options with alwaysShowDotFiles := true }
      ∧ score candidate needle { options with recurse := true, caseSensitive := true }
        ≤ score candidate needle { options with recurse := true, caseSensitive := false } := by
  refine ⟨?_, ?_, ?_, ?_⟩
  · have hrelax : ({ options with recurse := true } : ScoreOptions).Relaxes
        { options with recurse := false } needle :=
      ⟨id, fun _ _ => id, fun hfirst => absurd hfirst.symm Bool.false_ne_true⟩
    exact score_le_of_relaxes hrelax id hlt
  · have hrelax : ({ options with neverShowDotFiles := false } : ScoreOptions).Relaxes
        { options with neverShowDotFiles := true } needle :=
      ⟨id, fun _ _ _ => rfl, fun hfirst => ⟨hfirst, rfl⟩⟩
    exact score_le_of_relaxes hrelax (fun _ => rfl) hlt
  · have hrelax : ({ options with alwaysShowDotFiles := true } : ScoreOptions).Relaxes
        { options with alwaysShowDotFiles := false } needle := by
      refine ⟨id, fun n _ hblocks => ?_, fun hfirst => ⟨hfirst, rfl⟩⟩
      -- with everything shown, a dot is closed only where it is never shown
      rw [blocks_iff] at hblocks ⊢
      exact hblocks.imp_right fun hfalse => absurd hfalse.2.symm Bool.false_ne_true
    refine score_le_of_relaxes hrelax (fun _ => ?_) hlt
    show (if options.neverShowDotFiles then DotPolicy.never else .onRequest).conceals = true
    split <;> rfl
  · have hrelax : ({ options with recurse := true, caseSensitive := false } : ScoreOptions).Relaxes
        { options with recurse := true, caseSensitive := true } needle :=
      ⟨fun _ => rfl, fun _ _ => id, fun hfirst => absurd hfirst.symm Bool.false_ne_true⟩
    exact score_le_of_relaxes hrelax id hlt

/-- In `A.a/.b` first fits miss the needle `a.b`, which exploring finds. Opening hidden components and
folding case do not lower its score either. -/
theorem score_relaxed_behind_dot :
    let candidate := Bytes.ofString "A.a/.b"
    let needle := Bytes.ofString "a.b"
    (score candidate needle { recurse := false } ≤ score candidate needle { recurse := true }
        ∧ score candidate needle { recurse := false } = Score.miss
        ∧ score candidate needle { recurse := true } ≠ Score.miss)
      ∧ (score candidate needle { recurse := true, neverShowDotFiles := true }
          ≤ score candidate needle { recurse := true, neverShowDotFiles := false })
      ∧ (score candidate needle { recurse := true, caseSensitive := true }
          ≤ score candidate needle { recurse := true, caseSensitive := false }) := by
  intro candidate needle
  obtain ⟨hrecurse, hnever, -, hcase⟩ :=
    score_relaxed candidate needle { recurse := true } (by decide +kernel)
  exact ⟨⟨hrecurse, by decide +kernel, by decide +kernel⟩, hnever, hcase⟩

-- committing to first fits, folding case loses the match
example :
    let candidate := Bytes.ofString "A.a/.b"
    let needle := Bytes.ofString "a.b"
    score candidate needle { caseSensitive := false }
      < score candidate needle { caseSensitive := true } := by decide +kernel

end FuzzyFinder
