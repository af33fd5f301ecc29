import FuzzyFinder.Proofs.Score.Relaxation
import FuzzyFinder.Proofs.Score.Visible

/-!
# FuzzyFinder — which candidates match

Where the dot policy treats all bytes of a needle alike, a candidate matches exactly when the needle
occurs in the bytes that scans get to see (`score_isMatch_iff_occurs`). With hidden components shown
these are all bytes. With hidden components never shown they are those in front of the first hidden
component; and so they are for a needle without a dot as long as nothing is said about hidden
components, since only a dot of the needle opens one.
-/

namespace FuzzyFinder

variable {candidate needle : Bytes} {options : ScoreOptions}

/-- Where hidden components are shown, scans see the whole candidate. -/
theorem scansUpTo_length (halways : options.alwaysShowDotFiles = true)
    (hnever : options.neverShowDotFiles = false) :
    ScansUpTo candidate options candidate.length where
  le := Nat.le_refl _
  clear n q _ hblocked := by
    have hclosed := (blocks_iff ..).mp hblocked.2
    simp [halways, hnever] at hclosed
  stops hlt := absurd hlt (Nat.lt_irrefl _)

/-- A needle without a dot opens no hidden component, so it might as well never be shown one. -/
theorem placeable_iff_never (halways : options.alwaysShowDotFiles = false)
    (hdot : Byte.dot ∉ needle) : Placeable candidate options (options.normalize needle)
      ↔ Placeable candidate { options with neverShowDotFiles := true }
        (options.normalize needle) := by
  constructor
  · intro h
    refine h.relax ⟨id, fun n hn _ => ?_, fun hfirst => ⟨hfirst, rfl⟩⟩
    -- a byte that is no dot is kept out either way
    have hne : n ≠ Byte.dot := fun heq => hdot (heq ▸ hn)
    exact (blocks_iff ..).mpr (.inr ⟨hne, halways⟩)
  · intro h
    have hrelax : options.Relaxes { options with neverShowDotFiles := true } needle :=
      ⟨id, fun _ _ _ => rfl, fun hfirst => ⟨hfirst, rfl⟩⟩
    exact Placeable.relax h hrelax

/-- **A needle matches where it occurs in the bytes that scans see**, in both case modes, whether
positions are explored or the first fit is taken. -/
theorem score_isMatch_iff_occurs (hne : needle ≠ []) (hlt : candidate.length < 2 ^ 64) :
    (options.alwaysShowDotFiles = true → options.neverShowDotFiles = false →
      ((score candidate needle options).isMatch = true
        ↔ Occurs options.caseSensitive candidate needle))
      ∧ (options.neverShowDotFiles = true
          ∨ options.alwaysShowDotFiles = false ∧ Byte.dot ∉ needle →
        ∃ d, IsVisibleUpTo candidate d ∧ ((score candidate needle options).isMatch = true
          ↔ Occurs options.caseSensitive (candidate.take d) needle)) := by
  rw [score_isMatch_iff hne hlt]
  refine ⟨fun halways hnever => ?_, fun hkept => ?_⟩
  · have heven := ScoreOptions.even_of_flag (.inr halways)
    rw [(scansUpTo_length halways hnever).placeable_iff heven, List.take_length]
  · have hvisible := isVisibleUpTo_visiblePart candidate
    refine ⟨_, hvisible, ?_⟩
    rcases hkept with hnever | ⟨halways, hdot⟩
    · have heven := ScoreOptions.even_of_flag (.inl hnever)
      exact (hvisible.scansUpTo hnever).placeable_iff heven
    · rw [placeable_iff_never halways hdot]
      have hscans : ScansUpTo candidate { options with neverShowDotFiles := true } _ :=
        hvisible.scansUpTo rfl
      exact hscans.placeable_iff (ScoreOptions.even_of_flag (.inl rfl))

/-- In `src/.git/config` the needle `gc` occurs behind the opening of a hidden component. It matches
where those are shown, and nowhere else. -/
theorem score_isMatch_iff_occurs_behind_dot :
    let candidate := Bytes.ofString "src/.git/config"
    let needle := Bytes.ofString "gc"
    (score candidate needle { alwaysShowDotFiles := true }).isMatch = true
      ∧ IsVisibleUpTo candidate 4
      ∧ ((score candidate needle {}).isMatch = true ↔ Occurs false (candidate.take 4) needle)
      ∧ (score candidate needle {}).isMatch = false := by
  intro candidate needle
  have hne : needle ≠ [] := by decide +kernel
  have hlt : candidate.length < 2 ^ 64 := by decide +kernel
  obtain ⟨hshown, -⟩ :=
    @score_isMatch_iff_occurs candidate needle { alwaysShowDotFiles := true } hne hlt
  obtain ⟨-, hkept⟩ := @score_isMatch_iff_occurs candidate needle {} hne hlt
  obtain ⟨d, hd, hmatch⟩ := hkept (.inr ⟨rfl, by decide +kernel⟩)
  have hfour : IsVisibleUpTo candidate 4 := ⟨by decide +kernel, by decide +kernel, by decide +kernel⟩
  obtain rfl := hd.unique hfour
  have hsublist : needle.Sublist candidate := by decide +kernel
  exact ⟨(hshown rfl rfl).mpr (occurs_of_sublist hsublist), hfour, hmatch, by decide +kernel⟩

end FuzzyFinder
