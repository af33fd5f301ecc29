import FuzzyFinder.Proofs.Score.Optimal

/-!
# FuzzyFinder — what a search that commits to first fits comes to

Without exploring every position, the scan for a byte is over at the first one that fits. So there
is one chain at most, and it takes the first fits (`chain_iff_isFirstFit`). The score is the value of
the first fits if they pass no closed dot, and a miss otherwise (`score_firstFit`): the rows that a
search fills, with their positions that lead nowhere, leave no trace in it.
-/

namespace FuzzyFinder

variable {candidate needle : Bytes} {options : ScoreOptions}

/-! ## First fits -/

theorem Chain.isFirstFit (hrecurse : options.recurse = false) {ps : List Nat}
    (h : Chain candidate options 0 (options.normalize needle) ps) :
    IsFirstFit options.caseSensitive candidate needle ps := by
  obtain ⟨-, hall⟩ := chain_iff_getElem?.mp h
  refine ⟨h.isLegal.toIsPlacement, fun i p n hp hn q hq hbehind b hb hletter => ?_⟩
  have hreach := hall i p _ hp (by rw [getElem?_normalize, hn]; rfl)
  have hmiss := hreach.first hrecurse q ((scanStart_le_iff hp q).mpr hbehind) hq
  obtain ⟨hlt, rfl⟩ := List.getElem?_eq_some_iff.mp hb
  rw [List.getD_eq_getElem candidate 0 hlt, (agrees_normalized ..).mpr hletter] at hmiss
  exact absurd hmiss (by decide)

/-- **Committing to first fits, chains are the first fits that keep the dot policy.** -/
theorem chain_iff_isFirstFit (hrecurse : options.recurse = false) {ps : List Nat} :
    Chain candidate options 0 (options.normalize needle) ps
      ↔ IsFirstFit options.caseSensitive candidate needle ps ∧ IsLegal candidate options needle ps :=
  ⟨fun h => ⟨h.isFirstFit hrecurse, h.isLegal⟩, fun h => h.2.chain fun _ => h.1⟩

/-- First fits lie as far left as those of any placement. -/
theorem IsFirstFit.le {caseSensitive : Bool} {ps ps' : List Nat}
    (h : IsFirstFit caseSensitive candidate needle ps)
    (h' : IsPlacement caseSensitive candidate needle ps') {i p p' : Nat} (hp : ps[i]? = some p)
    (hp' : ps'[i]? = some p') : p ≤ p' := by
  induction i using Nat.strongRecOn generalizing p p' with
  | _ i ih =>
  by_contra hlt
  obtain ⟨hi', rfl⟩ := List.getElem?_eq_some_iff.mp hp'
  have hi : i < needle.length := h'.length_eq ▸ hi'
  obtain ⟨b, hb, hletter⟩ := h'.sameLetter i ps'[i] needle[i] hp' (List.getElem?_eq_getElem hi)
  -- the other placement takes a fit in front of `p`, so it must have been passed before
  refine h.first i p needle[i] hp (List.getElem?_eq_getElem hi) ps'[i] (Nat.lt_of_not_le hlt) ?_ b hb
    hletter
  intro r hpos hr
  have hi'' : i - 1 < ps'.length := by omega
  have hle : r ≤ ps'[i - 1] := ih (i - 1) (by omega) hr (List.getElem?_eq_getElem hi'')
  have hincreasing : ps'[i - 1] < ps'[i] :=
    List.pairwise_iff_getElem.mp h'.increasing (i - 1) i hi'' hi' (by omega)
  exact Nat.lt_of_le_of_lt hle hincreasing

theorem IsFirstFit.unique {caseSensitive : Bool} {ps ps' : List Nat}
    (h : IsFirstFit caseSensitive candidate needle ps)
    (h' : IsFirstFit caseSensitive candidate needle ps') : ps = ps' := by
  refine List.ext_getElem (h.length_eq.trans h'.length_eq.symm) fun i hi hi' => ?_
  have hp := List.getElem?_eq_getElem hi
  have hp' := List.getElem?_eq_getElem hi'
  exact Nat.le_antisymm (h.le h'.toIsPlacement hp hp') (h'.le h.toIsPlacement hp' hp)

/-! ## The score -/

theorem IsRated.of_isFirstFit {rated : Score} (hrecurse : options.recurse = false)
    (h : IsRated candidate (options.normalize needle) options rated) {ps : List Nat}
    (hps : IsFirstFit options.caseSensitive candidate needle ps)
    (hlegal : IsLegal candidate options needle ps) :
    rated = placementScore candidate needle options ps := by
  have hchain := (chain_iff_isFirstFit hrecurse).mpr ⟨hps, hlegal⟩
  obtain ⟨js, hjs, hrated⟩ := h.exists_chain ⟨ps, hchain⟩
  -- the best chain is the only one
  obtain rfl : js = ps := (hjs.isFirstFit hrecurse).unique hps
  rw [hrated, placementScore_congr (length_normalize options needle)]

/-- **The score of first fits.** For a needle that is not empty and does not match letter by letter,
the score is the value of the first fits if there are first fits and they pass no closed dot. It is
a miss in all other cases. -/
theorem score_firstFit (hrecurse : options.recurse = false) (hne : needle ≠ [])
    (hexact : ¬ List.Forall₂ (SameLetter options.caseSensitive) candidate needle)
    (hlt : candidate.length < 2 ^ 64) :
    (∀ ps, IsFirstFit options.caseSensitive candidate needle ps →
      IsLegal candidate options needle ps →
        score candidate needle options = placementScore candidate needle options ps)
      ∧ (∀ ps, IsFirstFit options.caseSensitive candidate needle ps →
        ¬ IsLegal candidate options needle ps → score candidate needle options = Score.miss)
      ∧ ((∀ ps, ¬ IsFirstFit options.caseSensitive candidate needle ps) →
        score candidate needle options = Score.miss) := by
  have hexact' : isExact options.caseSensitive candidate (options.normalize needle) = false := by
    rw [Bool.eq_false_iff, Ne, isExact_normalize]
    exact hexact
  have hrated := rateBytes_isRated (.ofBytes (options.normalize needle))
    (normalize_ne_nil options hne) hexact' hlt
  rw [score_eq_rateBytes]
  refine ⟨fun ps => hrated.of_isFirstFit hrecurse, fun ps hps hillegal => ?_, fun hnone => ?_⟩
  · rw [hrated.eq_miss_iff]
    rintro ⟨js, hjs⟩
    obtain rfl := (hjs.isFirstFit hrecurse).unique hps
    exact hillegal hjs.isLegal
  · rw [hrated.eq_miss_iff]
    rintro ⟨js, hjs⟩
    exact hnone js (hjs.isFirstFit hrecurse)

/-- In `axxb_ab` the needle `ab` is scored at the front, though it would be worth more behind the
separator. In `a_/.b` its first fits pass a closed dot. -/
theorem score_firstFit_at_front :
    let options : ScoreOptions := { recurse := false }
    let needle := Bytes.ofString "ab"
    let behind := Bytes.ofString "axxb_ab"
    let closed := Bytes.ofString "a_/.b"
    (IsFirstFit options.caseSensitive behind needle [0, 3] ∧ IsLegal behind options needle [0, 3]
        ∧ score behind needle options = placementScore behind needle options [0, 3])
      ∧ (IsFirstFit options.caseSensitive closed needle [0, 4]
        ∧ ¬ IsLegal closed options needle [0, 4] ∧ score closed needle options = Score.miss) := by
  intro options needle behind closed
  have hne : needle ≠ [] := by decide +kernel
  have hexact : ∀ candidate : Bytes, ¬ candidate.length = needle.length →
      ¬ List.Forall₂ (SameLetter options.caseSensitive) candidate needle :=
    fun _ hlength h => hlength h.length_eq
  obtain ⟨hbehind, -, -⟩ :=
    score_firstFit rfl hne (hexact behind (by decide +kernel)) (by decide +kernel)
  obtain ⟨-, hclosed, -⟩ :=
    score_firstFit rfl hne (hexact closed (by decide +kernel)) (by decide +kernel)
  have hfits : Chain behind options 0 (options.normalize needle) [0, 3] := by decide +kernel
  -- the dot is passed where hidden components are shown
  have hshown : Chain closed { options with alwaysShowDotFiles := true } 0
      (options.normalize needle) [0, 4] := by decide +kernel
  have hhidden : ¬ Chain closed options 0 (options.normalize needle) [0, 4] := by decide +kernel
  have hfirst : IsFirstFit options.caseSensitive closed needle [0, 4] :=
    hshown.isFirstFit rfl
  have hillegal : ¬ IsLegal closed options needle [0, 4] :=
    fun hlegal => hhidden ((chain_iff_isFirstFit rfl).mpr ⟨hfirst, hlegal⟩)
  exact ⟨⟨hfits.isFirstFit rfl, hfits.isLegal, hbehind _ (hfits.isFirstFit rfl) hfits.isLegal⟩,
    hfirst, hillegal, hclosed _ hfirst hillegal⟩

end FuzzyFinder
