import FuzzyFinder.Options
import FuzzyFinder.Proofs.Needle
import Mathlib.Data.Nat.Find

/-!
# FuzzyFinder — a miss is inherited by longer needles

A needle that continues another one can only be placed where the other one can. While the case mode
stays, this is `Placeable.of_append`. As a query is typed, smart case may also make the search case
sensitive. With every position explored this only takes placements away (`Chain.insensitive`). A
search that commits to the first fit is another matter: folding the case may offer it an earlier
fit, and lead it into a hidden component it would otherwise have stayed clear of. It is safe when
the dot policy treats all needle bytes alike, since then the first fit is as good as any other
(`Chain.firstFit`). `placeable_of_continues` puts the cases together.
-/

namespace FuzzyFinder

variable {candidate needle : Bytes}

/-! ## From sensitive to insensitive -/

/-- A search that explores every position reaches what another one reaches, as far as the byte fits
there and the policy is the same. -/
theorem Reaches.explore {options options' : ScoreOptions} {n : UInt8} {start j : Nat}
    (h : Reaches candidate options n start j) (hrecurse : options'.recurse = true)
    (hpolicy : options'.dotPolicy = options.dotPolicy)
    (hfits : Byte.agrees options'.caseSensitive (candidate.getD j 0) n = true) :
    Reaches candidate options' n start j := by
  refine ⟨h.start_le, h.lt, hfits, ?_, fun hfirst => ?_⟩
  · rintro q hq hqj ⟨hopens, hblocks⟩
    rw [hpolicy] at hblocks
    exact h.clear q hq hqj ⟨hopens, hblocks⟩
  · rw [hrecurse] at hfirst
    exact absurd hfirst (by decide)

/-- With every position explored, what is reached with case is reached without it. -/
theorem Reaches.insensitive {options options' : ScoreOptions} {n : UInt8} {start j : Nat}
    (h : Reaches candidate options n start j) (hsensitive : options.caseSensitive = true)
    (hfold : Byte.fold n = n) (hpolicy : options'.dotPolicy = options.dotPolicy)
    (hrecurse : options'.recurse = true) : Reaches candidate options' n start j := by
  have hfits := h.fits
  rw [hsensitive] at hfits
  exact h.explore hrecurse hpolicy (Byte.agrees_of_sensitive hfits hfold _)

theorem Chain.insensitive {options options' : ScoreOptions} {start : Nat} {js : List Nat}
    (h : Chain candidate options start needle js) (hsensitive : options.caseSensitive = true)
    (hfold : ∀ n ∈ needle, Byte.fold n = n) (hpolicy : options'.dotPolicy = options.dotPolicy)
    (hrecurse : options'.recurse = true) : Chain candidate options' start needle js :=
  h.mono fun n hn _ _ hreach => hreach.insensitive hsensitive (hfold n hn) hpolicy hrecurse

/-! ## First fit under an even policy -/

/-- The dot policy treats all needle bytes alike. -/
def ScoreOptions.Even (options : ScoreOptions) : Prop :=
  ∀ n n', options.dotPolicy.blocks n = options.dotPolicy.blocks n'

theorem ScoreOptions.even_of_flag {options : ScoreOptions}
    (h : options.neverShowDotFiles = true ∨ options.alwaysShowDotFiles = true) : options.Even := by
  intro n n'
  rw [Bool.eq_iff_iff, blocks_iff, blocks_iff]
  rcases h with h | h <;> simp [h]

/-- The scan may begin earlier, if nothing on the way is blocked. -/
theorem Chain.of_le {options : ScoreOptions} {start start' : Nat} {js : List Nat}
    (h : Chain candidate options start needle js) (hrecurse : options.recurse = true)
    (hle : start' ≤ start)
    (hclear : ∀ n ∈ needle.head?, ∀ q, start' ≤ q → q < start → ¬ Blocked candidate options n q) :
    Chain candidate options start' needle js := by
  cases needle with
  | nil => simpa using h
  | cons n later =>
    obtain ⟨j, js', rfl, hreach, hchain⟩ := (chain_cons_iff ..).mp h
    refine (chain_cons_iff ..).mpr ⟨j, js', rfl, ?_, hchain⟩
    refine ⟨Nat.le_trans hle hreach.start_le, hreach.lt, hreach.fits, fun q hq hqj => ?_,
      fun hfirst => ?_⟩
    · rcases Nat.lt_or_ge q start with hlt | hge
      · exact hclear n rfl q hq hlt
      · exact hreach.clear q hge hqj
    · rw [hrecurse] at hfirst
      exact absurd hfirst (by decide)

/-- Where a byte is reached there is a first position that fits, and it lies no further behind. A
search that commits to it reaches it as well, if nothing on the way is blocked. -/
theorem Reaches.exists_first {options options' : ScoreOptions} {n : UInt8} {start start' j : Nat}
    (h : Reaches candidate options n start j)
    (hcase : options'.caseSensitive = options.caseSensitive) (hle : start' ≤ start) :
    ∃ i, start' ≤ i ∧ i ≤ j ∧ Byte.agrees options.caseSensitive (candidate.getD i 0) n = true
      ∧ (∀ q, start' ≤ q → q < i →
        Byte.agrees options.caseSensitive (candidate.getD q 0) n = false)
      ∧ ((∀ q, start' ≤ q → q ≤ i → ¬ Blocked candidate options' n q) →
        Reaches candidate options' n start' i) := by
  have hexists : ∃ i, start' ≤ i
      ∧ Byte.agrees options.caseSensitive (candidate.getD i 0) n = true :=
    ⟨j, Nat.le_trans hle h.start_le, h.fits⟩
  classical
  obtain ⟨hstart, hfits⟩ := Nat.find_spec hexists
  have hij : Nat.find hexists ≤ j :=
    Nat.find_min' hexists ⟨Nat.le_trans hle h.start_le, h.fits⟩
  have hfirst : ∀ q, start' ≤ q → q < Nat.find hexists →
      Byte.agrees options.caseSensitive (candidate.getD q 0) n = false := by
    intro q hq hlt
    have hnot := Nat.find_min hexists hlt
    rw [not_and, Bool.not_eq_true] at hnot
    exact hnot hq
  refine ⟨Nat.find hexists, hstart, hij, hfits, hfirst, fun hclear => ?_⟩
  refine ⟨hstart, Nat.lt_of_le_of_lt hij h.lt, ?_, hclear, fun _ => ?_⟩
  · rw [hcase]
    exact hfits
  · rw [hcase]
    exact hfirst

/-- **Under an even policy the first fit is as good as any other.** The first position that fits
lies before any chosen one, and leaves all the room behind it that the chosen one leaves. -/
theorem Chain.firstFit {options options' : ScoreOptions} {start : Nat} {js : List Nat}
    (h : Chain candidate options start needle js) (hrecurse : options.recurse = true)
    (hcase : options'.caseSensitive = options.caseSensitive)
    (hpolicy : options'.dotPolicy = options.dotPolicy) (heven : options.Even) :
    ∃ js', Chain candidate options' start needle js' := by
  induction needle generalizing start js with
  | nil => exact ⟨[], by simp⟩
  | cons n later ih =>
    obtain ⟨j, js', rfl, hreach, hchain⟩ := (chain_cons_iff ..).mp h
    obtain ⟨i, hstart, hle, -, -, hreach'⟩ := hreach.exists_first hcase (Nat.le_refl start)
    -- no dot up to `j` is closed for `n`, so none is for the bytes behind
    have hlater : Chain candidate options (i + 1) later js' := by
      refine hchain.of_le hrecurse (by omega) ?_
      rintro n' - q hq hqj ⟨hopens, hblocks⟩
      rw [heven n' n] at hblocks
      exact hreach.clear q (by omega) (by omega) ⟨hopens, hblocks⟩
    obtain ⟨js'', hchain''⟩ := ih hlater
    refine ⟨i :: js'', (chain_cons_iff ..).mpr ⟨i, js'', rfl, hreach' ?_, hchain''⟩⟩
    rintro q hq hqi ⟨hopens, hblocks⟩
    rw [hpolicy] at hblocks
    exact hreach.clear q hq (by omega) ⟨hopens, hblocks⟩

/-- A chain of first fits is a chain. -/
theorem Chain.explore {options options' : ScoreOptions} {start : Nat} {js : List Nat}
    (h : Chain candidate options start needle js) (hrecurse : options'.recurse = true)
    (hcase : options'.caseSensitive = options.caseSensitive)
    (hpolicy : options'.dotPolicy = options.dotPolicy) :
    Chain candidate options' start needle js := by
  refine h.mono fun n _ start j hreach => hreach.explore hrecurse hpolicy ?_
  rw [hcase]
  exact hreach.fits

/-- A needle of lower-case letters that is placed with case is placed without it, if positions are
explored or the policy is even. -/
theorem Placeable.insensitive {options options' : ScoreOptions}
    (h : Placeable candidate options needle) (hsensitive : options.caseSensitive = true)
    (hfold : ∀ n ∈ needle, Byte.fold n = n) (hpolicy : options'.dotPolicy = options.dotPolicy)
    (hmode : options'.recurse = true ∨ options'.Even) : Placeable candidate options' needle := by
  obtain ⟨js, hchain⟩ := h
  rcases hmode with hrecurse | heven
  · exact ⟨js, hchain.insensitive hsensitive hfold hpolicy hrecurse⟩
  · -- explored with case, then without it, then by first fits
    have hwith : Chain candidate { options with recurse := true } 0 needle js :=
      hchain.explore rfl rfl rfl
    have hwithout : Chain candidate { options' with recurse := true } 0 needle js :=
      hwith.insensitive hsensitive hfold hpolicy rfl
    exact hwithout.firstFit rfl rfl rfl heven

/-! ## Queries that continue each other -/

namespace SearchOptions

variable {options : SearchOptions} {query query' : Bytes}

theorem scoreOptions_dotPolicy (caseSensitive : Bool) :
    (options.scoreOptions caseSensitive).dotPolicy = (options.scoreOptions true).dotPolicy := rfl

/-- Misses are inherited: positions are explored, or the case mode never flips as a query is typed,
or the dot policy treats all needle bytes alike. -/
def Inherits (options : SearchOptions) : Prop :=
  options.recurse = true ∨ options.caseMatching ≠ .smart ∨ options.neverShowDotFiles = true
    ∨ options.alwaysShowDotFiles = true

/-- **A needle can be placed wherever one that continues it can.** -/
theorem placeable_of_continues (hinherits : options.Inherits)
    (hcontinues : (options.needle query').continues (options.needle query) = true)
    (h : Placeable candidate (options.scoreOptions (options.needle query').caseSensitive)
      (options.needle query').bytes) :
    Placeable candidate (options.scoreOptions (options.needle query).caseSensitive)
      (options.needle query).bytes := by
  obtain ⟨later, hlater⟩ := List.isPrefixOf_iff_prefix.mp hcontinues
  rw [← hlater] at h
  have hprefix := h.of_append
  cases hcase : (options.needle query).caseSensitive with
  | true =>
    have hcase' : (options.needle query').caseSensitive = true :=
      Needle.caseSensitive_of_continues hcontinues hcase
    rw [hcase'] at hprefix
    exact hprefix
  | false =>
    cases hcase' : (options.needle query').caseSensitive with
    | false =>
      rw [hcase'] at hprefix
      exact hprefix
    | true =>
      rw [hcase'] at hprefix
      refine hprefix.insensitive rfl (Needle.fold_eq_of_mem_bytes hcase)
        (scoreOptions_dotPolicy false) ?_
      rcases hinherits with hrecurse | hsmart | hflag
      · exact .inl hrecurse
      · have hsame : (options.needle query).caseSensitive = (options.needle query').caseSensitive :=
          CaseMatching.isSensitive_eq hsmart query query'
        rw [hcase, hcase'] at hsame
        exact absurd hsame (by decide)
      · exact .inr (ScoreOptions.even_of_flag hflag)

end SearchOptions

end FuzzyFinder
