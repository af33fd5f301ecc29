import FuzzyFinder.Proofs.Letters
import FuzzyFinder.Proofs.Score.Search

/-!
# FuzzyFinder — what a rating says

`rateBytes` takes three short cuts before it searches: an empty needle, an exact match, and the
test on cached letters. None of them changes the answer. A rating is a miss exactly when the needle
cannot be placed (`rateBytes_eq_miss_iff`), whether the search explores every position or commits
to the first fit; otherwise, when no short cut applies, it is the best value of a chain
(`rateBytes_isRated`). Cached letters save work only: the rating does not depend on them
(`rateBytes_fst_eq_none`), and what is cached afterwards is again the truth (`rateBytes_snd_knows`).
-/

namespace FuzzyFinder

open Search (Prepared IsBest)

variable {candidate needle : Bytes} {options : ScoreOptions} {known : Option LetterSet}

/-! ## The search of a rating -/

section Fields

variable (candidate needle : Bytes) (ps : List Nat) (options : ScoreOptions) (i j : Nat)

theorem ofBytes_byteAt :
    (Search.ofBytes candidate needle ps options).byteAt j = candidate.getD j 0 := by
  simp [Search.byteAt, Search.ofBytes, Array.getD_eq_getD_getElem?]

theorem ofBytes_wanted :
    (Search.ofBytes candidate needle ps options).wanted i = needle.getD i 0 := by
  simp [Search.wanted, Search.ofBytes, Array.getD_eq_getD_getElem?]

theorem ofBytes_last : (Search.ofBytes candidate needle ps options).last i = ps.getD i 0 := by
  simp [Search.last, Search.ofBytes, Array.getD_eq_getD_getElem?]

theorem ofBytes_first : (Search.ofBytes candidate needle ps options).first i
    = (leftmost options.caseSensitive candidate 0 needle).getD i 0 := by
  simp [Search.first, Search.ofBytes, Array.getD_eq_getD_getElem?]

theorem ofBytes_fits : (Search.ofBytes candidate needle ps options).fits i j
    = Byte.agrees options.caseSensitive (candidate.getD j 0) (needle.getD i 0) := by
  rw [Search.fits, ofBytes_byteAt, ofBytes_wanted]
  rfl

theorem ofBytes_blocked_iff : (Search.ofBytes candidate needle ps options).blocked i j = true
    ↔ Blocked candidate options (needle.getD i 0) j := by
  have hhidden : (Search.ofBytes candidate needle ps options).opensHidden j = true
      ↔ OpensHidden candidate j := by
    rw [Search.opensHidden, ofBytes_byteAt, ofBytes_byteAt, OpensHidden]
    simp
  rw [Search.blocked, Bool.and_eq_true, hhidden, ofBytes_wanted]
  rfl

end Fields

/-- No position is left of the leftmost one. -/
theorem ofBytes_first_le (ps : List Nat) {i j : Nat} (hi : i < needle.length)
    (hj : j < candidate.length)
    (hfits : (Search.ofBytes candidate needle ps options).fits i j = true)
    (hbefore : i = 0 ∨ (Search.ofBytes candidate needle ps options).first (i - 1) < j) :
    (Search.ofBytes candidate needle ps options).first i ≤ j := by
  rw [ofBytes_fits] at hfits
  rw [ofBytes_first]
  refine leftmost_le hi hj ?_ hfits
  cases i with
  | zero => exact Nat.zero_le j
  | succ i =>
    have := hbefore.resolve_left (by omega)
    rw [ofBytes_first, Nat.add_sub_cancel] at this
    exact this

/-- Between the leftmost and the rightmost positions a search has all it needs. -/
theorem ofBytes_prepared {ps : List Nat} (hne : needle ≠ []) (hlt : candidate.length < 2 ^ 64)
    (h : IsRightmost options.caseSensitive candidate needle ps) :
    (Search.ofBytes candidate needle ps options).Prepared candidate needle options := by
  have hlen := h.length_eq
  have hpos := List.length_pos_iff.mpr hne
  have hroom := h.bound_add_length_le
  refine ⟨by simp [Search.ofBytes], hne, rfl, ofBytes_fits candidate needle ps options,
    ofBytes_blocked_iff candidate needle ps options, hlt, ?_, ?_, ?_, ?_, ?_⟩
  · exact Search.ofBytes_moderate ps options hne (by omega) hlt
  · exact fun i j hi hj => ofBytes_first_le ps hi hj
  · intro i hi
    rw [ofBytes_last]
    exact h.getD_lt hi
  · intro i hi
    rw [ofBytes_last, ofBytes_last]
    exact h.getD_le (by omega) (by omega)
  · -- nor is one right of the rightmost
    intro i js start hi hchain
    have hle := (h.drop i).bound_le hchain.fits
    rw [Search.drop_eq_cons hi] at hchain
    obtain ⟨j, js', rfl, -, -⟩ := (chain_cons_iff ..).mp hchain
    rw [h.bound_drop hi, bound_cons] at hle
    rw [ofBytes_last, List.headD_cons]
    exact hle

/-- What the positions `ps` are worth. -/
def placementScore (candidate needle : Bytes) (options : ScoreOptions) (ps : List Nat) : Score :=
  (Search.ofBytes candidate needle [] options).total none ps

/-- The bounds of a search have no part in what positions are worth. -/
theorem total_eq_placementScore (bounds ps : List Nat) :
    (Search.ofBytes candidate needle bounds options).total none ps
      = placementScore candidate needle options ps := by
  have hcontribution : ∀ j previous, (Search.ofBytes candidate needle bounds options).contribution j
      previous = (Search.ofBytes candidate needle [] options).contribution j previous :=
    fun _ _ => rfl
  exact Search.total_congr hcontribution none ps

/-! ## Exact matches -/

theorem isExact_iff (caseSensitive : Bool) (candidate needle : Bytes) :
    isExact caseSensitive candidate needle = true
      ↔ List.Forall₂ (fun b n => Byte.agrees caseSensitive b n = true) candidate needle := by
  rw [List.forall₂_iff_zip, isExact, Bool.and_eq_true, beq_iff_eq, List.all_eq_true, Prod.forall,
    eq_comm (a := needle.length)]

theorem isExact_length {caseSensitive : Bool} (h : isExact caseSensitive candidate needle = true) :
    candidate.length = needle.length :=
  ((isExact_iff ..).mp h).length_eq

theorem agrees_of_isExact {caseSensitive : Bool} (h : isExact caseSensitive candidate needle = true)
    {i : Nat} (hi : i < candidate.length) :
    Byte.agrees caseSensitive (candidate.getD i 0) (needle.getD i 0) = true := by
  have hi' : i < needle.length := by
    rw [← isExact_length h]
    exact hi
  rw [List.getD_eq_getElem _ _ hi, List.getD_eq_getElem _ _ hi']
  exact ((isExact_iff ..).mp h).get hi hi'

/-- A scan that begins at a byte that agrees reaches it, unless it is a dot that is never shown. -/
theorem reaches_self {n : UInt8} {i : Nat} (hi : i < candidate.length)
    (hagrees : Byte.agrees options.caseSensitive (candidate.getD i 0) n = true)
    (hclear : options.neverShowDotFiles = true → ¬ OpensHidden candidate i) :
    Reaches candidate options n i i := by
  refine ⟨Nat.le_refl i, hi, hagrees, ?_, fun _ q hq hlt => absurd hlt (by omega)⟩
  rintro q hq hqi ⟨hopens, hblocks⟩
  obtain rfl : q = i := by omega
  -- the needle has a dot there, which only the strictest policy refuses
  rw [hopens.1] at hagrees
  rw [blocks_iff, Byte.eq_of_agrees (by decide) hagrees] at hblocks
  exact hclear (hblocks.resolve_right (by simp)) hopens

/-- Each byte of an exact match sits at its own position. -/
theorem reaches_of_isExact (h : isExact options.caseSensitive candidate needle = true)
    (hclear : (options.neverShowDotFiles && hasHiddenComponent candidate) = false) {i : Nat}
    (hi : i < candidate.length) : Reaches candidate options (needle.getD i 0) i i := by
  apply reaches_self hi (agrees_of_isExact h hi)
  intro hnever hopens
  have hhidden := (hasHiddenComponent_iff candidate).mpr ⟨i, hopens⟩
  rw [hnever, hhidden] at hclear
  exact absurd hclear (by decide)

/-- Bytes that are reached at their own positions are placed there. -/
theorem chain_range' (hreach : ∀ i < needle.length, Reaches candidate options (needle.getD i 0) i i) :
    Chain candidate options 0 needle (List.range' 0 needle.length) := by
  -- by induction on the number of bytes at the end that have been placed
  have hfrom : ∀ k ≤ needle.length, Chain candidate options (needle.length - k)
      (needle.drop (needle.length - k)) (List.range' (needle.length - k) k) := by
    intro k
    induction k with
    | zero => simp
    | succ k ih =>
      intro hk
      have hi : needle.length - (k + 1) < needle.length := by omega
      rw [Search.drop_eq_cons hi, List.range'_succ, chain_cons_iff]
      refine ⟨_, _, rfl, hreach _ hi, ?_⟩
      rw [show needle.length - (k + 1) + 1 = needle.length - k from by omega]
      exact ih (by omega)
  have hall := hfrom needle.length (Nat.le_refl _)
  rw [Nat.sub_self, List.drop_zero] at hall
  exact hall

/-- An exact match places the needle, unless a hidden component is never shown. -/
theorem placeable_of_isExact (h : isExact options.caseSensitive candidate needle = true)
    (hclear : (options.neverShowDotFiles && hasHiddenComponent candidate) = false) :
    Placeable candidate options needle := by
  have hlen := isExact_length h
  exact ⟨_, chain_range' fun i hi => reaches_of_isExact h hclear (by omega)⟩

/-- Increasing numbers below their own count are just the numbers in order. -/
theorem getElem_eq_of_increasing {js : List Nat} (hincreasing : js.Pairwise (· < ·))
    (hlt : ∀ i (hi : i < js.length), js[i] < js.length) :
    ∀ i (hi : i < js.length), js[i] = i := by
  -- every number leaves room for the ones before it
  have hlow : ∀ i (hi : i < js.length), i ≤ js[i] := by
    intro i
    induction i with
    | zero => exact fun _ => Nat.zero_le _
    | succ i ih =>
      intro hi
      have := ih (by omega)
      have := List.pairwise_iff_getElem.mp hincreasing i (i + 1) (by omega) hi (by omega)
      omega
  -- and for the ones behind it
  have hhigh : ∀ k i (hi : i < js.length), i + k + 1 = js.length → js[i] + k + 1 ≤ js.length := by
    intro k
    induction k with
    | zero => exact fun i hi _ => hlt i hi
    | succ k ih =>
      intro i hi hk
      have := ih (i + 1) (by omega) (by omega)
      have := List.pairwise_iff_getElem.mp hincreasing i (i + 1) hi (by omega) (by omega)
      omega
  intro i hi
  have := hlow i hi
  have := hhigh (js.length - i - 1) i hi (by omega)
  omega

/-- A needle as long as the candidate sits at its own positions or nowhere. -/
theorem Chain.getElem_eq {js : List Nat} (h : Chain candidate options 0 needle js)
    (hlen : candidate.length = needle.length) (i : Nat) (hi : i < js.length) : js[i] = i := by
  obtain ⟨hlen', hall⟩ := chain_iff_getElem?.mp h
  refine getElem_eq_of_increasing h.pairwise.1 (fun i hi => ?_) i hi
  have hlt := (hall i js[i] (needle.get ⟨i, by omega⟩) (by simp [hi]) (by simp)).lt
  omega

theorem Chain.isExact {js : List Nat} (h : Chain candidate options 0 needle js)
    (hlen : candidate.length = needle.length) :
    isExact options.caseSensitive candidate needle = true := by
  obtain ⟨hlen', hall⟩ := chain_iff_getElem?.mp h
  rw [isExact_iff, List.forall₂_iff_get]
  refine ⟨hlen, fun i hi hi' => ?_⟩
  have hfits := (hall i js[i] needle[i] (by simp) (by simp)).fits
  rw [h.getElem_eq hlen i (by omega), List.getD_eq_getElem _ _ hi] at hfits
  exact hfits

/-- So a component that is never shown stops such a needle. -/
theorem not_placeable_of_hidden (hlen : candidate.length = needle.length)
    (hnever : options.neverShowDotFiles = true) (hhidden : hasHiddenComponent candidate = true) :
    ¬ Placeable candidate options needle := by
  rintro ⟨js, hchain⟩
  obtain ⟨q, hopens⟩ := (hasHiddenComponent_iff candidate).mp hhidden
  have hq := hopens.lt
  obtain ⟨hlen', hall⟩ := chain_iff_getElem?.mp hchain
  have hpos := hchain.getElem_eq hlen
  have hreach := hall q js[q] (needle.get ⟨q, by omega⟩) (by simp) (by simp)
  refine hreach.clear q ?_ (by rw [hpos]) ⟨hopens, (blocks_iff ..).mpr (.inl hnever)⟩
  cases q with
  | zero => exact Nat.zero_le _
  | succ q =>
    rw [scanStart, List.getD_eq_getElem _ _ (by omega), hpos]

/-! ## Cached letters -/

/-- What is known about a candidate's letters is either nothing or the truth. -/
def Knows (candidate : Bytes) (known : Option LetterSet) : Prop :=
  ∀ seen, known = some seen → seen = .ofBytes candidate

theorem knows_none : Knows candidate none := by simp [Knows]

namespace Backscan

/-- Once all needle bytes are placed, collecting letters changes nothing else. -/
theorem run_placed (caseSensitive : Bool) (before : Bytes) (positions : List Nat)
    (letters : LetterSet) :
    (run caseSensitive true before ⟨letters, [], positions⟩).unplaced = []
      ∧ (run caseSensitive true before ⟨letters, [], positions⟩).positions = positions := by
  induction before generalizing letters with
  | nil => exact ⟨rfl, rfl⟩
  | cons b before ih => exact ih (letters.insert b)

/-- Collecting letters has no part in where the needle bytes go. -/
theorem run_congr {caseSensitive : Bool} {before : Bytes} {s t : Backscan} (collect : Bool)
    (hunplaced : s.unplaced = t.unplaced) (hpositions : s.positions = t.positions) :
    (run caseSensitive collect before s).unplaced = (run caseSensitive true before t).unplaced
      ∧ (run caseSensitive collect before s).positions
        = (run caseSensitive true before t).positions := by
  induction before generalizing s t with
  | nil => exact ⟨hunplaced, hpositions⟩
  | cons b before ih =>
    obtain ⟨letters, unplaced, positions⟩ := s
    obtain ⟨letters', _, _⟩ := t
    obtain rfl : unplaced = _ := hunplaced
    obtain rfl : positions = _ := hpositions
    cases unplaced with
    | nil =>
      cases collect with
      | true => exact ih rfl rfl
      | false =>
        -- one pass stops here; the other goes on without anything to place
        obtain ⟨hnone, hsame⟩ := run_placed caseSensitive (b :: before) positions letters'
        exact ⟨hnone.symm, hsame.symm⟩
    | cons n earlier =>
      rw [run, run]
      dsimp only
      split
      · exact ih rfl rfl
      · exact ih rfl rfl

theorem run_letters {caseSensitive : Bool} {before : Bytes} {s : Backscan} :
    (run caseSensitive true before s).letters = before.foldl LetterSet.insert s.letters := by
  induction before generalizing s with
  | nil => rfl
  | cons b before ih =>
    obtain ⟨letters, unplaced, positions⟩ := s
    cases unplaced with
    | nil => exact ih
    | cons n earlier =>
      rw [run]
      dsimp only
      split
      · exact ih
      · exact ih

end Backscan

theorem rightmost_fst_eq (caseSensitive : Bool) :
    (rightmost caseSensitive candidate needle known).1
      = (rightmost caseSensitive candidate needle none).1 := by
  obtain ⟨h1, h2⟩ := @Backscan.run_congr caseSensitive candidate.reverse
    { unplaced := needle.reverse } { unplaced := needle.reverse } known.isNone rfl rfl
  unfold rightmost
  dsimp only
  rw [h1, h2]
  rfl

/-- The pass from the right leaves the letters that are known, or collects all of the candidate's. -/
theorem rightmost_snd_eq (caseSensitive : Bool) :
    (rightmost caseSensitive candidate needle known).2 = known.or (some (.ofBytes candidate)) := by
  cases known with
  | some seen => rfl
  | none =>
    have hletters : (Backscan.run caseSensitive true candidate.reverse
        { unplaced := needle.reverse }).letters = LetterSet.ofBytes candidate :=
      Backscan.run_letters.trans (LetterSet.foldl_insert_reverse _ _)
    exact congrArg some hletters

/-- The letters are passed on as they are, or they are those of the candidate. -/
theorem rateBytes_snd_eq (letters : LetterSet) :
    (rateBytes candidate needle letters known options).2 = known
      ∨ (rateBytes candidate needle letters known options).2 = some (.ofBytes candidate) := by
  have hright := @rightmost_snd_eq candidate needle known options.caseSensitive
  have hor : known.or (some (.ofBytes candidate)) = known
      ∨ known.or (some (.ofBytes candidate)) = some (.ofBytes candidate) := by
    cases known with
    | none => exact .inr rfl
    | some seen => exact .inl rfl
  rw [← hright] at hor
  unfold rateBytes
  -- the three short cuts come before the pass from the right
  split
  · exact .inl rfl
  split
  · exact .inl rfl
  split
  · exact .inl rfl
  split
  · rename_i heq
    rw [heq] at hor
    exact hor
  · rename_i heq
    rw [heq] at hor
    exact hor

theorem rateBytes_snd_knows {letters : LetterSet} (h : Knows candidate known) :
    Knows candidate (rateBytes candidate needle letters known options).2 := by
  rcases @rateBytes_snd_eq candidate needle options known letters with hsame | hcollected
  · rw [hsame]
    exact h
  · rw [hcollected]
    intro seen hseen
    exact (Option.some_inj.mp hseen).symm

/-! ## Ratings -/

/-- Every candidate matches the empty needle, or is concealed. -/
theorem rateBytes_nil (candidate : Bytes) (options : ScoreOptions) (letters : LetterSet)
    (known : Option LetterSet) :
    (rateBytes candidate [] letters known options).1 = Score.concealed
      ∨ (rateBytes candidate [] letters known options).1 = Score.perfect := by
  simp only [rateBytes, List.isEmpty_nil, if_true]
  split
  · exact .inl rfl
  · exact .inr rfl

/-- An exact match is perfect, unless it is never shown. -/
theorem rateBytes_of_isExact (letters : LetterSet) (known : Option LetterSet) (hne : needle ≠ [])
    (hexact : isExact options.caseSensitive candidate needle = true) :
    (rateBytes candidate needle letters known options).1
      = if options.neverShowDotFiles && hasHiddenComponent candidate then Score.miss
        else Score.perfect := by
  have hempty := List.isEmpty_eq_false_iff.mpr hne
  simp only [rateBytes, hempty, hexact, if_true, Bool.false_eq_true, if_false]

/-- What a search of a candidate comes to: the best value of a chain, or a miss. -/
structure IsRated (candidate needle : Bytes) (options : ScoreOptions) (rated : Score) : Prop where
  isBest : ∃ v, IsBest (Chain candidate options 0 needle) (placementScore candidate needle options) v
    ∧ rated = if v.isFinite then v else Score.miss
  isSum : ∀ js, Chain candidate options 0 needle js →
    Score.IsSum (placementScore candidate needle options js)
  pos : ∀ js, Chain candidate options 0 needle js →
    0 < (placementScore candidate needle options js).value

theorem isRated_miss (h : ¬ Placeable candidate options needle) :
    IsRated candidate needle options Score.miss where
  isBest := ⟨_, .missing fun js hjs => h ⟨js, hjs⟩, by rw [Score.unreachable_isFinite]; rfl⟩
  isSum js hjs := absurd ⟨js, hjs⟩ h
  pos js hjs := absurd ⟨js, hjs⟩ h

theorem IsRated.eq_miss_iff {rated : Score} (h : IsRated candidate needle options rated) :
    rated = Score.miss ↔ ¬ Placeable candidate options needle := by
  obtain ⟨⟨v, hbest, hrated⟩, hsum, hpos⟩ := h
  rw [hrated]
  -- a best value is positive, so it is not a miss
  cases hbest with
  | missing hnone =>
    rw [Score.unreachable_isFinite]
    exact ⟨fun _ ⟨js, hjs⟩ => hnone js hjs, fun _ => rfl⟩
  | attained js hjs _ =>
    rw [(hsum js hjs).plain.isFinite, if_pos rfl]
    constructor
    · intro hmiss
      have := hpos js hjs
      rw [hmiss, Score.value_miss] at this
      exact absurd this (lt_irrefl _)
    · exact fun hnone => absurd ⟨js, hjs⟩ hnone

theorem IsRated.isMatch_iff {rated : Score} (h : IsRated candidate needle options rated) :
    rated.isMatch = true ↔ Placeable candidate options needle := by
  have hmiss := h.eq_miss_iff
  obtain ⟨⟨v, hbest, hrated⟩, hsum, hpos⟩ := h
  cases hbest with
  | missing hnone =>
    rw [Score.unreachable_isFinite, if_neg Bool.false_ne_true] at hrated
    have hnot : Score.isMatch Score.miss = false := by decide
    rw [hrated, hnot]
    exact ⟨fun h => absurd h Bool.false_ne_true, fun h => absurd h (hmiss.mp hrated)⟩
  | attained js hjs _ =>
    rw [(hsum js hjs).plain.isFinite, if_pos rfl] at hrated
    rw [hrated]
    exact ⟨fun _ => ⟨js, hjs⟩, fun _ => (Score.isMatch_iff (hsum js hjs).plain).mpr (hpos js hjs)⟩

/-- A needle that can be placed is rated by one of its chains. -/
theorem IsRated.exists_chain {rated : Score} (h : IsRated candidate needle options rated)
    (hplaceable : Placeable candidate options needle) :
    ∃ js, Chain candidate options 0 needle js
      ∧ rated = placementScore candidate needle options js := by
  obtain ⟨⟨v, hbest, hrated⟩, hsum, -⟩ := h
  cases hbest with
  | missing hnone =>
    obtain ⟨js, hjs⟩ := hplaceable
    exact absurd hjs (hnone js)
  | attained js hjs _ =>
    rw [(hsum js hjs).plain.isFinite, if_pos rfl] at hrated
    exact ⟨js, hjs, hrated⟩

/-- **Without a short cut, a rating is the best value of a chain**, and a miss if there is none. -/
theorem rateBytes_isRated (letters : LetterSet) (hne : needle ≠ [])
    (hexact : isExact options.caseSensitive candidate needle = false)
    (hlt : candidate.length < 2 ^ 64) :
    IsRated candidate needle options (rateBytes candidate needle letters none options).1 := by
  have hempty := List.isEmpty_eq_false_iff.mpr hne
  unfold rateBytes
  simp only [hempty, hexact, Option.any_none, Bool.false_eq_true, if_false]
  split
  · rename_i heq
    refine isRated_miss ?_
    rintro ⟨js, hchain⟩
    exact rightmost_none (by rw [heq]) js hchain.fits
  · rename_i ps _ heq
    have hright : IsRightmost options.caseSensitive candidate needle ps :=
      rightmost_isRightmost (congrArg Prod.fst heq)
    have hprepared := ofBytes_prepared hne hlt hright
    have hbest := hprepared.best_isBest
    have hvalue : (Search.ofBytes candidate needle ps options).total none
        = placementScore candidate needle options := funext (total_eq_placementScore ps)
    have hsum : ∀ js, Chain candidate options 0 needle js →
        Score.IsSum (placementScore candidate needle options js) := by
      intro js hjs
      rw [← hvalue]
      exact hprepared.total_isSum hjs none
    have hpos : ∀ js, Chain candidate options 0 needle js →
        0 < (placementScore candidate needle options js).value := by
      intro js hjs
      obtain ⟨n, later, rfl⟩ := List.exists_cons_of_ne_nil hne
      rw [← hvalue]
      exact hprepared.total_pos hjs none
    rw [hvalue] at hbest
    refine ⟨⟨_, hbest, ?_⟩, hsum, hpos⟩
    generalize (Search.ofBytes candidate needle ps options).best = v at hbest ⊢
    cases hbest with
    | missing _ => simp [Score.unreachable_isFinite]
    | attained js hjs _ =>
      -- a best value that is finite is positive as well
      have hmatch := (Score.isMatch_iff (hsum js hjs).plain).mpr (hpos js hjs)
      simp [(hsum js hjs).plain.isFinite, hmatch]

/-- **Where the letters turn a needle away, the pass from the right fails.** -/
theorem rightmost_eq_none_of_letters {caseSensitive : Bool} (known : Option LetterSet)
    (h : (LetterSet.ofBytes candidate).contains (.ofBytes needle) = false) :
    (rightmost caseSensitive candidate needle known).1 = none := by
  cases hfound : (rightmost caseSensitive candidate needle known).1 with
  | none => rfl
  | some ps =>
    rw [(rightmost_fits hfound).contains_letters] at h
    exact absurd h (by decide)

theorem rateBytes_of_rightmost_none {letters : LetterSet} (hne : needle ≠ [])
    (hexact : isExact options.caseSensitive candidate needle = false)
    (hnone : (rightmost options.caseSensitive candidate needle known).1 = none) :
    (rateBytes candidate needle letters known options).1 = Score.miss := by
  have hempty := List.isEmpty_eq_false_iff.mpr hne
  simp only [rateBytes, hempty, hexact, Bool.false_eq_true, if_false]
  split
  · rfl
  split
  · rfl
  · rename_i heq
    rw [heq] at hnone
    exact absurd hnone (by simp)

/-- Letters that do not turn the needle away save the collecting, and nothing else. -/
theorem rateBytes_fst_of_admits {letters : LetterSet}
    (h : known.any (fun seen => !seen.contains letters) = false) :
    (rateBytes candidate needle letters known options).1
      = (rateBytes candidate needle letters none options).1 := by
  unfold rateBytes
  split
  · rfl
  split
  · rfl
  have hright : (rightmost options.caseSensitive candidate needle known).1
      = (rightmost options.caseSensitive candidate needle none).1 :=
    rightmost_fst_eq options.caseSensitive
  rw [h, Option.any_none]
  simp only [Bool.false_eq_true, if_false]
  generalize rightmost options.caseSensitive candidate needle known = r at hright ⊢
  generalize rightmost options.caseSensitive candidate needle none = r' at hright ⊢
  obtain ⟨found, _⟩ := r
  obtain ⟨found', _⟩ := r'
  obtain rfl : found = found' := hright
  cases found <;> rfl

/-- **A rating does not depend on what is known about letters.** -/
theorem rateBytes_fst_eq_none (h : Knows candidate known) :
    (rateBytes candidate needle (.ofBytes needle) known options).1
      = (rateBytes candidate needle (.ofBytes needle) none options).1 := by
  cases hany : known.any fun seen => !seen.contains (.ofBytes needle) with
  | false => exact rateBytes_fst_of_admits hany
  | true =>
    obtain ⟨seen, hknown, hlacks⟩ := (Option.any_eq_true _ _).mp hany
    obtain rfl := h seen hknown
    have hmask : (LetterSet.ofBytes candidate).contains (.ofBytes needle) = false :=
      (Bool.not_eq_true' _).mp hlacks
    by_cases hne : needle = []
    · subst hne
      simp [rateBytes]
    by_cases hexact : isExact options.caseSensitive candidate needle = true
    · rw [rateBytes_of_isExact _ _ hne hexact, rateBytes_of_isExact _ _ hne hexact]
    · -- the letters turn the needle away; the search would not have placed it either
      rw [Bool.not_eq_true] at hexact
      rw [rateBytes_of_rightmost_none hne hexact (rightmost_eq_none_of_letters _ hmask),
        rateBytes_of_rightmost_none hne hexact (rightmost_eq_none_of_letters _ hmask)]

/-! ## Misses -/

theorem perfect_ne_miss : Score.perfect ≠ Score.miss := by decide

theorem concealed_ne_miss : Score.concealed ≠ Score.miss := by decide

/-- **A rating is a miss exactly when the needle cannot be placed.** The empty needle can always be
placed, and its ratings are never misses. -/
theorem rateBytes_eq_miss_iff (hlt : candidate.length < 2 ^ 64) (h : Knows candidate known) :
    (rateBytes candidate needle (.ofBytes needle) known options).1 = Score.miss
      ↔ ¬ Placeable candidate options needle := by
  rw [rateBytes_fst_eq_none h]
  by_cases hne : needle = []
  · subst hne
    have hplaceable : Placeable candidate options [] := ⟨[], by simp⟩
    refine ⟨fun hmiss => ?_, fun hnot => absurd hplaceable hnot⟩
    rcases rateBytes_nil candidate options (.ofBytes []) none with heq | heq
    · exact absurd (heq.symm.trans hmiss) concealed_ne_miss
    · exact absurd (heq.symm.trans hmiss) perfect_ne_miss
  by_cases hexact : isExact options.caseSensitive candidate needle = true
  · rw [rateBytes_of_isExact _ _ hne hexact]
    by_cases hconcealed : (options.neverShowDotFiles && hasHiddenComponent candidate) = true
    · rw [if_pos hconcealed]
      obtain ⟨hnever, hhidden⟩ := Bool.and_eq_true_iff.mp hconcealed
      exact ⟨fun _ => not_placeable_of_hidden (isExact_length hexact) hnever hhidden, fun _ => rfl⟩
    · rw [if_neg hconcealed]
      have hplaceable := placeable_of_isExact hexact ((Bool.not_eq_true _).mp hconcealed)
      exact ⟨fun hmiss => absurd hmiss perfect_ne_miss, fun hnot => absurd hplaceable hnot⟩
  · exact (rateBytes_isRated _ hne ((Bool.not_eq_true _).mp hexact) hlt).eq_miss_iff

/-- A needle that is not empty matches where it can be placed. -/
theorem rateBytes_isMatch_iff (hlt : candidate.length < 2 ^ 64) (hne : needle ≠ []) :
    (rateBytes candidate needle (.ofBytes needle) none options).1.isMatch = true
      ↔ Placeable candidate options needle := by
  by_cases hexact : isExact options.caseSensitive candidate needle = true
  · have hmiss : (rateBytes candidate needle (.ofBytes needle) none options).1 = Score.miss
        ↔ ¬ Placeable candidate options needle := rateBytes_eq_miss_iff hlt knows_none
    rw [rateBytes_of_isExact _ _ hne hexact] at hmiss ⊢
    have hperfect : Score.isMatch Score.perfect = true := by decide
    have hnot : Score.isMatch Score.miss = false := by decide
    split at hmiss
    · rw [if_pos ‹_›, hnot]
      exact ⟨fun h => absurd h Bool.false_ne_true, fun h => absurd h (hmiss.mp rfl)⟩
    · rw [if_neg ‹_›, hperfect]
      exact ⟨fun _ => not_not.mp (mt hmiss.mpr perfect_ne_miss), fun _ => rfl⟩
  · exact (rateBytes_isRated _ hne ((Bool.not_eq_true _).mp hexact) hlt).isMatch_iff

/-- A positive score is not taken for a miss. -/
theorem not_beq_miss {a : Score} (ha : a.Plain) (hpos : 0 < a.value) :
    (a == Score.miss) = false := by
  change Float.Model.UnpackedFloat.beq a.toModel.unpack (.zero .positive) = false
  unfold Score.Plain Score.value at *
  generalize a.toModel.unpack = u at ha hpos ⊢
  cases ha with
  | zero => exact absurd hpos (lt_irrefl _)
  | finite m e hm _ _ _ _ => rfl

/-- What compares equal to a miss is one: no other rating has the value zero. -/
theorem rateBytes_eq_miss_of_beq {letters : LetterSet} (hlt : candidate.length < 2 ^ 64)
    (h : ((rateBytes candidate needle letters none options).1 == Score.miss) = true) :
    (rateBytes candidate needle letters none options).1 = Score.miss := by
  have hperfect : (Score.perfect == Score.miss) = false := by decide
  have hconcealed : (Score.concealed == Score.miss) = false := by decide
  by_cases hne : needle = []
  · subst hne
    rcases rateBytes_nil candidate options letters none with heq | heq
    · rw [heq, hconcealed] at h
      exact absurd h (by decide)
    · rw [heq, hperfect] at h
      exact absurd h (by decide)
  by_cases hexact : isExact options.caseSensitive candidate needle = true
  · rw [rateBytes_of_isExact _ _ hne hexact] at h ⊢
    split at h
    · rename_i hconcealed
      rw [if_pos hconcealed]
    · rw [hperfect] at h
      exact absurd h (by decide)
  · obtain ⟨⟨v, hbest, hrated⟩, hsum, hpos⟩ :=
      rateBytes_isRated letters hne ((Bool.not_eq_true _).mp hexact) hlt
    rw [hrated] at h ⊢
    cases hbest with
    | missing _ => rw [Score.unreachable_isFinite]; rfl
    | attained js hjs _ =>
      rw [(hsum js hjs).plain.isFinite, if_pos rfl,
        not_beq_miss (hsum js hjs).plain (hpos js hjs)] at h
      exact absurd h (by decide)

theorem score_eq_rateBytes (candidate needle : Bytes) (options : ScoreOptions) :
    score candidate needle options = (rateBytes candidate (options.normalize needle)
      (.ofBytes (options.normalize needle)) none options).1 := rfl

theorem score_isMatch_iff (hne : needle ≠ []) (hlt : candidate.length < 2 ^ 64) :
    (score candidate needle options).isMatch = true
      ↔ Placeable candidate options (options.normalize needle) := by
  rw [score_eq_rateBytes]
  exact rateBytes_isMatch_iff hlt (normalize_ne_nil options hne)

theorem score_eq_miss_iff (hlt : candidate.length < 2 ^ 64) :
    score candidate needle options = Score.miss
      ↔ ¬ Placeable candidate options (options.normalize needle) := by
  rw [score_eq_rateBytes]
  exact rateBytes_eq_miss_iff hlt knows_none

/-- A candidate that is longer or shorter than the needle is searched. -/
theorem score_isRated (hne : needle ≠ []) (hlen : candidate.length ≠ needle.length)
    (hlt : candidate.length < 2 ^ 64) :
    IsRated candidate (options.normalize needle) options (score candidate needle options) := by
  rw [score_eq_rateBytes]
  refine rateBytes_isRated _ (normalize_ne_nil options hne) ?_ hlt
  rw [Bool.eq_false_iff]
  intro hexact
  have hlen' := isExact_length hexact
  rw [length_normalize] at hlen'
  exact hlen hlen'

theorem score_nil (candidate : Bytes) (options : ScoreOptions) : score candidate [] options
    = if options.dotPolicy.conceals && hasHiddenComponent candidate then Score.concealed
      else Score.perfect := by
  have hnil : options.normalize [] = [] := List.length_eq_zero_iff.mp (length_normalize options [])
  rw [score_eq_rateBytes, hnil, rateBytes, if_pos List.isEmpty_nil]

end FuzzyFinder
