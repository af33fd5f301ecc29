import FuzzyFinder.Proofs.Score.Bounds
import FuzzyFinder.Proofs.Score.Contribution

/-!
# FuzzyFinder — the search finds the best chain

The value of a chain is the sum of its contributions, added up from its end (`Search.total`). A
cell of a row is right when it holds the best value of the chains that continue from it, or
`Score.unreachable` if there are none (`Search.IsBest`). Given a right row, a scan finds the best
chain (`Search.Prepared.scan_isBest`): it keeps the best of the chains whose first position it has
passed. A level fills its row with scans, so it hands a right row down (`Search.RowRight`), and the
last scan answers for the whole needle (`Search.Prepared.best_isBest`).

Cells outside the bounds, or at positions where the byte does not fit, keep what an earlier level
has left there; rightness says nothing about them, and no scan reads them.
-/

namespace FuzzyFinder

namespace Search

open Score (IsPart IsSum)

variable {candidate needle : Bytes} {options : ScoreOptions} {s : Search}

/-! ## The best of a family of chains -/

/-- The value of a chain whose first byte follows one at `previous`. -/
def total (s : Search) : (previous : Option Nat) → List Nat → Score
  | _, [] => 0
  | previous, j :: js => s.contribution j previous + total s (some j) js

/-- Searches that weigh positions alike value chains alike. -/
theorem total_congr {t : Search}
    (h : ∀ j previous, s.contribution j previous = t.contribution j previous)
    (previous : Option Nat) (js : List Nat) : s.total previous js = t.total previous js := by
  induction js generalizing previous with
  | nil => rfl
  | cons j js ih => rw [total, total, h, ih]

/-- `IsBest P value v` says that `v` is the greatest value of the chains in `P`, or that there are
none and `v` says so. -/
inductive IsBest (P : List Nat → Prop) (value : List Nat → Score) : Score → Prop
  | missing (hnone : ∀ js, ¬ P js) : IsBest P value Score.unreachable
  | attained (js : List Nat) (hjs : P js) (hbest : ∀ js', P js' → value js' ≤ value js) :
    IsBest P value (value js)

variable {P Q : List Nat → Prop} {value : List Nat → Score} {v w : Score}

theorem IsBest.congr (h : ∀ js, P js ↔ Q js) (hv : IsBest P value v) : IsBest Q value v := by
  obtain rfl : P = Q := funext fun js => propext (h js)
  exact hv

/-- The better of two best values is the best value of both families. -/
theorem IsBest.improve (hsum : ∀ js, P js ∨ Q js → IsSum (value js)) (hv : IsBest P value v)
    (hw : IsBest Q value w) : IsBest (fun js => P js ∨ Q js) value (if v < w then w else v) := by
  cases hv with
  | missing hp =>
    cases hw with
    | missing hq =>
      rw [if_neg Score.not_unreachable_lt_unreachable]
      exact .missing fun js h => h.elim (hp js) (hq js)
    | attained js hjs hbest =>
      rw [if_pos (Score.unreachable_lt (hsum js (.inr hjs)).plain)]
      exact .attained js (.inr hjs) fun js' h => hbest js' (h.resolve_left (hp js'))
  | attained js hjs hbest =>
    have hplain := (hsum js (.inl hjs)).plain
    cases hw with
    | missing hq =>
      rw [if_neg (Score.not_lt_unreachable hplain)]
      exact .attained js (.inl hjs) fun js' h => hbest js' (h.resolve_right (hq js'))
    | attained js₂ hjs₂ hbest₂ =>
      have hplain₂ := (hsum js₂ (.inr hjs₂)).plain
      split
      · rename_i hlt
        refine .attained js₂ (.inr hjs₂) fun js' h => ?_
        rcases h with h | h
        · have hplain' := (hsum js' (.inl h)).plain
          exact hplain'.le_trans hplain hplain₂ (hbest js' h) (hplain.le_of_lt hplain₂ hlt)
        · exact hbest₂ js' h
      · rename_i hnlt
        refine .attained js (.inl hjs) fun js' h => ?_
        rcases h with h | h
        · exact hbest js' h
        · have hplain' := (hsum js' (.inr h)).plain
          exact hplain'.le_trans hplain₂ hplain (hbest₂ js' h) (hplain.le_of_not_lt hplain₂ hnlt)

/-- The best chain through a position continues with the best chain behind it. -/
theorem IsBest.cons {j : Nat} {previous : Option Nat}
    (ha : IsPart (s.contribution j previous)) (hsum : ∀ js, P js → IsSum (s.total (some j) js))
    (hv : IsBest P (s.total (some j)) v) :
    IsBest (fun js => ∃ js', js = j :: js' ∧ P js') (s.total previous)
      (s.contribution j previous + v) := by
  cases hv with
  | missing hnone =>
    rw [Score.add_unreachable ha.plain]
    refine .missing ?_
    rintro _ ⟨js, rfl, hjs⟩
    exact hnone js hjs
  | attained js hjs hbest =>
    show IsBest _ _ (s.total previous (j :: js))
    refine .attained (j :: js) ⟨js, rfl, hjs⟩ ?_
    rintro _ ⟨js', rfl, hjs'⟩
    exact ha.add_mono (hsum js' hjs') (hsum js hjs) (hbest js' hjs')

/-! ## What a search is given -/

/-- The search looks for `needle` in `candidate`, and its bounds lose no chain. -/
structure Prepared (s : Search) (candidate needle : Bytes) (options : ScoreOptions) : Prop where
  size_eq : s.needle.size = needle.length
  needle_ne : needle ≠ []
  recurse_eq : s.options.recurse = options.recurse
  fits_eq : ∀ i j, s.fits i j
    = Byte.agrees options.caseSensitive (candidate.getD j 0) (needle.getD i 0)
  blocked_iff : ∀ i j, s.blocked i j = true ↔ Blocked candidate options (needle.getD i 0) j
  length_lt : candidate.length < 2 ^ 64
  moderate : s.Moderate
  first_le : ∀ i j, i < needle.length → j < candidate.length → s.fits i j = true →
    (i = 0 ∨ s.first (i - 1) < j) → s.first i ≤ j
  last_lt : ∀ i < needle.length, s.last i < candidate.length
  last_le_top : ∀ i < needle.length, s.last i ≤ s.last (needle.length - 1)
  le_last : ∀ i js start, i < needle.length → Chain candidate options start (needle.drop i) js →
    js.headD 0 ≤ s.last i

theorem drop_eq_cons {i : Nat} (hi : i < needle.length) :
    needle.drop i = needle.getD i 0 :: needle.drop (i + 1) := by
  rw [List.getD_eq_getElem _ _ hi]
  exact List.drop_eq_getElem_cons hi

namespace Prepared

theorem contribution_isPart (h : s.Prepared candidate needle options) {j : Nat}
    (hj : j < candidate.length) (previous : Option Nat) : IsPart (s.contribution j previous) :=
  Search.contribution_isPart h.moderate (hj.trans h.length_lt) previous

/-- The value of a chain is within the range of sums. -/
theorem total_isSum (h : s.Prepared candidate needle options) {suffix : Bytes} {start : Nat}
    {js : List Nat} (hchain : Chain candidate options start suffix js) (previous : Option Nat) :
    IsSum (s.total previous js) := by
  induction suffix generalizing start js previous with
  | nil =>
    rw [chain_nil_iff] at hchain
    rw [hchain]
    exact Score.isSum_zero
  | cons n later ih =>
    obtain ⟨j, js', rfl, hreach, hchain'⟩ := (chain_cons_iff ..).mp hchain
    exact (h.contribution_isPart hreach.lt previous).add_isSum (ih hchain' (some j))

/-- The value of a chain is positive, as its first contribution is. -/
theorem total_pos (h : s.Prepared candidate needle options) {n : UInt8} {later : Bytes}
    {start : Nat} {js : List Nat} (hchain : Chain candidate options start (n :: later) js)
    (previous : Option Nat) : 0 < (s.total previous js).value := by
  obtain ⟨j, js', rfl, hreach, hchain'⟩ := (chain_cons_iff ..).mp hchain
  have ha := h.contribution_isPart hreach.lt previous
  exact lt_of_lt_of_le ha.pos (ha.le_add (h.total_isSum hchain' (some j)))

end Prepared

/-! ## Scans -/

/-- A chain whose first position lies before `k`. -/
def Begun (candidate : Bytes) (options : ScoreOptions) (start : Nat) (suffix : Bytes) (k : Nat)
    (js : List Nat) : Prop :=
  Chain candidate options start suffix js ∧ js.headD 0 < k

theorem not_begun_start {start : Nat} {n : UInt8} {later : Bytes} (js : List Nat) :
    ¬ Begun candidate options start (n :: later) start js := by
  rintro ⟨hchain, hlt⟩
  obtain ⟨j, js', rfl, hreach, -⟩ := (chain_cons_iff ..).mp hchain
  have := hreach.start_le
  rw [List.headD_cons] at hlt
  omega

/-- When no position from `k` on is reached, nothing begins there. -/
theorem begun_iff_of_not_reaches {start k k' : Nat} {n : UInt8} {later : Bytes} (hk : k ≤ k')
    (hstop : ∀ j, k ≤ j → j < k' → ¬ Reaches candidate options n start j) (js : List Nat) :
    Begun candidate options start (n :: later) k js
      ↔ Begun candidate options start (n :: later) k' js := by
  constructor
  · rintro ⟨hchain, hlt⟩
    exact ⟨hchain, by omega⟩
  · rintro ⟨hchain, hlt⟩
    refine ⟨hchain, ?_⟩
    obtain ⟨j, js', rfl, hreach, -⟩ := (chain_cons_iff ..).mp hchain
    rw [List.headD_cons] at hlt ⊢
    by_contra hge
    exact hstop j (by omega) hlt hreach

/-- One position more adds the chains that begin there. -/
theorem begun_succ_iff {start k : Nat} {n : UInt8} {later : Bytes}
    (hreach : Reaches candidate options n start k) (js : List Nat) :
    Begun candidate options start (n :: later) (k + 1) js
      ↔ Begun candidate options start (n :: later) k js
        ∨ ∃ js', js = k :: js' ∧ Chain candidate options (k + 1) later js' := by
  constructor
  · rintro ⟨hchain, hlt⟩
    obtain ⟨j, js', rfl, -, hchain'⟩ := (chain_cons_iff ..).mp hchain
    rw [List.headD_cons] at hlt
    rcases Nat.lt_succ_iff_lt_or_eq.mp hlt with hlt | rfl
    · exact .inl ⟨hchain, hlt⟩
    · exact .inr ⟨js', rfl, hchain'⟩
  · rintro (⟨hchain, hlt⟩ | ⟨js', rfl, hchain⟩)
    · exact ⟨hchain, by omega⟩
    · exact ⟨(chain_cons_iff ..).mpr ⟨k, js', rfl, hreach, hchain⟩, by simp⟩

/-- The cells of the row that a scan for the `i`-th byte may read are right. -/
def RowRight (s : Search) (candidate needle : Bytes) (options : ScoreOptions) (i : Nat)
    (row : Row) : Prop :=
  ∀ j, s.first i ≤ j → j ≤ s.last i → s.fits i j = true →
    IsBest (Chain candidate options (j + 1) (needle.drop (i + 1))) (s.total (some j))
      (row.getD j Score.unreachable)

/-- A scan for the `i`-th byte has come from `start` to `j`: nothing on the way was blocked, nor
did anything fit if the first fit is to be taken, and `best` is the best of the chains whose first
position it has passed. -/
structure Scanned (s : Search) (candidate needle : Bytes) (options : ScoreOptions) (i start : Nat)
    (previous : Option Nat) (j : Nat) (best : Score) : Prop where
  start_le : start ≤ j
  clear : ∀ q, start ≤ q → q < j → ¬ Blocked candidate options (needle.getD i 0) q
  unfit : options.recurse = false → ∀ q, start ≤ q → q < j → s.fits i q = false
  isBest : IsBest (Begun candidate options start (needle.drop i) j) (s.total previous) best

namespace Prepared

variable {i start j : Nat} {previous : Option Nat} {best cell : Score} {rest : Row}

theorem scanned_start (hi : i < needle.length) (previous : Option Nat) :
    s.Scanned candidate needle options i start previous start Score.unreachable where
  start_le := Nat.le_refl start
  clear q hq hqj := by omega
  unfit _ q hq hqj := by omega
  isBest := .missing (by rw [drop_eq_cons hi]; exact not_begun_start)

/-- Nothing behind a blocked position is reached. -/
theorem isBest_of_blocked (h : s.Prepared candidate needle options) (hi : i < needle.length)
    (hs : s.Scanned candidate needle options i start previous j best)
    (hblocked : s.blocked i j = true) {k : Nat} (hk : j ≤ k) :
    IsBest (Begun candidate options start (needle.drop i) k) (s.total previous) best := by
  have hbest := hs.isBest
  rw [drop_eq_cons hi] at hbest ⊢
  refine hbest.congr (begun_iff_of_not_reaches hk ?_)
  intro q hq _ hreach
  exact hreach.clear j hs.start_le hq ((h.blocked_iff i j).mp hblocked)

theorem clear_succ (h : s.Prepared candidate needle options)
    (hs : s.Scanned candidate needle options i start previous j best)
    (hblocked : ¬ s.blocked i j = true) :
    ∀ q, start ≤ q → q < j + 1 → ¬ Blocked candidate options (needle.getD i 0) q := by
  intro q hq hqj
  rcases Nat.lt_succ_iff_lt_or_eq.mp hqj with hqj | rfl
  · exact hs.clear q hq hqj
  · exact fun hb => hblocked ((h.blocked_iff i q).mpr hb)

/-- A position that neither is blocked nor fits is passed over. -/
theorem scanned_skip (h : s.Prepared candidate needle options) (hi : i < needle.length)
    (hs : s.Scanned candidate needle options i start previous j best)
    (hblocked : ¬ s.blocked i j = true) (hfits : ¬ s.fits i j = true) :
    s.Scanned candidate needle options i start previous (j + 1) best := by
  refine ⟨Nat.le_succ_of_le hs.start_le, h.clear_succ hs hblocked, ?_, ?_⟩
  · intro hr q hq hqj
    rcases Nat.lt_succ_iff_lt_or_eq.mp hqj with hqj | rfl
    · exact hs.unfit hr q hq hqj
    · exact (Bool.not_eq_true _).mp hfits
  · have hbest := hs.isBest
    rw [drop_eq_cons hi] at hbest ⊢
    refine hbest.congr (begun_iff_of_not_reaches (Nat.le_succ j) ?_)
    intro q hq hqj hreach
    obtain rfl : q = j := by omega
    exact hfits (by rw [h.fits_eq]; exact hreach.fits)

theorem reaches_of_fits (h : s.Prepared candidate needle options)
    (hs : s.Scanned candidate needle options i start previous j best)
    (hblocked : ¬ s.blocked i j = true) (hfits : s.fits i j = true) (hlt : j < candidate.length) :
    Reaches candidate options (needle.getD i 0) start j := by
  refine ⟨hs.start_le, hlt, by rw [← h.fits_eq]; exact hfits, ?_, ?_⟩
  · exact fun q hq hqj => h.clear_succ hs hblocked q hq (Nat.lt_succ_of_le hqj)
  · intro hr q hq hqj
    rw [← h.fits_eq]
    exact hs.unfit hr q hq hqj

/-- The chains that begin at a position reached join those that have begun before. -/
theorem isBest_take (h : s.Prepared candidate needle options) (hi : i < needle.length)
    (hs : s.Scanned candidate needle options i start previous j best)
    (hreach : Reaches candidate options (needle.getD i 0) start j)
    (hcell : IsBest (Chain candidate options (j + 1) (needle.drop (i + 1))) (s.total (some j)) cell) :
    IsBest (Begun candidate options start (needle.drop i) (j + 1)) (s.total previous)
      (if best < s.contribution j previous + cell then s.contribution j previous + cell
        else best) := by
  have hbest := hs.isBest
  rw [drop_eq_cons hi] at hbest ⊢
  have hthrough := IsBest.cons (h.contribution_isPart hreach.lt previous)
    (fun js hjs => h.total_isSum hjs (some j)) hcell
  refine (hbest.improve (fun js hjs => ?_) hthrough).congr fun js => (begun_succ_iff hreach js).symm
  exact h.total_isSum ((begun_succ_iff hreach js).mpr hjs).1 previous

/-- **A scan keeps the best of the chains whose first position it has passed.** The induction is
on the positions still to be looked at; each of them is blocked, fits, or is passed over. -/
theorem scan_isBest (h : s.Prepared candidate needle options) (hi : i < needle.length)
    (hrow : RowRight s candidate needle options i rest)
    (hfirst : ∀ j, start ≤ j → j < candidate.length → s.fits i j = true → s.first i ≤ j)
    (count : Nat) (hlast : count = 0 ∨ j + count ≤ s.last i + 1)
    (hs : s.Scanned candidate needle options i start previous j best) :
    IsBest (Begun candidate options start (needle.drop i) (j + count)) (s.total previous)
      (s.scan i previous rest count j best) := by
  induction count generalizing j best with
  | zero => exact hs.isBest
  | succ count ih =>
    have hlt := h.last_lt i hi
    rw [scan]
    by_cases hblocked : s.blocked i j = true
    · rw [if_pos hblocked]
      exact h.isBest_of_blocked hi hs hblocked (by omega)
    rw [if_neg hblocked]
    by_cases hfits : s.fits i j = true
    · have hreach := h.reaches_of_fits hs hblocked hfits (by omega)
      have hcell := hrow j (hfirst j hs.start_le (by omega) hfits) (by omega) hfits
      have htake := h.isBest_take hi hs hreach hcell
      rw [if_pos hfits]
      dsimp only
      rw [h.recurse_eq]
      by_cases hr : options.recurse = true
      · rw [if_pos hr, show j + (count + 1) = j + 1 + count from by omega]
        refine ih (by omega) ⟨Nat.le_succ_of_le hs.start_le, h.clear_succ hs hblocked, ?_, htake⟩
        intro hr'
        rw [hr] at hr'
        exact absurd hr' (by decide)
      · -- a chain that begins later would have passed over `j`
        rw [if_neg hr]
        rw [drop_eq_cons hi] at htake ⊢
        refine htake.congr (begun_iff_of_not_reaches (by omega) ?_)
        intro q hq _ hreach'
        have hunfit := hreach'.first ((Bool.not_eq_true _).mp hr) j hs.start_le (by omega)
        rw [← h.fits_eq, hfits] at hunfit
        exact absurd hunfit (by decide)
    · rw [if_neg hfits, show j + (count + 1) = j + 1 + count from by omega]
      exact ih (by omega) (h.scanned_skip hi hs hblocked hfits)

/-- A whole scan finds the best chain for the needle from the `i`-th byte on. -/
theorem bestFrom_isBest (h : s.Prepared candidate needle options) (hi : i < needle.length)
    (hrow : RowRight s candidate needle options i rest)
    (hfirst : ∀ j, start ≤ j → j < candidate.length → s.fits i j = true → s.first i ≤ j)
    (previous : Option Nat) :
    IsBest (Chain candidate options start (needle.drop i)) (s.total previous)
      (s.bestFrom i start previous rest) := by
  have hbest := h.scan_isBest hi hrow hfirst (s.last i + 1 - start) (by omega)
    (scanned_start hi previous)
  refine hbest.congr fun js => ?_
  constructor
  · exact fun hjs => hjs.1
  · intro hjs
    have := h.le_last i js start hi hjs
    exact ⟨hjs, by omega⟩

end Prepared

/-! ## Rows -/

@[simp] theorem size_fillRow (s : Search) (i : Nat) (rest : Row) (count j : Nat) (next : Row) :
    (s.fillRow i rest count j next).size = next.size := by
  induction count generalizing j next with
  | zero => rfl
  | succ count ih =>
    rw [fillRow, ih]
    split <;> simp

/-- What a loop has ahead of it, the position it is at apart, it has ahead one step later. -/
theorem ahead_iff {count j q : Nat} {p : Prop} (hq : j ≠ q) :
    (j + 1 ≤ q ∧ q < j + 1 + count ∧ p) ↔ (j ≤ q ∧ q < j + (count + 1) ∧ p) := by
  constructor
  · rintro ⟨hle, hlt, hp⟩
    exact ⟨by omega, by omega, hp⟩
  · rintro ⟨hle, hlt, hp⟩
    exact ⟨by omega, by omega, hp⟩

/-- A level sets the cells of its range at which its byte fits, and leaves the others alone. -/
theorem getD_fillRow (s : Search) (i : Nat) (rest : Row) (count j : Nat) (next : Row) (q : Nat) :
    (s.fillRow i rest count j next).getD q Score.unreachable
      = if j ≤ q ∧ q < j + count ∧ s.fits i q = true ∧ q < next.size then
          s.bestFrom (i + 1) (q + 1) (some q) rest
        else next.getD q Score.unreachable := by
  induction count generalizing j next with
  | zero =>
    rw [fillRow, if_neg (by omega)]
  | succ count ih =>
    rw [fillRow, ih]
    by_cases hq : q = j
    · -- the rest of the range lies behind `q`, so the cell stays as it is set here
      subst hq
      rw [if_neg (by omega)]
      by_cases hfits : s.fits i q = true
      · by_cases hsize : q < next.size
        · rw [if_pos hfits, if_pos ⟨by omega, by omega, hfits, hsize⟩]
          simp [Array.getD_eq_getD_getElem?, hsize]
        · rw [if_pos hfits, if_neg (by omega)]
          simp [Array.getD_eq_getD_getElem?, hsize]
      · rw [if_neg hfits, if_neg (fun hall => hfits hall.2.2.1)]
    · have hsame : (if s.fits i j = true then
            next.setIfInBounds j (s.bestFrom (i + 1) (j + 1) (some j) rest) else next).getD q
              Score.unreachable = next.getD q Score.unreachable := by
        split
        · simp [Array.getD_eq_getD_getElem?, Ne.symm hq]
        · rfl
      have hsize : (if s.fits i j = true then
            next.setIfInBounds j (s.bestFrom (i + 1) (j + 1) (some j) rest) else next).size
              = next.size := by
        split <;> simp
      rw [hsame, hsize]
      exact if_congr (ahead_iff (Ne.symm hq)) rfl rfl

namespace Prepared

/-- **A level hands a right row down**, whatever the other row held before. -/
theorem fillRow_right (h : s.Prepared candidate needle options) {i : Nat} {rest next : Row}
    (hi : i + 1 < needle.length) (hrow : RowRight s candidate needle options (i + 1) rest)
    (hwidth : next.size = s.last (needle.length - 1) + 1) :
    RowRight s candidate needle options i
      (s.fillRow i rest (s.last i + 1 - s.first i) (s.first i) next) := by
  intro j hfirst hlast hfits
  have htop := h.last_le_top i (by omega)
  rw [getD_fillRow, if_pos ⟨hfirst, by omega, hfits, by omega⟩]
  refine h.bestFrom_isBest hi hrow ?_ (some j)
  intro q hq hlt hfits'
  exact h.first_le (i + 1) q hi hlt hfits' (.inr (by rw [Nat.add_sub_cancel]; omega))

theorem levels_right (h : s.Prepared candidate needle options) {i : Nat} {rest next : Row}
    (hi : i < needle.length) (hrow : RowRight s candidate needle options i rest)
    (hrest : rest.size = s.last (needle.length - 1) + 1)
    (hnext : next.size = s.last (needle.length - 1) + 1) :
    RowRight s candidate needle options 0 (s.levels i rest next) := by
  induction i generalizing rest next with
  | zero => exact hrow
  | succ i ih =>
    rw [levels]
    -- the row just read is filled next, whatever it still holds
    exact ih (by omega) (h.fillRow_right hi hrow hnext) (by rw [size_fillRow]; exact hnext) hrest

/-- **The search finds the best chain.** -/
theorem best_isBest (h : s.Prepared candidate needle options) :
    IsBest (Chain candidate options 0 needle) (s.total none) s.best := by
  have hpos := List.length_pos_iff.mpr h.needle_ne
  unfold best
  dsimp only
  rw [h.size_eq]
  -- behind the last byte nothing is left to place
  have hlastRow : RowRight s candidate needle options (needle.length - 1)
      (.replicate (s.last (needle.length - 1) + 1) 0) := by
    intro j _ hlast _
    have hcell : (Array.replicate (s.last (needle.length - 1) + 1) (0 : Score)).getD j
        Score.unreachable = s.total (some j) [] := by
      simp [Array.getD_eq_getD_getElem?, show j < s.last (needle.length - 1) + 1 by omega, total]
    rw [hcell, show needle.length - 1 + 1 = needle.length from by omega, List.drop_length]
    refine .attained [] (by simp) ?_
    intro js hjs
    rw [chain_nil_iff] at hjs
    rw [hjs]
    exact (Score.le_iff Score.zero_plain Score.zero_plain).mpr (le_refl _)
  have hwidth : (Array.replicate (s.last (needle.length - 1) + 1) Score.unreachable).size
      = s.last (needle.length - 1) + 1 := Array.size_replicate
  have hrow := h.levels_right (by omega) hlastRow Array.size_replicate hwidth
  have hfirst : ∀ j, 0 ≤ j → j < candidate.length → s.fits 0 j = true → s.first 0 ≤ j :=
    fun j _ hlt hfits => h.first_le 0 j hpos hlt hfits (.inl rfl)
  have hbest := h.bestFrom_isBest hpos hrow hfirst none
  simpa using hbest

end Prepared

end Search

end FuzzyFinder
