import FuzzyFinder.Proofs.Score.Range
import FuzzyFinder.Proofs.Session.Incremental

/-!
# FuzzyFinder — exact matches and the rest

A perfect score is meant for exact matches. `StaysInRange` says of the needles of one length that
their scores lie between a miss and a perfect score, that only exact matches are perfect, and that a
run therefore returns exact matches before all others. It depends on a single sum: it holds exactly
when full marks for a candidate one byte longer than the needle are less than perfect
(`staysInRange_iff`). They are for needles of up to four thousand bytes; for longer ones rounding may
lift them past one, and then an exact match is no longer the best.

Whatever a session has forgotten or kept, the scores of its hits are those of its last needle:
letters are cached truthfully (`Session.Informed`), and what is left alone is a miss.
-/

namespace FuzzyFinder

open Score (Plain value)

namespace Session

variable {s : Session}

/-! ## Scores of hits -/

/-- What is cached about letters is the truth, and candidates fit a machine word. -/
structure Informed (s : Session) : Prop where
  short : ∀ h ∈ s.haystacks, h.candidate.length < 2 ^ 64
  knows : ∀ h ∈ s.haystacks, Knows h.candidate h.letters

theorem initial_informed {corpus : Corpus} (options : SearchOptions)
    (hshort : ∀ candidate ∈ corpus.toList, candidate.length < 2 ^ 64) :
    Informed (initial corpus options) :=
  ⟨(initial_coherent options hshort).short, (initial_coherent options hshort).knows⟩

theorem Informed.refreshed (hs : Informed s) (query : Bytes) :
    ∀ h ∈ s.refreshed (s.options.needle query), h.candidate.length < 2 ^ 64
      ∧ Knows h.candidate h.letters
      ∧ (h.isCachedMiss = true
        ∨ h.score = some (s.options.scoreOf (s.options.needle query) h.candidate)) := by
  intro h hh
  obtain ⟨h₀, hh₀, rfl⟩ := List.mem_map.mp hh
  have hshort := hs.short h₀ hh₀
  have hknows := hs.knows h₀ hh₀
  split
  · rename_i hskip
    exact ⟨hshort, hknows, .inl (Bool.and_eq_true_iff.mp hskip).2⟩
  · obtain ⟨hscore, hknows'⟩ := refresh_spec hknows s.options query
    exact ⟨hshort, hknows', .inr hscore⟩

theorem Informed.run (hs : Informed s) (query : Bytes) : Informed (s.run query).2 :=
  ⟨fun h hh => (hs.refreshed query h hh).1, fun h hh => (hs.refreshed query h hh).2.1⟩

theorem Informed.after (hs : Informed s) (history : List Bytes) : Informed (s.after history) :=
  after_induction hs (fun _ query ht => ht.run query) history

/-- A cached miss is not taken for a hit. -/
theorem hit?_of_isCachedMiss {h : Haystack} (hmiss : h.isCachedMiss = true) : h.hit? = none := by
  obtain ⟨score, hscore, hbeq⟩ := (Option.any_eq_true _ _).mp hmiss
  rw [Haystack.hit?, hscore]
  dsimp only
  rw [Score.isMatch_eq_false_of_beq_miss hbeq, if_neg Bool.false_ne_true]

/-- **The score of a hit is the score of its candidate**, whatever has been skipped. -/
theorem Informed.score_of_hit (hs : Informed s) (query : Bytes) {hit : Hit}
    (hhit : hit ∈ (s.run query).2.haystacks.filterMap Haystack.hit?) :
    hit.candidate.length < 2 ^ 64
      ∧ hit.score = s.options.scoreOf (s.options.needle query) hit.candidate := by
  obtain ⟨h, hh, hsome⟩ := List.mem_filterMap.mp hhit
  obtain ⟨hshort, -, hscore⟩ := hs.refreshed query h hh
  rcases hscore with hmiss | hscore
  · rw [hit?_of_isCachedMiss hmiss] at hsome
    exact absurd hsome (by simp)
  · rw [Haystack.hit?, hscore] at hsome
    dsimp only at hsome
    split at hsome
    · obtain rfl := Option.some_inj.mp hsome
      exact ⟨hshort, rfl⟩
    · exact absurd hsome (by simp)

/-! ## Exact matches come first -/

variable {query : Bytes} {hit : Hit}

/-- The candidate matches the query exactly. -/
def IsExactFor (options : SearchOptions) (query candidate : Bytes) : Prop :=
  IsExactMatch (options.scoreOptions (options.needle query).caseSensitive).caseSensitive candidate
    (options.needle query).bytes

theorem Informed.plain_of_hit (hs : Informed s) (hne : (s.options.needle query).bytes ≠ [])
    (hhit : hit ∈ (s.run query).2.haystacks.filterMap Haystack.hit?) : Plain hit.score := by
  obtain ⟨hshort, hscore⟩ := hs.score_of_hit query hhit
  rw [hscore]
  exact score_plain hne hshort

theorem Informed.score_of_exact_hit (hs : Informed s)
    (hne : (s.options.needle query).bytes ≠ [])
    (hhit : hit ∈ (s.run query).2.haystacks.filterMap Haystack.hit?)
    (hexact : IsExactFor s.options query hit.candidate) : hit.score = Score.perfect := by
  have hmatch := isMatch_of_mem_hits hhit
  rw [(hs.score_of_hit query hhit).2] at hmatch ⊢
  rcases score_of_exact hne hexact with hmiss | hperfect
  · -- an exact match that is never shown is no hit
    rw [SearchOptions.scoreOf, hmiss] at hmatch
    exact absurd hmatch (by decide)
  · exact hperfect

theorem Informed.value_of_other_hit (hs : Informed s)
    (hne : (s.options.needle query).bytes ≠ [])
    (hhit : hit ∈ (s.run query).2.haystacks.filterMap Haystack.hit?)
    (hnot : ¬ IsExactFor s.options query hit.candidate) :
    value hit.score ≤ value (Score.fullMarks (s.options.needle query).length
      ((s.options.needle query).length + 1)) := by
  obtain ⟨hshort, hscore⟩ := hs.score_of_hit query hhit
  rw [hscore]
  exact (score_of_not_exact hne hshort hnot).2

/-- Exact matches score higher than all other hits of the run, and are returned before them. -/
structure ExactFirst (s : Session) (query : Bytes) : Prop where
  scores : ∀ a ∈ (s.run query).2.haystacks.filterMap Haystack.hit?,
    ∀ b ∈ (s.run query).2.haystacks.filterMap Haystack.hit?,
      IsExactFor s.options query a.candidate → ¬ IsExactFor s.options query b.candidate →
        b.score < a.score
  results : (s.run query).1.results.Pairwise fun a b =>
    IsExactFor s.options query b → IsExactFor s.options query a

/-- **While full marks are less than perfect, exact matches come first.** -/
theorem Informed.exactFirst (hs : Informed s) (hlimit : 1 ≤ s.options.limit)
    (hmarks : value (Score.fullMarks (s.options.needle query).length
      ((s.options.needle query).length + 1)) < 1)
    (hne : (s.options.needle query).bytes ≠ [])
    (hdot : (s.options.needle query).bytes ≠ [Byte.dot]) : ExactFirst s query := by
  have hscores : ∀ a ∈ (s.run query).2.haystacks.filterMap Haystack.hit?,
      ∀ b ∈ (s.run query).2.haystacks.filterMap Haystack.hit?,
        IsExactFor s.options query a.candidate → ¬ IsExactFor s.options query b.candidate →
          b.score < a.score := by
    intro a ha b hb hexact hnot
    rw [Score.lt_iff (hs.plain_of_hit hne hb) (hs.plain_of_hit hne ha),
      hs.score_of_exact_hit hne ha hexact, Score.perfect_spec.2]
    exact lt_of_le_of_lt (hs.value_of_other_hit hne hb hnot) hmarks
  refine ⟨hscores, ?_⟩
  obtain ⟨ranked, hperm, hsorted, hresults⟩ := run_ranked hlimit query
  rw [hresults, List.pairwise_map]
  refine List.Pairwise.imp_of_mem (fun {a b} ha hb hab hexact => ?_)
    (hsorted.sublist (List.take_sublist _ _))
  have ha' := hperm.mem_iff.mp (List.mem_of_mem_take ha)
  have hb' := hperm.mem_iff.mp (List.mem_of_mem_take hb)
  by_contra hnot
  -- then `b` should have been returned first
  have hlt := hscores b hb' a ha' hexact hnot
  have hnlt := (hs.plain_of_hit hne ha').not_lt_of_lt (hs.plain_of_hit hne hb') hlt
  rw [Needle.RanksNoLater, if_neg (not_or.mpr ⟨hne, hdot⟩)] at hab
  rcases hab with hgt | ⟨heq, -⟩
  · exact hnlt hgt
  · rw [heq] at hlt hnlt
    exact hnlt hlt

end Session

/-! ## When scores stay in range -/

/-- Scores for needles of `n` bytes lie between a miss and a perfect score, only exact matches are
perfect, and runs return them first. -/
structure StaysInRange (n : ℕ) : Prop where
  range : ∀ (candidate needle : Bytes) (options : ScoreOptions), needle.length = n →
    candidate.length < 2 ^ 64 →
      Score.miss ≤ score candidate needle options ∧ score candidate needle options ≤ Score.perfect
  perfect : ∀ (candidate needle : Bytes) (options : ScoreOptions), needle.length = n →
    candidate.length < 2 ^ 64 → score candidate needle options = Score.perfect →
      IsExactMatch options.caseSensitive candidate needle
  exactFirst : ∀ (corpus : Corpus) (options : SearchOptions) (s : Session),
    Session.start corpus options = .ok s →
    (∀ candidate ∈ corpus.toList, candidate.length < 2 ^ 64) →
    ∀ history query, (options.needle query).length = n →
      (options.needle query).bytes ≠ [Byte.dot] → (s.after history).ExactFirst query

theorem miss_le_score {candidate needle : Bytes} {options : ScoreOptions} (hne : needle ≠ [])
    (hlt : candidate.length < 2 ^ 64) : Score.miss ≤ score candidate needle options := by
  rw [Score.le_iff Score.miss_plain (score_plain hne hlt), Score.value_miss]
  exact Score.value_nonneg _

theorem ne_nil_of_length_eq {needle : Bytes} {n : ℕ} (hn : 1 ≤ n) (hlength : needle.length = n) :
    needle ≠ [] := by
  rw [← List.length_pos_iff]
  exact lt_of_lt_of_eq hn hlength.symm

theorem staysInRange_of_fullMarks {n : ℕ} (hn : 1 ≤ n)
    (hmarks : value (Score.fullMarks n (n + 1)) < 1) : StaysInRange n := by
  have hbelow : ∀ (candidate needle : Bytes) (options : ScoreOptions), needle.length = n →
      candidate.length < 2 ^ 64 → ¬ IsExactMatch options.caseSensitive candidate needle →
        value (score candidate needle options) < value Score.perfect := by
    intro candidate needle options hlength hlt hnot
    have hle := (score_of_not_exact (ne_nil_of_length_eq hn hlength) hlt hnot).2
    rw [hlength] at hle
    rw [Score.perfect_spec.2]
    exact lt_of_le_of_lt hle hmarks
  refine ⟨?_, ?_, ?_⟩
  · intro candidate needle options hlength hlt
    have hne := ne_nil_of_length_eq hn hlength
    refine ⟨miss_le_score hne hlt, ?_⟩
    rw [Score.le_iff (score_plain hne hlt) Score.perfect_spec.1]
    by_cases hexact : IsExactMatch options.caseSensitive candidate needle
    · rcases score_of_exact hne hexact with hscore | hscore
      · rw [hscore, Score.value_miss]
        exact Score.value_nonneg _
      · rw [hscore]
    · exact (hbelow candidate needle options hlength hlt hexact).le
  · intro candidate needle options hlength hlt hperfect
    by_contra hnot
    have hlt' := hbelow candidate needle options hlength hlt hnot
    rw [hperfect] at hlt'
    exact lt_irrefl _ hlt'
  · intro corpus options s hstart hshort history query hlength hdot
    obtain ⟨hlimit, -, rfl⟩ := Session.start_eq_ok_iff.mp hstart
    have hoptions := Session.after_options (Session.initial corpus options) history
    have hneedle : ((Session.initial corpus options).after history).options.needle query
        = options.needle query := by
      rw [hoptions]
      rfl
    refine ((Session.initial_informed options hshort).after history).exactFirst ?_ ?_ ?_ ?_
    · rw [hoptions]
      exact hlimit
    · rw [hneedle, hlength]
      exact hmarks
    · rw [hneedle]
      exact ne_nil_of_length_eq hn hlength
    · rw [hneedle]
      exact hdot

/-- A candidate that is longer by one byte earns full marks, and is no exact match. -/
theorem StaysInRange.value_fullMarks_lt {n : ℕ} (h : StaysInRange n) (hn : 1 ≤ n)
    (hmax : n + 1 < 2 ^ 64) : value (Score.fullMarks n (n + 1)) < 1 := by
  have hlt : (onlyAThenB n).length < 2 ^ 64 := by rw [length_onlyAThenB]; exact hmax
  have hplain : Plain (score (onlyAThenB n) (onlyA n) { caseSensitive := true }) :=
    score_plain (ne_nil_of_length_eq hn (length_onlyA n)) hlt
  have hearned := fullMarks_le_score hn hmax
  have hle := (h.range (onlyAThenB n) (onlyA n) { caseSensitive := true } (length_onlyA n) hlt).2
  rw [Score.le_iff hplain Score.perfect_spec.1] at hle
  rw [← Score.perfect_spec.2]
  refine lt_of_le_of_ne (hearned.trans hle) fun heq => ?_
  -- otherwise its score would be perfect
  have hvalue := le_antisymm hle (heq ▸ hearned)
  have hpos : 0 < value (score (onlyAThenB n) (onlyA n) { caseSensitive := true }) := by
    rw [hvalue, Score.perfect_spec.2]
    exact one_pos
  have hexact := h.perfect (onlyAThenB n) (onlyA n) { caseSensitive := true } (length_onlyA n) hlt
    (Score.eq_of_value_eq hplain Score.perfect_spec.1 hpos hvalue)
  have hlength := hexact.length_eq
  rw [length_onlyA, length_onlyAThenB] at hlength
  exact absurd hlength (Nat.succ_ne_self n)

/-- **Scores stay in range exactly as long as full marks are less than perfect.** They do for needles
of up to four thousand bytes. No score is ever less than a miss, and none but that of an exact match
is more than full marks. -/
theorem staysInRange_iff {n : ℕ} (hn : 1 ≤ n) (hmax : n + 1 < 2 ^ 64) :
    (StaysInRange n ↔ Score.fullMarks n (n + 1) < Score.perfect)
      ∧ (n ≤ 4000 → StaysInRange n)
      ∧ ∀ (candidate needle : Bytes) (options : ScoreOptions), needle.length = n →
        candidate.length < 2 ^ 64 → Score.miss ≤ score candidate needle options
          ∧ (¬ IsExactMatch options.caseSensitive candidate needle →
            score candidate needle options ≤ Score.fullMarks n (n + 1)) := by
  have hmarks := Score.fullMarks_plain (c := n + 1) hn (by omega) (by omega) hmax.le
  have hless : Score.fullMarks n (n + 1) < Score.perfect
      ↔ value (Score.fullMarks n (n + 1)) < 1 := by
    rw [Score.lt_iff hmarks Score.perfect_spec.1, Score.perfect_spec.2]
  refine ⟨⟨fun h => ?_, fun h => ?_⟩, fun hshort => ?_, ?_⟩
  · exact hless.mpr (h.value_fullMarks_lt hn hmax)
  · exact staysInRange_of_fullMarks hn (hless.mp h)
  · exact staysInRange_of_fullMarks hn (hless.mp (Score.fullMarks_lt_perfect hn hshort))
  · intro candidate needle options hlength hlt
    have hne := ne_nil_of_length_eq hn hlength
    refine ⟨miss_le_score hne hlt, fun hnot => ?_⟩
    obtain ⟨hplain, hle⟩ := score_of_not_exact hne hlt hnot
    rw [hlength] at hle
    exact (Score.le_iff hplain hmarks).mpr hle

/-- Scores stay in range for needles of three bytes, and no longer for needles of 5908. -/
theorem staysInRange_iff_of_long_needle : StaysInRange 3 ∧ ¬ StaysInRange 5908 := by
  obtain ⟨-, hshort, -⟩ := staysInRange_iff (n := 3) (by decide) (by decide)
  obtain ⟨hlong, -, -⟩ := staysInRange_iff (n := 5908) (by decide) (by decide)
  have hmarks := Score.fullMarks_plain (n := 5908) (c := 5909) (by decide) (by decide) (by decide)
    (by decide)
  refine ⟨hshort (by decide), fun h => ?_⟩
  exact Score.perfect_spec.1.not_lt_of_lt hmarks Score.perfect_lt_fullMarks (hlong.mp h)

end FuzzyFinder
