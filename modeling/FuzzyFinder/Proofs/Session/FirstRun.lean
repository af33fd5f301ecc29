import FuzzyFinder.Proofs.Session.Incremental

/-!
# FuzzyFinder — the first run of a session

Nothing is known yet when a session is run for the first time, so its hits are just the candidates
that score a match (`Session.mem_hits_initial_iff`), and a run returns nothing but candidates
(`Session.mem_corpus_of_mem_results`). The empty candidate is found whenever it is there and nothing
is searched for, since it comes first in dictionary order (`Session.nil_mem_results_iff`).
-/

namespace FuzzyFinder

namespace Session

variable {corpus : Corpus} {options : SearchOptions} {query : Bytes}

theorem initial_refreshed (needle : Needle) :
    (initial corpus options).refreshed needle = corpus.toList.map fun candidate =>
      ({ candidate } : Haystack).refresh needle (options.scoreOptions needle.caseSensitive) := by
  rw [refreshed, initial, List.map_map]
  rfl

/-- The hits of a first run are the candidates that score a match. -/
theorem mem_hits_initial_iff {hit : Hit} :
    hit ∈ ((initial corpus options).run query).2.haystacks.filterMap Haystack.hit?
      ↔ hit.candidate ∈ corpus.toList
        ∧ hit.score = options.scoreOf (options.needle query) hit.candidate
        ∧ hit.score.isMatch = true := by
  have hhit : ∀ candidate : Bytes,
      (({ candidate } : Haystack).refresh (options.needle query)
          (options.scoreOptions (options.needle query).caseSensitive)).hit?
        = if (options.scoreOf (options.needle query) candidate).isMatch then
            some ⟨options.scoreOf (options.needle query) candidate, candidate⟩ else none := by
    intro candidate
    rw [SearchOptions.scoreOf_eq_rateBytes]
    rfl
  rw [run_haystacks, show (initial corpus options).options.needle query = options.needle query from rfl,
    initial_refreshed, List.filterMap_map, List.mem_filterMap]
  constructor
  · rintro ⟨candidate, hmem, hsome⟩
    rw [Function.comp_apply, hhit] at hsome
    split at hsome
    · obtain rfl := Option.some_inj.mp hsome
      exact ⟨hmem, rfl, ‹_›⟩
    · exact absurd hsome nofun
  · rintro ⟨hmem, hscore, hmatch⟩
    refine ⟨hit.candidate, hmem, ?_⟩
    rw [Function.comp_apply, hhit, ← hscore, if_pos hmatch]

theorem mem_corpus_of_mem_results (hlimit : 1 ≤ options.limit) {candidate : Bytes}
    (h : candidate ∈ ((initial corpus options).run query).1.results) :
    candidate ∈ corpus.toList := by
  obtain ⟨ranked, hperm, -, hresults⟩ := run_ranked (s := initial corpus options) hlimit query
  rw [hresults] at h
  obtain ⟨hit, hhit, rfl⟩ := List.mem_map.mp h
  exact (mem_hits_initial_iff.mp (hperm.mem_iff.mp (List.mem_of_mem_take hhit))).1

/-! ## The empty candidate -/

/-- The empty candidate scores a match just when nothing is searched for. -/
theorem scoreOf_nil_isMatch_iff :
    (options.scoreOf (options.needle query) []).isMatch = true ↔ (options.needle query).bytes = [] := by
  rw [SearchOptions.scoreOf_eq_rateBytes]
  by_cases hempty : (options.needle query).bytes = []
  · have hperfect : Score.isMatch Score.perfect = true := by decide
    have hhidden : hasHiddenComponent [] = false := rfl
    rw [hempty, rateBytes, if_pos List.isEmpty_nil, hhidden, Bool.and_false]
    exact iff_of_true hperfect rfl
  · -- there is no room in it for a needle
    refine iff_of_false (fun hmatch => ?_) hempty
    have hlt : ([] : Bytes).length < 2 ^ 64 := Nat.two_pow_pos 64
    obtain ⟨js, hchain⟩ := (rateBytes_isMatch_iff hlt hempty).mp hmatch
    have hlength := hchain.add_length_le
    exact hempty (List.length_eq_zero_iff.mp (by simpa using hlength))

/-- The empty candidate is returned when it is there and nothing is searched for: it comes first. -/
theorem nil_mem_results_iff (hlimit : 1 ≤ options.limit) :
    [] ∈ ((initial corpus options).run query).1.results
      ↔ (options.needle query).bytes = [] ∧ [] ∈ corpus.toList := by
  obtain ⟨ranked, hperm, hsorted, hresults⟩ := run_ranked (s := initial corpus options) hlimit query
  rw [hresults, List.mem_map]
  constructor
  · rintro ⟨hit, hhit, hnil⟩
    obtain ⟨hmem, hscore, hmatch⟩ :=
      mem_hits_initial_iff.mp (hperm.mem_iff.mp (List.mem_of_mem_take hhit))
    rw [hscore, hnil] at hmatch
    exact ⟨scoreOf_nil_isMatch_iff.mp hmatch, hnil ▸ hmem⟩
  · rintro ⟨hempty, hmem⟩
    have hhit : (⟨options.scoreOf (options.needle query) [], []⟩ : Hit) ∈ ranked :=
      hperm.mem_iff.mpr (mem_hits_initial_iff.mpr ⟨hmem, rfl, scoreOf_nil_isMatch_iff.mpr hempty⟩)
    rcases ranked with _ | ⟨first, rest⟩
    · exact absurd hhit List.not_mem_nil
    -- nothing ranks in front of the empty candidate but another empty one
    have hfirst : first.candidate = [] := by
      rcases List.mem_cons.mp hhit with rfl | hhit
      · rfl
      · have hle := (List.pairwise_cons.mp hsorted).1 _ hhit
        rw [Needle.RanksNoLater, if_pos (.inl hempty)] at hle
        cases hcandidate : first.candidate with
        | nil => rfl
        | cons b c => rw [hcandidate] at hle; exact hle.elim
    refine ⟨first, ?_, hfirst⟩
    obtain ⟨k, hk⟩ : ∃ k, options.limit = k + 1 := ⟨options.limit - 1, by omega⟩
    rw [show (initial corpus options).options.limit = options.limit from rfl, hk, List.take_succ_cons]
    exact List.mem_cons_self

end Session

end FuzzyFinder
