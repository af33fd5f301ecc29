import FuzzyFinder.Proofs.Deal
import FuzzyFinder.Proofs.Ranking
import FuzzyFinder.Proofs.Session.History

/-!
# FuzzyFinder — a run returns the best matches

However the candidates are dealt to workers, what a run returns are the first matches of the whole
corpus in the order of the ranking (`Session.select_ranked`). The number of workers and the order
of the corpus leave no trace, neither in what is returned nor in what is remembered.
-/

namespace FuzzyFinder

namespace Session

/-! ## One selection -/

theorem ranking_ne_gt_eq (needle : Needle) :
    (fun a b => needle.ranking a b != .gt) = NoLater needle.ranking := by
  funext a b
  rw [NoLater]
  cases needle.ranking a b <;> rfl

/-- Putting the last selection first only rearranges them. -/
theorem getLast?_append_dropLast_perm {α : Type} (ls : List (List α)) :
    (ls.getLast?.getD [] ++ ls.dropLast.flatten).Perm ls.flatten := by
  rcases List.eq_nil_or_concat ls with rfl | ⟨front, last, rfl⟩
  · simp
  · simp only [List.concat_eq_append, List.getLast?_concat, Option.getD_some, List.dropLast_concat,
      List.flatten_append, List.flatten_singleton]
    exact List.perm_append_comm

/-- **A selection is the beginning of all hits in order.** -/
theorem select_ranked {options : SearchOptions} (hlimit : 1 ≤ options.limit) (needle : Needle)
    (haystacks : List Haystack) :
    ∃ ranked : List Hit, ranked.Perm (haystacks.filterMap Haystack.hit?)
      ∧ (ranked.Pairwise fun a b => NoLater needle.ranking a b = true)
      ∧ select options needle haystacks = ranked.take options.limit := by
  let shares := Deal.shares (Deal.workers options.threads haystacks.length)
    (chunks Deal.chunkSize haystacks)
  let limit := max 1 (min options.limit haystacks.length)
  let selections := shares.map fun share =>
    Selection.best limit needle.ranking (share.filterMap Haystack.hit?)
  let merged := selections.getLast?.getD [] ++ selections.dropLast.flatten
  -- the selections of all workers cover the hits of the whole corpus
  have hworker : ∀ share, ∃ dropped,
      Covers needle.ranking limit share (Selection.best limit needle.ranking share) dropped :=
    Selection.best_covers (le_max_left _ _)
  obtain ⟨dropped, hcovers⟩ := covers_flatten (shares.map (List.filterMap Haystack.hit?)) hworker
  have hselections : (shares.map (List.filterMap Haystack.hit?)).map
      (Selection.best limit needle.ranking) = selections := List.map_map
  have hstream : (shares.map (List.filterMap Haystack.hit?)).flatten.Perm
      (haystacks.filterMap Haystack.hit?) := by
    rw [← List.filterMap_flatten]
    exact (Deal.shares_chunks_perm options.threads haystacks).filterMap _
  rw [hselections] at hcovers
  have hmerged : Covers needle.ranking limit (haystacks.filterMap Haystack.hit?) merged dropped :=
    hcovers.of_perm (getLast?_append_dropLast_perm selections) hstream
  obtain ⟨ranked, hperm, hsorted, htake⟩ := hmerged.take_sort
    (List.mergeSort_perm merged (NoLater needle.ranking))
    (List.pairwise_mergeSort (fun _ _ _ => noLater_trans) noLater_total merged)
  refine ⟨ranked, hperm, hsorted, ?_⟩
  have hselect : select options needle haystacks = ranked.take limit := by
    rw [← htake, ← ranking_ne_gt_eq]
    rfl
  rw [hselect]
  -- a limit beyond the number of candidates is as good as that number
  have hlength : ranked.length ≤ haystacks.length := by
    rw [hperm.length_eq]
    exact List.length_filterMap_le _ _
  by_cases hle : options.limit ≤ haystacks.length
  · rw [show limit = options.limit by omega]
  · rw [List.take_of_length_le (by omega), List.take_of_length_le (by omega)]

/-- What is returned depends on the hits alone. -/
theorem select_congr {options options' : SearchOptions} (hlimit : 1 ≤ options.limit)
    (hoptions : options'.limit = options.limit) (needle : Needle)
    {haystacks haystacks' : List Haystack}
    (hperm : (haystacks'.filterMap Haystack.hit?).Perm (haystacks.filterMap Haystack.hit?)) :
    (select options' needle haystacks').map (·.candidate)
      = (select options needle haystacks).map (·.candidate) := by
  obtain ⟨ranked, hranked, hsorted, hselect⟩ := select_ranked hlimit needle haystacks
  obtain ⟨ranked', hranked', hsorted', hselect'⟩ :=
    select_ranked (hoptions ▸ hlimit) needle haystacks'
  have hsame := map_candidate_eq_of_ranked ((hranked'.trans hperm).trans hranked.symm) hsorted'
    hsorted
  rw [hselect, hselect', List.map_take, List.map_take, hsame, hoptions]

/-- Runs of two sessions that end up with the same hits find the same. -/
theorem run_congr {s t : Session} (hlimit : 1 ≤ s.options.limit)
    (hoptions : t.options.limit = s.options.limit) {query : Bytes}
    (hneedle : t.options.needle query = s.options.needle query)
    (hcount : t.haystacks.length = s.haystacks.length)
    (hperm : ((t.run query).2.haystacks.filterMap Haystack.hit?).Perm
      ((s.run query).2.haystacks.filterMap Haystack.hit?)) : (t.run query).1 = (s.run query).1 := by
  have hresults := select_congr hlimit hoptions (s.options.needle query) hperm
  rw [run_haystacks, run_haystacks, hneedle] at hresults
  unfold run
  dsimp only
  rw [hneedle, hresults, candidateCount, hcount]
  rfl

/-! ## Workers and order leave no trace -/

/-- The same session with another number of workers. -/
def withThreads (s : Session) (threads : Nat) : Session :=
  { s with options := { s.options with threads } }

theorem initial_threads (corpus : Corpus) (options : SearchOptions) (threads : Nat) :
    initial corpus { options with threads }
      = (initial corpus options).withThreads (min threads SearchOptions.maxThreads) := rfl

theorem withThreads_run (s : Session) (threads : Nat) (query : Bytes) :
    ((s.withThreads threads).run query).2 = (s.run query).2.withThreads threads := rfl

theorem withThreads_after (s : Session) (threads : Nat) (history : List Bytes) :
    (s.withThreads threads).after history = (s.after history).withThreads threads := by
  induction history generalizing s with
  | nil => rfl
  | cons query history ih =>
    rw [after_cons, after_cons, withThreads_run]
    exact ih (s.run query).2

/-- Another number of workers makes the same run. -/
theorem withThreads_run_eq {s : Session} (hlimit : 1 ≤ s.options.limit) (threads : Nat)
    (query : Bytes) : ((s.withThreads threads).run query).1 = (s.run query).1 := by
  refine run_congr (t := s.withThreads threads) hlimit rfl rfl rfl ?_
  rw [withThreads_run]
  exact List.Perm.refl _

/-- Two sessions under the same options remember the same, up to the order of the candidates. -/
structure Rearranged (s t : Session) : Prop where
  options_eq : t.options = s.options
  previous_eq : t.previous = s.previous
  perm : t.haystacks.Perm s.haystacks

/-- A run treats every candidate on its own. -/
theorem Rearranged.run {s t : Session} (h : Rearranged s t) (query : Bytes) :
    Rearranged (s.run query).2 (t.run query).2 := by
  obtain ⟨hoptions, hprevious, hperm⟩ := h
  refine ⟨hoptions, ?_, ?_⟩
  · rw [run_previous, run_previous, hoptions]
  · rw [run_haystacks, run_haystacks, hoptions]
    unfold refreshed
    rw [hoptions, hprevious]
    exact hperm.map _

theorem Rearranged.after {s t : Session} (h : Rearranged s t) (history : List Bytes) :
    Rearranged (s.after history) (t.after history) := by
  induction history generalizing s t with
  | nil => exact h
  | cons query history ih => exact ih (h.run query)

/-! ## What a run returns -/

/-- The outcome of `query` after `history`, in a session `s` started over `corpus`. -/
structure ReturnsBest (corpus : Corpus) (options : SearchOptions) (s : Session)
    (history : List Bytes) (query : Bytes) : Prop where
  /-- Every candidate has been looked at. -/
  candidates : ((s.after history).run query).2.haystacks.map (·.candidate) = corpus.toList
  /-- With all candidates in order whose cached score is a match, the first ones are returned. -/
  ranked : ∃ ranked : List Hit,
    ranked.Perm (((s.after history).run query).2.haystacks.filterMap Haystack.hit?)
      ∧ ranked.Pairwise (options.needle query).RanksNoLater
      ∧ ((s.after history).run query).1.results = (ranked.take options.limit).map (·.candidate)
  /-- Another number of workers finds the same, and remembers the same. -/
  threads : ∀ threads s', start corpus { options with threads } = .ok s' →
    ((s'.after history).run query).1 = ((s.after history).run query).1
      ∧ ((s'.after history).run query).2.haystacks = ((s.after history).run query).2.haystacks
  /-- The same candidates in another order give the same results. -/
  permuted : ∀ (corpus' : Corpus) s', corpus'.toList.Perm corpus.toList →
    start corpus' options = .ok s' →
      ((s'.after history).run query).1 = ((s.after history).run query).1

theorem isMatch_of_mem_hits {haystacks : List Haystack} {hit : Hit}
    (h : hit ∈ haystacks.filterMap Haystack.hit?) : hit.score.isMatch = true := by
  obtain ⟨haystack, -, hhit⟩ := List.mem_filterMap.mp h
  unfold Haystack.hit? at hhit
  split at hhit
  · split at hhit
    · rename_i hmatch
      obtain rfl := Option.some_inj.mp hhit
      exact hmatch
    · exact absurd hhit (by simp)
  · exact absurd hhit (by simp)

/-- A run returns the first of its hits, in the order of the ranking. -/
theorem run_ranked {s : Session} (hlimit : 1 ≤ s.options.limit) (query : Bytes) :
    ∃ ranked : List Hit,
      ranked.Perm ((s.run query).2.haystacks.filterMap Haystack.hit?)
        ∧ ranked.Pairwise (s.options.needle query).RanksNoLater
        ∧ (s.run query).1.results = (ranked.take s.options.limit).map (·.candidate) := by
  obtain ⟨ranked, hperm, hsorted, hselect⟩ := select_ranked hlimit (s.options.needle query)
    (s.run query).2.haystacks
  refine ⟨ranked, hperm, hsorted.imp_of_mem fun ha hb hab => ?_, ?_⟩
  · have ha' := isMatch_of_mem_hits (hperm.mem_iff.mp ha)
    have hb' := isMatch_of_mem_hits (hperm.mem_iff.mp hb)
    exact (ranking_noLater_iff _ ha' hb').mp hab
  · rw [← hselect]
    rfl

/-- **A run returns exactly the best matches**, at every step of every session, whatever the number
of workers and the order of the corpus. -/
theorem run_returnsBest {corpus : Corpus} {options : SearchOptions} {s : Session}
    (hstart : start corpus options = .ok s) (history : List Bytes) (query : Bytes) :
    ReturnsBest corpus options s history query := by
  obtain ⟨hlimit, -, rfl⟩ := start_eq_ok_iff.mp hstart
  have hoptions := after_options (initial corpus options) history
  have hlimit' : 1 ≤ ((initial corpus options).after history).options.limit := by
    rw [hoptions]
    exact hlimit
  refine ⟨?_, ?_, ?_, ?_⟩
  · rw [run_haystacks, refreshed_candidates, after_candidates, initial_candidates]
  · obtain ⟨ranked, hperm, hsorted, hselect⟩ := select_ranked hlimit' (options.needle query)
      (((initial corpus options).after history).run query).2.haystacks
    refine ⟨ranked, hperm, ?_, ?_⟩
    · -- the order by bit patterns means what it should, as all hits are matches
      refine hsorted.imp_of_mem fun ha hb hab => ?_
      have ha' := isMatch_of_mem_hits (hperm.mem_iff.mp ha)
      have hb' := isMatch_of_mem_hits (hperm.mem_iff.mp hb)
      exact (ranking_noLater_iff _ ha' hb').mp hab
    · have hneedle : ((initial corpus options).after history).options.needle query
          = options.needle query := by
        rw [hoptions]
        rfl
      have hsame : ((initial corpus options).after history).options.limit = options.limit := by
        rw [hoptions]
        rfl
      rw [← hsame, ← hselect, ← hneedle]
      rfl
  · intro threads s' hstart'
    obtain ⟨-, -, rfl⟩ := start_eq_ok_iff.mp hstart'
    rw [initial_threads, withThreads_after]
    refine ⟨withThreads_run_eq hlimit' _ query, ?_⟩
    rw [withThreads_run]
    rfl
  · -- both sessions remember the same at every step, up to order
    intro corpus' s' hcorpus hstart'
    obtain ⟨-, -, rfl⟩ := start_eq_ok_iff.mp hstart'
    have hrearranged : Rearranged (initial corpus options) (initial corpus' options) :=
      ⟨rfl, rfl, hcorpus.map _⟩
    have hafter := hrearranged.after history
    exact run_congr hlimit' (by rw [hafter.options_eq]) (by rw [hafter.options_eq])
      hafter.perm.length_eq ((hafter.run query).perm.filterMap _)

/-- Three files, asked for as a word is typed. -/
theorem run_returnsBest_of_typing :
    ∃ s, start (.ofCopies [.ofString "src/main.rs", .ofString "README", .ofString "map.rs"]) {}
        = .ok s
      ∧ ReturnsBest (.ofCopies [.ofString "src/main.rs", .ofString "README", .ofString "map.rs"]) {}
        s [.ofString "m"] (.ofString "ma") :=
  ⟨_, rfl, run_returnsBest rfl _ _⟩

end Session

end FuzzyFinder
