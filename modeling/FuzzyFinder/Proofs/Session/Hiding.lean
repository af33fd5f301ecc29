import FuzzyFinder.Proofs.Score.Visible
import FuzzyFinder.Proofs.Session.Incremental

/-!
# FuzzyFinder — what a session hides when hidden components are never shown

With `neverShowDotFiles`, a run returns the candidates that the query shows, and nothing else
(`Session.ReturnsVisible`). Without a needle these are the candidates that have no hidden component.
With one they are the candidates in whose visible part the needle occurs, and such a candidate may
go on with a hidden component: it is returned all the same. A session returns no hidden component at
all exactly when there is none in the corpus behind a visible part (`run_returnsVisible`).
-/

namespace FuzzyFinder

namespace SearchOptions

variable {options : SearchOptions} {candidate query : Bytes}

/-- What a query shows when hidden components are never shown. -/
def Shows (options : SearchOptions) (query candidate : Bytes) : Prop :=
  if (options.needle query).bytes = [] then hasHiddenComponent candidate = false
  else Occurs (options.needle query).caseSensitive (visiblePart candidate)
    (options.needle query).bytes

/-- A match is what the query shows. -/
theorem scoreOf_isMatch_iff (hnever : options.neverShowDotFiles = true)
    (hlt : candidate.length < 2 ^ 64) :
    (options.scoreOf (options.needle query) candidate).isMatch = true
      ↔ options.Shows query candidate := by
  unfold Shows
  split
  · rename_i hempty
    rw [scoreOf_eq_rateBytes, hempty]
    exact rateBytes_nil_isMatch_iff hnever _ _
  · rename_i hne
    exact isMatch_iff_occurs hnever hne hlt

theorem not_shows_of_head (hhead : candidate.head? = some Byte.dot) :
    ¬ options.Shows query candidate := by
  unfold Shows
  split
  · rw [← visiblePart_eq_self_iff, visiblePart_of_head hhead]
    rintro rfl
    exact absurd hhead (by simp)
  · rename_i hne
    rw [visiblePart_of_head hhead, Occurs, List.sublistForall₂_iff]
    rintro ⟨picked, hpicked, hsub⟩
    -- nothing can be picked from nothing
    rw [List.sublist_nil.mp hsub, List.forall₂_nil_right_iff] at hpicked
    exact hne hpicked

/-- A slash is never folded, dropped or taken for an upper-case letter. -/
theorem ofQuery_slash_bytes (mode : CaseMatching) (ignoreSpaces : Bool) :
    (Needle.ofQuery [Byte.slash] mode ignoreSpaces).bytes = [Byte.slash] := by
  cases mode <;> cases ignoreSpaces <;> decide

theorem shows_slash (hmem : Byte.slash ∈ visiblePart candidate) :
    options.Shows [Byte.slash] candidate := by
  rw [Shows, needle, ofQuery_slash_bytes, if_neg (List.cons_ne_nil _ _)]
  exact occurs_of_sublist (List.singleton_sublist.mpr hmem)

end SearchOptions

namespace Session

variable {corpus : Corpus} {options : SearchOptions} {s : Session}

/-- The run for `query` after `history` returns what the query shows, up to the limit. -/
def ReturnsVisible (corpus : Corpus) (options : SearchOptions) (s : Session) (history : List Bytes)
    (query : Bytes) : Prop :=
  ∃ shown left : List Bytes, (shown ++ left).Perm corpus.toList
    ∧ (∀ candidate ∈ shown, options.Shows query candidate)
    ∧ (∀ candidate ∈ left, ¬ options.Shows query candidate)
    ∧ ((s.after history).run query).1.results = shown.take options.limit

/-- No run ever returns a candidate with a hidden component. -/
def KeepsHidden (s : Session) : Prop :=
  ∀ history query, ∀ candidate ∈ ((s.after history).run query).1.results,
    hasHiddenComponent candidate = false

/-- The candidates that a coherent session hits are those that score a match. -/
theorem Coherent.map_hits (hs : Coherent s) (hmisses : s.options.InheritsMisses) (query : Bytes) :
    ((s.refreshed (s.options.needle query)).filterMap Haystack.hit?).map (·.candidate)
      = (s.haystacks.map (·.candidate)).filter fun candidate =>
          (s.options.scoreOf (s.options.needle query) candidate).isMatch := by
  rw [hs.hits hmisses, List.map_filterMap, ← List.filterMap_eq_filter]
  refine List.filterMap_congr fun candidate _ => ?_
  dsimp only [Option.guard]
  split <;> rfl

/-- A run of a coherent session returns the candidates that score a match, up to the limit. -/
theorem Coherent.run_results (hs : Coherent s) (hmisses : s.options.InheritsMisses)
    (hlimit : 1 ≤ s.options.limit) (query : Bytes) :
    ∃ shown left : List Bytes, (shown ++ left).Perm (s.haystacks.map (·.candidate))
      ∧ (∀ candidate ∈ shown,
        (s.options.scoreOf (s.options.needle query) candidate).isMatch = true)
      ∧ (∀ candidate ∈ left,
        (s.options.scoreOf (s.options.needle query) candidate).isMatch = false)
      ∧ (s.run query).1.results = shown.take s.options.limit := by
  obtain ⟨ranked, hperm, -, hresults⟩ := run_ranked hlimit query
  have hshown := hperm.map (·.candidate)
  rw [run_haystacks, hs.map_hits hmisses query] at hshown
  refine ⟨ranked.map (·.candidate), (s.haystacks.map (·.candidate)).filter fun candidate =>
    !(s.options.scoreOf (s.options.needle query) candidate).isMatch, ?_, ?_, ?_, ?_⟩
  · exact (hshown.append_right _).trans (List.filter_append_perm _ _)
  · intro candidate hcandidate
    exact (List.mem_filter.mp (hshown.mem_iff.mp hcandidate)).2
  · intro candidate hcandidate
    exact (Bool.not_eq_true' _).mp (List.mem_filter.mp hcandidate).2
  · rw [hresults, List.map_take]

theorem initial_returnsVisible (hnever : options.neverShowDotFiles = true)
    (hlimit : 1 ≤ options.limit) (hshort : ∀ candidate ∈ corpus.toList, candidate.length < 2 ^ 64)
    (history : List Bytes) (query : Bytes) :
    ReturnsVisible corpus options (initial corpus options) history query := by
  have hmisses : (initial corpus options).options.InheritsMisses :=
    SearchOptions.Inherits.inheritsMisses (.inr (.inr (.inl hnever)))
  have hcoherent := initial_coherent options hshort
  obtain ⟨shown, left, hperm, hshown, hleft, hresults⟩ :=
    hcoherent.run_results hmisses hlimit query
  rw [initial_candidates] at hperm
  have hmatch : ∀ candidate ∈ shown ++ left,
      (options.scoreOf (options.needle query) candidate).isMatch = true
        ↔ options.Shows query candidate := fun candidate hcandidate =>
    SearchOptions.scoreOf_isMatch_iff hnever (hshort candidate (hperm.mem_iff.mp hcandidate))
  refine ⟨shown, left, hperm, ?_, ?_, ?_⟩
  · intro candidate hcandidate
    exact (hmatch candidate (List.mem_append_left left hcandidate)).mp (hshown candidate hcandidate)
  · intro candidate hcandidate hshows
    have := (hmatch candidate (List.mem_append_right shown hcandidate)).mpr hshows
    exact absurd (this.symm.trans (hleft candidate hcandidate)) (by decide)
  · -- what has been asked before has no part in the run
    rw [run_after_eq hcoherent hmisses hlimit]
    exact hresults

/-- A run returns nothing but candidates of the corpus that its query shows. -/
theorem ReturnsVisible.shows_of_mem {history : List Bytes} {query candidate : Bytes}
    (h : ReturnsVisible corpus options s history query)
    (hmem : candidate ∈ ((s.after history).run query).1.results) :
    candidate ∈ corpus.toList ∧ options.Shows query candidate := by
  obtain ⟨shown, left, hperm, hshown, -, hresults⟩ := h
  rw [hresults] at hmem
  have hmem' := List.mem_of_mem_take hmem
  exact ⟨hperm.mem_iff.mp (List.mem_append_left left hmem'), hshown candidate hmem'⟩

/-- With room for the whole corpus, a run returns every candidate that its query shows. -/
theorem ReturnsVisible.mem_of_shows {history : List Bytes} {query candidate : Bytes}
    (h : ReturnsVisible corpus options s history query)
    (hroom : corpus.toList.length ≤ options.limit) (hmem : candidate ∈ corpus.toList)
    (hshows : options.Shows query candidate) :
    candidate ∈ ((s.after history).run query).1.results := by
  obtain ⟨shown, left, hperm, -, hleft, hresults⟩ := h
  have hlength := hperm.length_eq
  rw [List.length_append] at hlength
  rw [hresults, List.take_of_length_le (by omega)]
  rcases List.mem_append.mp (hperm.mem_iff.mpr hmem) with hin | hin
  · exact hin
  · exact absurd hshows (hleft candidate hin)

/-- **What a session returns when hidden components are never shown.** Every run returns the
candidates that its query shows. So hidden components stay out of sight exactly when every candidate
that has one begins with one. -/
theorem run_returnsVisible (hnever : options.neverShowDotFiles = true)
    (hshort : ∀ candidate ∈ corpus.toList, candidate.length < 2 ^ 64)
    (hstart : start corpus options = .ok s) :
    (∀ history query, ReturnsVisible corpus options s history query)
      ∧ (corpus.toList.length ≤ options.limit →
        (KeepsHidden s ↔ ∀ candidate ∈ corpus.toList, hasHiddenComponent candidate = true →
          candidate.head? = some Byte.dot)) := by
  obtain ⟨hlimit, -, rfl⟩ := start_eq_ok_iff.mp hstart
  have hvisible := initial_returnsVisible hnever hlimit hshort
  refine ⟨hvisible, fun hroom => ⟨?_, ?_⟩⟩
  · -- a candidate that begins otherwise shows a slash before its hidden component
    intro hkeeps candidate hmem hhidden
    by_contra hhead
    have hshows : options.Shows [Byte.slash] candidate :=
      SearchOptions.shows_slash (slash_mem_visiblePart hhidden hhead)
    have hkept := hkeeps [] [Byte.slash] candidate ((hvisible _ _).mem_of_shows hroom hmem hshows)
    exact absurd (hkept.symm.trans hhidden) (by decide)
  · intro hheads history query candidate hmem
    obtain ⟨hmem', hshows⟩ := (hvisible history query).shows_of_mem hmem
    rw [← Bool.not_eq_true]
    intro hhidden
    exact SearchOptions.not_shows_of_head (hheads candidate hmem' hhidden) hshows

/-- `foo/.hidden/bar` is returned for `foo`; `.hidden/foo` is never returned. -/
theorem run_returnsVisible_of_prefix :
    ∃ s t, start (.ofCopies [.ofString "foo/.hidden/bar"]) { neverShowDotFiles := true } = .ok s
      ∧ start (.ofCopies [.ofString ".hidden/foo"]) { neverShowDotFiles := true } = .ok t
      ∧ .ofString "foo/.hidden/bar" ∈ (s.run (.ofString "foo")).1.results
      ∧ ¬ KeepsHidden s ∧ KeepsHidden t := by
  let options : SearchOptions := { neverShowDotFiles := true }
  let behind : Corpus := .ofCopies [.ofString "foo/.hidden/bar"]
  let front : Corpus := .ofCopies [.ofString ".hidden/foo"]
  obtain ⟨hvisible, hkeeps⟩ := @run_returnsVisible behind options _ rfl (by decide +kernel) rfl
  obtain ⟨-, hkeeps'⟩ := @run_returnsVisible front options _ rfl (by decide +kernel) rfl
  have hshows : options.Shows (.ofString "foo") (.ofString "foo/.hidden/bar") := by
    rw [SearchOptions.Shows, if_neg (by decide +kernel)]
    exact occurs_of_sublist (by decide +kernel)
  refine ⟨_, _, rfl, rfl, ?_, ?_, ?_⟩
  · exact (hvisible [] _).mem_of_shows (by decide +kernel) (by decide +kernel) hshows
  · rw [hkeeps (by decide +kernel)]
    decide +kernel
  · rw [hkeeps' (by decide +kernel)]
    decide +kernel

end Session

end FuzzyFinder
