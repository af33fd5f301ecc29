import FuzzyFinder.Proofs.Score.Inheritance
import FuzzyFinder.Proofs.Score.Rate
import FuzzyFinder.Proofs.Session.Ranking

/-!
# FuzzyFinder — incremental search

A session remembers scores and letters, and leaves candidates alone that missed the needle before.
`Session.Coherent` says that what it remembers is the truth about its last needle. Every run keeps
this true as long as misses are inherited (`Coherent.run`), and then a run finds what a run of a
fresh session finds (`run_after_eq`): with every position explored, always; with first fits, unless
smart case meets the dot policy that opens hidden components on request (`isTransparent_iff`).
-/

namespace FuzzyFinder

namespace SearchOptions

/-- The score of a candidate for a needle, without any memory. -/
def scoreOf (options : SearchOptions) (needle : Needle) (candidate : Bytes) : Score :=
  score candidate needle.bytes (options.scoreOptions needle.caseSensitive)

variable {options : SearchOptions} {candidate query : Bytes}

theorem normalize_needle (options : SearchOptions) (query : Bytes) :
    (options.scoreOptions (options.needle query).caseSensitive).normalize
      (options.needle query).bytes = (options.needle query).bytes :=
  normalize_ofQuery rfl

theorem scoreOf_eq_rateBytes (options : SearchOptions) (query candidate : Bytes) :
    options.scoreOf (options.needle query) candidate
      = (rateBytes candidate (options.needle query).bytes (.ofBytes (options.needle query).bytes) none
          (options.scoreOptions (options.needle query).caseSensitive)).1 := by
  rw [scoreOf, score_eq_rateBytes, normalize_needle]

theorem rate_eq_scoreOf {known : Option LetterSet} (hknown : Knows candidate known) :
    (rate candidate known (options.needle query)
      (options.scoreOptions (options.needle query).caseSensitive)).1
      = options.scoreOf (options.needle query) candidate := by
  rw [scoreOf_eq_rateBytes]
  exact rateBytes_fst_eq_none hknown

theorem scoreOf_eq_miss_iff (hlt : candidate.length < 2 ^ 64) :
    options.scoreOf (options.needle query) candidate = Score.miss
      ↔ ¬ Placeable candidate (options.scoreOptions (options.needle query).caseSensitive)
        (options.needle query).bytes := by
  rw [scoreOf_eq_rateBytes]
  exact rateBytes_eq_miss_iff hlt knows_none

/-- What misses a needle misses every needle that continues it. -/
def InheritsMisses (options : SearchOptions) : Prop :=
  ∀ query query' candidate, candidate.length < 2 ^ 64 →
    (options.needle query').continues (options.needle query) = true →
    options.scoreOf (options.needle query) candidate = Score.miss →
    options.scoreOf (options.needle query') candidate = Score.miss

theorem Inherits.inheritsMisses (hinherits : options.Inherits) : options.InheritsMisses := by
  intro query query' candidate hlt hcontinues hmiss
  rw [scoreOf_eq_miss_iff hlt] at hmiss ⊢
  exact fun hplaceable => hmiss (placeable_of_continues hinherits hcontinues hplaceable)

end SearchOptions

namespace Session

/-! ## What a session remembers -/

/-- What a session remembers is the truth: letters, if any, and the scores for its last needle. -/
structure Coherent (s : Session) : Prop where
  short : ∀ h ∈ s.haystacks, h.candidate.length < 2 ^ 64
  knows : ∀ h ∈ s.haystacks, Knows h.candidate h.letters
  scored : ∀ needle ∈ s.previous, ∃ query, needle = s.options.needle query
    ∧ ∀ h ∈ s.haystacks, h.score = some (s.options.scoreOf needle h.candidate)

variable {corpus : Corpus} {options : SearchOptions} {s : Session}

theorem initial_coherent (options : SearchOptions)
    (hshort : ∀ candidate ∈ corpus.toList, candidate.length < 2 ^ 64) :
    Coherent (initial corpus options) := by
  refine ⟨?_, ?_, ?_⟩
  · intro h hh
    obtain ⟨candidate, hmem, rfl⟩ := List.mem_map.mp hh
    exact hshort candidate hmem
  · intro h hh
    obtain ⟨candidate, -, rfl⟩ := List.mem_map.mp hh
    exact knows_none
  · intro needle hprevious
    exact absurd hprevious (by simp [initial])

theorem refresh_spec {h : Haystack} (hknows : Knows h.candidate h.letters) (options : SearchOptions)
    (query : Bytes) :
    (h.refresh (options.needle query)
        (options.scoreOptions (options.needle query).caseSensitive)).score
      = some (options.scoreOf (options.needle query) h.candidate)
      ∧ Knows h.candidate (h.refresh (options.needle query)
        (options.scoreOptions (options.needle query).caseSensitive)).letters :=
  ⟨congrArg some (SearchOptions.rate_eq_scoreOf hknows), rateBytes_snd_knows hknows⟩

/-- A cached miss that stands is what the candidate would be given again. -/
theorem Coherent.kept (hs : Coherent s) (hmisses : s.options.InheritsMisses) {query : Bytes}
    (hkeep : s.previous.any (s.options.needle query).continues = true) {h : Haystack}
    (hh : h ∈ s.haystacks) (hmiss : h.isCachedMiss = true) :
    h.score = some (s.options.scoreOf (s.options.needle query) h.candidate) := by
  obtain ⟨needle, hprevious, hcontinues⟩ := (Option.any_eq_true _ _).mp hkeep
  obtain ⟨query', rfl, hscored⟩ := hs.scored needle hprevious
  have hscore := hscored h hh
  -- what compares equal to a miss is one
  rw [Haystack.isCachedMiss, hscore, Option.any_some] at hmiss
  have hbefore : s.options.scoreOf (s.options.needle query') h.candidate = Score.miss := by
    rw [SearchOptions.scoreOf_eq_rateBytes] at hmiss ⊢
    exact rateBytes_eq_miss_of_beq (hs.short h hh) hmiss
  rw [hscore, hbefore, hmisses _ _ _ (hs.short h hh) hcontinues hbefore]

theorem Coherent.refreshed (hs : Coherent s) (hmisses : s.options.InheritsMisses) (query : Bytes) :
    ∀ h ∈ s.refreshed (s.options.needle query), h.candidate.length < 2 ^ 64
      ∧ Knows h.candidate h.letters
      ∧ h.score = some (s.options.scoreOf (s.options.needle query) h.candidate) := by
  intro h hh
  obtain ⟨h₀, hh₀, rfl⟩ := List.mem_map.mp hh
  have hshort := hs.short h₀ hh₀
  have hknows := hs.knows h₀ hh₀
  split
  · -- left alone: the miss stands
    rename_i hskip
    obtain ⟨hkeep, hmiss⟩ := Bool.and_eq_true_iff.mp hskip
    exact ⟨hshort, hknows, hs.kept hmisses hkeep hh₀ hmiss⟩
  · obtain ⟨hscore, hknows'⟩ := refresh_spec hknows s.options query
    exact ⟨hshort, hknows', hscore⟩

/-- **A run keeps what is remembered true.** -/
theorem Coherent.run (hs : Coherent s) (hmisses : s.options.InheritsMisses) (query : Bytes) :
    Coherent (s.run query).2 := by
  have hrefreshed := hs.refreshed hmisses query
  refine ⟨fun h hh => (hrefreshed h hh).1, fun h hh => (hrefreshed h hh).2.1, ?_⟩
  intro needle hprevious
  obtain rfl := Option.some_inj.mp hprevious
  exact ⟨query, rfl, fun h hh => (hrefreshed h hh).2.2⟩

theorem Coherent.after (hs : Coherent s) (hmisses : s.options.InheritsMisses) (history : List Bytes) :
    Coherent (s.after history) := by
  -- the options have to come along, as misses are inherited under them
  have hboth : Coherent (s.after history) ∧ (s.after history).options = s.options := by
    refine after_induction (P := fun t => Coherent t ∧ t.options = s.options) ⟨hs, rfl⟩ ?_ history
    rintro t query ⟨ht, hoptions⟩
    exact ⟨ht.run (hoptions ▸ hmisses) query, hoptions⟩
  exact hboth.1

/-! ## Runs with and without a past -/

/-- The hits of a coherent session are a matter of its candidates. -/
theorem Coherent.hits (hs : Coherent s) (hmisses : s.options.InheritsMisses) (query : Bytes) :
    (s.refreshed (s.options.needle query)).filterMap Haystack.hit?
      = (s.haystacks.map (·.candidate)).filterMap fun candidate =>
          if (s.options.scoreOf (s.options.needle query) candidate).isMatch then
            some ⟨s.options.scoreOf (s.options.needle query) candidate, candidate⟩ else none := by
  -- a hit is read off the score that is remembered, and that is the true one
  rw [← refreshed_candidates s (s.options.needle query), List.filterMap_map]
  refine List.filterMap_congr fun h hh => ?_
  rw [Haystack.hit?, (hs.refreshed hmisses query h hh).2.2]
  rfl

/-- **A past leaves no trace in what a run finds.** -/
theorem run_after_eq (hs : Coherent s) (hmisses : s.options.InheritsMisses)
    (hlimit : 1 ≤ s.options.limit) (history : List Bytes) (query : Bytes) :
    ((s.after history).run query).1 = (s.run query).1 := by
  have hoptions := after_options s history
  have hcandidates := after_candidates s history
  refine run_congr hlimit (by rw [hoptions]) (by rw [hoptions]) ?_ ?_
  · have := congrArg List.length hcandidates
    rw [List.length_map, List.length_map] at this
    exact this
  · rw [run_haystacks, run_haystacks,
      (hs.after hmisses history).hits (by rw [hoptions]; exact hmisses) query,
      hs.hits hmisses query, hoptions, hcandidates]

/-- **With every position explored, incremental search is transparent.** After any history a run
finds what it finds in a fresh session, and every candidate is left with the score that it has
without any memory. -/
theorem run_after_of_recurse (hrecurse : options.recurse = true)
    (hshort : ∀ candidate ∈ corpus.toList, candidate.length < 2 ^ 64)
    (hstart : start corpus options = .ok s) (history : List Bytes) (query : Bytes) :
    ((s.after history).run query).1 = (s.run query).1
      ∧ ((s.after history).run query).2.haystacks.map (·.candidate) = corpus.toList
      ∧ ∀ h ∈ ((s.after history).run query).2.haystacks,
        h.score = some (score h.candidate (options.needle query).bytes
          (options.scoreOptions (options.needle query).caseSensitive)) := by
  obtain ⟨hlimit, -, rfl⟩ := start_eq_ok_iff.mp hstart
  have hmisses : (initial corpus options).options.InheritsMisses :=
    SearchOptions.Inherits.inheritsMisses (.inl hrecurse)
  have hcoherent := initial_coherent options hshort
  refine ⟨run_after_eq hcoherent hmisses hlimit history query, ?_, ?_⟩
  · rw [run_haystacks, refreshed_candidates, after_candidates, initial_candidates]
  · intro h hh
    have hoptions := after_options (initial corpus options) history
    have hrefreshed := (hcoherent.after hmisses history).refreshed
      (by rw [hoptions]; exact hmisses) query h hh
    rw [hrefreshed.2.2, hoptions]
    rfl

/-- A word is typed, given up, and typed in capitals. -/
theorem run_after_of_recurse_of_typing :
    ∃ s, start (.ofCopies [.ofString "src/Main.rs", .ofString ".git/main"]) {} = .ok s
      ∧ ((s.after [.ofString "m", .ofString "ma", .ofString ""]).run (.ofString "M")).1
        = (s.run (.ofString "M")).1
      ∧ ∀ h ∈ ((s.after [.ofString "m", .ofString "ma", .ofString ""]).run
          (.ofString "M")).2.haystacks,
        h.score = some (score h.candidate [0x4D] { caseSensitive := true, recurse := true }) := by
  have hshort : ∀ candidate ∈ (Corpus.ofCopies
      [.ofString "src/Main.rs", .ofString ".git/main"]).toList, candidate.length < 2 ^ 64 := by
    decide +kernel
  have hstart : start (.ofCopies [.ofString "src/Main.rs", .ofString ".git/main"]) {}
      = .ok (initial _ {}) := start_eq_ok_iff.mpr ⟨by decide, by decide, rfl⟩
  obtain ⟨hfound, -, hscores⟩ := run_after_of_recurse rfl hshort hstart
    [.ofString "m", .ofString "ma", .ofString ""] (.ofString "M")
  have hneedle : SearchOptions.needle {} (.ofString "M") = ⟨[0x4D], true, .ofBytes [0x4D]⟩ := by
    decide +kernel
  rw [hneedle] at hscores
  exact ⟨_, hstart, hfound, hscores⟩

/-! ## First fits -/

/-- A run finds what it finds in a fresh session, whatever has been asked before. -/
def IsTransparent (options : SearchOptions) : Prop :=
  ∀ (corpus : Corpus) s, start corpus options = .ok s →
    (∀ candidate ∈ corpus.toList, candidate.length < 2 ^ 64) →
    ∀ history query, ((s.after history).run query).1 = (s.run query).1

theorem isTransparent_of_inheritsMisses (hmisses : options.InheritsMisses) :
    IsTransparent options := by
  intro corpus s hstart hshort history query
  obtain ⟨hlimit, -, rfl⟩ := start_eq_ok_iff.mp hstart
  exact run_after_eq (initial_coherent options hshort) hmisses hlimit history query

theorem select_singleton (hlimit : 1 ≤ options.limit) (needle : Needle) (h : Haystack) :
    select options needle [h] = h.hit?.toList := by
  obtain ⟨ranked, hperm, -, hselect⟩ := select_ranked hlimit needle [h]
  rw [hselect]
  cases hhit : h.hit? with
  | none =>
    rw [List.filterMap_cons_none hhit, List.filterMap_nil] at hperm
    rw [hperm.eq_nil]
    exact List.take_nil
  | some hit =>
    rw [List.filterMap_cons_some hhit, List.filterMap_nil] at hperm
    rw [List.perm_singleton.mp hperm]
    exact List.take_of_length_le hlimit

theorem run_results_of_singleton (hlimit : 1 ≤ s.options.limit) {query : Bytes} {h : Haystack}
    (hrefreshed : s.refreshed (s.options.needle query) = [h]) :
    (s.run query).1.results = h.hit?.toList.map (·.candidate) := by
  rw [← select_singleton hlimit (s.options.needle query) h, ← hrefreshed]
  rfl

theorem refreshed_eq_self {needle : Needle} (hkeep : s.previous.any needle.continues = true)
    (hmiss : ∀ h ∈ s.haystacks, h.isCachedMiss = true) : s.refreshed needle = s.haystacks := by
  refine (List.map_congr_left fun h hh => ?_).trans (List.map_id _)
  exact if_pos (Bool.and_eq_true_iff.mpr ⟨hkeep, hmiss h hh⟩)

/-- Without case `a.b` is drawn to the first letter, and on into the hidden component; with case it
is not. -/
def caseTrap : Bytes := .ofString "A.a/.bC"

def smartNeedle (query : String) (ignoreSpaces : Bool) : Needle :=
  .ofQuery (.ofString query) .smart ignoreSpaces

/-- `caseTrap` after its first run, with first fits and hidden components on request. -/
def sprung (query : String) (ignoreSpaces : Bool) : Haystack :=
  Haystack.refresh { candidate := caseTrap } (smartNeedle query ignoreSpaces)
    { caseSensitive := (smartNeedle query ignoreSpaces).caseSensitive }

/-- Folding the case, the first fits of `a.b` end at a closed dot. -/
theorem sprung_miss (ignoreSpaces : Bool) : (sprung "a.b" ignoreSpaces).isCachedMiss = true := by
  cases ignoreSpaces <;> decide +kernel

theorem sprung_miss_hit? (ignoreSpaces : Bool) : (sprung "a.b" ignoreSpaces).hit? = none := by
  cases ignoreSpaces <;> decide +kernel

/-- With case, `a.bC` is found behind the slash. -/
theorem sprung_hit? (ignoreSpaces : Bool) :
    (sprung "a.bC" ignoreSpaces).hit?.toList.map (·.candidate) = [caseTrap] := by
  cases ignoreSpaces <;> decide +kernel

theorem smartNeedle_continues (ignoreSpaces : Bool) :
    (smartNeedle "a.bC" ignoreSpaces).continues (smartNeedle "a.b" ignoreSpaces) = true := by
  cases ignoreSpaces <;> decide +kernel

/-- A fresh session over `caseTrap` alone. -/
def trapped (ignoreSpaces : Bool) (limit threads : Nat) : Session where
  options := { ignoreSpaces, limit, threads, recurse := false }
  haystacks := [{ candidate := caseTrap }]

variable {ignoreSpaces : Bool} {limit threads : Nat}

theorem trapped_refreshed (query : String) :
    (trapped ignoreSpaces limit threads).refreshed (smartNeedle query ignoreSpaces)
      = [sprung query ignoreSpaces] := rfl

theorem run_trapped (hlimit : 1 ≤ limit) :
    ((trapped ignoreSpaces limit threads).run (.ofString "a.bC")).1.results = [caseTrap] := by
  rw [run_results_of_singleton (s := trapped ignoreSpaces limit threads) hlimit
    (trapped_refreshed "a.bC"), sprung_hit?]

/-- The miss of `a.b` hides `a.bC`. -/
theorem run_run_trapped (hlimit : 1 ≤ limit) :
    (((trapped ignoreSpaces limit threads).run (.ofString "a.b")).2.run
      (.ofString "a.bC")).1.results = [] := by
  have hkept : ((trapped ignoreSpaces limit threads).run (.ofString "a.b")).2.refreshed
      (smartNeedle "a.bC" ignoreSpaces) = [sprung "a.b" ignoreSpaces] := by
    refine refreshed_eq_self (smartNeedle_continues ignoreSpaces) fun h hh => ?_
    rw [List.mem_singleton.mp hh]
    exact sprung_miss ignoreSpaces
  rw [run_results_of_singleton (s := ((trapped ignoreSpaces limit threads).run _).2) hlimit hkept,
    sprung_miss_hit?]
  rfl

/-- **Only what inherits misses is transparent.** -/
theorem IsTransparent.inherits (htransparent : IsTransparent options) (hlimit : 1 ≤ options.limit)
    (hthreads : 1 ≤ options.threads) : options.Inherits := by
  by_contra hnot
  -- what is left are the options of `trapped`
  obtain ⟨always, never, mode, ignoreSpaces, limit, threads, recurse⟩ := options
  obtain ⟨hrecurse, hsmart, hnever, halways⟩ :
      recurse = false ∧ mode = .smart ∧ never = false ∧ always = false := by
    simpa only [SearchOptions.Inherits, not_or, ne_eq, not_not, Bool.not_eq_true] using hnot
  subst hrecurse hsmart hnever halways
  dsimp only at hlimit hthreads
  have hcorpus : (Corpus.ofCopies [caseTrap]).toList = [caseTrap] := by decide +kernel
  have hstart : start (.ofCopies [caseTrap]) { ignoreSpaces, limit, threads, recurse := false }
      = .ok (trapped ignoreSpaces limit (min threads SearchOptions.maxThreads)) := by
    refine start_eq_ok_iff.mpr ⟨hlimit, hthreads, ?_⟩
    rw [initial, hcorpus]
    rfl
  have hshort : ∀ candidate ∈ (Corpus.ofCopies [caseTrap]).toList, candidate.length < 2 ^ 64 := by
    decide +kernel
  have hsame := htransparent _ _ hstart hshort [.ofString "a.b"] (.ofString "a.bC")
  have hresults := congrArg Found.results hsame
  rw [after_cons, after_nil, run_run_trapped hlimit, run_trapped hlimit] at hresults
  exact List.cons_ne_nil _ _ hresults.symm

/-- **When incremental search is transparent.** For accepted options, a past leaves no trace in what
a run finds exactly when misses are inherited, and misses are inherited exactly when every position
is explored, or the case mode never flips, or the dot policy treats all needle bytes alike. -/
theorem isTransparent_iff (hlimit : 1 ≤ options.limit) (hthreads : 1 ≤ options.threads) :
    (IsTransparent options ↔ options.InheritsMisses)
      ∧ (options.InheritsMisses ↔ options.recurse = true ∨ options.caseMatching ≠ .smart
        ∨ options.neverShowDotFiles = true ∨ options.alwaysShowDotFiles = true) := by
  have hinherits : options.InheritsMisses → options.Inherits := fun hmisses =>
    (isTransparent_of_inheritsMisses hmisses).inherits hlimit hthreads
  refine ⟨⟨fun htransparent => ?_, isTransparent_of_inheritsMisses⟩, hinherits,
    SearchOptions.Inherits.inheritsMisses⟩
  exact (htransparent.inherits hlimit hthreads).inheritsMisses

/-- By default first fits leave traces; with hidden components never shown they do not. -/
theorem isTransparent_iff_of_firstFit :
    ¬ IsTransparent { recurse := false }
      ∧ IsTransparent { recurse := false, neverShowDotFiles := true } := by
  obtain ⟨htransparent, hmisses⟩ := @isTransparent_iff { recurse := false } (by decide) (by decide)
  obtain ⟨htransparent', hmisses'⟩ :=
    @isTransparent_iff { recurse := false, neverShowDotFiles := true } (by decide) (by decide)
  refine ⟨fun h => ?_, ?_⟩
  · exact absurd (hmisses.mp (htransparent.mp h)) (by decide)
  · exact htransparent'.mpr (hmisses'.mpr (by decide))

end Session

end FuzzyFinder
