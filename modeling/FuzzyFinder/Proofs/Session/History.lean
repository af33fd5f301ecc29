import FuzzyFinder.Session

/-!
# FuzzyFinder — sessions over time

A session is run for one query after the other (`Session.after`). Whatever has been asked, it
searches the same candidates under the same options: only what it remembers about them changes.
-/

namespace FuzzyFinder

namespace Session

/-- The session once it has been run for each of the queries in turn. -/
def after (s : Session) (history : List Bytes) : Session :=
  history.foldl (fun s query => (s.run query).2) s

@[simp] theorem after_nil (s : Session) : s.after [] = s := rfl

@[simp] theorem after_cons (s : Session) (query : Bytes) (history : List Bytes) :
    s.after (query :: history) = (s.run query).2.after history := rfl

/-- What each run preserves and the start establishes holds after any history. -/
theorem after_induction {P : Session → Prop} {s : Session} (hstart : P s)
    (hrun : ∀ t query, P t → P (t.run query).2) (history : List Bytes) : P (s.after history) := by
  induction history generalizing s with
  | nil => exact hstart
  | cons query history ih => exact ih (hrun s query hstart)

/-! ## What stays -/

@[simp] theorem run_options (s : Session) (query : Bytes) : (s.run query).2.options = s.options := rfl

@[simp] theorem run_previous (s : Session) (query : Bytes) :
    (s.run query).2.previous = some (s.options.needle query) := rfl

@[simp] theorem run_haystacks (s : Session) (query : Bytes) :
    (s.run query).2.haystacks = s.refreshed (s.options.needle query) := rfl

theorem refreshed_candidates (s : Session) (needle : Needle) :
    (s.refreshed needle).map (·.candidate) = s.haystacks.map (·.candidate) := by
  unfold refreshed
  rw [List.map_map]
  refine List.map_congr_left fun h _ => ?_
  dsimp only [Function.comp_apply]
  split <;> rfl

@[simp] theorem after_options (s : Session) (history : List Bytes) :
    (s.after history).options = s.options :=
  after_induction (P := fun t => t.options = s.options) rfl (fun _ _ h => h) history

/-- A session never gains, loses or reorders candidates. -/
@[simp] theorem after_candidates (s : Session) (history : List Bytes) :
    (s.after history).haystacks.map (·.candidate) = s.haystacks.map (·.candidate) := by
  refine after_induction (P := fun t => t.haystacks.map (·.candidate)
    = s.haystacks.map (·.candidate)) rfl (fun t query h => ?_) history
  rw [run_haystacks, refreshed_candidates, h]

/-! ## How a session starts -/

/-- The session over a corpus in which nothing is known yet. -/
def initial (corpus : Corpus) (options : SearchOptions) : Session where
  options := { options with threads := min options.threads SearchOptions.maxThreads }
  haystacks := corpus.toList.map fun candidate => { candidate }

@[simp] theorem initial_candidates (corpus : Corpus) (options : SearchOptions) :
    (initial corpus options).haystacks.map (·.candidate) = corpus.toList := by
  unfold initial
  rw [List.map_map]
  exact List.map_id _

/-- A session starts when something may be returned and somebody may search. -/
theorem start_eq_ok_iff {corpus : Corpus} {options : SearchOptions} {s : Session} :
    start corpus options = .ok s
      ↔ 1 ≤ options.limit ∧ 1 ≤ options.threads ∧ s = initial corpus options := by
  by_cases hlimit : options.limit = 0
  · have herror : start corpus options = .error .invalidLimit := by
      simp [start, SearchOptions.accept, hlimit, bind, Except.bind]
    rw [herror]
    exact ⟨fun h => by simp at h, fun h => absurd h.1 (by omega)⟩
  by_cases hthreads : options.threads = 0
  · have herror : start corpus options = .error .invalidThreadCount := by
      simp [start, SearchOptions.accept, hlimit, hthreads, bind, Except.bind]
    rw [herror]
    exact ⟨fun h => by simp at h, fun h => absurd h.2.1 (by omega)⟩
  · have hok : start corpus options = .ok (initial corpus options) := by
      simp [start, SearchOptions.accept, hlimit, hthreads, bind, Except.bind, pure, Except.pure,
        initial]
    rw [hok, Except.ok.injEq]
    constructor
    · intro h
      exact ⟨by omega, by omega, h.symm⟩
    · intro h
      exact h.2.2.symm

end Session

end FuzzyFinder
