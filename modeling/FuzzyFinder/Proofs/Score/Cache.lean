import FuzzyFinder.Proofs.Score.Rate

/-!
# FuzzyFinder — cached letters change no score

Whoever rates a candidate for one query after the other keeps its letters between the calls. A call
finds nothing or the candidate's letters in the cache, and leaves it so (`knows_iff`,
`rateBytes_snd_eq`); the rating is the score either way (`Inquiry.rate_fst`). So a run of calls
answers as if nothing had been kept (`rateAll_spec`), wherever on its way the letters have been
collected.
-/

namespace FuzzyFinder

variable {candidate : Bytes} {known : Option LetterSet}

/-- A prepared query, with switches of the case mode it has been prepared for. -/
structure Inquiry where
  needle : Needle
  options : ScoreOptions
  prepared : ∃ query mode ignoreSpaces, needle = .ofQuery query mode ignoreSpaces
  matching : options.caseSensitive = needle.caseSensitive

namespace Inquiry

/-- Prepares a query, and sets the case mode of the switches accordingly. -/
def ofQuery (query : Bytes) (mode : CaseMatching) (ignoreSpaces : Bool) (options : ScoreOptions) :
    Inquiry where
  needle := .ofQuery query mode ignoreSpaces
  options := { options with caseSensitive := mode.isSensitive query }
  prepared := ⟨query, mode, ignoreSpaces, rfl⟩
  matching := rfl

theorem letters_eq (i : Inquiry) : i.needle.letters = .ofBytes i.needle.bytes := by
  obtain ⟨needle, options, ⟨query, mode, ignoreSpaces, hneedle⟩, -⟩ := i
  subst hneedle
  rfl

theorem normalize_bytes (i : Inquiry) : i.options.normalize i.needle.bytes = i.needle.bytes := by
  obtain ⟨needle, options, ⟨query, mode, ignoreSpaces, hneedle⟩, hmatching⟩ := i
  subst hneedle
  exact normalize_ofQuery hmatching

/-- **The rating of a candidate is its score**, whether its letters are known or not. -/
theorem rate_fst (i : Inquiry) (h : Knows candidate known) :
    (rate candidate known i.needle i.options).1 = score candidate i.needle.bytes i.options := by
  rw [score_eq_rateBytes, normalize_bytes, rate, letters_eq]
  exact rateBytes_fst_eq_none h

end Inquiry

/-! ## One call after the other -/

/-- Rates a candidate for each of some inquiries, with the letters that the calls before have left;
the second result is what is known in the end. -/
def rateAll (candidate : Bytes) : List Inquiry → Option LetterSet → List Score × Option LetterSet
  | [], known => ([], known)
  | i :: rest, known =>
    let (rating, known) := rate candidate known i.needle i.options
    let (ratings, known) := rateAll candidate rest known
    (rating :: ratings, known)

theorem rateAll_spec {inquiries : List Inquiry} (h : Knows candidate known) :
    (rateAll candidate inquiries known).1
        = inquiries.map (fun i => score candidate i.needle.bytes i.options)
      ∧ Knows candidate (rateAll candidate inquiries known).2 := by
  induction inquiries generalizing known with
  | nil => exact ⟨rfl, h⟩
  | cons i rest ih =>
    -- what the first call leaves in the cache is the truth again
    have hknows : Knows candidate (rate candidate known i.needle i.options).2 := by
      unfold rate
      exact rateBytes_snd_knows h
    obtain ⟨hratings, hafter⟩ := ih hknows
    refine ⟨?_, hafter⟩
    show (rate candidate known i.needle i.options).1
        :: (rateAll candidate rest (rate candidate known i.needle i.options).2).1 = _
    rw [i.rate_fst h, hratings, List.map_cons]

theorem knows_iff : Knows candidate known ↔ known = none ∨ known = some (.ofBytes candidate) := by
  cases known with
  | none => simp [Knows]
  | some seen => simp [Knows]

/-- **Cached letters change no score.** A call finds the cache empty or filled with the candidate's
letters, answers with the score, and leaves the cache alone or filled; so does a run of calls that
begins with an empty cache. Where the letters turn a needle away, the pass from the right fails in
both case modes; and where they end that pass early, it returns the same positions. -/
theorem rate_eq_score (candidate : Bytes) :
    (∀ (i : Inquiry) (known : Option LetterSet),
        known = none ∨ known = some (.ofBytes candidate) →
          (rate candidate known i.needle i.options).1 = score candidate i.needle.bytes i.options
            ∧ ((rate candidate known i.needle i.options).2 = known
              ∨ (rate candidate known i.needle i.options).2 = some (.ofBytes candidate)))
      ∧ (∀ inquiries : List Inquiry,
        (rateAll candidate inquiries none).1
            = inquiries.map (fun i => score candidate i.needle.bytes i.options)
          ∧ ((rateAll candidate inquiries none).2 = none
            ∨ (rateAll candidate inquiries none).2 = some (.ofBytes candidate)))
      ∧ (∀ (caseSensitive : Bool) (needle : Bytes),
        (LetterSet.ofBytes candidate).contains (.ofBytes needle) = false →
          (rightmost caseSensitive candidate needle none).1 = none)
      ∧ ∀ (caseSensitive : Bool) (needle : Bytes),
        (rightmost caseSensitive candidate needle (some (.ofBytes candidate))).1
          = (rightmost caseSensitive candidate needle none).1 := by
  refine ⟨?_, ?_, ?_, ?_⟩
  · intro i known hknown
    refine ⟨i.rate_fst (knows_iff.mpr hknown), ?_⟩
    unfold rate
    exact rateBytes_snd_eq _
  · intro inquiries
    obtain ⟨hratings, hknows⟩ := @rateAll_spec candidate none inquiries knows_none
    exact ⟨hratings, knows_iff.mp hknows⟩
  · intro caseSensitive needle hlacks
    exact rightmost_eq_none_of_letters none hlacks
  · intro caseSensitive needle
    exact rightmost_fst_eq caseSensitive

/-- The query `zz` misses `src/Foo.rs` and fills the cache; `foo` is scored with it as without it. -/
theorem rate_eq_score_of_miss :
    let candidate := Bytes.ofString "src/Foo.rs"
    let zz := Inquiry.ofQuery (Bytes.ofString "zz") .smart true {}
    let foo := Inquiry.ofQuery (Bytes.ofString "foo") .smart true {}
    (rate candidate (some (.ofBytes candidate)) foo.needle foo.options).1
        = score candidate foo.needle.bytes foo.options
      ∧ (rateAll candidate [zz, foo] none).1
        = [Score.miss, score candidate foo.needle.bytes foo.options]
      ∧ (rateAll candidate [zz] none).2 = some (.ofBytes candidate)
      ∧ (rightmost true candidate (Bytes.ofString "Z") none).1 = none := by
  intro candidate zz foo
  obtain ⟨hcall, hrun, hlacks, -⟩ := rate_eq_score candidate
  have hmiss : score candidate zz.needle.bytes zz.options = Score.miss := by decide +kernel
  have hratings := (hrun [zz, foo]).1
  rw [List.map_cons, List.map_singleton, hmiss] at hratings
  exact ⟨(hcall foo _ (.inr rfl)).1, hratings, by decide +kernel, hlacks _ _ (by decide +kernel)⟩

end FuzzyFinder
