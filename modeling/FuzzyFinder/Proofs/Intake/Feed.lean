import FuzzyFinder.Intake.Stream
import FuzzyFinder.Proofs.Intake.Collected

/-!
# FuzzyFinder — what a producer makes of its source

A source of candidates is a `Feed`: it brings candidates one after the other, and now and then a
failure. Every producer takes candidates in until something goes wrong or enough of them are there
(`Feed.gather`). What comes of that has a closed form (`Feed.gather_eq`): the candidates in front of
the first failure, and the failure with them, unless the wanted number of candidates is reached
first. So a failure is reported just when it is the first one and stands in front of the last
candidate wanted (`Feed.error_gather_eq_some_iff`). `Feed.Yields` says of an intake that it is what a
feed comes to.
-/

namespace FuzzyFinder

theorem Stop.error?_eq_some_iff {stop : Stop} {e : ScanError} :
    stop.error? = some e ↔ stop = .failed e := by
  cases stop <;> simp [Stop.error?]

/-- What a source brings, in order: candidates and failures. -/
abbrev Feed := List (Except ScanError Bytes)

namespace Feed

/-- The candidates in front of the first failure. -/
def candidates : Feed → List Bytes
  | [] => []
  | .error _ :: _ => []
  | .ok c :: rest => c :: candidates rest

/-- What ends a feed that is read as far as it goes: the first failure, if there is one. -/
def stop : Feed → Stop
  | [] => .exhausted
  | .error e :: _ => .failed e
  | .ok _ :: rest => stop rest

/-- Takes candidates in behind those in `taken` until something goes wrong or `maxFiles` are there,
`0` setting no bound. -/
def gather (maxFiles : Nat) (taken : List Bytes) : Feed → List Bytes × Stop
  | [] => (taken, .exhausted)
  | .error e :: _ => (taken, .failed e)
  | .ok c :: rest =>
    if 0 < maxFiles ∧ maxFiles ≤ (taken ++ [c]).length then (taken ++ [c], .capped)
    else gather maxFiles (taken ++ [c]) rest

variable {maxFiles : Nat} {taken : List Bytes}

theorem candidates_map_ok_append (l : List Bytes) (feed : Feed) :
    candidates (l.map .ok ++ feed) = l ++ candidates feed := by
  induction l with
  | nil => rfl
  | cons c l ih => exact congrArg (c :: ·) ih

theorem stop_map_ok_append (l : List Bytes) (feed : Feed) :
    stop (l.map .ok ++ feed) = stop feed := by
  induction l with
  | nil => rfl
  | cons c l ih => exact ih

theorem candidates_map_ok (l : List Bytes) : candidates (l.map .ok) = l := by
  simpa [candidates] using candidates_map_ok_append l []

theorem stop_map_ok (l : List Bytes) : stop (l.map .ok) = .exhausted := by
  simpa [stop] using stop_map_ok_append l []

theorem ok_mem_of_mem_candidates {feed : Feed} {c : Bytes} (h : c ∈ feed.candidates) :
    .ok c ∈ feed := by
  induction feed with
  | nil => exact absurd h List.not_mem_nil
  | cons brought feed ih =>
    cases brought with
    | error _ => exact absurd h List.not_mem_nil
    | ok c' =>
      rcases List.mem_cons.mp h with rfl | h
      · exact List.mem_cons_self
      · exact List.mem_cons_of_mem _ (ih h)

/-- **What a feed comes to.** If the wanted number is reached, no more is taken and nothing is said
about what would have come; otherwise everything up to the first failure is taken. -/
theorem gather_eq (hroom : maxFiles = 0 ∨ taken.length < maxFiles) (feed : Feed) :
    gather maxFiles taken feed
      = if 0 < maxFiles ∧ maxFiles ≤ taken.length + feed.candidates.length then
          (taken ++ feed.candidates.take (maxFiles - taken.length), .capped)
        else (taken ++ feed.candidates, feed.stop) := by
  induction feed generalizing taken with
  | nil =>
    rw [candidates, List.length_nil, if_neg (by omega), List.append_nil]
    rfl
  | cons brought feed ih =>
    cases brought with
    | error e =>
      rw [candidates, List.length_nil, if_neg (by omega), List.append_nil]
      rfl
    | ok c =>
      rw [gather, candidates, stop, List.length_append, List.length_singleton, List.length_cons]
      by_cases hfull : 0 < maxFiles ∧ maxFiles ≤ taken.length + 1
      · -- `c` is the last candidate wanted
        have hreached : 0 < maxFiles ∧ maxFiles ≤ taken.length + ((candidates feed).length + 1) :=
          ⟨hfull.1, by omega⟩
        rw [if_pos hfull, if_pos hreached, show maxFiles - taken.length = 1 by omega,
          List.take_succ_cons, List.take_zero]
      · -- there is room for more behind `c`
        have hroom' : maxFiles = 0 ∨ (taken ++ [c]).length < maxFiles := by
          rw [List.length_append, List.length_singleton]
          omega
        rw [if_neg hfull, ih hroom', List.length_append, List.length_singleton, Nat.add_assoc,
          Nat.add_comm 1, List.append_assoc, List.append_assoc, List.singleton_append,
          List.singleton_append]
        by_cases hreached : 0 < maxFiles ∧ maxFiles ≤ taken.length + ((candidates feed).length + 1)
        · rw [if_pos hreached, if_pos hreached, ← List.take_succ_cons,
            show maxFiles - (taken.length + 1) + 1 = maxFiles - taken.length by omega]
        · rw [if_neg hreached, if_neg hreached]

theorem gather_zero (feed : Feed) : gather 0 [] feed = (feed.candidates, feed.stop) := by
  rw [gather_eq (.inl rfl), if_neg (fun h => absurd h.1 (Nat.lt_irrefl 0)), List.nil_append]

/-- The first failure of a feed is `e`, and the candidates in `front` stand before it. -/
def FailsBehind (feed : Feed) (front : List Bytes) (e : ScanError) : Prop :=
  ∃ rest, feed = front.map .ok ++ .error e :: rest

theorem failsBehind_iff {feed : Feed} {front : List Bytes} {e : ScanError} :
    feed.FailsBehind front e ↔ feed.candidates = front ∧ feed.stop = .failed e := by
  constructor
  · rintro ⟨rest, rfl⟩
    rw [candidates_map_ok_append, stop_map_ok_append, candidates, stop, List.append_nil]
    exact ⟨rfl, rfl⟩
  · rintro ⟨rfl, hstop⟩
    induction feed with
    | nil => exact absurd hstop nofun
    | cons brought feed ih =>
      cases brought with
      | error e' =>
        obtain rfl := Stop.failed.inj hstop
        exact ⟨feed, rfl⟩
      | ok c =>
        obtain ⟨rest, hrest⟩ := ih hstop
        exact ⟨rest, congrArg (.ok c :: ·) hrest⟩

/-- **What is reported** is the first failure, and it is unless the wanted number of candidates stands
in front of it. -/
theorem error_gather_eq_some_iff (feed : Feed) (e : ScanError) :
    (gather maxFiles [] feed).2.error? = some e
      ↔ ∃ front, feed.FailsBehind front e ∧ (maxFiles = 0 ∨ front.length < maxFiles) := by
  simp only [failsBehind_iff, and_assoc, exists_eq_left']
  rw [gather_eq (Nat.eq_zero_or_pos _), List.length_nil, Nat.zero_add]
  by_cases hreached : 0 < maxFiles ∧ maxFiles ≤ feed.candidates.length
  · rw [if_pos hreached]
    exact iff_of_false nofun fun h => by omega
  · rw [if_neg hreached, Stop.error?_eq_some_iff]
    exact (and_iff_left (by omega)).symm

theorem stop_ne_capped (feed : Feed) : feed.stop ≠ .capped := by
  induction feed with
  | nil => exact nofun
  | cons brought feed ih =>
    cases brought with
    | error _ => exact nofun
    | ok _ => exact ih

/-- Taking in stops for the wanted number of candidates just when that many have been taken. -/
theorem gather_snd_eq_capped_iff (hroom : maxFiles = 0 ∨ taken.length < maxFiles) (feed : Feed) :
    (gather maxFiles taken feed).2 = .capped
      ↔ 0 < maxFiles ∧ maxFiles ≤ (gather maxFiles taken feed).1.length := by
  rw [gather_eq hroom]
  split
  case isTrue hreached =>
    have hlength : maxFiles
        ≤ (taken ++ feed.candidates.take (maxFiles - taken.length)).length := by
      rw [List.length_append, List.length_take]
      omega
    exact iff_of_true rfl ⟨hreached.1, hlength⟩
  case isFalse hshort =>
    rw [← List.length_append] at hshort
    exact iff_of_false (stop_ne_capped feed) hshort

theorem ok_mem_of_mem_gather {feed : Feed} {c : Bytes} (h : c ∈ (gather maxFiles [] feed).1) :
    .ok c ∈ feed := by
  rw [gather_eq (Nat.eq_zero_or_pos _)] at h
  split at h
  · exact ok_mem_of_mem_candidates (List.mem_of_mem_take h)
  · exact ok_mem_of_mem_candidates h

/-- Taking in one feed behind the other. -/
theorem gather_append (feed feed' : Feed) :
    gather maxFiles taken (feed ++ feed') = match gather maxFiles taken feed with
      | (l, .exhausted) => gather maxFiles l feed'
      | (l, .capped) => (l, .capped)
      | (l, .failed e) => (l, .failed e) := by
  induction feed generalizing taken with
  | nil => rfl
  | cons brought feed ih =>
    cases brought with
    | error e => rfl
    | ok c =>
      rw [List.cons_append, gather, gather]
      split
      · rfl
      · exact ih

/-- What has been taken stays taken. -/
theorem prefix_gather (feed : Feed) : taken <+: (gather maxFiles taken feed).1 := by
  induction feed generalizing taken with
  | nil => exact List.prefix_refl taken
  | cons brought feed ih =>
    cases brought with
    | error e => exact List.prefix_refl taken
    | ok c =>
      rw [gather]
      split
      · exact List.prefix_append taken [c]
      · exact (List.prefix_append taken [c]).trans ih

/-- The more a feed brings, the more is taken. -/
theorem gather_prefix_append (feed feed' : Feed) :
    (gather maxFiles taken feed).1 <+: (gather maxFiles taken (feed ++ feed')).1 := by
  rw [gather_append]
  rcases gather maxFiles taken feed with ⟨l, _ | _ | e⟩
  · exact prefix_gather feed'
  · exact List.prefix_refl l
  · exact List.prefix_refl l

/-- **A failure behind everything else** changes nothing about the candidates. It is reported unless
something went wrong before it or enough candidates were there. -/
theorem gather_append_error (feed : Feed) (e : ScanError) :
    (gather maxFiles [] (feed ++ [.error e])).1 = (gather maxFiles [] feed).1 ∧
    (gather maxFiles [] (feed ++ [.error e])).2.error? = (gather maxFiles [] feed).2.error?.or
      (if 0 < maxFiles ∧ maxFiles ≤ (gather maxFiles [] feed).1.length then none else some e) := by
  have hcapped := @gather_snd_eq_capped_iff maxFiles [] (Nat.eq_zero_or_pos _) feed
  rw [gather_append]
  generalize gather maxFiles [] feed = r at hcapped ⊢
  obtain ⟨l, _ | _ | e'⟩ := r
  · -- the feed is read as far as it goes, so the failure is met
    rw [if_neg (mt hcapped.mpr nofun)]
    exact ⟨rfl, rfl⟩
  · rw [if_pos (hcapped.mp rfl)]
    exact ⟨rfl, rfl⟩
  · exact ⟨rfl, rfl⟩

/-- An intake is what the feed comes to when `maxFiles` candidates are wanted. -/
structure Yields (maxFiles : Nat) (feed : Feed) (r : ScanResult) : Prop where
  candidates_eq : r.corpus.toList = (feed.gather maxFiles []).1
  error_eq : r.error = (feed.gather maxFiles []).2.error?

theorem yields_ofCollected (maxFiles : Nat) (feed : Feed) :
    feed.Yields maxFiles
      (.ofCollected (.ofList (feed.gather maxFiles []).1) (feed.gather maxFiles []).2.error?) where
  candidates_eq := ScanResult.toList_ofCollected ..
  error_eq := ScanResult.error_ofCollected ..

end Feed

end FuzzyFinder
