import FuzzyFinder.Proofs.Intake.Command
import FuzzyFinder.Proofs.Intake.Files
import Mathlib.Algebra.Ring.Nat

/-!
# FuzzyFinder — what is collected tiles its buffer

Producers only ever add candidates behind those that are there. So the spans tile the buffer
(`Collected.Tiles`): each begins where the one before ends, and nothing is left over; adding a
candidate keeps this (`Collected.Tiles.push`). The corpus therefore adopts what a producer has
collected whenever it stops and for whatever reason, and what went wrong is reported as it is, never
as a layout that was refused (`collected_adopted`).
-/

namespace FuzzyFinder

namespace Collected

variable {c : Collected} {entries : List Bytes}

/-- The candidates `entries` fill the buffer one behind the other, and there is a span for each. -/
structure Tiles (c : Collected) (entries : List Bytes) : Prop where
  buffer_eq : c.buffer.toList = entries.flatten
  size_eq : c.spans.size = entries.length
  /-- A span begins where the lengths of the earlier candidates add up to. -/
  span_eq : ∀ (i : Nat) (e : Bytes), entries[i]? = some e →
    c.spans[i]? = some ⟨((entries.take i).map List.length).sum, e.length⟩

theorem empty_tiles : Tiles {} [] := ⟨rfl, rfl, by simp⟩

theorem Tiles.size_buffer (h : c.Tiles entries) :
    c.buffer.size = (entries.map List.length).sum := by
  rw [← Array.length_toList, h.buffer_eq, List.length_flatten]

/-- **One more candidate continues the tiling.** -/
theorem Tiles.push (h : c.Tiles entries) (e : Bytes) : (c.push e).Tiles (entries ++ [e]) where
  buffer_eq := by
    rw [Collected.push, Array.toList_appendList, h.buffer_eq, List.flatten_append,
      List.flatten_singleton]
  size_eq := by
    rw [Collected.push, Array.size_push, h.size_eq, List.length_append, List.length_singleton]
  span_eq i e' hentry := by
    change (c.spans.push ⟨c.buffer.size, e.length⟩)[i]? = _
    rcases Nat.lt_or_ge i entries.length with hold | hnew
    · -- the spans from before stay as they are
      rw [List.getElem?_append_left hold] at hentry
      rw [Array.getElem?_push_lt (by rw [h.size_eq]; exact hold), ← Array.getElem?_eq_getElem,
        h.span_eq i e' hentry, List.take_append_of_le_length (Nat.le_of_lt hold)]
    · -- the new one begins where the buffer has ended so far
      obtain ⟨hi, -⟩ := List.getElem?_eq_some_iff.mp hentry
      rw [List.length_append, List.length_singleton] at hi
      obtain rfl : i = entries.length := by omega
      rw [List.getElem?_concat_length, Option.some_inj] at hentry
      rw [← h.size_eq, Array.getElem?_push_size, h.size_eq, List.take_left, h.size_buffer, hentry]

/-- However many candidates are added, they tile the buffer. -/
theorem ofList_tiles (l : List Bytes) : (ofList l).Tiles l := by
  induction l using List.reverseRecOn with
  | nil => exact empty_tiles
  | append_singleton l e ih =>
    rw [ofList_concat]
    exact ih.push e

/-- A candidate that has lost all its bytes still has a span, though it takes no room. -/
example : (ofList [[0x61, 0x62], [], [0x63]]).spans = #[⟨0, 2⟩, ⟨2, 0⟩, ⟨2, 1⟩] := rfl

end Collected

/-! ## What goes wrong -/

/-- An intake reports only what its feed has brought. -/
theorem Feed.Yields.error_mem {maxFiles : Nat} {feed : Feed} {r : ScanResult} {e : ScanError}
    (h : feed.Yields maxFiles r) (he : r.error = some e) : .error e ∈ feed := by
  rw [h.error_eq, error_gather_eq_some_iff] at he
  obtain ⟨front, ⟨rest, rfl⟩, -⟩ := he
  exact List.mem_append_right _ List.mem_cons_self

theorem ReadOptions.layout_not_mem_feed (o : ReadOptions) (pieces : List Bytes)
    (reason : MatchError) : .error (.layout reason) ∉ o.feed pieces := by
  intro hmem
  obtain ⟨piece, -, hcut⟩ := List.mem_map.mp hmem
  rw [cut] at hcut
  split at hcut
  · cases Except.error.inj hcut
  · cases hcut

theorem Stream.layout_not_mem_feed (s : Stream) (o : ReadOptions) (reason : MatchError) :
    .error (.layout reason) ∉ s.feed o := by
  rw [feed]
  cases s.ending with
  | endOfInput => exact o.layout_not_mem_feed _ reason
  | failure cause =>
    intro hmem
    rcases List.mem_append.mp hmem with hmem | hmem
    · exact o.layout_not_mem_feed _ reason hmem
    · cases Except.error.inj (List.mem_singleton.mp hmem)

theorem CommandRun.layout_not_mem_feed (run : CommandRun) (o : ReadOptions) (reason : MatchError) :
    .error (.layout reason) ∉ run.feed o := by
  intro hmem
  cases run with
  | notStarted cause => cases Except.error.inj (List.mem_singleton.mp hmem)
  | ended output status =>
    rcases List.mem_append.mp hmem with hmem | hmem
    · exact output.layout_not_mem_feed o reason hmem
    split at hmem
    · exact absurd hmem List.not_mem_nil
    · cases Except.error.inj (List.mem_singleton.mp hmem)
  | lost output cause =>
    rcases List.mem_append.mp hmem with hmem | hmem
    · exact output.layout_not_mem_feed o reason hmem
    · cases Except.error.inj (List.mem_singleton.mp hmem)

theorem layout_not_mem_walkFeed (walk : List WalkResult) (reason : MatchError) :
    .error (.layout reason) ∉ walkFeed walk := by
  intro hmem
  obtain ⟨result, -, hbrought⟩ := List.mem_filterMap.mp hmem
  cases result with
  | error fault => cases Except.error.inj (Option.some_inj.mp hbrought)
  | ok found =>
    rw [WalkResult.brought?] at hbrought
    split at hbrought
    · cases hbrought
    · cases Option.some_inj.mp hbrought

/-! ## Adoption -/

namespace ScanResult

/-- The corpus of an intake has adopted what was collected in `c`. -/
structure Adopts (r : ScanResult) (c : Collected) : Prop where
  /-- What was collected is the candidates of the corpus, added one after the other. -/
  collected_eq : c = .ofList r.corpus.toList
  /-- Nothing else can have been added on the way to `c`. -/
  toList_eq : ∀ entries, c = .ofList entries → r.corpus.toList = entries
  tiles : c.Tiles r.corpus.toList
  ofSlab_eq : Corpus.ofSlab c.buffer c.spans.toList = .ok r.corpus
  eq_ofCollected : r = .ofCollected c r.error
  error_ne : ∀ reason, r.error ≠ some (.layout reason)
  storage_eq : r.corpus.storage = .borrowed (r.corpus.toList.map List.length).sum

theorem ofCollected_adopts {c : Collected} {error : Option ScanError} (hadded : ∃ l, c = .ofList l)
    (herror : ∀ reason, (ofCollected c error).error ≠ some (.layout reason)) :
    (ofCollected c error).Adopts c := by
  obtain ⟨l, rfl⟩ := hadded
  have hlist : (ofCollected (.ofList l) error).corpus.toList = l := toList_ofCollected l error
  have htiles := Collected.ofList_tiles l
  refine ⟨?_, ?_, ?_, ?_, ?_, herror, ?_⟩
  · rw [hlist]
  · intro entries hentries
    rw [hentries]
    exact toList_ofCollected entries error
  · rw [hlist]
    exact htiles
  · rw [ofCollected_ofList, Corpus.ofSlab,
      (Corpus.firstInvalid_eq_none_iff ..).mpr fun _ => Collected.stop_le_of_mem_spans]
  · rw [error_ofCollected]
  · rw [hlist, ← htiles.size_buffer, ofCollected_ofList]
    rfl

end ScanResult

/-- **What a producer has collected is adopted**, whatever it reads and however it stops. This goes
for streams, for commands that were started, whether or not their end could be found out, and for
walks. -/
theorem collected_adopted :
    (∀ (s : Stream) (o : ReadOptions), (readStream s o).Adopts (s.collect o).1) ∧
    (∀ (output : Stream) (status : ExitStatus) (o : ReadOptions),
      (readCommand (.ended output status) o).Adopts (output.collect o).1) ∧
    (∀ (output : Stream) (cause : String) (o : ReadOptions),
      (readCommand (.lost output cause) o).Adopts (output.collect o).1) ∧
    (∀ (walk : List WalkResult) (maxFiles : Nat),
      (readWalk walk maxFiles).Adopts (collectFiles maxFiles {} walk).1) := by
  have hstream : ∀ (s : Stream) (o : ReadOptions), ∃ l, (s.collect o).1 = .ofList l :=
    fun s o => ⟨_, congrArg Prod.fst (s.collect_eq o)⟩
  refine ⟨fun s o => ?_, fun output status o => ?_, fun output cause o => ?_,
    fun walk maxFiles => ?_⟩
  · apply ScanResult.ofCollected_adopts (hstream s o)
    intro reason hreason
    exact s.layout_not_mem_feed o reason ((s.readStream_yields o).error_mem hreason)
  · apply ScanResult.ofCollected_adopts (hstream output o)
    intro reason hreason
    exact CommandRun.layout_not_mem_feed _ o reason
      ((CommandRun.readCommand_ended_yields output status o).error_mem hreason)
  · apply ScanResult.ofCollected_adopts (hstream output o)
    intro reason hreason
    -- it is the output that has failed, or else the end that could not be found out
    change (readCommand (.lost output cause) o).error = _ at hreason
    rw [(CommandRun.readCommand_lost output cause o).2, Option.some_inj] at hreason
    cases hfailed : (readStream output o).error with
    | none =>
      rw [hfailed] at hreason
      cases hreason
    | some e =>
      rw [hfailed] at hreason
      obtain rfl : e = .layout reason := hreason
      exact output.layout_not_mem_feed o reason ((output.readStream_yields o).error_mem hfailed)
  · apply ScanResult.ofCollected_adopts ⟨_, congrArg Prod.fst (collectFiles_ofList maxFiles [] walk)⟩
    intro reason hreason
    exact layout_not_mem_walkFeed walk reason ((readWalk_yields walk maxFiles).error_mem hreason)

end FuzzyFinder
