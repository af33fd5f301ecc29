import FuzzyFinder.Cli.Call
import FuzzyFinder.Proofs.Intake.Stream
import FuzzyFinder.Proofs.Session.FirstRun

/-!
# FuzzyFinder — what is written can be read again

A call that reads the standard input and writes its matches with the same byte behind each that
separates the entries of the input writes something that can be read again. No match holds that
byte, as each of them is cut from a piece of the input. So splitting what was written gives back all
matches that are not empty, in order (`Cli.readStream_write`).

An empty match is lost, for splitting passes over empty entries. It comes about when an entry is as
long as what is dropped from it, and nothing is searched for: then it is always written. So the
matches are read back exactly when something is searched for or no such entry has been taken in
(`Cli.run_readsBack`).
-/

namespace FuzzyFinder

namespace Cli

/-! ## Splitting what was written -/

/-- The pieces of what was written are what was written, and nothing behind the last ending. -/
theorem splitOn_write {d : UInt8} {found : List Bytes} (h : ∀ e ∈ found, d ∉ e) :
    List.splitOn d (write d found) = found ++ [[]] := by
  induction found with
  | nil => exact List.splitOn_nil d
  | cons e found ih =>
    obtain ⟨he, hfound⟩ := List.forall_mem_cons.mp h
    rw [write, List.flatMap_cons, List.append_assoc, List.singleton_append,
      List.splitOn_append_cons_self_of_not_mem he, ← write, ih hfound, List.cons_append]

theorem filter_nonempty_eq_self_iff {found : List Bytes} :
    found.filter (!·.isEmpty) = found ↔ [] ∉ found := by
  rw [List.filter_eq_self]
  constructor
  · intro h hnil
    exact absurd (h [] hnil) (by decide)
  · intro h e he
    rw [Bool.not_eq_true', List.isEmpty_eq_false_iff]
    exact fun hempty => h (hempty ▸ he)

/-- **What was written is read again**, but for what is empty. -/
theorem readStream_write {d : UInt8} {found : List Bytes} (h : ∀ e ∈ found, d ∉ e) {t : Stream}
    (hending : t.ending = .endOfInput) (hbytes : t.bytes = write d found) :
    (readStream t { delimiter := d }).corpus.toList = found.filter (!·.isEmpty)
      ∧ (readStream t { delimiter := d }).error = none := by
  have hfeed : t.feed { delimiter := d } = (found.filter (!·.isEmpty)).map .ok := by
    rw [Stream.feed_of_endOfInput hending, hbytes, splitOn_write h,
      ReadOptions.feed_of_drop_eq_zero rfl, List.filter_append,
      List.filter_cons_of_neg (by simp), List.filter_nil, List.append_nil]
  obtain ⟨hcandidates, herror⟩ := t.readStream_yields { delimiter := d }
  rw [hfeed, Feed.gather_zero] at hcandidates herror
  rw [hcandidates, herror, Feed.candidates_map_ok, Feed.stop_map_ok]
  exact ⟨rfl, rfl⟩

/-! ## Calls -/

variable {w : World} {inv : Invocation} {input : Stream} {s : Session}

/-- A call that only searches leaves the matches of one run behind. -/
theorem run_of_start (hread : w.read (allArguments w) = .ok inv)
    (hstart : Session.start (candidates w inv).corpus (searchOptions w inv) = .ok s) :
    w.run.stdout = write (ending inv) (s.run inv.query).1.results
      ∧ (w.run.exitCode = 0 ↔ (s.run inv.query).1.results ≠ []) := by
  rw [World.run, hread]
  dsimp only
  rw [search, hstart]
  dsimp only
  refine ⟨rfl, ?_⟩
  cases (s.run inv.query).1.results with
  | nil => exact iff_of_false (by decide) (not_not.mpr rfl)
  | cons first rest => exact iff_of_true rfl (List.cons_ne_nil _ _)

/-- What a call with `input` to read that matches `found` leaves behind, for one who reads its
output. -/
structure ReadsBack (w : World) (inv : Invocation) (input : Stream) (found : List Bytes) : Prop where
  /-- The exit code tells whether there are matches. -/
  exitCode_eq_zero_iff : w.run.exitCode = 0 ↔ found ≠ []
  /-- Splitting the output gives back every match that is not empty, in order, and no failure. -/
  readStream_eq : ∀ t : Stream, t.ending = .endOfInput → t.bytes = w.run.stdout →
    (readStream t { delimiter := ending inv }).corpus.toList = found.filter (!·.isEmpty)
      ∧ (readStream t { delimiter := ending inv }).error = none
  /-- That is all of them, unless nothing is searched for and the empty candidate is there. -/
  readStream_eq_iff : ∀ t : Stream, t.ending = .endOfInput → t.bytes = w.run.stdout →
    ((readStream t { delimiter := ending inv }).corpus.toList = found
      ↔ ((searchOptions w inv).needle inv.query).bytes ≠ [] ∨ [] ∉ (candidates w inv).corpus.toList)
  /-- The empty candidate is what dropping leaves of an entry of just that length. -/
  of_nil_mem : [] ∈ (candidates w inv).corpus.toList →
    0 < inv.drop ∧ ∃ piece ∈ List.splitOn (ending inv) input.bytes, piece.length = inv.drop

/-- **When the output of a call can be read back.** -/
theorem run_readsBack (hread : w.read (allArguments w) = .ok inv) (hcommand : inv.command = none)
    (hdirectory : inv.directory = none) (hstdin : w.stdin = .piped input)
    (hseparator : inv.read0 = inv.print0)
    (hstart : Session.start (candidates w inv).corpus (searchOptions w inv) = .ok s) :
    ReadsBack w inv input (s.run inv.query).1.results := by
  obtain ⟨hstdout, hexit⟩ := run_of_start hread hstart
  obtain ⟨hlimit, -, rfl⟩ := Session.start_eq_ok_iff.mp hstart
  -- all candidates are cut from pieces of the standard input
  have hcut : ∀ c ∈ (candidates w inv).corpus.toList,
      ∃ piece ∈ List.splitOn (ending inv) input.bytes,
        piece ≠ [] ∧ inv.drop ≤ piece.length ∧ c = piece.drop inv.drop := by
    intro c hc
    have hcandidates : candidates w inv = readStream input (readOptions inv) := by
      rw [candidates, hcommand, hdirectory, hstdin]
    have hdelimiter : (readOptions inv).delimiter = ending inv := by
      rw [ending, ← hseparator]
      rfl
    rw [hcandidates] at hc
    rw [← hdelimiter]
    exact input.exists_piece_of_mem (readOptions inv) hc
  -- so no match holds the byte that is written behind it
  have hfree : ∀ c ∈ ((Session.initial (candidates w inv).corpus (searchOptions w inv)).run
      inv.query).1.results, ending inv ∉ c := by
    intro c hc
    obtain ⟨piece, hpiece, -, -, rfl⟩ := hcut c (Session.mem_corpus_of_mem_results hlimit hc)
    exact fun hmem => not_mem_of_mem_splitOn hpiece (List.mem_of_mem_drop hmem)
  have hback := fun (t : Stream) (hending : t.ending = .endOfInput)
    (hbytes : t.bytes = w.run.stdout) => readStream_write hfree hending (hbytes.trans hstdout)
  refine ⟨hexit, hback, fun t hending hbytes => ?_, fun hnil => ?_⟩
  · rw [(hback t hending hbytes).1, filter_nonempty_eq_self_iff, Session.nil_mem_results_iff hlimit,
      not_and_or]
  · -- dropping leaves nothing of a piece that is not longer than what is dropped
    obtain ⟨piece, hpiece, hne, hle, hdrop⟩ := hcut [] hnil
    have hlength : piece.length ≤ inv.drop := List.drop_eq_nil_iff.mp hdrop.symm
    have hpos : 0 < piece.length := List.length_pos_of_ne_nil hne
    exact ⟨by omega, piece, hpiece, by omega⟩

/-- A call that drops two bytes, given one entry of two bytes. -/
def dropsAll : World where
  arguments := ["--drop", "2"]
  split := fun _ => none
  read
    | ["--drop", "2"] => .ok { drop := 2 }
    | _ => .error { exitCode := 2 }
  stdin := .piped (.whole [0x61, 0x62, 0x0a])
  walker := fun _ _ => []
  command := fun _ _ => .notStarted ""

/-- The call says that it has matches, and they cannot be read back. -/
theorem run_readsBack_of_dropsAll :
    ∃ s, dropsAll.read (allArguments dropsAll) = .ok { drop := 2 }
      ∧ Session.start (candidates dropsAll { drop := 2 }).corpus
          (searchOptions dropsAll { drop := 2 }) = .ok s
      ∧ ReadsBack dropsAll { drop := 2 } (.whole [0x61, 0x62, 0x0a]) (s.run []).1.results
      ∧ dropsAll.run.exitCode = 0
      ∧ (readStream (.whole dropsAll.run.stdout) {}).corpus.toList ≠ (s.run []).1.results := by
  have hback : ReadsBack dropsAll { drop := 2 } _ _ := run_readsBack rfl rfl rfl rfl rfl rfl
  have hempty : [] ∈ (candidates dropsAll { drop := 2 }).corpus.toList := List.mem_singleton.mpr rfl
  have hlost := mt (hback.readStream_eq_iff (.whole dropsAll.run.stdout) rfl (List.append_nil _)).mp
    (not_or.mpr ⟨not_not.mpr rfl, not_not.mpr hempty⟩)
  have hfound := (@Session.nil_mem_results_iff _ (searchOptions dropsAll { drop := 2 }) []
    (by decide)).mpr ⟨rfl, hempty⟩
  exact ⟨_, rfl, rfl, hback, hback.exitCode_eq_zero_iff.mpr (List.ne_nil_of_mem hfound), hlost⟩

end Cli

end FuzzyFinder
