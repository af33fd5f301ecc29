import FuzzyFinder.Proofs.Intake.Splitting
import FuzzyFinder.Proofs.Intake.Truncation

/-!
# FuzzyFinder — failures behind the candidates

A stream may fail when some of its bytes have been delivered, and a command may end badly when all of
its output has. Both are failures behind everything else that a source brings, so the candidates stay
what they are without them (`Feed.gather_append_error`). What a failing stream brings are the pieces
of its data that a delivered delimiter ends (`Bytes.endedPieces`, `readStream_failing`); a command
brings what its output brings, and the only status that is ever reported is its own
(`readCommand_agrees`).
-/

namespace FuzzyFinder

/-! ## Pieces that have come to their end -/

/-- The pieces of some data that are ended by a delimiter among its first `n` bytes: one for each of
these delimiters. -/
def Bytes.endedPieces (d : UInt8) (n : Nat) (data : Bytes) : List Bytes :=
  (List.splitOn d data).take ((data.take n).count d)

theorem dropLast_modifyHead {α : Type} (f : α → α) (l : List α) :
    (l.modifyHead f).dropLast = l.dropLast.modifyHead f := by
  rcases l with _ | ⟨a, _ | ⟨b, l⟩⟩ <;> rfl

/-- All pieces of a beginning but the last one are pieces of the whole. -/
theorem dropLast_splitOn (d : UInt8) (front back : Bytes) :
    (List.splitOn d front).dropLast = (List.splitOn d (front ++ back)).take (front.count d) := by
  induction front with
  | nil => rw [List.splitOn_nil, List.count_nil, List.take_zero, List.dropLast_singleton]
  | cons b front ih =>
    rw [List.cons_append, List.splitOn_cons_eq_if_modifyHead, List.splitOn_cons_eq_if_modifyHead,
      List.count_cons]
    by_cases hb : (b == d) = true
    · rw [if_pos hb, if_pos hb, if_pos hb, List.dropLast_cons_of_ne_nil (List.splitOn_ne_nil d front),
        List.take_succ_cons, ih]
    · rw [if_neg hb, if_neg hb, if_neg hb, dropLast_modifyHead, ih, Nat.add_zero, List.take_modifyHead]

theorem dropLast_splitOn_take (d : UInt8) (n : Nat) (data : Bytes) :
    (List.splitOn d (data.take n)).dropLast = Bytes.endedPieces d n data := by
  rw [dropLast_splitOn d (data.take n) (data.drop n), List.take_append_drop, Bytes.endedPieces]

theorem exists_append_of_mem_dropLast (d : UInt8) {pieces : List Bytes} {piece : Bytes}
    (h : piece ∈ pieces.dropLast) :
    ∃ front back, List.intercalate [d] pieces = front ++ piece ++ d :: back := by
  induction pieces with
  | nil => exact absurd h List.not_mem_nil
  | cons first pieces ih =>
    rcases pieces with _ | ⟨second, pieces⟩
    · exact absurd h List.not_mem_nil
    rw [List.dropLast_cons_cons] at h
    rw [List.intercalate_cons_cons]
    rcases List.mem_cons.mp h with rfl | h
    · exact ⟨[], List.intercalate [d] (second :: pieces), by simp⟩
    · obtain ⟨front, back, heq⟩ := ih h
      exact ⟨first ++ [d] ++ front, back, by simp [heq]⟩

/-- A piece that has come to its end is followed by a delimiter. -/
theorem exists_append_of_mem_endedPieces {d : UInt8} {n : Nat} {data piece : Bytes}
    (h : piece ∈ Bytes.endedPieces d n data) :
    ∃ front back, data.take n = front ++ piece ++ d :: back := by
  rw [← dropLast_splitOn_take] at h
  obtain ⟨front, back, heq⟩ := exists_append_of_mem_dropLast d h
  rw [List.intercalate_splitOn] at heq
  exact ⟨front, back, heq⟩

/-! ## Streams -/

namespace Stream

variable {s : Stream} {o : ReadOptions}

theorem feed_of_failure {data : Bytes} {n : Nat} {reason : String}
    (hending : s.ending = .failure reason) (hbytes : s.bytes = data.take n) :
    s.feed o = o.feed (Bytes.endedPieces o.delimiter n data) ++ [.error (.read reason)] := by
  rw [feed, hending, ReadOptions.feedTo, hbytes, dropLast_splitOn_take]

end Stream

/-- **A failing read keeps what came before.** A stream that delivers the first `n` bytes and then
fails brings the candidates that those entries make which a delivered delimiter ends; they are the
first of the candidates that all of the data brings. The failure is reported unless an entry was too
short or enough candidates were there. -/
theorem readStream_failing {complete failing : Stream} {n : Nat} {reason : String} (o : ReadOptions)
    (hcomplete : complete.ending = .endOfInput) (hfailing : failing.ending = .failure reason)
    (hbytes : failing.bytes = complete.bytes.take n) :
    let entries := (Bytes.endedPieces o.delimiter n complete.bytes).filter (!·.isEmpty)
    (readStream failing o).corpus.toList = o.candidates entries ∧
    (readStream failing o).corpus.toList <+: (readStream complete o).corpus.toList ∧
    (readStream failing o).error = (o.shortfall entries).or
      (if o.cap ≤ (o.candidates entries).length then none else some (.read reason)) ∧
    ∀ c ∈ (readStream failing o).corpus.toList, ∃ front piece back,
      failing.bytes = front ++ piece ++ o.delimiter :: back ∧ o.delimiter ∉ piece
        ∧ c = piece.drop o.drop := by
  intro entries
  obtain ⟨hcandidates, herror⟩ := failing.readStream_yields o
  obtain ⟨hcandidates', -⟩ := complete.readStream_yields o
  obtain ⟨hrule, hrule'⟩ := ReadOptions.gather_map_cut (o := o) entries
  rw [Stream.feed_of_failure hfailing hbytes] at hcandidates herror
  obtain ⟨hlate, hlate'⟩ := @Feed.gather_append_error o.maxFiles
    (o.feed (Bytes.endedPieces o.delimiter n complete.bytes)) (.read reason)
  have hkept : (readStream failing o).corpus.toList = o.candidates entries :=
    hcandidates.trans (hlate.trans hrule)
  refine ⟨hkept, ?_, ?_, ?_⟩
  · -- the pieces that have come to their end are the first pieces of the data
    obtain ⟨later, hlater⟩ : Bytes.endedPieces o.delimiter n complete.bytes
        <+: List.splitOn o.delimiter complete.bytes := List.take_prefix _ _
    rw [hcandidates, hlate, hcandidates', Stream.feed_of_endOfInput hcomplete, ← hlater,
      ReadOptions.feed_append]
    exact Feed.gather_prefix_append _ _
  · rw [herror, hlate', ← hrule, ← hrule']
    simp only [ReadOptions.cap_le_iff]
    rfl
  · intro c hc
    rw [hkept] at hc
    obtain ⟨piece, hpiece, rfl⟩ := List.mem_map.mp hc
    have hended := (List.mem_filter.mp (List.mem_of_mem_take hpiece)).1
    obtain ⟨front, back, heq⟩ := exists_append_of_mem_endedPieces hended
    exact ⟨front, piece, back, hbytes.trans heq,
      not_mem_of_mem_splitOn (List.mem_of_mem_take hended), rfl⟩

/-- A read fails when the next byte would have been the delimiter behind an entry, which is lost. -/
theorem readStream_failing_before_delimiter :
    let data : Bytes := [97, 98, 10, 99, 100, 10]
    let complete : Stream := .whole data
    let failing : Stream := .ofBytes data 2 (some (5, "broken")) none
    complete.ending = .endOfInput ∧ failing.ending = .failure "broken" ∧
    failing.bytes = complete.bytes.take 5 ∧
    (readStream failing {}).corpus.toList = ReadOptions.candidates {} [[97, 98]] ∧
    (readStream failing {}).corpus.toList <+: (readStream complete {}).corpus.toList ∧
    (readStream failing {}).corpus.toList = [[97, 98]] ∧
    (readStream complete {}).corpus.toList = [[97, 98], [99, 100]] ∧
    (readStream failing {}).error = some (.read "broken") := by
  intro data complete failing
  have hbytes : failing.bytes = complete.bytes.take 5 := rfl
  obtain ⟨hcandidates, hprefix, -⟩ := readStream_failing {} rfl rfl hbytes
  exact ⟨rfl, rfl, hbytes, hcandidates, hprefix, by decide +kernel, by decide +kernel,
    by decide +kernel⟩

/-! ## Commands -/

/-- What is brought depends on the bytes of a stream and on its ending alone. -/
theorem Stream.readStream_congr {s s' : Stream} (o : ReadOptions) (hbytes : s.bytes = s'.bytes)
    (hending : s.ending = s'.ending) : readStream s o = readStream s' o := by
  have hfeed : s.feed o = s'.feed o := by rw [Stream.feed, Stream.feed, hbytes, hending]
  rw [readStream, readStream, collect_eq, collect_eq, hfeed]

/-- Nothing but a short entry is reported about a stream that ends regularly. -/
theorem Stream.exists_of_error {s : Stream} {o : ReadOptions} {e : ScanError}
    (hending : s.ending = .endOfInput) (he : (readStream s o).error = some e) :
    ∃ length, e = .dropExceedsEntry o.drop length := by
  have hrule := ReadOptions.gather_map_cut (o := o)
    ((List.splitOn o.delimiter s.bytes).filter (!·.isEmpty))
  rw [(s.readStream_yields o).error_eq, feed_of_endOfInput hending, ReadOptions.feed, hrule.2,
    ReadOptions.shortfall] at he
  split at he
  · obtain ⟨short, -, rfl⟩ := Option.map_eq_some_iff.mp he
    exact ⟨short.length, rfl⟩
  · exact absurd he.symm (Option.some_ne_none e)

/-- The end of a command is a failure behind its output. -/
theorem CommandRun.readCommand_of_ended (output : Stream) (status : ExitStatus) (o : ReadOptions) :
    (readCommand (.ended output status) o).corpus.toList = (readStream output o).corpus.toList ∧
    (readCommand (.ended output status) o).error = (readStream output o).error.or
      (if o.cap ≤ (readStream output o).corpus.toList.length then none
        else if status.isSuccess then none else some (.commandFailed status)) := by
  obtain ⟨hcandidates, herror⟩ := output.readStream_yields o
  obtain ⟨hcandidates', herror'⟩ := CommandRun.readCommand_ended_yields output status o
  rw [CommandRun.feed] at hcandidates' herror'
  by_cases hsuccess : status.isSuccess = true
  · rw [if_pos hsuccess, List.append_nil] at hcandidates' herror'
    refine ⟨hcandidates'.trans hcandidates.symm, ?_⟩
    rw [herror', if_pos hsuccess, ite_self, Option.or_none, herror]
  · rw [if_neg hsuccess] at hcandidates' herror'
    obtain ⟨hlate, hlate'⟩ :=
      @Feed.gather_append_error o.maxFiles (output.feed o) (.commandFailed status)
    refine ⟨(hcandidates'.trans hlate).trans hcandidates.symm, ?_⟩
    rw [herror', hlate', if_neg hsuccess, herror, hcandidates]
    simp only [ReadOptions.cap_le_iff]

/-- **A command brings what its output brings.** If reading has nothing to report and did not stop
before the end of the output, a command that ended badly is reported. How a command ends that is
killed because reading has stopped is never reported. -/
theorem readCommand_agrees {output source : Stream} {status : ExitStatus} {run : CommandRun}
    (o : ReadOptions) (hrun : (CommandRun.ended output status).Stopped o run)
    (houtput : output.ending = .endOfInput) (hsource : source.ending = .endOfInput)
    (hbytes : source.bytes = output.bytes) :
    (readCommand run o).corpus.toList = (readStream source o).corpus.toList ∧
    (readCommand run o).error = (readStream source o).error.or
      (if o.cap ≤ (readStream source o).corpus.toList.length then none
        else if status.isSuccess then none else some (.commandFailed status)) ∧
    ∀ reported, (readCommand run o).error = some (.commandFailed reported) → reported = status := by
  have hleft : readCommand run o = readCommand (.ended output status) o := by
    cases hrun with
    | ended _ h => exact CommandRun.readCommand_congr h
  have hread : readStream source o = readStream output o :=
    Stream.readStream_congr o hbytes (hsource.trans houtput.symm)
  obtain ⟨hcandidates, herror⟩ := CommandRun.readCommand_of_ended output status o
  rw [hleft, hread]
  refine ⟨hcandidates, herror, fun reported hreported => ?_⟩
  rw [herror, Option.or_eq_some_iff] at hreported
  rcases hreported with hreported | ⟨-, hreported⟩
  · obtain ⟨_, heq⟩ := Stream.exists_of_error houtput hreported
    exact absurd heq nofun
  · split at hreported
    · exact absurd hreported nofun
    split at hreported
    · exact absurd hreported nofun
    · exact (ScanError.commandFailed.inj (Option.some.inj hreported)).symm

/-- A command is killed for the second of its three lines, which is too short; it would have ended
well, and the signal is not reported. -/
theorem readCommand_agrees_of_short_line :
    let data : Bytes := [46, 47, 97, 10, 98, 10, 46, 47, 99, 10]
    let output : Stream := .ofBytes data 3 none none
    let source : Stream := .whole data
    let o : ReadOptions := { drop := 2 }
    let run : CommandRun := .ended output (.killed 9)
    (CommandRun.ended output (.exited 0)).Stopped o run ∧
    output.ending = .endOfInput ∧ source.ending = .endOfInput ∧ source.bytes = output.bytes ∧
    (readCommand run o).corpus.toList = (readStream source o).corpus.toList ∧
    (∀ reported, (readCommand run o).error = some (.commandFailed reported) →
      reported = .exited 0) ∧
    (readStream source o).corpus.toList = [[97]] ∧
    (readCommand run o).error = some (.dropExceedsEntry 2 1) := by
  intro data output source o run
  have hstop : (output.collect o).2.error? = some (.dropExceedsEntry 2 1) := by decide +kernel
  have hstopped : (CommandRun.ended output (.exited 0)).Stopped o run := by
    refine .ended output fun h => ?_
    rw [h] at hstop
    exact absurd hstop nofun
  have hbytes : source.bytes = output.bytes := rfl
  obtain ⟨hcandidates, -, hreported⟩ := readCommand_agrees o hstopped rfl rfl hbytes
  exact ⟨hstopped, rfl, rfl, hbytes, hcandidates, hreported, by decide +kernel, by decide +kernel⟩

end FuzzyFinder
