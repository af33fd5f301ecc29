import FuzzyFinder.Proofs.Intake.Feed

/-!
# FuzzyFinder — what a stream is split into

Splitting looks at one byte at a time and keeps the bytes since the last delimiter at hand. What it
collects depends neither on the sizes of the pieces in which the bytes arrive nor on interrupted
reads: it is what the feed `Stream.feed` of the stream comes to (`Stream.collect_eq`), which is
made from the delimiter-free pieces of all that the stream delivers.
-/

namespace FuzzyFinder

/-- The bytes that a read brings. -/
def Delivery.content : Delivery → Bytes
  | .bytes piece => piece
  | .interrupted => []

/-- All bytes that a stream delivers. -/
def Stream.bytes (s : Stream) : Bytes := s.deliveries.flatMap Delivery.content

/-- No piece holds a delimiter. -/
theorem not_mem_of_mem_splitOn {d : UInt8} {data piece : Bytes} (h : piece ∈ List.splitOn d data) :
    d ∉ piece := by
  induction data generalizing piece with
  | nil =>
    rw [List.splitOn_nil, List.mem_singleton] at h
    exact h ▸ List.not_mem_nil
  | cons b data ih =>
    rw [List.splitOn_cons_eq_if_modifyHead] at h
    split at h
    · -- the byte is the delimiter and ends an empty piece
      rcases List.mem_cons.mp h with rfl | h
      · exact List.not_mem_nil
      · exact ih h
    · rename_i hb
      -- the byte goes in front of the first piece
      rcases hpieces : List.splitOn d data with _ | ⟨first, pieces⟩
      · exact absurd hpieces (List.splitOn_ne_nil d data)
      rw [hpieces, List.modifyHead_cons] at h
      rw [hpieces] at ih
      rcases List.mem_cons.mp h with rfl | h
      · exact List.not_mem_cons_of_ne_of_not_mem (fun hd => hb (beq_iff_eq.mpr hd.symm))
          (ih List.mem_cons_self)
      · exact ih (List.mem_cons_of_mem _ h)

namespace ReadOptions

/-- A candidate is what is left of an entry without its first `drop` bytes. -/
def cut (o : ReadOptions) (e : Bytes) : Except ScanError Bytes :=
  if e.length < o.drop then .error (.dropExceedsEntry o.drop e.length) else .ok (e.drop o.drop)

/-- What the entries among some pieces bring: a piece is one unless it is empty. -/
def feed (o : ReadOptions) (pieces : List Bytes) : Feed :=
  (pieces.filter (!·.isEmpty)).map o.cut

theorem feed_append (o : ReadOptions) (pieces pieces' : List Bytes) :
    o.feed (pieces ++ pieces') = o.feed pieces ++ o.feed pieces' := by
  rw [feed, feed, feed, List.filter_append, List.map_append]

theorem feed_cons (o : ReadOptions) (piece : Bytes) (pieces : List Bytes) :
    o.feed (piece :: pieces) = o.feed [piece] ++ o.feed pieces :=
  feed_append o [piece] pieces

/-- A candidate is brought by the piece that it is cut from. -/
theorem ok_mem_feed {o : ReadOptions} {pieces : List Bytes} {c : Bytes} (h : .ok c ∈ o.feed pieces) :
    ∃ piece ∈ pieces, piece ≠ [] ∧ o.drop ≤ piece.length ∧ c = piece.drop o.drop := by
  obtain ⟨piece, hpiece, hcut⟩ := List.mem_map.mp h
  obtain ⟨hmem, hnonempty⟩ := List.mem_filter.mp hpiece
  rw [cut] at hcut
  split at hcut
  · exact absurd hcut nofun
  · rename_i hlong
    exact ⟨piece, hmem, fun hnil => absurd hnonempty (by simp [hnil]), Nat.le_of_not_lt hlong,
      (Except.ok.inj hcut).symm⟩

/-- Where nothing is dropped an entry is a candidate as it is. -/
theorem feed_of_drop_eq_zero {o : ReadOptions} (hdrop : o.drop = 0) (pieces : List Bytes) :
    o.feed pieces = (pieces.filter (!·.isEmpty)).map .ok := by
  refine List.map_congr_left fun piece _ => ?_
  rw [cut, hdrop, if_neg (Nat.not_lt_zero _), List.drop_zero]

/-- What the pieces bring between which the delimiters of some data stand: all of them if the data
ends regularly. If it fails, the last piece is lost and the failure takes its place. -/
def feedTo (o : ReadOptions) (pieces : List Bytes) : Ending → Feed
  | .endOfInput => o.feed pieces
  | .failure reason => o.feed pieces.dropLast ++ [.error (.read reason)]

theorem feedTo_cons (o : ReadOptions) (piece : Bytes) {pieces : List Bytes} (h : pieces ≠ [])
    (ending : Ending) :
    o.feedTo (piece :: pieces) ending = o.feed [piece] ++ o.feedTo pieces ending := by
  cases ending with
  | endOfInput => exact feed_cons o piece pieces
  | failure reason =>
    rw [feedTo, List.dropLast_cons_of_ne_nil h, feed_cons, List.append_assoc]
    rfl

end ReadOptions

/-- What a stream brings. -/
def Stream.feed (s : Stream) (o : ReadOptions) : Feed :=
  o.feedTo (List.splitOn o.delimiter s.bytes) s.ending

theorem Stream.feed_of_endOfInput {s : Stream} {o : ReadOptions} (hending : s.ending = .endOfInput) :
    s.feed o = o.feed (List.splitOn o.delimiter s.bytes) := by
  rw [feed, hending, ReadOptions.feedTo]

namespace Intake

variable {o : ReadOptions} {s : Intake}

/-- How splitting stands when so much has been gathered and the bytes in `unfinished` are at
hand. -/
def gathered (unfinished : Bytes) : List Bytes × Stop → Intake
  | (l, .exhausted) => { collected := .ofList l, unfinished }
  | (l, stop) => { collected := .ofList l, unfinished, stop := some stop }

theorem collected_gathered (u : Bytes) (r : List Bytes × Stop) :
    (gathered u r).collected = .ofList r.1 := by
  obtain ⟨l, stop⟩ := r
  cases stop <;> rfl

theorem stop_gathered (u : Bytes) (r : List Bytes × Stop) :
    (gathered u r).stop.getD .exhausted = r.2 := by
  obtain ⟨l, stop⟩ := r
  cases stop <;> rfl

theorem entry_gathered (l : List Bytes) (u e : Bytes) :
    entry o (gathered u (l, .exhausted)) e = gathered u (Feed.gather o.maxFiles l (o.feed [e])) := by
  rw [entry, ReadOptions.feed]
  by_cases hempty : e.isEmpty
  · rw [if_pos hempty, List.filter_cons_of_neg (by simp [hempty])]
    rfl
  rw [if_neg hempty, List.filter_cons_of_pos (by simp [hempty]), List.filter_nil, List.map_singleton,
    ReadOptions.cut]
  by_cases hshort : e.length < o.drop
  · rw [if_pos hshort, if_pos hshort]
    rfl
  rw [if_neg hshort, if_neg hshort, Feed.gather, gathered, ← Collected.ofList_concat]
  by_cases hfull : 0 < o.maxFiles ∧ o.maxFiles ≤ (l ++ [e.drop o.drop]).length
  · simp only [if_pos hfull, (Collected.isFull_ofList_iff ..).mpr hfull, if_true, gathered]
  · simp only [if_neg hfull, mt (Collected.isFull_ofList_iff ..).mp hfull, Bool.false_eq_true,
      if_false, Feed.gather, gathered]

theorem foldl_byte_of_stopped (h : s.stop.isSome) (bs : Bytes) : bs.foldl (byte o) s = s := by
  induction bs with
  | nil => rfl
  | cons b bs ih => rw [List.foldl_cons, byte, if_pos h, ih]

/-- Reads may bring as many bytes at a time as they like, or none. -/
theorem foldl_deliver (s : Intake) (deliveries : List Delivery) :
    deliveries.foldl (deliver o) s = (deliveries.flatMap Delivery.content).foldl (byte o) s := by
  rw [List.foldl_flatMap]
  congr 1
  funext s d
  cases d <;> rfl

/-- **Splitting under way.** With the bytes of `u` at hand, the newest first and none of them a
delimiter, the rest of the stream comes to what is gathered from the pieces of both together. -/
theorem finish_foldl_byte {u : Bytes} (hu : o.delimiter ∉ u) (l : List Bytes) (bs : Bytes)
    (ending : Ending) :
    (bs.foldl (byte o) (gathered u (l, .exhausted))).finish o ending
      = (Feed.gather o.maxFiles l
          (o.feedTo (List.splitOn o.delimiter (u.reverse ++ bs)) ending)).map .ofList id := by
  induction bs generalizing l u with
  | nil =>
    -- the stream is over: the bytes at hand are its last piece
    rw [List.foldl_nil, List.append_nil,
      List.splitOn_eq_singleton (fun h => hu (List.mem_reverse.mp h))]
    cases ending with
    | failure reason => rfl
    | endOfInput =>
      have hlast := entry_gathered (o := o) l [] u.reverse
      calc (gathered u (l, .exhausted)).finish o .endOfInput
          = ((entry o (gathered [] (l, .exhausted)) u.reverse).collected,
              (entry o (gathered [] (l, .exhausted)) u.reverse).stop.getD .exhausted) := rfl
        _ = _ := by rw [hlast, collected_gathered, stop_gathered]; rfl
  | cons b bs ih =>
    rw [List.foldl_cons]
    by_cases hb : b = o.delimiter
    · -- the bytes at hand make a piece
      have hbyte : byte o (gathered u (l, .exhausted)) b
          = gathered [] (Feed.gather o.maxFiles l (o.feed [u.reverse])) := by
        rw [← entry_gathered, hb]
        exact if_pos (beq_self_eq_true _)
      rw [hbyte, hb, List.splitOn_append_cons_self_of_not_mem (fun h => hu (List.mem_reverse.mp h)),
        ReadOptions.feedTo_cons _ _ (List.splitOn_ne_nil _ _), Feed.gather_append]
      -- splitting goes on behind it unless it has stopped there
      rcases Feed.gather o.maxFiles l (o.feed [u.reverse]) with ⟨l', _ | _ | e⟩
      · exact ih List.not_mem_nil l'
      · rw [foldl_byte_of_stopped rfl]
        rfl
      · rw [foldl_byte_of_stopped rfl]
        rfl
    · -- the byte joins those at hand
      have hbyte : byte o (gathered u (l, .exhausted)) b = gathered (b :: u) (l, .exhausted) :=
        if_neg (mt beq_iff_eq.mp hb)
      have hu' : o.delimiter ∉ b :: u := List.not_mem_cons_of_ne_of_not_mem (Ne.symm hb) hu
      rw [hbyte, ih hu', List.reverse_cons, List.append_assoc, List.singleton_append]

end Intake

namespace Stream

variable (s : Stream) (o : ReadOptions)

/-- **What is collected from a stream** is what its feed comes to. -/
theorem collect_eq : s.collect o = (Feed.gather o.maxFiles [] (s.feed o)).map .ofList id := by
  rw [collect, Intake.foldl_deliver]
  exact Intake.finish_foldl_byte List.not_mem_nil [] s.bytes s.ending

theorem readStream_yields : (s.feed o).Yields o.maxFiles (readStream s o) := by
  rw [readStream, collect_eq]
  exact Feed.yields_ofCollected ..

/-- **Each candidate is cut from a piece** of the stream that is not empty. -/
theorem exists_piece_of_mem {c : Bytes} (h : c ∈ (readStream s o).corpus.toList) :
    ∃ piece ∈ List.splitOn o.delimiter s.bytes,
      piece ≠ [] ∧ o.drop ≤ piece.length ∧ c = piece.drop o.drop := by
  rw [(s.readStream_yields o).candidates_eq] at h
  have hbrought := Feed.ok_mem_of_mem_gather h
  rw [feed] at hbrought
  cases hending : s.ending with
  | endOfInput =>
    rw [hending] at hbrought
    exact ReadOptions.ok_mem_feed hbrought
  | failure reason =>
    rw [hending] at hbrought
    -- the failure that takes the place of the last piece is no candidate
    rcases List.mem_append.mp hbrought with hbrought | hfailure
    · obtain ⟨piece, hmem, hpiece⟩ := ReadOptions.ok_mem_feed hbrought
      exact ⟨piece, List.dropLast_subset _ hmem, hpiece⟩
    · exact absurd (List.mem_singleton.mp hfailure) nofun

end Stream

end FuzzyFinder
