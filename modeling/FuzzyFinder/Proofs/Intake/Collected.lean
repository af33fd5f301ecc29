import FuzzyFinder.Intake.Collected
import FuzzyFinder.Proofs.Corpus
import Mathlib.Data.List.Induction

/-!
# FuzzyFinder — what is collected makes a corpus

Candidates are collected one behind the other (`Collected.ofList`). Their spans tile the buffer: each
shows the candidate that it was noted for, and none reaches outside. So the corpus that adopts the
buffer is never refused. It holds just these candidates (`ScanResult.toList_ofCollected`), and the
failure that ended an intake is passed on as it is (`ScanResult.error_ofCollected`).
-/

namespace FuzzyFinder

namespace Collected

/-- What has been collected once the candidates in `l` were added in turn. -/
def ofList (l : List Bytes) : Collected := l.foldl push {}

@[simp] theorem ofList_nil : ofList [] = {} := rfl

theorem ofList_concat (l : List Bytes) (e : Bytes) : ofList (l ++ [e]) = (ofList l).push e := by
  rw [ofList, List.foldl_append]
  rfl

theorem buffer_ofList (l : List Bytes) : (ofList l).buffer.toList = l.flatten := by
  induction l using List.reverseRecOn with
  | nil => rfl
  | append_singleton l e ih =>
    rw [ofList_concat, push, Array.toList_appendList, ih, List.flatten_append, List.flatten_singleton]

theorem size_buffer_ofList (l : List Bytes) : (ofList l).buffer.size = l.flatten.length := by
  rw [← Array.length_toList, buffer_ofList]

theorem spans_ofList_concat (l : List Bytes) (e : Bytes) :
    (ofList (l ++ [e])).spans.toList
      = (ofList l).spans.toList ++ [⟨(ofList l).buffer.size, e.length⟩] := by
  rw [ofList_concat]
  exact Array.toList_push

@[simp] theorem size_ofList (l : List Bytes) : (ofList l).size = l.length := by
  induction l using List.reverseRecOn with
  | nil => rfl
  | append_singleton l e ih =>
    rw [size, ← Array.length_toList, spans_ofList_concat, List.length_append, Array.length_toList,
      List.length_append]
    exact congrArg (· + 1) ih

theorem isFull_ofList_iff (l : List Bytes) (maxFiles : Nat) :
    (ofList l).isFull maxFiles = true ↔ 0 < maxFiles ∧ maxFiles ≤ l.length := by
  rw [isFull, size_ofList, Bool.and_eq_true, decide_eq_true_iff, decide_eq_true_iff]

theorem stop_le_of_mem_spans {l : List Bytes} {s : Span} (h : s ∈ (ofList l).spans.toList) :
    s.stop ≤ (ofList l).buffer.size := by
  induction l using List.reverseRecOn with
  | nil => exact absurd h List.not_mem_nil
  | append_singleton l e ih =>
    rw [size_buffer_ofList, List.flatten_append, List.flatten_singleton, List.length_append,
      ← size_buffer_ofList]
    rw [spans_ofList_concat] at h
    -- the buffer only grows, and the newest span ends where it ends
    rcases List.mem_append.mp h with hold | hnew
    · exact Nat.le_add_right_of_le (ih hold)
    · rw [List.mem_singleton.mp hnew]
      exact Nat.le_refl _

/-- Each span shows the candidate that it was noted for. -/
theorem map_bytes_spans (l : List Bytes) :
    (ofList l).spans.toList.map (·.bytes (ofList l).buffer) = l := by
  induction l using List.reverseRecOn with
  | nil => rfl
  | append_singleton l e ih =>
    -- what is added behind the older spans does not change what they show
    have hold : (ofList l).spans.toList.map (·.bytes (ofList (l ++ [e])).buffer) = l := by
      rw [ofList_concat]
      refine Eq.trans (List.map_congr_left fun s hs => ?_) ih
      exact Span.bytes_append (stop_le_of_mem_spans hs) e
    rw [spans_ofList_concat, List.map_append, hold, List.map_singleton, ofList_concat]
    exact congrArg (fun s => l ++ [s]) (Span.bytes_behind _ e)

end Collected

namespace ScanResult

/-- The buffer is adopted, whatever was collected. -/
theorem ofCollected_ofList (l : List Bytes) (error : Option ScanError) :
    ofCollected (.ofList l) error = {
      corpus := {
        slab := some (Collected.ofList l).buffer
        entries := ((Collected.ofList l).spans.toList.map fun s => (.slab, s)).toArray }
      error } := by
  have hvalid : Corpus.firstInvalid (Collected.ofList l).buffer.size 0
      (Collected.ofList l).spans.toList = none :=
    (Corpus.firstInvalid_eq_none_iff ..).mpr fun _ => Collected.stop_le_of_mem_spans
  rw [ofCollected, Corpus.ofSlab, hvalid]

/-- **The corpus holds the candidates that were collected**, in order. -/
theorem toList_ofCollected (l : List Bytes) (error : Option ScanError) :
    (ofCollected (.ofList l) error).corpus.toList = l := by
  rw [ofCollected_ofList, Corpus.toList, List.map_map]
  exact Collected.map_bytes_spans l

theorem error_ofCollected (l : List Bytes) (error : Option ScanError) :
    (ofCollected (.ofList l) error).error = error := by
  rw [ofCollected_ofList]

end ScanResult

end FuzzyFinder
