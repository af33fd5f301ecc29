import FuzzyFinder.Session
import Mathlib.Data.List.Perm.Basic
import Mathlib.Data.List.Basic

/-!
# FuzzyFinder — dealing loses nothing

A corpus is cut into chunks, and the chunks are dealt to workers in turn. Put back together, the
chunks are the corpus (`chunks_flatten`), and the shares of the workers are a rearrangement of it
(`Deal.shares_perm`): every candidate lies in exactly one share, as often as the corpus holds it.
-/

namespace FuzzyFinder

universe u v

variable {α : Type u} {β : Type v}

/-! ## Chunks -/

theorem chunksUpTo_flatten {size count : Nat} (hsize : 1 ≤ size) {l : List α}
    (hcount : l.length ≤ count) : (chunksUpTo size count l).flatten = l := by
  induction count generalizing l with
  | zero =>
    obtain rfl : l = [] := List.length_eq_zero_iff.mp (by omega)
    rfl
  | succ count ih =>
    cases l with
    | nil => rfl
    | cons x rest =>
      rw [List.length_cons] at hcount
      -- a chunk is never empty, so that the count does not run out before the list
      have hdrop : ((x :: rest).drop size).length ≤ count := by
        rw [List.length_drop, List.length_cons]
        omega
      change ((x :: rest).take size :: chunksUpTo size count ((x :: rest).drop size)).flatten = _
      rw [List.flatten_cons, ih hdrop]
      exact List.take_append_drop size (x :: rest)

/-- **The chunks of a list are the list.** -/
theorem chunks_flatten {size : Nat} (hsize : 1 ≤ size) (l : List α) : (chunks size l).flatten = l :=
  chunksUpTo_flatten hsize (Nat.le_refl _)

/-! ## Shares -/

/-- Sorting items into numbered boxes rearranges them. -/
theorem flatMap_filter_perm (box : α → Nat) (l : List α) (n : Nat) :
    ((List.range n).flatMap fun w => l.filter fun x => box x == w).Perm
      (l.filter fun x => decide (box x < n)) := by
  induction n with
  | zero => simp
  | succ n ih =>
    rw [List.range_succ, List.flatMap_append, List.flatMap_singleton]
    -- the items of the first `n + 1` boxes are those of the first `n` and those of the last
    have hsplit := List.filter_append_perm (fun x => decide (box x < n))
      (l.filter fun x => decide (box x < n + 1))
    rw [List.filter_filter, List.filter_filter] at hsplit
    have hfirst : (l.filter fun x => decide (box x < n) && decide (box x < n + 1))
        = l.filter fun x => decide (box x < n) := by
      refine List.filter_congr fun x _ => ?_
      rw [Bool.eq_iff_iff, Bool.and_eq_true, decide_eq_true_iff, decide_eq_true_iff]
      omega
    have hlast : (l.filter fun x => !decide (box x < n) && decide (box x < n + 1))
        = l.filter fun x => box x == n := by
      refine List.filter_congr fun x _ => ?_
      rw [Bool.eq_iff_iff, Bool.and_eq_true, Bool.not_eq_true', decide_eq_false_iff_not,
        decide_eq_true_iff, beq_iff_eq]
      omega
    rw [hfirst, hlast] at hsplit
    exact (ih.append_right _).trans hsplit

namespace Deal

theorem one_le_workers (threads count : Nat) : 1 ≤ workers threads count := by
  unfold workers
  split <;> omega

/-- **The shares together are the chunks**, up to order. -/
theorem shares_perm {workers : Nat} (hworkers : 1 ≤ workers) (chunks : List (List α)) :
    (shares workers chunks).flatten.Perm chunks.flatten := by
  have hboxes := flatMap_filter_perm (fun c : List α × Nat => c.2 % workers) chunks.zipIdx workers
  have hall : (chunks.zipIdx.filter fun c => decide (c.2 % workers < workers)) = chunks.zipIdx := by
    refine List.filter_eq_self.mpr fun c _ => ?_
    exact decide_eq_true (Nat.mod_lt _ (by omega))
  rw [hall] at hboxes
  -- a chunk carries its number along; without it the shares are the boxes
  have hflatten : (shares workers chunks).flatten
      = ((List.range workers).flatMap fun w =>
          chunks.zipIdx.filter fun c : List α × Nat => c.2 % workers == w).flatMap (·.1) := by
    unfold shares
    rw [← List.flatMap_def, List.flatMap_assoc]
  have hchunks : chunks.zipIdx.flatMap (·.1) = chunks.flatten := by
    rw [List.flatMap_def, List.zipIdx_map_fst]
  rw [hflatten, ← hchunks]
  exact hboxes.flatMap_right _

/-- **Every candidate lies in exactly one share.** -/
theorem shares_chunks_perm (threads : Nat) (l : List α) :
    (shares (workers threads l.length) (chunks chunkSize l)).flatten.Perm l := by
  have h := shares_perm (one_le_workers threads l.length) (chunks chunkSize l)
  rw [chunks_flatten (by decide)] at h
  exact h

end Deal

end FuzzyFinder
