import FuzzyFinder.Proofs.Selection
import Mathlib.Data.List.Forall2

/-!
# FuzzyFinder — the best of a stream so far

Each item of a stream is offered to a heap that is to keep `limit` of them. `Selection.HoldsBest` says
what the heap is worth after that: there is always room for the next item, as many items are held as
are wanted and have come, and sorted they are the beginning of the whole stream sorted. A preorder
leaves open which of two equal items is held, so the two lists agree position by position up to
equality under the order. `Selection.foldl_offer_holdsBest` proves it from the invariant
`Selection.Kept`.
-/

namespace FuzzyFinder

universe u

variable {α : Type u} {order : α → α → Ordering} {limit : Nat}

/-! ## Two ways to sort a list -/

section Sorting

variable [Std.TransCmp order]

theorem noLater_refl (a : α) : NoLater order a a = true := by
  have hself : order a a = .eq := Std.ReflCmp.compare_self
  rw [NoLater, hself]
  rfl

theorem noLater_iff_ne_lt (a b : α) : NoLater order a b = true ↔ order b a ≠ .lt := by
  rw [← bne_iff_ne]
  exact Heap.maySitAbove_iff.symm

/-- In a sorted list the item at `i` is no earlier than those in front of it. -/
theorem noLater_of_mem_take_succ {l : List α} (hsorted : l.Pairwise fun a b => NoLater order a b = true)
    {i : Nat} (hi : i < l.length) : ∀ x ∈ l.take (i + 1), NoLater order x l[i] = true := by
  intro x hx
  obtain ⟨j, hj, rfl⟩ := List.mem_take_iff_getElem.mp hx
  rcases Nat.lt_or_eq_of_le (show j ≤ i by omega) with hlt | rfl
  · exact List.pairwise_iff_getElem.mp hsorted j i (by omega) hi hlt
  · exact noLater_refl _

/-- However the items of a list are sorted, the one that comes to stand at `i` is no later. -/
theorem noLater_getElem_of_perm {l l' : List α} (hperm : l.Perm l')
    (hl : l.Pairwise fun a b => NoLater order a b = true)
    (hl' : l'.Pairwise fun a b => NoLater order a b = true) {i : Nat} (hi : i < l.length)
    (hi' : i < l'.length) : NoLater order l[i] l'[i] = true := by
  -- there are enough items that are no later than `l'[i]` to fill the positions up to `i`
  have henough : i + 1 ≤ l.countP fun x => NoLater order x l'[i] := by
    have hfront : (l'.take (i + 1)).countP (fun x => NoLater order x l'[i])
        = (l'.take (i + 1)).length :=
      List.countP_eq_length.mpr (noLater_of_mem_take_succ hl' hi')
    calc i + 1 = (l'.take (i + 1)).countP fun x => NoLater order x l'[i] := by
          rw [hfront, List.length_take]
          omega
      _ ≤ l'.countP fun x => NoLater order x l'[i] := (List.take_sublist _ _).countP_le
      _ = l.countP fun x => NoLater order x l'[i] := (hperm.countP_eq _).symm
  exact noLater_of_mem_take hl henough _
    (List.mem_take_iff_getElem.mpr ⟨i, by omega, rfl⟩)

/-- **Sorting is unique up to equality under the order.** -/
theorem forall₂_eq_of_perm {l l' : List α} (hperm : l.Perm l')
    (hl : l.Pairwise fun a b => NoLater order a b = true)
    (hl' : l'.Pairwise fun a b => NoLater order a b = true) :
    List.Forall₂ (fun a b => order a b = .eq) l l' := by
  refine List.forall₂_iff_get.mpr ⟨hperm.length_eq, fun i hi hi' => ?_⟩
  exact Std.OrientedCmp.isLE_antisymm (noLater_getElem_of_perm hperm hl hl' hi hi')
    (noLater_getElem_of_perm hperm.symm hl' hl hi' hi)

end Sorting

namespace Selection

/-- What a heap holds that is to keep `limit` items and has been offered those of a stream. -/
structure HoldsBest (order : α → α → Ordering) (limit : Nat) (stream : List α) (h : Heap α) :
    Prop where
  /-- As many items are held as are wanted and have come. -/
  size_eq : h.size = min limit stream.length
  /-- Whatever comes next can be inserted. -/
  accepts : ∀ x, (h.insert x).1 = true
  /-- Sorted, the items held are the beginning of the stream sorted. -/
  agrees : ∀ held ranked : List α, held.Perm h.items.toList → ranked.Perm stream →
    (held.Pairwise fun a b => order a b ≠ .gt) → (ranked.Pairwise fun a b => order a b ≠ .gt) →
    List.Forall₂ (fun a b => order a b = .eq) held (ranked.take limit)
  /-- What is not held any more ranks no better than anything that is. -/
  discards : ∃ discarded, (h.items.toList ++ discarded).Perm stream
    ∧ ∀ y ∈ discarded, ∀ x ∈ h.items.toList, order y x ≠ .lt

variable {h : Heap α} {stream dropped : List α}

theorem Kept.size_eq_min (hkept : Kept order limit h stream dropped) :
    h.size = min limit stream.length := by
  have hlength := hkept.perm.length_eq
  rw [List.length_append, Array.length_toList] at hlength
  have hle := hkept.size_le
  have hfull := hkept.full
  rw [Heap.size]
  cases dropped with
  | nil =>
    rw [List.length_nil] at hlength
    omega
  | cons y dropped =>
    have hsize := hfull (List.cons_ne_nil y dropped)
    omega

theorem Kept.insert_fst (hkept : Kept order limit h stream dropped) (x : α) :
    (h.insert x).1 = true := by
  have hsize := hkept.size_le
  have hcapacity := hkept.capacity_eq
  exact (Heap.insert_of_room (by omega) x).1

variable [Std.TransCmp order]

theorem Kept.agrees (hkept : Kept order limit h stream dropped) {held ranked : List α}
    (hheld : held.Perm h.items.toList) (hranked : ranked.Perm stream)
    (hsorted : held.Pairwise fun a b => NoLater order a b = true)
    (hsorted' : ranked.Pairwise fun a b => NoLater order a b = true) :
    List.Forall₂ (fun a b => order a b = .eq) held (ranked.take limit) := by
  obtain ⟨sorted, hperm, hpairwise, htake⟩ := hkept.covers.take_sort hheld hsorted
  have hall : held.take limit = held := by
    refine List.take_of_length_le ?_
    rw [hheld.length_eq, Array.length_toList]
    exact hkept.size_le
  rw [← hall, htake]
  exact List.forall₂_take limit
    (forall₂_eq_of_perm (hperm.trans hranked.symm) hpairwise hsorted')

theorem Kept.holdsBest (hkept : Kept order limit h stream dropped) :
    HoldsBest order limit stream h where
  size_eq := hkept.size_eq_min
  accepts := hkept.insert_fst
  agrees _ _ hheld hranked hsorted hsorted' :=
    hkept.agrees hheld hranked (hsorted.imp Ordering.isLE_iff_ne_gt.mpr)
      (hsorted'.imp Ordering.isLE_iff_ne_gt.mpr)
  discards := ⟨dropped, hkept.perm, fun y hy x hx =>
    (noLater_iff_ne_lt x y).mp (hkept.ranked x hx y hy)⟩

/-- **A heap that is offered the items of a stream one after the other holds the best of them**, at
every point of the stream: each beginning of it is a stream of its own. -/
theorem foldl_offer_holdsBest (hlimit : 1 ≤ limit) (stream : List α) :
    HoldsBest order limit stream (stream.foldl (offer limit) (.empty (limit + 1) order)) := by
  obtain ⟨_, hkept⟩ := (kept_empty order limit).foldl hlimit stream
  rw [List.append_nil] at hkept
  exact (hkept.of_perm (List.reverse_perm stream)).holdsBest

/-- Of five numbers ordered by their last digit two are to be kept. The third pushes out one that ranks
later; the last one ties with both that are held then and pushes out one of them all the same. -/
theorem foldl_offer_holdsBest_of_tie :
    let order : Nat → Nat → Ordering := compareOn (· % 10)
    let heap := [13, 4, 23, 5, 3].foldl (offer 2) (.empty (2 + 1) order)
    1 ≤ 2 ∧ HoldsBest order 2 [13, 4, 23, 5, 3] heap ∧ heap.items.toList = [3, 13] := by
  intro order heap
  exact ⟨by decide, foldl_offer_holdsBest (by decide) _, by decide +kernel⟩

end Selection

end FuzzyFinder
