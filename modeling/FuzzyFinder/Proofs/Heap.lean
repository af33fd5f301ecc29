import FuzzyFinder.Heap
import Mathlib.Data.List.Perm.Basic
import Mathlib.Order.Basic

/-!
# FuzzyFinder — the heap keeps its order

An array is a heap when every item may sit above the items below it (`IsHeap`). Each sift starts
from an array in which a single item may be out of place: `siftUp` from one that may rank too low
for its parent (`UpReady`), `siftDown` from one that may rank too high for the items below it
(`DownReady`). One swap moves the fault one level on; where it stops, nothing is out of place. The
items themselves are only permuted. So the root of a heap is the worst item (`IsHeap.root_worst`),
`insert` adds one item, and `extract` takes the worst one out.
-/

namespace FuzzyFinder

namespace Heap

universe u

variable {α : Type u} {order : α → α → Ordering}

/-! ## What may sit above what -/

section Order

theorem order_swap (order : α → α → Ordering) [Std.TransCmp order] (a b : α) :
    order a b = (order b a).swap := Std.OrientedCmp.eq_swap

variable [Std.TransCmp order] {a b c : α}

theorem maySitAbove_iff : maySitAbove order a b = true ↔ (order b a).isLE = true := by
  rw [maySitAbove, bne_iff_ne, order_swap order a b]
  cases order b a <;> decide

theorem maySitAbove_refl : maySitAbove order a a = true := by
  have hself : order a a = .eq := Std.ReflCmp.compare_self
  rw [maySitAbove_iff, hself]
  rfl

theorem maySitAbove_trans (hab : maySitAbove order a b = true) (hbc : maySitAbove order b c = true) :
    maySitAbove order a c = true := by
  rw [maySitAbove_iff] at hab hbc ⊢
  exact Std.TransCmp.isLE_trans hbc hab

/-- Of two items one may sit above the other. -/
theorem maySitAbove_of_not (h : ¬ maySitAbove order a b = true) : maySitAbove order b a = true := by
  rw [maySitAbove, bne_iff_ne, not_not] at h
  rw [maySitAbove_iff, h]
  rfl

end Order

/-- Every item may sit above the items below it. -/
def IsHeap (order : α → α → Ordering) (a : Array α) : Prop :=
  ∀ k (hk : k < a.size) (hp : (k - 1) / 2 < a.size), 0 < k →
    maySitAbove order a[(k - 1) / 2] a[k] = true

variable [Std.TransCmp order] {a : Array α}

/-- **The root of a heap is the worst item.** -/
theorem IsHeap.root_worst (h : IsHeap order a) {k : Nat} (hk : k < a.size) :
    maySitAbove order a[0] a[k] = true := by
  induction k using Nat.strongRecOn with
  | ind k ih =>
    rcases Nat.eq_zero_or_pos k with rfl | hpos
    · exact maySitAbove_refl
    · exact maySitAbove_trans (ih ((k - 1) / 2) (by omega) (by omega)) (h k hk _ hpos)

omit [Std.TransCmp order] in
theorem isHeap_empty : IsHeap order (#[] : Array α) := fun k hk => absurd hk (by simp)

/-! ## Sifting up -/

/-- Only the item at `i` may rank too low for its parent. -/
structure UpReady (order : α → α → Ordering) (a : Array α) (i : Nat) : Prop where
  lt : i < a.size
  other : ∀ k (hk : k < a.size), 0 < k → k ≠ i → maySitAbove order a[(k - 1) / 2] a[k] = true
  across : ∀ k (hk : k < a.size), 0 < k → (k - 1) / 2 = i → 0 < i →
    maySitAbove order a[(i - 1) / 2] a[k] = true

/-- Swapping an item with its parent moves the fault up. -/
theorem UpReady.swap {i : Nat} (h : UpReady order a i) (hlt : i < a.size) (hpos : 0 < i)
    (hfault : ¬ maySitAbove order a[(i - 1) / 2] a[i] = true) :
    UpReady order (a.swap i ((i - 1) / 2) hlt (by omega)) ((i - 1) / 2) := by
  have habove := maySitAbove_of_not hfault
  refine ⟨by rw [Array.size_swap]; omega, ?_, ?_⟩
  · intro k hk hk0 hne
    rw [Array.size_swap] at hk
    by_cases hki : k = i
    · subst hki
      rw [Array.getElem_swap_left, Array.getElem_swap_right]
      exact habove
    · rw [Array.getElem_swap_of_ne hki hne]
      by_cases hchild : (k - 1) / 2 = i
      · -- a child of `i` now hangs below the old parent
        simp only [hchild, Array.getElem_swap_left]
        exact h.across k hk hk0 hchild hpos
      by_cases hsibling : (k - 1) / 2 = (i - 1) / 2
      · -- the sibling of `i` now hangs below the item moved up
        simp only [hsibling, Array.getElem_swap_right]
        have hother := h.other k hk hk0 hki
        simp only [hsibling] at hother
        exact maySitAbove_trans habove hother
      · rw [Array.getElem_swap_of_ne hchild hsibling]
        exact h.other k hk hk0 hki
  · intro k hk hk0 hparent hpos'
    rw [Array.size_swap] at hk
    have hup := h.other ((i - 1) / 2) (by omega) hpos' (by omega)
    have hne : ((i - 1) / 2 - 1) / 2 ≠ i := by omega
    have hne' : ((i - 1) / 2 - 1) / 2 ≠ (i - 1) / 2 := by omega
    rw [Array.getElem_swap_of_ne hne hne']
    by_cases hki : k = i
    · subst hki
      rw [Array.getElem_swap_left]
      exact hup
    · rw [Array.getElem_swap_of_ne hki (by omega)]
      have hother := h.other k hk hk0 hki
      simp only [hparent] at hother
      exact maySitAbove_trans hup hother

theorem siftUp_perm (order : α → α → Ordering) (a : Array α) (i : Nat) (hi : i < a.size) :
    (siftUp order a i hi).Perm a := by
  induction i using Nat.strongRecOn generalizing a with
  | ind i ih =>
    rw [siftUp]
    split
    · exact Array.Perm.refl a
    · dsimp only
      split
      · exact Array.Perm.refl a
      · exact (ih _ (by omega) _ _).trans (Array.swap_perm _ _)

/-- **Sifting up restores the heap.** -/
theorem siftUp_isHeap {i : Nat} (h : UpReady order a i) : IsHeap order (siftUp order a i h.lt) := by
  induction i using Nat.strongRecOn generalizing a with
  | ind i ih =>
    rw [siftUp]
    split
    · -- the root has no parent to be out of order with
      rename_i hzero
      intro k hk hp hpos
      exact h.other k hk hpos (by omega)
    · rename_i hne
      dsimp only
      split
      · -- the only item that may have been out of place is not
        rename_i hfine
        intro k hk hp hpos
        by_cases hki : k = i
        · subst hki
          exact hfine
        · exact h.other k hk hpos hki
      · rename_i hfault
        exact ih _ (by omega) (h.swap h.lt (by omega) hfault)

/-! ## Sifting down -/

/-- Only the item at `i` may rank too high for the items below it. -/
structure DownReady (order : α → α → Ordering) (a : Array α) (i : Nat) : Prop where
  other : ∀ k (hk : k < a.size) (hp : (k - 1) / 2 < a.size), 0 < k → (k - 1) / 2 ≠ i →
    maySitAbove order a[(k - 1) / 2] a[k] = true
  across : ∀ k (hk : k < a.size) (_ : 0 < k) (_ : (k - 1) / 2 = i), 0 < i →
    maySitAbove order a[(i - 1) / 2] a[k] = true

/-- An item and its left child are compared first. One of them may sit above both, and only the
right child is left to be compared with it. -/
theorem exists_worst_left (order : α → α → Ordering) [Std.TransCmp order] {i : Nat}
    (hi : i < a.size) :
    ∃ (w : Nat) (hwlt : w < a.size) (hwle : i ≤ w),
      (w = i ∨ w = 2 * i + 1)
        ∧ maySitAbove order a[w] a[i] = true
        ∧ (∀ h : 2 * i + 1 < a.size, maySitAbove order a[w] a[2 * i + 1] = true)
        ∧ worstOf order a i hi = if h : 2 * i + 2 < a.size then
            if maySitAbove order a[w] a[2 * i + 2] then ⟨w, hwlt, hwle⟩
            else ⟨2 * i + 2, h, by omega⟩
          else ⟨w, hwlt, hwle⟩ := by
  by_cases h : 2 * i + 1 < a.size
  · by_cases habove : maySitAbove order a[i] a[2 * i + 1] = true
    · refine ⟨i, hi, Nat.le_refl i, .inl rfl, maySitAbove_refl, fun _ => habove, ?_⟩
      simp only [worstOf, dif_pos h, if_pos habove]
    · refine ⟨2 * i + 1, h, by omega, .inr rfl, maySitAbove_of_not habove,
        fun _ => maySitAbove_refl, ?_⟩
      simp only [worstOf, dif_pos h, if_neg habove]
  · refine ⟨i, hi, Nat.le_refl i, .inl rfl, maySitAbove_refl, fun h' => absurd h' h, ?_⟩
    simp only [worstOf, dif_neg h]

/-- The worst of an item and the ones below it may sit above all of them. -/
theorem worstOf_spec {i : Nat} (hi : i < a.size) (hw : (worstOf order a i hi).1 < a.size) :
    ((worstOf order a i hi).1 = i ∨ (0 < (worstOf order a i hi).1
        ∧ ((worstOf order a i hi).1 - 1) / 2 = i))
      ∧ maySitAbove order a[(worstOf order a i hi).1] a[i] = true
      ∧ ∀ k (hk : k < a.size), 0 < k → (k - 1) / 2 = i →
        maySitAbove order a[(worstOf order a i hi).1] a[k] = true := by
  obtain ⟨w, hwlt, hwle, hwhere, habove, hleft, heq⟩ := exists_worst_left order hi
  simp only [heq]
  have hwhere' : w = i ∨ (0 < w ∧ (w - 1) / 2 = i) := by
    rcases hwhere with hwhere | hwhere
    · exact .inl hwhere
    · exact .inr (by omega)
  by_cases h : 2 * i + 2 < a.size
  · by_cases hright : maySitAbove order a[w] a[2 * i + 2] = true
    · simp only [dif_pos h, if_pos hright]
      refine ⟨hwhere', habove, ?_⟩
      intro k hk hpos hparent
      rcases (show k = 2 * i + 1 ∨ k = 2 * i + 2 by omega) with rfl | rfl
      · exact hleft hk
      · exact hright
    · simp only [dif_pos h, if_neg hright]
      have hswap := maySitAbove_of_not hright
      refine ⟨by omega, maySitAbove_trans hswap habove, ?_⟩
      intro k hk hpos hparent
      rcases (show k = 2 * i + 1 ∨ k = 2 * i + 2 by omega) with rfl | rfl
      · exact maySitAbove_trans hswap (hleft hk)
      · exact maySitAbove_refl
  · simp only [dif_neg h]
    refine ⟨hwhere', habove, ?_⟩
    intro k hk hpos hparent
    obtain rfl : k = 2 * i + 1 := by omega
    exact hleft hk

omit [Std.TransCmp order] in
/-- Swapping an item with the worst one below it moves the fault down. -/
theorem DownReady.swap {i w : Nat} (h : DownReady order a i) (hi : i < a.size) (hw : w < a.size)
    (hpos : 0 < w) (hparent : (w - 1) / 2 = i)
    (habove : maySitAbove order a[w] a[i] = true)
    (hworst : ∀ k (hk : k < a.size), 0 < k → (k - 1) / 2 = i →
      maySitAbove order a[w] a[k] = true) :
    DownReady order (a.swap i w hi hw) w := by
  refine ⟨?_, ?_⟩
  · intro k hk hp hk0 hne
    rw [Array.size_swap] at hk hp
    by_cases hkw : k = w
    · subst hkw
      simp only [hparent, Array.getElem_swap_left, Array.getElem_swap_right]
      exact habove
    by_cases hki : k = i
    · -- the item moved up now hangs below the old parent
      subst hki
      have hne' : (k - 1) / 2 ≠ k := by omega
      rw [Array.getElem_swap_of_ne hne' hne, Array.getElem_swap_left]
      exact h.across w hw hpos hparent hk0
    · rw [Array.getElem_swap_of_ne hki hkw]
      by_cases hsibling : (k - 1) / 2 = i
      · simp only [hsibling, Array.getElem_swap_left]
        exact hworst k hk hk0 hsibling
      · rw [Array.getElem_swap_of_ne hsibling hne]
        exact h.other k hk hp hk0 hsibling
  · intro k hk hk0 hbelow hw0
    rw [Array.size_swap] at hk
    have hki : k ≠ i := by omega
    have hkw : k ≠ w := by omega
    have hold := h.other k hk (by omega) hk0 (by omega)
    rw [Array.getElem_swap_of_ne hki hkw]
    simp only [hparent, hbelow, Array.getElem_swap_left] at hold ⊢
    exact hold

theorem siftDown_eq (order : α → α → Ordering) {a : Array α} {i : Nat} (hi : i < a.size) :
    siftDown order a i = if (worstOf order a i hi).1 = i then a
      else siftDown order (a.swap i (worstOf order a i hi).1 hi (worstOf order a i hi).2.1)
        (worstOf order a i hi).1 := by
  rw [siftDown, dif_pos hi]
  rcases worstOf order a i hi with ⟨w, hw, hle⟩
  by_cases h : w = i
  · simp only [dif_pos h, if_pos h]
  · simp only [dif_neg h, if_neg h]

theorem siftDown_of_not_lt (order : α → α → Ordering) {a : Array α} {i : Nat}
    (hi : ¬ i < a.size) : siftDown order a i = a := by
  rw [siftDown, dif_neg hi]

theorem siftDown_perm (order : α → α → Ordering) (a : Array α) (i : Nat) :
    (siftDown order a i).Perm a := by
  induction hn : a.size - i using Nat.strongRecOn generalizing a i with
  | ind n ih =>
    by_cases hi : i < a.size
    · have hw := (worstOf order a i hi).2
      rw [siftDown_eq order hi]
      split
      · exact Array.Perm.refl a
      · rename_i hne
        exact (ih _ (by rw [Array.size_swap]; omega) _ _ rfl).trans (Array.swap_perm _ _)
    · rw [siftDown_of_not_lt order hi]

/-- **Sifting down restores the heap.** -/
theorem siftDown_isHeap {i : Nat} (h : DownReady order a i) : IsHeap order (siftDown order a i) := by
  induction hn : a.size - i using Nat.strongRecOn generalizing a i with
  | ind n ih =>
    by_cases hi : i < a.size
    · have hw := (worstOf order a i hi).2
      obtain ⟨hwhere, habove, hworst⟩ := worstOf_spec hi hw.1
      rw [siftDown_eq order hi]
      split
      · -- the item at `i` is the worst of the three itself
        rename_i heq
        intro k hk hp hpos
        by_cases hparent : (k - 1) / 2 = i
        · have := hworst k hk hpos hparent
          simp only [heq] at this
          simp only [hparent]
          exact this
        · exact h.other k hk hp hpos hparent
      · rename_i hne
        obtain ⟨hpos, hparent⟩ := hwhere.resolve_left hne
        exact ih _ (by rw [Array.size_swap]; omega)
          (h.swap hi hw.1 hpos hparent habove hworst) rfl
    · rw [siftDown_of_not_lt order hi]
      exact fun k hk hp hpos => h.other k hk hp hpos (by omega)

/-! ## Inserting and extracting -/

theorem size_of_perm_cons {a b : Array α} {x : α} (h : a.toList.Perm (x :: b.toList)) :
    a.size = b.size + 1 := by
  have hlength := h.length_eq
  rwa [List.length_cons, Array.length_toList, Array.length_toList] at hlength

omit [Std.TransCmp order] in
theorem push_upReady (h : IsHeap order a) (x : α) : UpReady order (a.push x) a.size := by
  refine ⟨by simp, ?_, ?_⟩
  · intro k hk hpos hne
    rw [Array.size_push] at hk
    rw [Array.getElem_push_lt (show k < a.size by omega),
      Array.getElem_push_lt (show (k - 1) / 2 < a.size by omega)]
    exact h k (by omega) _ hpos
  · intro k hk hpos hparent _
    rw [Array.size_push] at hk
    omega

/-- A heap with room accepts any item, whatever the order. -/
theorem insert_of_room {h : Heap α} (hroom : h.items.size ≠ h.capacity) (x : α) :
    (h.insert x).1 = true ∧ (h.insert x).2.items.toList.Perm (x :: h.items.toList)
      ∧ (h.insert x).2.order = h.order ∧ (h.insert x).2.capacity = h.capacity := by
  unfold insert
  rw [if_neg hroom]
  refine ⟨rfl, ?_, rfl, rfl⟩
  have hperm := Array.perm_iff_toList_perm.mp
    (siftUp_perm h.order (h.items.push x) h.items.size (by simp))
  rw [Array.toList_push] at hperm
  exact hperm.trans (List.perm_append_singleton x h.items.toList)

/-- A heap with room takes one item more. -/
theorem insert_spec {h : Heap α} [Std.TransCmp h.order] (hheap : IsHeap h.order h.items)
    (hroom : h.items.size ≠ h.capacity) (x : α) :
    (h.insert x).1 = true ∧ IsHeap h.order (h.insert x).2.items
      ∧ (h.insert x).2.items.toList.Perm (x :: h.items.toList)
      ∧ (h.insert x).2.order = h.order ∧ (h.insert x).2.capacity = h.capacity := by
  obtain ⟨haccepted, hkept⟩ := insert_of_room hroom x
  refine ⟨haccepted, ?_, hkept⟩
  unfold insert
  rw [if_neg hroom]
  exact siftUp_isHeap (push_upReady hheap x)

omit [Std.TransCmp order] in
/-- Moving the last item to the front leaves a heap but for that item. -/
theorem pop_set_downReady (h : IsHeap order a) (x : α) :
    DownReady order (a.pop.setIfInBounds 0 x) 0 := by
  refine ⟨?_, fun _ _ _ _ hpos => absurd hpos (Nat.lt_irrefl 0)⟩
  intro k hk hp hpos hparent
  rw [Array.size_setIfInBounds, Array.size_pop] at hk
  rw [Array.getElem_setIfInBounds_ne (by simp; omega) (by omega),
    Array.getElem_setIfInBounds_ne (by simp; omega) (by omega), Array.getElem_pop, Array.getElem_pop]
  exact h k (by omega) _ hpos

/-- Moving the last item to the front drops the one that was there. -/
theorem pop_set_perm {last : α} (hne : 0 < a.size) (hlast : a.back? = some last) :
    (a[0] :: (a.pop.setIfInBounds 0 last).toList).Perm a.toList := by
  obtain ⟨front, rfl⟩ := Array.back?_eq_some_iff.mp hlast
  obtain ⟨l⟩ := front
  cases l with
  | nil => simp
  | cons root mid =>
    rw [Array.pop_push, Array.toList_setIfInBounds, Array.toList_push]
    exact List.Perm.cons root (List.perm_append_singleton last mid).symm

theorem extract_eq_of_pos {h : Heap α} (hpos : 0 < h.items.size) :
    ∃ last, h.items.back? = some last ∧ h.extract = (some h.items[0],
      { h with items := siftDown h.order (h.items.pop.setIfInBounds 0 last) 0 }) := by
  have hfirst : h.items[0]? = some h.items[0] := Array.getElem?_eq_getElem hpos
  obtain ⟨last, hlast⟩ : ∃ last, h.items.back? = some last := by
    rw [Array.back?_eq_getElem?]
    exact ⟨_, Array.getElem?_eq_getElem (by omega)⟩
  refine ⟨last, hlast, ?_⟩
  unfold extract
  rw [hfirst, hlast]

/-- A heap that is not empty gives up its root and keeps the rest, whatever the order. -/
theorem extract_of_pos {h : Heap α} (hpos : 0 < h.items.size) :
    h.extract.1 = some h.items[0] ∧ (h.items[0] :: h.extract.2.items.toList).Perm h.items.toList
      ∧ h.extract.2.order = h.order ∧ h.extract.2.capacity = h.capacity := by
  obtain ⟨last, hlast, hextract⟩ := extract_eq_of_pos hpos
  rw [hextract]
  refine ⟨rfl, ?_, rfl, rfl⟩
  have hperm := Array.perm_iff_toList_perm.mp
    (siftDown_perm h.order (h.items.pop.setIfInBounds 0 last) 0)
  exact (List.Perm.cons _ hperm).trans (pop_set_perm hpos hlast)

/-- Extracting takes the worst item out, the others stay. -/
theorem extract_spec {h : Heap α} [Std.TransCmp h.order] (hheap : IsHeap h.order h.items)
    (hne : 0 < h.items.size) :
    h.extract.1 = some h.items[0] ∧ IsHeap h.order h.extract.2.items
      ∧ (h.items[0] :: h.extract.2.items.toList).Perm h.items.toList
      ∧ h.extract.2.order = h.order ∧ h.extract.2.capacity = h.capacity := by
  obtain ⟨hitem, hkept⟩ := extract_of_pos hne
  refine ⟨hitem, ?_, hkept⟩
  obtain ⟨last, -, hextract⟩ := extract_eq_of_pos hne
  rw [hextract]
  exact siftDown_isHeap (pop_set_downReady hheap last)

end Heap

end FuzzyFinder
