import FuzzyFinder.Proofs.Heap
import Mathlib.Algebra.Group.Nat.Defs

/-!
# FuzzyFinder — the sifts stay inside the array

The heap's sifts are loops over an array. Here they are run once more with every access checked
against the array and with a budget of rounds: an index that misses the array, or a budget that
runs out, makes the answer `none`. Neither ever happens, whatever the order answers
(`insert?_eq_some`, `extract?_eq_some`): a sift up takes one round per level above the item, a sift
down one per level below it, and so the length of the array in binary is budget enough.
-/

namespace FuzzyFinder

namespace Heap

universe u

variable {α : Type u} {order : α → α → Ordering} {a : Array α}

/-! ## Checked steps -/

def maySitAbove? (order : α → α → Ordering) (a : Array α) (above below : Nat) : Option Bool :=
  a[above]?.bind fun x => a[below]?.map fun y => maySitAbove order x y

def swap? (a : Array α) (i j : Nat) : Option (Array α) :=
  if h : i < a.size ∧ j < a.size then some (a.swap i j h.1 h.2) else none

/-- The worse of the item at `w` and the one at `below`, if there is one at `below` at all. -/
def worseOf? (order : α → α → Ordering) (a : Array α) (w below : Nat) : Option Nat :=
  if below < a.size then
    (maySitAbove? order a w below).map fun fine => if fine then w else below
  else some w

theorem maySitAbove?_eq_some {i j : Nat} (hi : i < a.size) (hj : j < a.size) :
    maySitAbove? order a i j = some (maySitAbove order a[i] a[j]) := by
  simp only [maySitAbove?, Array.getElem?_eq_getElem hi, Array.getElem?_eq_getElem hj,
    Option.bind_some, Option.map_some]

theorem swap?_eq_some {i j : Nat} (hi : i < a.size) (hj : j < a.size) :
    swap? a i j = some (a.swap i j hi hj) := dif_pos ⟨hi, hj⟩

theorem worseOf?_eq_some {w below : Nat} (hw : w < a.size) :
    worseOf? order a w below = some (if h : below < a.size then
      if maySitAbove order a[w] a[below] then w else below else w) := by
  unfold worseOf?
  by_cases hbelow : below < a.size
  · rw [if_pos hbelow, dif_pos hbelow, maySitAbove?_eq_some hw hbelow, Option.map_some]
  · rw [if_neg hbelow, dif_neg hbelow]

theorem eq_or_eq_of_worseOf? {w below v : Nat} (h : worseOf? order a w below = some v) :
    v = w ∨ v = below := by
  unfold worseOf? at h
  split at h
  · obtain ⟨fine, -, rfl⟩ := Option.map_eq_some_iff.mp h
    cases fine
    · exact .inr rfl
    · exact .inl rfl
  · exact .inl (Option.some_inj.mp h).symm

/-! ## Sifting up -/

/-- `siftUp` in at most `rounds` rounds, with every access checked. -/
def siftUp? (order : α → α → Ordering) : (rounds : Nat) → Array α → Nat → Option (Array α)
  | _, a, 0 => some a
  | 0, _, _ + 1 => none
  | rounds + 1, a, i + 1 =>
    (maySitAbove? order a (i / 2) (i + 1)).bind fun fine =>
      if fine then some a
      else (swap? a (i + 1) (i / 2)).bind fun a => siftUp? order rounds a (i / 2)

/-- **Sifting up takes a round per level.** The number of an item's parent is half of its own, so
each round halves what is left. -/
theorem siftUp?_eq_some {rounds i : Nat} (hi : i < a.size) (hrounds : i < 2 ^ rounds) :
    siftUp? order rounds a i = some (siftUp order a i hi) := by
  induction rounds generalizing a i with
  | zero =>
    obtain rfl : i = 0 := by omega
    rw [siftUp?, siftUp, dif_pos rfl]
  | succ rounds ih =>
    cases i with
    | zero => rw [siftUp?, siftUp, dif_pos rfl]
    | succ i =>
      have hp : i / 2 < a.size := by omega
      rw [Nat.pow_succ] at hrounds
      rw [siftUp?, maySitAbove?_eq_some hp hi, swap?_eq_some hi hp, siftUp,
        dif_neg (Nat.succ_ne_zero i)]
      simp only [Nat.add_sub_cancel, Option.bind_some]
      by_cases hfine : maySitAbove order a[i / 2] a[i + 1] = true
      · rw [if_pos hfine, if_pos hfine]
      · rw [if_neg hfine, if_neg hfine]
        exact ih (by rw [Array.size_swap]; exact hp) (by omega)

/-! ## Sifting down -/

/-- `siftDown` in at most `rounds` rounds, with every access checked. -/
def siftDown? (order : α → α → Ordering) : (rounds : Nat) → Array α → Nat → Option (Array α)
  | 0, _, _ => none
  | rounds + 1, a, i =>
    ((worseOf? order a i (2 * i + 1)).bind fun w => worseOf? order a w (2 * i + 2)).bind fun w =>
      if w = i then some a else (swap? a i w).bind fun a => siftDown? order rounds a w

/-- Asking the left item and then the right one finds the worst of the three. -/
theorem worseOf?_worseOf? {i : Nat} (hi : i < a.size) :
    ((worseOf? order a i (2 * i + 1)).bind fun w => worseOf? order a w (2 * i + 2))
      = some (worstOf order a i hi).1 := by
  have hleft : ∀ w (hw : w < a.size) (hle : i ≤ w),
      worseOf? order a w (2 * i + 2)
        = some (if h : 2 * i + 2 < a.size then
            if maySitAbove order a[w] a[2 * i + 2] then
              (⟨w, hw, hle⟩ : { j : Nat // j < a.size ∧ i ≤ j })
            else ⟨2 * i + 2, h, by omega⟩
          else ⟨w, hw, hle⟩).1 := by
    intro w hw hle
    rw [worseOf?_eq_some hw]
    split
    · split <;> rfl
    · rfl
  rw [worseOf?_eq_some hi, Option.bind_some]
  unfold worstOf
  by_cases h : 2 * i + 1 < a.size
  · by_cases hfine : maySitAbove order a[i] a[2 * i + 1] = true
    · simp only [dif_pos h, if_pos hfine]
      exact hleft i hi (Nat.le_refl i)
    · simp only [dif_pos h, if_neg hfine]
      exact hleft (2 * i + 1) h (by omega)
  · simp only [dif_neg h]
    exact hleft i hi (Nat.le_refl i)

/-- The worst of an item and the ones below it is the item itself or lies a level below. -/
theorem worstOf_eq_or_le {i : Nat} (hi : i < a.size) :
    (worstOf order a i hi).1 = i ∨ 2 * i + 1 ≤ (worstOf order a i hi).1 := by
  obtain ⟨w, hleft, hright⟩ := Option.bind_eq_some_iff.mp (@worseOf?_worseOf? α order a i hi)
  have hw := eq_or_eq_of_worseOf? hleft
  have hworst := eq_or_eq_of_worseOf? hright
  omega

theorem siftDown?_of_not_lt (rounds : Nat) {i : Nat} (hi : ¬ i < a.size) :
    siftDown? order (rounds + 1) a i = some a := by
  have hleft : ¬ 2 * i + 1 < a.size := by omega
  have hright : ¬ 2 * i + 2 < a.size := by omega
  simp only [siftDown?, worseOf?, if_neg hleft, if_neg hright, Option.bind_some, if_true]

/-- **Sifting down takes a round per level.** The items below an item have twice its number, so
each round doubles the number until it leaves the array. -/
theorem siftDown?_eq_some {rounds i : Nat} (hrounds : a.size < (i + 1) * 2 ^ rounds) :
    siftDown? order (rounds + 1) a i = some (siftDown order a i) := by
  induction rounds generalizing a i with
  | zero =>
    have hi : ¬ i < a.size := by omega
    rw [siftDown?_of_not_lt 0 hi, siftDown_of_not_lt order hi]
  | succ rounds ih =>
    by_cases hi : i < a.size
    · have hw := (worstOf order a i hi).2.1
      have hwhere : (worstOf order a i hi).1 = i ∨ 2 * i + 1 ≤ (worstOf order a i hi).1 :=
        worstOf_eq_or_le hi
      rw [siftDown?, siftDown_eq order hi, worseOf?_worseOf? hi, Option.bind_some]
      by_cases hstay : (worstOf order a i hi).1 = i
      · rw [if_pos hstay, if_pos hstay]
      · have hdeeper := hwhere.resolve_left hstay
        rw [if_neg hstay, if_neg hstay, swap?_eq_some hi hw, Option.bind_some]
        refine ih ?_
        rw [Array.size_swap]
        calc a.size < (i + 1) * 2 ^ (rounds + 1) := hrounds
          _ = (2 * i + 2) * 2 ^ rounds := by
            rw [Nat.pow_succ, Nat.mul_comm (2 ^ rounds), ← Nat.mul_assoc, Nat.mul_comm (i + 1)]
            rfl
          _ ≤ ((worstOf order a i hi).1 + 1) * 2 ^ rounds := Nat.mul_le_mul_right _ (by omega)
    · rw [siftDown?_of_not_lt _ hi, siftDown_of_not_lt order hi]

/-! ## Inserting and extracting -/

/-- The levels of a heap of `size` items. -/
def levels (size : Nat) : Nat := size.log2 + 1

theorem lt_two_pow_levels (size : Nat) : size < 2 ^ levels size := Nat.lt_log2_self

/-- `insert` with every access checked, in no more rounds than the heap has levels. -/
def insert? (h : Heap α) (x : α) : Option (Bool × Heap α) :=
  if h.items.size = h.capacity then some (false, h)
  else
    (siftUp? h.order (levels h.items.size) (h.items.push x) h.items.size).map fun items =>
      (true, { h with items })

/-- `extract` with every access checked, in no more rounds than the heap has levels and one to
find that there are no more. -/
def extract? (h : Heap α) : Option (Option α × Heap α) :=
  match h.items[0]?, h.items.back? with
  | some worst, some last =>
    (siftDown? h.order (levels h.items.size + 1) (h.items.pop.setIfInBounds 0 last) 0).map
      fun items => (some worst, { h with items })
  | _, _ => some (none, h)

/-- **Inserting stays inside the array and ends**, whatever the order answers. -/
theorem insert?_eq_some (h : Heap α) (x : α) : h.insert? x = some (h.insert x) := by
  unfold insert? insert
  split
  · rfl
  · rw [siftUp?_eq_some (by simp) (lt_two_pow_levels h.items.size), Option.map_some]

/-- **Extracting stays inside the array and ends**, whatever the order answers. -/
theorem extract?_eq_some (h : Heap α) : h.extract? = some h.extract := by
  unfold extract? extract
  cases hfirst : h.items[0]? with
  | none => rfl
  | some worst =>
    cases hlast : h.items.back? with
    | none => rfl
    | some last =>
      have hsize : (h.items.pop.setIfInBounds 0 last).size
          < (0 + 1) * 2 ^ levels h.items.size := by
        have := lt_two_pow_levels h.items.size
        rw [Array.size_setIfInBounds, Array.size_pop]
        omega
      dsimp only
      rw [siftDown?_eq_some hsize, Option.map_some]

end Heap

end FuzzyFinder
