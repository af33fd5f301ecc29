/-!
# FuzzyFinder — a bounded heap

A `Heap` keeps up to `capacity` items in an array, arranged so that the worst of them is at the
root. Its order ranks items best first, the way a sort would: `order a b = .lt` says that `a` is
the better of the two. With room for one item more than wanted, inserting a newcomer and then
extracting the root leaves the best items seen so far. Nothing is assumed about `order`: the sifts
end and stay inside the array whatever it answers.
-/

namespace FuzzyFinder

universe u

variable {α : Type u}

/-- An array-backed heap with its worst item at the root. -/
structure Heap (α : Type u) where
  /-- The greatest number of items held. -/
  capacity : Nat
  /-- Ranks two items, the better one first. -/
  order : α → α → Ordering
  /-- The items; those at `2 * i + 1` and `2 * i + 2` hang below the one at `i`. -/
  items : Array α := #[]

namespace Heap

/-- An item may sit above another when it does not rank strictly better. -/
def maySitAbove (order : α → α → Ordering) (above below : α) : Bool := order above below != .lt

/-- Moves the item at `i` up until its parent may sit above it. -/
def siftUp (order : α → α → Ordering) (a : Array α) (i : Nat) (hi : i < a.size) : Array α :=
  if h : i = 0 then a
  else
    have hp : (i - 1) / 2 < a.size := by omega
    if maySitAbove order a[(i - 1) / 2] a[i] then a
    else siftUp order (a.swap i ((i - 1) / 2) hi hp) ((i - 1) / 2) (by simpa using hp)
termination_by i

/-- The worst among the item at `i` and the ones below it, the left one being asked first. -/
def worstOf (order : α → α → Ordering) (a : Array α) (i : Nat) (hi : i < a.size) :
    { j : Nat // j < a.size ∧ i ≤ j } :=
  let w : { j : Nat // j < a.size ∧ i ≤ j } :=
    if h : 2 * i + 1 < a.size then
      if maySitAbove order a[i] a[2 * i + 1] then ⟨i, hi, Nat.le_refl i⟩
      else ⟨2 * i + 1, h, by omega⟩
    else ⟨i, hi, Nat.le_refl i⟩
  if h : 2 * i + 2 < a.size then
    have hw := w.2.1
    if maySitAbove order a[w.1] a[2 * i + 2] then w else ⟨2 * i + 2, h, by omega⟩
  else w

/-- Moves the item at `i` down until it may sit above both items below it. -/
def siftDown (order : α → α → Ordering) (a : Array α) (i : Nat) : Array α :=
  if hi : i < a.size then
    match worstOf order a i hi with
    | ⟨w, hw, hle⟩ =>
      if h : w = i then a
      else
        have : (a.swap i w hi hw).size - w < a.size - i := by rw [Array.size_swap]; omega
        siftDown order (a.swap i w hi hw) w
  else a
termination_by a.size - i

/-- A heap without items. -/
def empty (capacity : Nat) (order : α → α → Ordering) : Heap α := { capacity, order }

/-- The number of items held. -/
def size (h : Heap α) : Nat := h.items.size

/-- Nothing is held. -/
def isEmpty (h : Heap α) : Bool := h.items.isEmpty

/-- Adds an item, unless the heap is full: then the item is dropped and the answer is `false`. -/
def insert (h : Heap α) (x : α) : Bool × Heap α :=
  if h.items.size = h.capacity then (false, h)
  else
    (true, { h with items := siftUp h.order (h.items.push x) h.items.size (by simp) })

/-- The worst item. -/
def peek (h : Heap α) : Option α := h.items[0]?

/-- Takes the worst item out. The last one takes its place and moves down. -/
def extract (h : Heap α) : Option α × Heap α :=
  match h.items[0]?, h.items.back? with
  | some worst, some last =>
    (some worst, { h with items := siftDown h.order (h.items.pop.setIfInBounds 0 last) 0 })
  | _, _ => (none, h)

end Heap

end FuzzyFinder
