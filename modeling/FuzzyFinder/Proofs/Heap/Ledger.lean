import FuzzyFinder.Proofs.Heap.Checked

/-!
# FuzzyFinder — a heap over time

A `Ledger` is a heap together with the items it has accepted and those that have been taken out of
it. Whatever is inserted and extracted, and whatever the order answers, the books balance
(`Balanced`): the heap is never fuller than its capacity, and what it holds is what it accepted less
what was taken out. If the order is a preorder, the array is a heap after every operation
(`after_isHeap`), so the worst item is the one to go next, and draining a heap gives all items from
the worst to the best (`drain_spec`). `after_isSound` puts the two together.
-/

namespace FuzzyFinder

namespace Heap

universe u

variable {α : Type u} {order : α → α → Ordering} {capacity : Nat}

/-! ## One operation, whatever the order -/

theorem insert_eq_false_iff (h : Heap α) (x : α) :
    (h.insert x).1 = false ↔ h.items.size = h.capacity := by
  unfold insert
  split
  · rename_i hfull
    exact ⟨fun _ => hfull, fun _ => rfl⟩
  · rename_i hroom
    exact ⟨fun h => absurd h (by simp), fun h => absurd h hroom⟩

theorem insert_of_full {h : Heap α} (hfull : h.items.size = h.capacity) (x : α) :
    h.insert x = (false, h) := if_pos hfull

theorem extract_of_empty {h : Heap α} (hempty : h.items.size = 0) : h.extract = (none, h) := by
  unfold extract
  rw [Array.getElem?_eq_none (by omega)]

theorem extract_fst_eq_peek (h : Heap α) : h.extract.1 = h.peek := by
  rcases Nat.eq_zero_or_pos h.items.size with hempty | hpos
  · rw [extract_of_empty hempty]
    exact (Array.getElem?_eq_none (by omega)).symm
  · rw [(extract_of_pos hpos).1]
    exact (Array.getElem?_eq_getElem hpos).symm

theorem peek_eq_none_iff (h : Heap α) : h.peek = none ↔ h.isEmpty = true := by
  unfold peek isEmpty
  rw [Array.getElem?_eq_none_iff, Array.isEmpty_iff_size_eq_zero]
  omega

/-! ## Ledgers -/

/-- What may be done to a heap. -/
inductive Op (α : Type u) where
  | insert (x : α)
  | extract

/-- A heap with a record of what went in and out. -/
structure Ledger (α : Type u) where
  /-- The heap as it is now. -/
  heap : Heap α
  /-- The items that it accepted, the last one first. -/
  accepted : List α := []
  /-- The items that were taken out, the last one first. -/
  extracted : List α := []

namespace Ledger

def opened (capacity : Nat) (order : α → α → Ordering) : Ledger α := { heap := .empty capacity order }

/-- Performs an operation and records what came of it. -/
def perform (l : Ledger α) : Op α → Ledger α
  | .insert x =>
    let (isAccepted, heap) := l.heap.insert x
    { l with heap, accepted := if isAccepted then x :: l.accepted else l.accepted }
  | .extract =>
    let (item, heap) := l.heap.extract
    { l with heap, extracted := item.toList ++ l.extracted }

def after (l : Ledger α) (ops : List (Op α)) : Ledger α := ops.foldl perform l

theorem after_induction {P : Ledger α → Prop} {l : Ledger α} (hstart : P l)
    (hstep : ∀ l op, P l → P (l.perform op)) (ops : List (Op α)) : P (l.after ops) := by
  induction ops generalizing l with
  | nil => exact hstart
  | cons op ops ih => exact ih (hstep l op hstart)

/-- The books balance: what was accepted has been taken out or is still there, and there is never
more of it than there is room. -/
structure Balanced (capacity : Nat) (order : α → α → Ordering) (l : Ledger α) : Prop where
  capacity_eq : l.heap.capacity = capacity
  order_eq : l.heap.order = order
  size_le : l.heap.items.size ≤ capacity
  perm : (l.extracted ++ l.heap.items.toList).Perm l.accepted

theorem opened_balanced (capacity : Nat) (order : α → α → Ordering) :
    Balanced capacity order (opened capacity order) where
  capacity_eq := rfl
  order_eq := rfl
  size_le := Nat.zero_le _
  perm := by simp [opened, Heap.empty]

theorem Balanced.insert {l : Ledger α} (hl : Balanced capacity order l) (x : α) :
    Balanced capacity order (l.perform (.insert x)) := by
  obtain ⟨hcapacity, horder, hsize, hperm⟩ := hl
  by_cases hfull : l.heap.items.size = l.heap.capacity
  · simp only [perform, insert_of_full hfull]
    exact ⟨hcapacity, horder, hsize, hperm⟩
  · obtain ⟨haccepted, hperm', horder', hcapacity'⟩ := insert_of_room hfull x
    have hlength := size_of_perm_cons hperm'
    simp only [perform, haccepted, if_true]
    refine ⟨hcapacity'.trans hcapacity, horder'.trans horder, ?_, ?_⟩
    · dsimp only
      omega
    · exact (hperm'.append_left _).trans (List.perm_middle.trans (hperm.cons x))

theorem Balanced.extract {l : Ledger α} (hl : Balanced capacity order l) :
    Balanced capacity order (l.perform .extract) := by
  obtain ⟨hcapacity, horder, hsize, hperm⟩ := hl
  rcases Nat.eq_zero_or_pos l.heap.items.size with hempty | hpos
  · simp only [perform, extract_of_empty hempty, Option.toList_none, List.nil_append]
    exact ⟨hcapacity, horder, hsize, hperm⟩
  · obtain ⟨hitem, hperm', horder', hcapacity'⟩ := extract_of_pos hpos
    have hlength := size_of_perm_cons hperm'.symm
    simp only [perform, hitem, Option.toList_some, List.singleton_append]
    refine ⟨hcapacity'.trans hcapacity, horder'.trans horder, ?_, ?_⟩
    · dsimp only
      omega
    · rw [List.cons_append]
      exact List.perm_middle.symm.trans ((hperm'.append_left _).trans hperm)

/-- **The books balance after any operations**, whatever the order answers. -/
theorem after_balanced (capacity : Nat) (order : α → α → Ordering) (ops : List (Op α)) :
    Balanced capacity order ((opened capacity order).after ops) := by
  refine after_induction (opened_balanced capacity order) (fun l op hl => ?_) ops
  cases op with
  | insert x => exact hl.insert x
  | extract => exact hl.extract

/-! ## When the order is a preorder -/

/-- **The array is a heap after any operations.** -/
theorem after_isHeap [Std.TransCmp order] (capacity : Nat) (ops : List (Op α)) :
    IsHeap order ((opened capacity order).after ops).heap.items := by
  -- the order has to come along, as the heap carries it
  have hboth : ((opened capacity order).after ops).heap.order = order
      ∧ IsHeap order ((opened capacity order).after ops).heap.items := by
    refine after_induction (P := fun l => l.heap.order = order ∧ IsHeap order l.heap.items)
      ⟨rfl, isHeap_empty⟩ ?_ ops
    rintro l op ⟨rfl, hheap⟩
    cases op with
    | insert x =>
      by_cases hfull : l.heap.items.size = l.heap.capacity
      · simp only [perform, insert_of_full hfull]
        exact ⟨trivial, hheap⟩
      · obtain ⟨-, hheap', -, horder', -⟩ := insert_spec hheap hfull x
        exact ⟨horder', hheap'⟩
    | extract =>
      rcases Nat.eq_zero_or_pos l.heap.items.size with hempty | hpos
      · simp only [perform, extract_of_empty hempty]
        exact ⟨trivial, hheap⟩
      · obtain ⟨-, hheap', -, horder', -⟩ := extract_spec hheap hpos
        exact ⟨horder', hheap'⟩
  exact hboth.2

end Ledger

/-- The items that come out of a heap, up to a number of them, until there are none left. -/
def drain : (count : Nat) → Heap α → List α
  | 0, _ => []
  | count + 1, h =>
    match h.extract with
    | (some worst, h) => worst :: drain count h
    | (none, _) => []

theorem drain_spec {count : Nat} {h : Heap α} [Std.TransCmp h.order]
    (hheap : IsHeap h.order h.items) (hcount : h.items.size ≤ count) :
    (drain count h).Perm h.items.toList
      ∧ (drain count h).Pairwise fun a b => maySitAbove h.order a b = true := by
  induction count generalizing h with
  | zero =>
    have hnil : h.items.toList = [] := List.length_eq_zero_iff.mp (by simpa using hcount)
    rw [drain, hnil]
    exact ⟨List.Perm.refl [], List.Pairwise.nil⟩
  | succ count ih =>
    rcases Nat.eq_zero_or_pos h.items.size with hempty | hpos
    · have hnil : h.items.toList = [] := List.length_eq_zero_iff.mp (by simpa using hempty)
      rw [drain, extract_of_empty hempty, hnil]
      exact ⟨List.Perm.refl [], List.Pairwise.nil⟩
    · obtain ⟨hworst, hheap', hperm, horder, -⟩ := extract_spec hheap hpos
      have hroot : ∀ b ∈ h.items.toList, maySitAbove h.order h.items[0] b = true := by
        intro b hb
        obtain ⟨k, hk, rfl⟩ := Array.mem_iff_getElem.mp (Array.mem_toList_iff.mp hb)
        exact hheap.root_worst hk
      have hlength := size_of_perm_cons hperm.symm
      have hdrain : drain (count + 1) h = h.items[0] :: drain count h.extract.2 := by
        rw [drain]
        generalize h.extract = r at hworst ⊢
        obtain ⟨_, rest⟩ := r
        obtain rfl := hworst
        rfl
      rw [hdrain]
      -- what is left is a heap under the same order
      generalize h.extract.2 = rest at hheap' hperm horder hlength ⊢
      have : Std.TransCmp rest.order := horder ▸ inferInstance
      obtain ⟨hperm', hsorted⟩ := ih (horder ▸ hheap') (by omega)
      rw [horder] at hsorted
      refine ⟨(hperm'.cons _).trans hperm, List.pairwise_cons.mpr ⟨fun b hb => ?_, hsorted⟩⟩
      exact hroot b (hperm.mem_iff.mp (List.mem_cons_of_mem _ (hperm'.mem_iff.mp hb)))

namespace Ledger

/-! ## Heaps that have been in use -/

/-- What is true of a heap under any order, with its books. -/
structure IsSound (capacity : Nat) (order : α → α → Ordering) (l : Ledger α) : Prop
    extends Balanced capacity order l where
  /-- An item is refused exactly when the heap is full. -/
  refused_iff : ∀ x, (l.heap.insert x).1 = false ↔ l.heap.items.size = capacity
  /-- A refused item leaves the heap as it was. -/
  refused_eq : ∀ x, (l.heap.insert x).1 = false → (l.heap.insert x).2 = l.heap
  /-- There is something to be seen unless the heap is empty. -/
  peek_none_iff : l.heap.peek = none ↔ l.heap.isEmpty = true
  /-- What is to be seen is what is taken out. -/
  extract_eq : l.heap.extract.1 = l.heap.peek
  /-- The next insertion ends without missing the array. -/
  insert_checked : ∀ x, l.heap.insert? x = some (l.heap.insert x)
  /-- The next extraction ends without missing the array. -/
  extract_checked : l.heap.extract? = some l.heap.extract

/-- What a preorder adds to that. -/
structure IsOrdered (order : α → α → Ordering) (l : Ledger α) : Prop where
  /-- No item ranks strictly better than one below it. -/
  isHeap : IsHeap order l.heap.items
  /-- No item ranks strictly worse than the one to be seen. -/
  peek_worst : ∀ worst, l.heap.peek = some worst → ∀ x ∈ l.heap.items, order worst x ≠ .lt
  /-- Everything comes out of the heap when it is drained, the worst items first. -/
  drained : ∀ count, l.heap.items.size ≤ count → (drain count l.heap).Perm l.heap.items.toList
    ∧ (drain count l.heap).Pairwise fun a b => order a b ≠ .lt

theorem isOrdered_of_isHeap [Std.TransCmp order] {l : Ledger α} (horder : l.heap.order = order)
    (hheap : IsHeap order l.heap.items) : IsOrdered order l := by
  subst horder
  refine ⟨hheap, ?_, ?_⟩
  · intro worst hpeek x hx
    obtain ⟨hpos, rfl⟩ := Array.getElem?_eq_some_iff.mp hpeek
    obtain ⟨k, hk, rfl⟩ := Array.mem_iff_getElem.mp hx
    exact bne_iff_ne.mp (hheap.root_worst hk)
  · intro count hcount
    obtain ⟨hperm, hsorted⟩ := drain_spec hheap hcount
    exact ⟨hperm, hsorted.imp fun hab => bne_iff_ne.mp hab⟩

/-- **A heap keeps its promises through any operations.** Its books balance and its arithmetic is
safe under any order; under a preorder, it gives out the worst item first. -/
theorem after_isSound (capacity : Nat) (order : α → α → Ordering) (ops : List (Op α)) :
    IsSound capacity order ((opened capacity order).after ops)
      ∧ (Std.TransCmp order → IsOrdered order ((opened capacity order).after ops)) := by
  have hbalanced := after_balanced capacity order ops
  refine ⟨⟨hbalanced, ?_, ?_, peek_eq_none_iff _, extract_fst_eq_peek _, insert?_eq_some _,
    extract?_eq_some _⟩, fun hpreorder => ?_⟩
  · intro x
    rw [insert_eq_false_iff, hbalanced.capacity_eq]
  · intro x hrefused
    rw [insert_of_full ((insert_eq_false_iff _ x).mp hrefused)]
  · exact isOrdered_of_isHeap hbalanced.order_eq (after_isHeap capacity ops)

/-- Four numbers are offered to a heap for three, and the greatest goes out. -/
theorem after_isSound_of_four :
    IsOrdered compare
      ((opened 3 (compare (α := Nat))).after [.insert 5, .insert 9, .insert 2, .insert 7, .extract])
      ∧ ((opened 3 (compare (α := Nat))).after
        [.insert 5, .insert 9, .insert 2, .insert 7, .extract]).extracted = [9] := by
  refine ⟨(after_isSound 3 compare _).2 inferInstance, ?_⟩
  decide +kernel

end Ledger

end Heap

end FuzzyFinder
