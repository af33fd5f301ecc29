import FuzzyFinder.Proofs.Heap
import FuzzyFinder.Ranking
import Mathlib.Data.List.Basic

/-!
# FuzzyFinder — a selection keeps the best

`Covers` says what a selection may leave out of a stream: an item only when `limit` of the items
kept rank no later. It holds for the heap of one worker after every item offered
(`Selection.Kept.offer`), so for the selection from one share (`Selection.best_covers`); it survives
putting the selections of all workers together (`covers_flatten`); and once the kept items are
sorted and cut off, what remains is a sorted prefix of the whole stream (`Covers.take_sort`).
-/

namespace FuzzyFinder

universe u v

variable {α : Type u} {order : α → α → Ordering} {limit : Nat}

/-- `a` ranks no later than `b`. -/
def NoLater (order : α → α → Ordering) (a b : α) : Bool := (order a b).isLE

/-- The stream has been divided into items kept and items dropped, and each item dropped ranks no
earlier than `limit` of the items kept. -/
structure Covers (order : α → α → Ordering) (limit : Nat) (stream kept dropped : List α) : Prop where
  perm : (kept ++ dropped).Perm stream
  enough : ∀ y ∈ dropped, limit ≤ kept.countP fun x => NoLater order x y

namespace Covers

variable {stream stream' kept kept' dropped dropped' : List α}

theorem nil : Covers order limit [] [] ([] : List α) := ⟨by simp, by simp⟩

/-- Divisions of two streams make one of both together. -/
theorem append (h : Covers order limit stream kept dropped)
    (h' : Covers order limit stream' kept' dropped') :
    Covers order limit (stream ++ stream') (kept ++ kept') (dropped ++ dropped') := by
  refine ⟨?_, ?_⟩
  · have hswap : (kept ++ kept' ++ (dropped ++ dropped')).Perm
        (kept ++ dropped ++ (kept' ++ dropped')) := by
      rw [List.append_assoc, List.append_assoc]
      refine List.Perm.append_left kept ?_
      rw [← List.append_assoc, ← List.append_assoc]
      exact List.perm_append_comm.append_right dropped'
    exact hswap.trans (h.perm.append h'.perm)
  · intro y hy
    rw [List.countP_append]
    rcases List.mem_append.mp hy with hy | hy
    · have := h.enough y hy
      omega
    · have := h'.enough y hy
      omega

theorem of_perm (h : Covers order limit stream kept dropped) (hkept : kept'.Perm kept)
    (hstream : stream.Perm stream') : Covers order limit stream' kept' dropped :=
  ⟨((hkept.append_right dropped).trans h.perm).trans hstream, fun y hy => by
    rw [hkept.countP_eq]
    exact h.enough y hy⟩

end Covers

/-- What is kept of every share covers the shares together. -/
theorem covers_flatten {select : List α → List α} (shares : List (List α))
    (h : ∀ share, ∃ dropped, Covers order limit share (select share) dropped) :
    ∃ dropped, Covers order limit shares.flatten (shares.map select).flatten dropped := by
  induction shares with
  | nil => exact ⟨[], .nil⟩
  | cons share rest ih =>
    obtain ⟨dropped, hfirst⟩ := h share
    obtain ⟨dropped', hrest⟩ := ih
    exact ⟨dropped ++ dropped', by
      rw [List.flatten_cons, List.map_cons, List.flatten_cons]
      exact hfirst.append hrest⟩

/-! ## Sorting and cutting off -/

section Sorting

variable [Std.TransCmp order]

theorem noLater_trans {a b c : α} (hab : NoLater order a b = true) (hbc : NoLater order b c = true) :
    NoLater order a c = true := Std.TransCmp.isLE_trans hab hbc

theorem noLater_total (a b : α) : (NoLater order a b || NoLater order b a) = true := by
  rw [NoLater, NoLater, Heap.order_swap order a b]
  cases order b a <;> decide

/-- In a sorted list the items that rank no later than `y` come first. -/
theorem noLater_of_mem_take {y : α} {l : List α}
    (hsorted : l.Pairwise fun a b => NoLater order a b = true)
    (henough : limit ≤ l.countP fun x => NoLater order x y) :
    ∀ x ∈ l.take limit, NoLater order x y = true := by
  induction l generalizing limit with
  | nil => simp
  | cons a l ih =>
    obtain ⟨hfirst, hsorted'⟩ := List.pairwise_cons.mp hsorted
    cases limit with
    | zero => simp
    | succ limit =>
      have ha : NoLater order a y = true := by
        by_contra hnot
        -- nothing behind `a` ranks before it
        have hzero : (a :: l).countP (fun x => NoLater order x y) = 0 := by
          rw [List.countP_eq_zero]
          intro x hx hxy
          rcases List.mem_cons.mp hx with rfl | hx
          · exact hnot hxy
          · exact hnot (noLater_trans (hfirst x hx) hxy)
        omega
      intro x hx
      rw [List.take_succ_cons, List.mem_cons] at hx
      rcases hx with rfl | hx
      · exact ha
      · refine ih hsorted' ?_ x hx
        rw [List.countP_cons, if_pos ha] at henough
        omega

/-- **Sorted and cut off, a selection is the beginning of the whole stream sorted**: what follows
are the rest of the kept items and those dropped before. -/
theorem Covers.take_sort {stream kept dropped sorted : List α}
    (h : Covers order limit stream kept dropped) (hperm : sorted.Perm kept)
    (hsorted : sorted.Pairwise fun a b => NoLater order a b = true) :
    ∃ ranked : List α, ranked.Perm stream ∧ (ranked.Pairwise fun a b => NoLater order a b = true)
      ∧ sorted.take limit = ranked.take limit := by
  have hcovers := h.of_perm hperm (List.Perm.refl stream)
  let rest := (sorted.drop limit ++ dropped).mergeSort (NoLater order)
  have hrest : rest.Perm (sorted.drop limit ++ dropped) := List.mergeSort_perm _ _
  have hall : (sorted.take limit ++ rest).Perm stream := by
    refine (hrest.append_left (sorted.take limit)).trans ?_
    rw [← List.append_assoc, List.take_append_drop]
    exact hcovers.perm
  refine ⟨sorted.take limit ++ rest, hall, ?_, ?_⟩
  · refine List.pairwise_append.mpr ⟨hsorted.sublist (List.take_sublist _ _),
      List.pairwise_mergeSort (fun _ _ _ => noLater_trans) noLater_total _, ?_⟩
    intro x hx y hy
    rcases List.mem_append.mp (hrest.mem_iff.mp hy) with hy | hy
    · rw [← List.take_append_drop limit sorted] at hsorted
      exact (List.pairwise_append.mp hsorted).2.2 x hx y hy
    · exact noLater_of_mem_take hsorted (hcovers.enough y hy) x hx
  · -- when fewer than `limit` are kept, nothing has been left out
    by_cases hlen : limit ≤ sorted.length
    · rw [List.take_append_of_le_length (by rw [List.length_take]; omega), List.take_take,
        Nat.min_self]
    · have hdropped : dropped = [] := by
        by_contra hne
        obtain ⟨y, hy⟩ := List.exists_mem_of_ne_nil _ hne
        have := hcovers.enough y hy
        have hcount : sorted.countP (fun x => NoLater order x y) ≤ sorted.length :=
          List.countP_le_length
        omega
      have hnil : rest = [] := by
        have hempty : sorted.drop limit ++ dropped = [] := by
          rw [hdropped, List.append_nil, List.drop_eq_nil_iff]
          omega
        rw [hempty] at hrest
        exact hrest.eq_nil
      rw [hnil, List.append_nil, List.take_take, Nat.min_self]

end Sorting

/-! ## One worker -/

namespace Selection

/-- A heap has been offered the stream: it holds the items kept, at most `limit` of them, and none
ranks later than an item dropped. -/
structure Kept (order : α → α → Ordering) (limit : Nat) (h : Heap α) (stream dropped : List α) :
    Prop where
  order_eq : h.order = order
  capacity_eq : h.capacity = limit + 1
  isHeap : Heap.IsHeap order h.items
  size_le : h.items.size ≤ limit
  perm : (h.items.toList ++ dropped).Perm stream
  full : dropped ≠ [] → h.items.size = limit
  ranked : ∀ x ∈ h.items.toList, ∀ y ∈ dropped, NoLater order x y = true

theorem kept_empty (order : α → α → Ordering) (limit : Nat) :
    Kept order limit (.empty (limit + 1) order) [] [] where
  order_eq := rfl
  capacity_eq := rfl
  isHeap := Heap.isHeap_empty
  size_le := Nat.zero_le _
  perm := by simp [Heap.empty]
  full h := absurd rfl h
  ranked := by simp

variable [Std.TransCmp order] {h : Heap α} {stream dropped : List α}

/-- The root ranks no earlier than any item of the heap. -/
theorem noLater_root {a : Array α} (hheap : Heap.IsHeap order a) (hne : 0 < a.size) :
    ∀ x ∈ a.toList, NoLater order x a[0] = true := by
  intro x hx
  obtain ⟨k, hk, rfl⟩ := Array.mem_iff_getElem.mp (Array.mem_toList_iff.mp hx)
  exact Heap.maySitAbove_iff.mp (hheap.root_worst hk)

/-- While there is room, an item offered is kept. -/
theorem Kept.insert_of_lt (hkept : Kept order limit h stream dropped)
    (hroom : h.items.size < limit) (x : α) :
    Kept order limit (h.insert x).2 (x :: stream) dropped := by
  obtain ⟨rfl, hcapacity, hheap, hsize, hperm, hfull, hranked⟩ := hkept
  obtain ⟨-, hheap', hperm', horder', hcapacity'⟩ := Heap.insert_spec hheap (by omega) x
  have hdropped : dropped = [] := by
    by_contra hne
    have := hfull hne
    omega
  subst hdropped
  have hlength := Heap.size_of_perm_cons hperm'
  refine ⟨horder', hcapacity'.trans hcapacity, hheap', by omega, ?_, fun h => absurd rfl h, by simp⟩
  rw [List.append_nil] at hperm ⊢
  exact hperm'.trans (hperm.cons x)

/-- A full heap drops an item that ranks no earlier than its root. -/
theorem Kept.drop_of_full (hkept : Kept order limit h stream dropped) (hsize : h.items.size = limit)
    (hpos : 0 < h.items.size) {x : α} (hx : NoLater order h.items[0] x = true) :
    Kept order limit h (x :: stream) (x :: dropped) := by
  have hroot := noLater_root hkept.isHeap hpos
  obtain ⟨horder, hcapacity, hheap, hsize', hperm, -, hranked⟩ := hkept
  refine ⟨horder, hcapacity, hheap, hsize', ?_, fun _ => hsize, ?_⟩
  · exact List.perm_middle.trans (hperm.cons x)
  · intro z hz y hy
    rcases List.mem_cons.mp hy with rfl | hy
    · exact noLater_trans (hroot z hz) hx
    · exact hranked z hz y hy

/-- With one item too many, the worst one goes out. -/
theorem Kept.extract_of_full (hkept : Kept order limit h stream dropped)
    (hsize : h.items.size = limit) (hpos : 0 < h.items.size) {x : α}
    (hx : NoLater order x h.items[0] = true) :
    ∃ y, Kept order limit (h.insert x).2.extract.2 (x :: stream) (y :: dropped) := by
  have hmem : h.items[0] ∈ h.items.toList := Array.mem_toList_iff.mpr (Array.getElem_mem hpos)
  obtain ⟨rfl, hcapacity, hheap, -, hperm, -, hranked⟩ := hkept
  obtain ⟨-, hheap', hperm', horder', hcapacity'⟩ := Heap.insert_spec hheap (by omega) x
  have hlength := Heap.size_of_perm_cons hperm'
  -- from here on only what is known about the fuller heap matters
  generalize (h.insert x).2 = g at hheap' hperm' horder' hcapacity' hlength ⊢
  rw [← horder'] at hheap' hx hranked ⊢
  have : Std.TransCmp g.order := horder' ▸ inferInstance
  obtain ⟨-, hheap'', hperm'', horder'', hcapacity''⟩ := Heap.extract_spec hheap' (by omega)
  have hall := hperm''.trans hperm'
  have hcount := hall.length_eq
  simp only [List.length_cons, Array.length_toList] at hcount
  refine ⟨g.items[0], horder'', hcapacity''.trans (hcapacity'.trans hcapacity), hheap'', by omega,
    ?_, fun _ => by omega, ?_⟩
  · exact List.perm_middle.trans ((hall.append_right dropped).trans (hperm.cons x))
  · intro z hz y hy
    have hz' : z ∈ g.items.toList := hperm''.mem_iff.mp (List.mem_cons_of_mem _ hz)
    rcases List.mem_cons.mp hy with rfl | hy
    · exact noLater_root hheap' (by omega) z hz'
    · -- the newcomer ranks no later than an item that was kept all along
      rcases List.mem_cons.mp (hperm'.mem_iff.mp hz') with rfl | hz'
      · exact noLater_trans hx (hranked _ hmem y hy)
      · exact hranked z hz' y hy

/-- Every item offered is kept or dropped, and so is what it pushes out. -/
theorem Kept.offer (hkept : Kept order limit h stream dropped) (hlimit : 1 ≤ limit) (x : α) :
    ∃ dropped', Kept order limit (offer limit h x) (x :: stream) dropped' := by
  unfold Selection.offer
  by_cases hroom : h.size < limit
  · rw [if_pos hroom]
    exact ⟨_, hkept.insert_of_lt hroom x⟩
  have hsize : h.items.size = limit := by
    have hle := hkept.size_le
    have hge : ¬ h.items.size < limit := hroom
    omega
  have hpos : 0 < h.items.size := by omega
  have hpeek : h.peek = some h.items[0] := Array.getElem?_eq_getElem hpos
  rw [if_neg hroom, hpeek]
  dsimp only
  rw [hkept.order_eq]
  cases hcmp : order x h.items[0] with
  | gt =>
    refine ⟨_, hkept.drop_of_full hsize hpos ?_⟩
    rw [NoLater, Heap.order_swap order, hcmp]
    rfl
  | lt =>
    obtain ⟨y, hkept'⟩ := hkept.extract_of_full hsize hpos (x := x) (by rw [NoLater, hcmp]; rfl)
    exact ⟨_, hkept'⟩
  | eq =>
    obtain ⟨y, hkept'⟩ := hkept.extract_of_full hsize hpos (x := x) (by rw [NoLater, hcmp]; rfl)
    exact ⟨_, hkept'⟩

theorem Kept.foldl (hkept : Kept order limit h stream dropped) (hlimit : 1 ≤ limit) (l : List α) :
    ∃ dropped', Kept order limit (l.foldl (Selection.offer limit) h) (l.reverse ++ stream)
      dropped' := by
  induction l generalizing h stream dropped with
  | nil => exact ⟨dropped, hkept⟩
  | cons x l ih =>
    obtain ⟨_, hkept'⟩ := hkept.offer hlimit x
    obtain ⟨dropped', hkept''⟩ := ih hkept'
    refine ⟨dropped', ?_⟩
    rw [List.reverse_cons, List.append_assoc, List.singleton_append]
    exact hkept''

omit [Std.TransCmp order] in
theorem Kept.of_perm {stream' : List α} (hkept : Kept order limit h stream dropped)
    (hstream : stream.Perm stream') : Kept order limit h stream' dropped :=
  { hkept with perm := hkept.perm.trans hstream }

omit [Std.TransCmp order] in
/-- What is held covers what the heap has been offered. -/
theorem Kept.covers (hkept : Kept order limit h stream dropped) :
    Covers order limit stream h.items.toList dropped := by
  refine ⟨hkept.perm, fun y hy => ?_⟩
  have hall : h.items.toList.countP (fun x => NoLater order x y) = h.items.toList.length :=
    List.countP_eq_length.mpr fun x hx => hkept.ranked x hx y hy
  -- an item has been dropped, so the heap is full
  have hfull := hkept.full (List.ne_nil_of_mem hy)
  rw [hall, Array.length_toList]
  exact Nat.le_of_eq hfull.symm

/-- **What a worker selects covers its share.** -/
theorem best_covers (hlimit : 1 ≤ limit) (share : List α) :
    ∃ dropped, Covers order limit share (best limit order share) dropped := by
  obtain ⟨dropped, hkept⟩ := (kept_empty order limit).foldl hlimit share
  rw [List.append_nil] at hkept
  exact ⟨dropped, (hkept.of_perm (List.reverse_perm share)).covers⟩

end Selection

end FuzzyFinder
