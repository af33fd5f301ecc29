import FuzzyFinder.Proofs.Intake.Stream
import Mathlib.Data.ENat.Lattice

/-!
# FuzzyFinder — the splitting rule

What a stream is split into can be said without following its bytes. Its entries are the pieces
between the delimiters that are not empty. They become candidates, each without its first `drop`
bytes, up to the first entry too short for that (`ReadOptions.firstShort`) and up to the number wanted
(`ReadOptions.cap`), whichever comes first. The short entry is reported if it comes first
(`ReadOptions.shortfall`). `readStream_splits` says that this is what splitting does, in whatever
pieces the bytes arrive.
-/

namespace FuzzyFinder

namespace ReadOptions

variable (o : ReadOptions)

/-- How many candidates are wanted. -/
def cap : ℕ∞ := if o.maxFiles = 0 then ⊤ else o.maxFiles

/-- Where the first entry stands that has fewer bytes than it is to lose. -/
def firstShort (entries : List Bytes) : ℕ∞ :=
  match entries.findIdx? fun e => e.length < o.drop with
  | some i => i
  | none => ⊤

/-- The candidates that some entries make. -/
noncomputable def candidates (entries : List Bytes) : List Bytes :=
  (entries.take (min (o.firstShort entries) (min o.cap entries.length)).toNat).map (·.drop o.drop)

/-- What is reported about some entries: the first one too short, unless enough candidates stand in
front of it. -/
def shortfall (entries : List Bytes) : Option ScanError :=
  if o.firstShort entries < o.cap then
    entries[(o.firstShort entries).toNat]?.map fun e => .dropExceedsEntry o.drop e.length
  else none

variable {o}

theorem cap_le_iff (n : Nat) : o.cap ≤ n ↔ 0 < o.maxFiles ∧ o.maxFiles ≤ n := by
  rw [cap]
  split
  case isTrue hzero =>
    rw [top_le_iff, hzero]
    exact iff_of_false (ENat.natCast_ne_top n) (fun h => absurd h.1 (Nat.lt_irrefl 0))
  case isFalse hpos =>
    rw [Nat.cast_le]
    exact (and_iff_right (Nat.pos_of_ne_zero hpos)).symm

theorem cap_eq_of_le {n : Nat} (h : o.cap ≤ n) : o.cap = o.maxFiles :=
  if_neg (Nat.pos_iff_ne_zero.mp ((cap_le_iff n).mp h).1)

/-- **The first short entry.** Either every entry is long enough and is a candidate as far as it
goes, or those in front of the first short one are. -/
theorem firstShort_cases (entries : List Bytes) :
    (o.firstShort entries = ⊤ ∧ entries.map o.cut = (entries.map (·.drop o.drop)).map .ok) ∨
    ∃ front short back, entries = front ++ short :: back ∧ o.firstShort entries = front.length
      ∧ front.map o.cut = (front.map (·.drop o.drop)).map .ok
      ∧ o.cut short = .error (.dropExceedsEntry o.drop short.length) := by
  have hcut : ∀ l : List Bytes, (∀ e ∈ l, ¬ e.length < o.drop) →
      l.map o.cut = (l.map (·.drop o.drop)).map .ok := by
    intro l hl
    rw [List.map_map]
    exact List.map_congr_left fun e he => if_neg (hl e he)
  rw [firstShort]
  cases hidx : entries.findIdx? fun e => e.length < o.drop with
  | none =>
    refine .inl ⟨rfl, hcut entries fun e he => ?_⟩
    exact of_decide_eq_false (List.findIdx?_eq_none_iff.mp hidx e he)
  | some i =>
    obtain ⟨hi, hshort, hlong⟩ := List.findIdx?_eq_some_iff_getElem.mp hidx
    refine .inr ⟨entries.take i, entries[i], entries.drop (i + 1), ?_, ?_, hcut _ ?_,
      if_pos (of_decide_eq_true hshort)⟩
    · rw [← List.drop_eq_getElem_cons hi, List.take_append_drop]
    · rw [List.length_take_of_le (Nat.le_of_lt hi)]
    · intro e he
      obtain ⟨j, hj, rfl⟩ := List.mem_take_iff_getElem.mp he
      exact fun h => hlong j (by omega) (decide_eq_true h)

/-- **What entries come to** is what the splitting rule says. -/
theorem gather_map_cut (entries : List Bytes) :
    (Feed.gather o.maxFiles [] (entries.map o.cut)).1 = o.candidates entries ∧
    (Feed.gather o.maxFiles [] (entries.map o.cut)).2.error? = o.shortfall entries := by
  rw [Feed.gather_eq (Nat.eq_zero_or_pos _), candidates, shortfall]
  simp only [List.nil_append, List.length_nil, Nat.zero_add, Nat.sub_zero, ← cap_le_iff]
  rcases firstShort_cases (o := o) entries with
    ⟨hfirst, hok⟩ | ⟨front, short, back, rfl, hfirst, hok, hshort⟩
  · -- no entry is too short
    rw [hok, Feed.candidates_map_ok, Feed.stop_map_ok, hfirst, List.length_map, min_eq_right le_top,
      if_neg not_top_lt]
    by_cases hcap : o.cap ≤ entries.length
    · rw [if_pos hcap, min_eq_left hcap, cap_eq_of_le hcap, ENat.toNat_natCast, List.map_take]
      exact ⟨rfl, rfl⟩
    · rw [if_neg hcap, min_eq_right (le_of_not_ge hcap), ENat.toNat_natCast, List.take_length]
      exact ⟨rfl, rfl⟩
  · -- the entries in front of the short one are candidates
    rw [List.map_append, hok, List.map_cons, hshort, Feed.candidates_map_ok_append,
      Feed.stop_map_ok_append, Feed.candidates, Feed.stop, List.append_nil, hfirst, List.length_map]
    have hfront : (front.length : ℕ∞) ≤ (front ++ short :: back).length := by
      rw [Nat.cast_le, List.length_append]
      exact Nat.le_add_right _ _
    by_cases hcap : o.cap ≤ front.length
    · -- as many as are wanted, and the short entry is not met
      have hle := ((cap_le_iff _).mp hcap).2
      rw [if_pos hcap, if_neg (not_lt_of_ge hcap), min_eq_left (hcap.trans hfront),
        min_eq_right hcap, cap_eq_of_le hcap, ENat.toNat_natCast, List.take_append_of_le_length hle,
        List.map_take]
      exact ⟨rfl, rfl⟩
    · rw [if_neg hcap, if_pos (lt_of_not_ge hcap), min_eq_left (le_min (le_of_not_ge hcap) hfront),
        ENat.toNat_natCast, List.take_left, List.getElem?_append_right (Nat.le_refl _), Nat.sub_self]
      exact ⟨rfl, rfl⟩

end ReadOptions

/-- **Splitting follows the rule.** However the bytes of a stream arrive that ends regularly, the
candidates are those that its entries make, and nothing is reported but an entry too short. -/
theorem readStream_splits (deliveries : List Delivery) (o : ReadOptions) :
    let s : Stream := { deliveries }
    let entries := (List.splitOn o.delimiter s.bytes).filter (!·.isEmpty)
    (readStream s o).corpus.toList = o.candidates entries ∧
    (readStream s o).error = o.shortfall entries := by
  intro s entries
  obtain ⟨hcandidates, herror⟩ := s.readStream_yields o
  rw [Stream.feed_of_endOfInput rfl] at hcandidates herror
  obtain ⟨hrule, hrule'⟩ := ReadOptions.gather_map_cut (o := o) entries
  exact ⟨hcandidates.trans hrule, herror.trans hrule'⟩

-- a line too short to lose two bytes matters only as long as more candidates are wanted
example :
    let s : Stream := .whole [46, 47, 97, 10, 10, 98]
    (readStream s { drop := 2, maxFiles := 1 }).error = none ∧
    (readStream s { drop := 2, maxFiles := 2 }).error = some (.dropExceedsEntry 2 1) := by
  decide +kernel

end FuzzyFinder
