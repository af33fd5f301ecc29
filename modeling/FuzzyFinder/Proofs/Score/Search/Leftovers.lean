import FuzzyFinder.Proofs.Score.Checked

/-!
# FuzzyFinder — no scan adds what an earlier level has left behind

Nobody clears the two rows of a search. A level fills its row at the positions where its byte can
sit, and at all others the row still holds what was written two levels before. Here the search is
run in three other ways, and the answer stays the same (`best_without_leftovers`):

* every cell remembers where its value comes from, and a scan fails when it would add a cell that
  the level of its own byte has not written (`Search.bestTraced`);
* arbitrary values are put into the row that is filled next, before every level
  (`Search.bestAmid`);
* every needle byte has a row of its own, in a table as wide as the candidate
  (`Search.bestInTable`).

All three come down to one fact. A scan begins at the front of the candidate or behind a position
where the byte before can sit, so no position that fits and that it gets to lies in front of the
first one of its byte (`Search.Bounded.sets_of_fits`): level and scan agree on the cells that count.
-/

namespace FuzzyFinder

/-- Where the value of a cell comes from. -/
inductive CellOrigin where
  /-- The row of zeros that a search begins with. -/
  | zeros
  /-- What the other row is made of. -/
  | spare
  /-- Written by a level. -/
  | level (i : Nat)
deriving DecidableEq

structure TracedCell where
  value : Score
  origin : CellOrigin

abbrev TracedRow := Array TracedCell

namespace Search

variable {candidate needle : Bytes} {options : ScoreOptions} {s : Search} {i j start : Nat}
  {previous : Option Nat} {best : Score} {rest next rest' next' : Row} {read : Nat → Option Score}
  {traced spare : TracedRow}

/-! ## The cells that count -/

/-- Level `i` sets cell `j`. -/
structure Sets (s : Search) (i j : Nat) : Prop where
  first_le : s.first i ≤ j
  le_last : j ≤ s.last i
  fits : s.fits i j = true

/-- The arrays are in range, and a byte that fits behind the first position of the byte before lies
behind its own. -/
structure Bounded (s : Search) : Prop extends s.InRange where
  first_le : ∀ i j, i < s.needle.size → j < s.hay.size → s.fits i j = true →
    (i = 0 ∨ s.first (i - 1) < j) → s.first i ≤ j

theorem ofBytes_bounded {ps : List Nat} (hne : needle ≠ [])
    (h : IsRightmost options.caseSensitive candidate needle ps) :
    (ofBytes candidate needle ps options).Bounded where
  toInRange := ofBytes_inRange hne h
  first_le _ _ hi hj := ofBytes_first_le ps hi hj

/-- **What a scan gets to, its level has set**, as long as the scan begins behind the first position
of the byte before. -/
theorem Bounded.sets_of_fits (h : s.Bounded) (hi : i < s.needle.size)
    (hbehind : i = 0 ∨ s.first (i - 1) < start) (hstart : start ≤ j) (hlast : j ≤ s.last i)
    (hfits : s.fits i j = true) : s.Sets i j := by
  refine ⟨?_, hlast, hfits⟩
  apply h.first_le i j hi (Nat.lt_of_le_of_lt hlast (h.last_lt i hi)) hfits
  exact hbehind.imp_right fun hlt => Nat.lt_of_lt_of_le hlt hstart

theorem getD_fillRow_of_sets (h : s.Sets i j) (hnext : s.last i < next.size) :
    (s.fillRow i rest (s.last i + 1 - s.first i) (s.first i) next).getD j Score.unreachable
      = s.bestFrom (i + 1) (j + 1) (some j) rest := by
  have hfirst := h.first_le
  have hlast := h.le_last
  rw [getD_fillRow, if_pos ⟨hfirst, by omega, h.fits, by omega⟩]

/-! ## Scans that may be refused a cell -/

/-- `scan`, getting the cells it adds from `read`; it fails if there is one that it does not get. -/
def scanBy (s : Search) (i : Nat) (previous : Option Nat) (read : Nat → Option Score) :
    (count j : Nat) → (best : Score) → Option Score
  | 0, _, best => some best
  | count + 1, j, best =>
    if s.blocked i j then some best
    else if s.fits i j then
      (read j).bind fun cell =>
        let total := s.contribution j previous + cell
        let best := if best < total then total else best
        if s.options.recurse then scanBy s i previous read count (j + 1) best else some best
    else scanBy s i previous read count (j + 1) best

def bestBy (s : Search) (i start : Nat) (previous : Option Nat) (read : Nat → Option Score) :
    Option Score :=
  s.scanBy i previous read (s.last i + 1 - start) start Score.unreachable

/-- The cells that level `i` sets read as they stand in `row`. -/
def Serves (s : Search) (i : Nat) (read : Nat → Option Score) (row : Row) : Prop :=
  ∀ j, s.Sets i j → read j = some (row.getD j Score.unreachable)

/-- A row that is read without asking where its cells come from. -/
def cells (row : Row) (j : Nat) : Option Score := some (row.getD j Score.unreachable)

theorem scanBy_eq_some (count : Nat)
    (hread : ∀ q, j ≤ q → q < j + count → s.fits i q = true →
      read q = some (rest.getD q Score.unreachable)) :
    s.scanBy i previous read count j best = some (s.scan i previous rest count j best) := by
  induction count generalizing j best with
  | zero => rfl
  | succ count ih =>
    have hnext : ∀ q, j + 1 ≤ q → q < j + 1 + count → s.fits i q = true →
        read q = some (rest.getD q Score.unreachable) :=
      fun q hq hlt => hread q (by omega) (by omega)
    rw [scanBy, scan]
    by_cases hblocked : s.blocked i j = true
    · rw [if_pos hblocked, if_pos hblocked]
    rw [if_neg hblocked, if_neg hblocked]
    by_cases hfits : s.fits i j = true
    · rw [if_pos hfits, if_pos hfits, hread j (Nat.le_refl j) (by omega) hfits, Option.bind_some]
      dsimp only
      split
      · exact ih hnext
      · rfl
    · rw [if_neg hfits, if_neg hfits]
      exact ih hnext

namespace Bounded

/-- A scan that gets the cells its level has set gets all it asks for. -/
theorem bestBy_eq_some (h : s.Bounded) (hi : i < s.needle.size)
    (hbehind : i = 0 ∨ s.first (i - 1) < start) (hserves : s.Serves i read rest) :
    s.bestBy i start previous read = some (s.bestFrom i start previous rest) := by
  apply scanBy_eq_some
  intro q hq hlt hfits
  exact hserves q (h.sets_of_fits hi hbehind hq (by omega) hfits)

theorem bestFrom_congr (h : s.Bounded) (hi : i < s.needle.size)
    (hbehind : i = 0 ∨ s.first (i - 1) < start) (hserves : s.Serves i (cells rest') rest) :
    s.bestFrom i start previous rest' = s.bestFrom i start previous rest := by
  have hself : s.Serves i (cells rest') rest' := fun _ _ => rfl
  have heq : s.bestBy i start previous (cells rest') = some (s.bestFrom i start previous rest) :=
    h.bestBy_eq_some hi hbehind hserves
  rw [h.bestBy_eq_some hi hbehind hself] at heq
  exact Option.some.inj heq

theorem fillRow_congr (h : s.Bounded) (hi : i + 1 < s.needle.size)
    (hserves : s.Serves (i + 1) (cells rest') rest) (hnext : s.last i < next.size)
    (hnext' : s.last i < next'.size) :
    s.Serves i (cells (s.fillRow i rest' (s.last i + 1 - s.first i) (s.first i) next'))
      (s.fillRow i rest (s.last i + 1 - s.first i) (s.first i) next) := by
  intro j hj
  have hbehind : s.first i < j + 1 := Nat.lt_succ_of_le hj.first_le
  rw [cells, getD_fillRow_of_sets hj hnext', getD_fillRow_of_sets hj hnext,
    h.bestFrom_congr hi (.inr hbehind) hserves]

end Bounded

/-! ## Cells that remember where they come from -/

/-- Where the cells come from that a scan for the `i`-th needle byte may add: from the level of that
byte, or from the zeros behind the last byte, which has no level. -/
def originOf (s : Search) (i : Nat) : CellOrigin :=
  if i + 1 < s.needle.size then .level i else .zeros

def readTraced (s : Search) (i : Nat) (row : TracedRow) (j : Nat) : Option Score :=
  row[j]?.bind fun cell => if cell.origin = s.originOf i then some cell.value else none

def fillTraced (s : Search) (i : Nat) (rest : TracedRow) :
    (count j : Nat) → (next : TracedRow) → Option TracedRow
  | 0, _, next => some next
  | count + 1, j, next =>
    if s.fits i j then
      (s.bestBy (i + 1) (j + 1) (some j) (s.readTraced (i + 1) rest)).bind fun value =>
        fillTraced s i rest count (j + 1) (next.setIfInBounds j ⟨value, .level i⟩)
    else fillTraced s i rest count (j + 1) next

def levelsTraced (s : Search) : (i : Nat) → (rest next : TracedRow) → Option TracedRow
  | 0, rest, _ => some rest
  | i + 1, rest, next =>
    (s.fillTraced i rest (s.last i + 1 - s.first i) (s.first i) next).bind fun filled =>
      levelsTraced s i filled rest

/-- The search with cells that remember where they come from; it fails as soon as a scan would add
one that comes from elsewhere than it should. -/
def bestTraced (s : Search) : Option Score :=
  let top := s.needle.size - 1
  let width := s.last top + 1
  (s.levelsTraced top (.replicate width ⟨0, .zeros⟩)
    (.replicate width ⟨Score.unreachable, .spare⟩)).bind fun row =>
      s.bestBy 0 0 none (s.readTraced 0 row)

/-- A level that gets all its values writes them under its own name, and leaves the other cells
alone. -/
theorem fillTraced_spec {value : Nat → Score} (count : Nat) (spare : TracedRow)
    (hvalue : ∀ q, j ≤ q → q < j + count → s.fits i q = true →
      s.bestBy (i + 1) (q + 1) (some q) (s.readTraced (i + 1) traced) = some (value q)) :
    ∃ filled, s.fillTraced i traced count j spare = some filled ∧ filled.size = spare.size ∧
      ∀ q, filled[q]? = if j ≤ q ∧ q < j + count ∧ s.fits i q = true ∧ q < spare.size then
        some ⟨value q, .level i⟩ else spare[q]? := by
  induction count generalizing j spare with
  | zero =>
    refine ⟨spare, rfl, rfl, fun q => ?_⟩
    rw [if_neg (by omega)]
  | succ count ih =>
    have hnext : ∀ q, j + 1 ≤ q → q < j + 1 + count → s.fits i q = true →
        s.bestBy (i + 1) (q + 1) (some q) (s.readTraced (i + 1) traced) = some (value q) :=
      fun q hq hlt => hvalue q (by omega) (by omega)
    rw [fillTraced]
    by_cases hfits : s.fits i j = true
    · rw [if_pos hfits, hvalue j (Nat.le_refl j) (by omega) hfits, Option.bind_some]
      obtain ⟨filled, hfilled, hsize, hcell⟩ :=
        ih (spare.setIfInBounds j ⟨value j, .level i⟩) hnext
      rw [Array.size_setIfInBounds] at hsize
      refine ⟨filled, hfilled, hsize, fun q => ?_⟩
      rw [hcell, Array.size_setIfInBounds, Array.getElem?_setIfInBounds]
      by_cases hq : j = q
      · -- the rest of the range lies behind `q`, so the cell stays as it is set here
        subst hq
        rw [if_neg (by omega), if_pos rfl]
        by_cases hlt : j < spare.size
        · rw [if_pos hlt, if_pos ⟨Nat.le_refl j, by omega, hfits, hlt⟩]
        · rw [if_neg hlt, if_neg (by omega), Array.getElem?_eq_none (by omega)]
      · rw [if_neg hq]
        exact if_congr (ahead_iff hq) rfl rfl
    · rw [if_neg hfits]
      obtain ⟨filled, hfilled, hsize, hcell⟩ := ih spare hnext
      refine ⟨filled, hfilled, hsize, fun q => ?_⟩
      rw [hcell]
      by_cases hq : j = q
      · subst hq
        rw [if_neg (by omega), if_neg fun hall => hfits hall.2.2.1]
      · exact if_congr (ahead_iff hq) rfl rfl

namespace Bounded

theorem fillTraced_serves (h : s.Bounded) (hi : i + 1 < s.needle.size)
    (hserves : s.Serves (i + 1) (s.readTraced (i + 1) traced) rest) (hnext : s.last i < next.size)
    (hspare : s.last i < spare.size) :
    ∃ filled, s.fillTraced i traced (s.last i + 1 - s.first i) (s.first i) spare = some filled
      ∧ filled.size = spare.size
      ∧ s.Serves i (s.readTraced i filled)
        (s.fillRow i rest (s.last i + 1 - s.first i) (s.first i) next) := by
  have hvalue : ∀ q, s.first i ≤ q → q < s.first i + (s.last i + 1 - s.first i) →
      s.fits i q = true →
      s.bestBy (i + 1) (q + 1) (some q) (s.readTraced (i + 1) traced)
        = some (s.bestFrom (i + 1) (q + 1) (some q) rest) := by
    intro q hq _ _
    exact h.bestBy_eq_some hi (.inr (Nat.lt_succ_of_le hq)) hserves
  obtain ⟨filled, hfilled, hsize, hcell⟩ := fillTraced_spec _ spare hvalue
  refine ⟨filled, hfilled, hsize, fun j hj => ?_⟩
  have hfirst := hj.first_le
  have hlast := hj.le_last
  have horigin : s.originOf i = .level i := if_pos hi
  rw [readTraced, hcell, if_pos ⟨hfirst, by omega, hj.fits, by omega⟩, Option.bind_some, horigin,
    if_pos rfl, getD_fillRow_of_sets hj hnext]

theorem levelsTraced_serves (h : s.Bounded) (hi : i < s.needle.size)
    (hserves : s.Serves i (s.readTraced i traced) rest) (hrest : rest.size = s.width)
    (hnext : next.size = s.width) (htraced : traced.size = s.width)
    (hspare : spare.size = s.width) :
    ∃ row, s.levelsTraced i traced spare = some row
      ∧ s.Serves 0 (s.readTraced 0 row) (s.levels i rest next) := by
  induction i generalizing rest next traced spare with
  | zero => exact ⟨traced, rfl, hserves⟩
  | succ i ih =>
    have hlast := h.last_lt_width (Nat.lt_of_succ_lt hi)
    have hnext' : s.last i < next.size := by omega
    have hspare' : s.last i < spare.size := by omega
    obtain ⟨filled, hfilled, hsize, hserves'⟩ := h.fillTraced_serves hi hserves hnext' hspare'
    rw [levelsTraced, levels, hfilled, Option.bind_some]
    -- the rows trade places
    exact ih (Nat.lt_of_succ_lt hi) hserves' (by rw [size_fillRow]; exact hnext) hrest
      (by rw [hsize]; exact hspare) htraced

/-- **Every cell that a scan adds comes from the level of its byte**, or from the zeros behind the
last one. -/
theorem bestTraced_eq_some (h : s.Bounded) : s.bestTraced = some s.best := by
  have htop : s.needle.size - 1 < s.needle.size := Nat.sub_lt h.needle_pos Nat.one_pos
  have hzeros : s.Serves (s.needle.size - 1)
      (s.readTraced (s.needle.size - 1) (.replicate s.width ⟨0, .zeros⟩))
      (.replicate s.width 0) := by
    intro j hj
    have hlt : j < s.width := Nat.lt_of_le_of_lt hj.le_last (h.last_lt_width htop)
    have horigin : s.originOf (s.needle.size - 1) = .zeros := if_neg (by omega)
    simp [readTraced, horigin, Array.getD_eq_getD_getElem?, hlt]
  obtain ⟨row, hrow, hserves⟩ : ∃ row,
      s.levelsTraced (s.needle.size - 1) (.replicate s.width ⟨0, .zeros⟩)
          (.replicate s.width ⟨Score.unreachable, .spare⟩) = some row
        ∧ s.Serves 0 (s.readTraced 0 row) (s.levels (s.needle.size - 1) (.replicate s.width 0)
          (.replicate s.width Score.unreachable)) :=
    h.levelsTraced_serves htop hzeros Array.size_replicate Array.size_replicate Array.size_replicate
      Array.size_replicate
  rw [bestTraced]
  change (s.levelsTraced (s.needle.size - 1) (.replicate s.width ⟨0, .zeros⟩)
    (.replicate s.width ⟨Score.unreachable, .spare⟩)).bind _ = _
  rw [hrow, Option.bind_some]
  exact h.bestBy_eq_some h.needle_pos (.inl rfl) hserves

end Bounded

/-! ## Noise in the row to be filled -/

/-- The levels, with every cell of the row that level `i` fills replaced before it does so: `noise`
is given the level, the position and the value that stands there. -/
def levelsAmid (s : Search) (noise : Nat → Nat → Score → Score) :
    (i : Nat) → (rest next : Row) → Row
  | 0, rest, _ => rest
  | i + 1, rest, next =>
    let filled := s.fillRow i rest (s.last i + 1 - s.first i) (s.first i) (next.mapIdx (noise i))
    levelsAmid s noise i filled rest

def bestAmid (s : Search) (noise : Nat → Nat → Score → Score) : Score :=
  let top := s.needle.size - 1
  let width := s.last top + 1
  let row := s.levelsAmid noise top (.replicate width 0) (.replicate width Score.unreachable)
  s.bestFrom 0 0 none row

namespace Bounded

theorem levelsAmid_serves (h : s.Bounded) (hi : i < s.needle.size)
    (noise : Nat → Nat → Score → Score) (hserves : s.Serves i (cells rest') rest)
    (hrest : rest.size = s.width) (hnext : next.size = s.width) (hrest' : rest'.size = s.width)
    (hnext' : next'.size = s.width) :
    s.Serves 0 (cells (s.levelsAmid noise i rest' next')) (s.levels i rest next) := by
  induction i generalizing rest next rest' next' with
  | zero => exact hserves
  | succ i ih =>
    have hlast := h.last_lt_width (Nat.lt_of_succ_lt hi)
    rw [levelsAmid, levels]
    -- the row to be filled need not agree with anything: a level sets all cells that count
    apply ih (Nat.lt_of_succ_lt hi)
    · exact h.fillRow_congr hi hserves (by omega) (by rw [Array.size_mapIdx]; omega)
    · rw [size_fillRow]
      exact hnext
    · exact hrest
    · rw [size_fillRow, Array.size_mapIdx]
      exact hnext'
    · exact hrest'

theorem bestAmid_eq (h : s.Bounded) (noise : Nat → Nat → Score → Score) :
    s.bestAmid noise = s.best := by
  have htop : s.needle.size - 1 < s.needle.size := Nat.sub_lt h.needle_pos Nat.one_pos
  apply h.bestFrom_congr h.needle_pos (.inl rfl)
  exact h.levelsAmid_serves htop noise (fun _ _ => rfl) Array.size_replicate Array.size_replicate
    Array.size_replicate Array.size_replicate

end Bounded

/-! ## A row for every needle byte -/

/-- Fills the rows below row `i` of a table, the highest first, each from the one above it. -/
def fillTable (s : Search) : (i : Nat) → (table : Array Row) → Array Row
  | 0, table => table
  | i + 1, table =>
    let filled := s.fillRow i (table.getD (i + 1) #[]) (s.last i + 1 - s.first i) (s.first i)
      (table.getD i #[])
    fillTable s i (table.setIfInBounds i filled)

/-- A row for every needle byte and a column for every byte of the candidate, with nothing but the
zeros behind the last needle byte. -/
def emptyTable (s : Search) : Array Row :=
  let blank : Row := .replicate s.hay.size Score.unreachable
  (Array.replicate s.needle.size blank).setIfInBounds (s.needle.size - 1) (.replicate s.hay.size 0)

def bestInTable (s : Search) : Score :=
  s.bestFrom 0 0 none ((s.fillTable (s.needle.size - 1) s.emptyTable).getD 0 #[])

namespace Bounded

theorem fillTable_serves {table : Array Row} (h : s.Bounded) (hi : i < s.needle.size)
    (hserves : s.Serves i (cells (table.getD i #[])) rest) (hrest : rest.size = s.width)
    (hnext : next.size = s.width) (htable : i < table.size)
    (hblank : ∀ k < i, (table.getD k #[]).size = s.hay.size) :
    s.Serves 0 (cells ((s.fillTable i table).getD 0 #[])) (s.levels i rest next) := by
  induction i generalizing rest next table with
  | zero => exact hserves
  | succ i ih =>
    have hi' : i < s.needle.size := Nat.lt_of_succ_lt hi
    have hlast := h.last_lt_width hi'
    have hnext' : s.last i < next.size := by omega
    have hblank' : s.last i < (table.getD i #[]).size := by
      rw [hblank i (Nat.lt_succ_self i)]
      exact h.last_lt i hi'
    rw [fillTable, levels]
    apply ih hi'
    · have hfilled := h.fillRow_congr hi hserves hnext' hblank'
      simpa [Array.getD_eq_getD_getElem?, Nat.lt_of_succ_lt htable] using hfilled
    · rw [size_fillRow]
      exact hnext
    · exact hrest
    · rw [Array.size_setIfInBounds]
      exact Nat.lt_of_succ_lt htable
    · -- the rows still to be filled are those above
      intro k hk
      have hk' := hblank k (Nat.lt_succ_of_lt hk)
      have hne : i ≠ k := Nat.ne_of_gt hk
      simpa [Array.getD_eq_getD_getElem?, Array.getElem?_setIfInBounds, hne] using hk'

/-- **Two rows that trade places are as good as a table.** -/
theorem bestInTable_eq (h : s.Bounded) : s.bestInTable = s.best := by
  have htop : s.needle.size - 1 < s.needle.size := Nat.sub_lt h.needle_pos Nat.one_pos
  have hzeros : s.emptyTable.getD (s.needle.size - 1) #[] = .replicate s.hay.size 0 := by
    simp [emptyTable, Array.getD_eq_getD_getElem?, h.needle_pos]
  have hblank : ∀ k < s.needle.size - 1, (s.emptyTable.getD k #[]).size = s.hay.size := by
    intro k hk
    have hk' : k < s.needle.size := Nat.lt_trans hk htop
    simp [emptyTable, Array.getD_eq_getD_getElem?, Nat.ne_of_gt hk, hk']
  have hserves : s.Serves (s.needle.size - 1) (cells (s.emptyTable.getD (s.needle.size - 1) #[]))
      (.replicate s.width 0) := by
    intro j hj
    have hwidth : j < s.width := Nat.lt_of_le_of_lt hj.le_last (h.last_lt_width htop)
    have hhay : j < s.hay.size := Nat.lt_of_le_of_lt hj.le_last (h.last_lt _ htop)
    rw [hzeros]
    simp [cells, Array.getD_eq_getD_getElem?, hwidth, hhay]
  apply h.bestFrom_congr h.needle_pos (.inl rfl)
  exact h.fillTable_serves htop hserves Array.size_replicate Array.size_replicate
    (by simp [emptyTable, h.needle_pos]) hblank

end Bounded

end Search

variable {candidate needle : Bytes} {options : ScoreOptions}

/-- **A search is free of leftovers.** For every needle that fits, whether positions are explored or
the first fit is taken: no scan adds a cell that the level of its byte has not written, the zeros
behind the last byte apart; noise in the row to be filled changes nothing, at any level; and the two
rows do what a table with a row for every needle byte would. -/
theorem best_without_leftovers {known : Option LetterSet} {ps : List Nat} (hne : needle ≠ [])
    (hfound : (rightmost options.caseSensitive candidate needle known).1 = some ps) :
    let s := Search.ofBytes candidate needle ps options
    s.bestTraced = some s.best ∧ (∀ noise, s.bestAmid noise = s.best) ∧ s.bestInTable = s.best := by
  intro s
  have hbounded : s.Bounded := Search.ofBytes_bounded hne (rightmost_isRightmost hfound)
  exact ⟨hbounded.bestTraced_eq_some, hbounded.bestAmid_eq, hbounded.bestInTable_eq⟩

/-- For the needle `aba` in `abababa` a zero is left in the last row, at a position where the first
byte fits. -/
theorem best_without_leftovers_of_repeats :
    let s := Search.ofBytes (.ofString "abababa") (.ofString "aba") [4, 5, 6] { recurse := true }
    (s.levels 2 (.replicate 7 0) (.replicate 7 Score.unreachable)).getD 6 Score.unreachable = 0
      ∧ s.fits 0 6 = true
      ∧ s.bestTraced = some s.best ∧ (∀ noise, s.bestAmid noise = s.best)
      ∧ s.bestInTable = s.best := by
  intro s
  have hne : Bytes.ofString "aba" ≠ [] := by decide +kernel
  have hfound : (rightmost false (.ofString "abababa") (.ofString "aba") none).1 = some [4, 5, 6] := by
    decide +kernel
  refine ⟨by decide +kernel, by decide +kernel, ?_⟩
  exact @best_without_leftovers _ _ { recurse := true } none _ hne hfound

end FuzzyFinder
