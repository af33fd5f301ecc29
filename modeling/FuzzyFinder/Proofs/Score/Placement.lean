import FuzzyFinder.Score
import Mathlib.Data.List.Basic
import Mathlib.Data.List.GetD

/-!
# FuzzyFinder — placements

A placement gives every needle byte a position in the candidate, in increasing order. The scan for
one byte starts behind the previous one and reaches a position (`Reaches`) when the byte fits
there, no blocked dot lies on the way, and, if the search commits to the first fit, nothing on the
way fits. A `Chain` is a placement each of whose positions is reached from the one before.

The search is right when it finds the best chain. What does not depend on the search is collected
here: a chain for a longer needle begins with one for its prefixes (`Chain.take`), so typing on
never makes a new chain; and with every position explored, chains are the placements that keep the
dot policy (`chain_iff_isLegal`), described without reference to any scan.
-/

namespace FuzzyFinder

/-! ## Case -/

namespace Byte

/-- A property of all bytes is checked on the 256 of them. -/
theorem forall_of_fin {p : UInt8 → Prop} (h : ∀ i : Fin 256, p (UInt8.ofFin i)) (b : UInt8) :
    p b := by
  have hb : UInt8.ofFin b.toFin = b := rfl
  rw [← hb]
  exact h _

theorem isUpper_fold (b : UInt8) : isUpper (fold b) = false :=
  forall_of_fin (p := fun b => isUpper (fold b) = false) (by decide +kernel) b

@[simp] theorem fold_fold (b : UInt8) : fold (fold b) = fold b := by
  rw [fold, isUpper_fold]
  rfl

/-- Nothing is folded onto a byte in front of the letters, such as a dot or a slash. -/
theorem fold_eq_iff {c : UInt8} (hc : c < 0x41) (b : UInt8) : fold b = c ↔ b = c := by
  rw [fold]
  split
  · rename_i hupper
    rw [isUpper, Bool.and_eq_true, decide_eq_true_iff, decide_eq_true_iff] at hupper
    obtain ⟨hfirst, hlast⟩ := hupper
    rw [UInt8.le_iff_toNat_le] at hfirst hlast
    rw [UInt8.lt_iff_toNat_lt] at hc
    simp only [← UInt8.toNat_inj, UInt8.toNat_add, UInt8.reduceToNat] at hfirst hlast hc ⊢
    omega
  · exact Iff.rfl

/-- What agrees byte for byte agrees up to case. -/
theorem agrees_of_sensitive {b n : UInt8} (h : agrees true b n = true) (hn : fold n = n)
    (caseSensitive : Bool) : agrees caseSensitive b n = true := by
  have hbn : b = n := eq_of_beq h
  cases caseSensitive <;> simp [agrees, hbn, hn]

theorem agrees_iff_eq {caseSensitive : Bool} {b c : UInt8} (hc : c < 0x41) :
    agrees caseSensitive b c = true ↔ b = c := by
  cases caseSensitive with
  | true => exact beq_iff_eq
  | false => exact beq_iff_eq.trans (fold_eq_iff hc b)

theorem eq_of_agrees {caseSensitive : Bool} {c n : UInt8} (hc : c < 0x41)
    (h : agrees caseSensitive c n = true) : n = c := by
  cases caseSensitive with
  | true => exact (eq_of_beq h).symm
  | false => exact (eq_of_beq (a := fold c) h).symm.trans ((fold_eq_iff hc c).mpr rfl)

end Byte

namespace Bytes

@[simp] theorem fold_nil : fold [] = [] := rfl

@[simp] theorem fold_cons (b : UInt8) (s : Bytes) : fold (b :: s) = Byte.fold b :: fold s := rfl

@[simp] theorem length_fold (s : Bytes) : (fold s).length = s.length := List.length_map ..

@[simp] theorem fold_fold (s : Bytes) : fold (fold s) = fold s := by
  induction s with
  | nil => rfl
  | cons b s ih => simp [ih]

end Bytes

/-! ## Dots that open a component -/

/-- A dot that opens a path component sits at position `q`. -/
def OpensHidden (candidate : Bytes) (q : Nat) : Prop :=
  candidate.getD q 0 = Byte.dot ∧ (q = 0 ∨ candidate.getD (q - 1) 0 = Byte.slash)

theorem OpensHidden.lt {candidate : Bytes} {q : Nat} (h : OpensHidden candidate q) :
    q < candidate.length := by
  by_contra hq
  have hnone : candidate.getD q 0 = 0 := List.getD_eq_default _ _ (Nat.le_of_not_lt hq)
  have hdot := h.1
  rw [hnone] at hdot
  exact absurd hdot (by decide)

theorem hidesFrom_iff (opening : Bool) (s : Bytes) :
    hidesFrom opening s = true ↔
      ∃ q, s.getD q 0 = Byte.dot
        ∧ (q = 0 ∧ opening = true ∨ 0 < q ∧ s.getD (q - 1) 0 = Byte.slash) := by
  induction s generalizing opening with
  | nil =>
    have hzero : (0 : UInt8) ≠ Byte.dot := by decide
    simp [hidesFrom, hzero]
  | cons b rest ih =>
    simp only [hidesFrom, Bool.or_eq_true, Bool.and_eq_true, beq_iff_eq, ih]
    constructor
    · -- the dot is the byte in front, follows it, or lies further behind
      rintro (⟨hopen, hdot⟩ | ⟨q, hdot, ⟨rfl, hslash⟩ | ⟨hpos, hslash⟩⟩)
      · exact ⟨0, by simpa using hdot, .inl ⟨rfl, hopen⟩⟩
      · exact ⟨1, by simpa using hdot, .inr ⟨by omega, by simpa using hslash⟩⟩
      · refine ⟨q + 1, by simpa using hdot, .inr ⟨by omega, ?_⟩⟩
        rw [show q + 1 - 1 = (q - 1) + 1 from by omega, List.getD_cons_succ]
        exact hslash
    · rintro ⟨q, hdot, ⟨rfl, hopen⟩ | ⟨hpos, hslash⟩⟩
      · exact .inl ⟨hopen, by simpa using hdot⟩
      · obtain ⟨r, rfl⟩ : ∃ r, q = r + 1 := ⟨q - 1, by omega⟩
        refine .inr ⟨r, by simpa using hdot, ?_⟩
        cases r with
        | zero => exact .inl ⟨rfl, by simpa using hslash⟩
        | succ r => exact .inr ⟨by omega, by simpa using hslash⟩

theorem hasHiddenComponent_iff (candidate : Bytes) :
    hasHiddenComponent candidate = true ↔ ∃ q, OpensHidden candidate q := by
  rw [hasHiddenComponent, hidesFrom_iff]
  refine exists_congr fun q => and_congr_right fun _ => ?_
  constructor
  · rintro (⟨h, -⟩ | ⟨-, h⟩)
    · exact .inl h
    · exact .inr h
  · rintro (h | h)
    · exact .inl ⟨h, rfl⟩
    · rcases Nat.eq_zero_or_pos q with hq | hq
      · exact .inl ⟨hq, rfl⟩
      · exact .inr ⟨hq, h⟩

/-! ## Chains -/

variable {candidate needle : Bytes} {options : ScoreOptions}

/-- The dot policy ends the scan for the needle byte `n` at position `q`. -/
def Blocked (candidate : Bytes) (options : ScoreOptions) (n : UInt8) (q : Nat) : Prop :=
  OpensHidden candidate q ∧ options.dotPolicy.blocks n = true

/-- The scan for the needle byte `n` from `start` on reaches position `j`. -/
structure Reaches (candidate : Bytes) (options : ScoreOptions) (n : UInt8) (start j : Nat) :
    Prop where
  start_le : start ≤ j
  lt : j < candidate.length
  fits : Byte.agrees options.caseSensitive (candidate.getD j 0) n = true
  clear : ∀ q, start ≤ q → q ≤ j → ¬ Blocked candidate options n q
  first : options.recurse = false →
    ∀ q, start ≤ q → q < j → Byte.agrees options.caseSensitive (candidate.getD q 0) n = false

/-- The positions `js` place the needle, each reached from behind the one before. -/
def Chain (candidate : Bytes) (options : ScoreOptions) : (start : Nat) → Bytes → List Nat → Prop
  | _, [], [] => True
  | start, n :: later, j :: js =>
    Reaches candidate options n start j ∧ Chain candidate options (j + 1) later js
  | _, _, _ => False

@[simp] theorem chain_nil_iff (start : Nat) (js : List Nat) :
    Chain candidate options start [] js ↔ js = [] := by
  cases js <;> simp [Chain]

@[simp] theorem chain_cons_iff (start : Nat) (n : UInt8) (later : Bytes) (js : List Nat) :
    Chain candidate options start (n :: later) js ↔
      ∃ j js', js = j :: js' ∧ Reaches candidate options n start j
        ∧ Chain candidate options (j + 1) later js' := by
  cases js <;> simp [Chain]

instance (candidate : Bytes) (q : Nat) : Decidable (OpensHidden candidate q) :=
  inferInstanceAs (Decidable (_ ∧ _))

instance (candidate : Bytes) (options : ScoreOptions) (n : UInt8) (q : Nat) :
    Decidable (Blocked candidate options n q) := inferInstanceAs (Decidable (_ ∧ _))

theorem reaches_iff (n : UInt8) (start j : Nat) : Reaches candidate options n start j ↔
    start ≤ j ∧ j < candidate.length
      ∧ Byte.agrees options.caseSensitive (candidate.getD j 0) n = true
      ∧ (∀ q < j + 1, start ≤ q → ¬ Blocked candidate options n q)
      ∧ (options.recurse = false → ∀ q < j, start ≤ q →
        Byte.agrees options.caseSensitive (candidate.getD q 0) n = false) := by
  constructor
  · rintro ⟨hstart, hlt, hfits, hclear, hfirst⟩
    exact ⟨hstart, hlt, hfits, fun q hq hstart => hclear q hstart (Nat.le_of_lt_succ hq),
      fun hrecurse q hq hstart => hfirst hrecurse q hstart hq⟩
  · rintro ⟨hstart, hlt, hfits, hclear, hfirst⟩
    exact ⟨hstart, hlt, hfits, fun q hstart hq => hclear q (Nat.lt_succ_of_le hq) hstart,
      fun hrecurse q hstart hq => hfirst hrecurse q hq hstart⟩

instance (candidate : Bytes) (options : ScoreOptions) (n : UInt8) (start j : Nat) :
    Decidable (Reaches candidate options n start j) := decidable_of_iff _ (reaches_iff n start j).symm

/-- Whether given positions make a chain can be computed. -/
instance decidableChain (candidate : Bytes) (options : ScoreOptions) :
    (start : Nat) → (needle : Bytes) → (js : List Nat) →
      Decidable (Chain candidate options start needle js)
  | _, [], [] => .isTrue trivial
  | _, [], _ :: _ => .isFalse id
  | _, _ :: _, [] => .isFalse id
  | start, n :: later, j :: js =>
    have := decidableChain candidate options (j + 1) later js
    inferInstanceAs (Decidable (Reaches candidate options n start j ∧ _))

/-- The needle can be placed. -/
def Placeable (candidate : Bytes) (options : ScoreOptions) (needle : Bytes) : Prop :=
  ∃ js, Chain candidate options 0 needle js

theorem Chain.length_eq {start : Nat} {js : List Nat} (h : Chain candidate options start needle js) :
    js.length = needle.length := by
  induction needle generalizing start js with
  | nil => simp_all
  | cons n later ih =>
    obtain ⟨j, js', rfl, -, hchain⟩ := (chain_cons_iff ..).mp h
    simp [ih hchain]

/-- **A chain for a longer needle begins with a chain for its prefix.** -/
theorem Chain.take {start : Nat} {later : Bytes} {js : List Nat}
    (h : Chain candidate options start (needle ++ later) js) :
    Chain candidate options start needle (js.take needle.length) := by
  induction needle generalizing start js with
  | nil => simp
  | cons n rest ih =>
    rw [List.cons_append] at h
    obtain ⟨j, js', rfl, hreach, hchain⟩ := (chain_cons_iff ..).mp h
    rw [List.length_cons, List.take_succ_cons, chain_cons_iff]
    exact ⟨j, _, rfl, hreach, ih hchain⟩

/-- A needle that continues one without a placement has none either. -/
theorem Placeable.of_append {later : Bytes} (h : Placeable candidate options (needle ++ later)) :
    Placeable candidate options needle := by
  obtain ⟨js, hchain⟩ := h
  exact ⟨_, hchain.take⟩

/-- What is reached under one set of switches is reached under another, if the scan is stopped no
sooner there. -/
theorem Chain.mono {options' : ScoreOptions} {start : Nat} {js : List Nat}
    (hreach : ∀ n ∈ needle, ∀ start j, Reaches candidate options n start j →
      Reaches candidate options' n start j)
    (h : Chain candidate options start needle js) : Chain candidate options' start needle js := by
  induction needle generalizing start js with
  | nil => simpa using h
  | cons n later ih =>
    obtain ⟨j, js', rfl, hfirst, hchain⟩ := (chain_cons_iff ..).mp h
    rw [chain_cons_iff]
    refine ⟨j, js', rfl, hreach n (by simp) _ _ hfirst, ih ?_ hchain⟩
    intro n' hn'
    exact hreach n' (List.mem_cons_of_mem _ hn')

/-! ## Legal placements

The same notion without a scan: increasing positions whose bytes agree with the needle, such that
no position up to the first one, and none behind one of them up to the next, holds a dot that the
policy keeps closed for the byte being placed. -/

/-- Byte equality under a case mode, folding both sides. -/
def SameLetter (caseSensitive : Bool) (b n : UInt8) : Prop :=
  if caseSensitive = true then b = n else Byte.fold b = Byte.fold n

@[simp] theorem sameLetter_refl (caseSensitive : Bool) (b : UInt8) :
    SameLetter caseSensitive b b := by
  unfold SameLetter
  split <;> rfl

/-- The positions `ps` are increasing and hold the needle's bytes. -/
structure IsPlacement (caseSensitive : Bool) (candidate needle : Bytes) (ps : List Nat) : Prop where
  length_eq : ps.length = needle.length
  increasing : ps.Pairwise (· < ·)
  sameLetter : ∀ (i p : Nat) (n : UInt8), ps[i]? = some p → needle[i]? = some n →
    ∃ b, candidate[p]? = some b ∧ SameLetter caseSensitive b n

/-- Position `q` holds a dot that opens a component, and the switches keep it closed for `n`. -/
def IsClosedDot (candidate : Bytes) (options : ScoreOptions) (n : UInt8) (q : Nat) : Prop :=
  candidate[q]? = some Byte.dot ∧ (q = 0 ∨ candidate[q - 1]? = some Byte.slash) ∧
    (options.neverShowDotFiles = true ∨ n ≠ Byte.dot ∧ options.alwaysShowDotFiles = false)

/-- A placement that passes no closed dot: none up to its first position, and none behind a
position up to the next one. -/
structure IsLegal (candidate : Bytes) (options : ScoreOptions) (needle : Bytes) (ps : List Nat) :
    Prop extends IsPlacement options.caseSensitive candidate needle ps where
  clear : ∀ (i p : Nat) (n : UInt8), ps[i]? = some p → needle[i]? = some n →
    ∀ q ≤ p, (∀ p', 0 < i → ps[i - 1]? = some p' → p' < q) → ¬ IsClosedDot candidate options n q

/-- The first fits of a needle: each is the first position behind the one before that holds the
needle's byte. -/
structure IsFirstFit (caseSensitive : Bool) (candidate needle : Bytes) (ps : List Nat) :
    Prop extends IsPlacement caseSensitive candidate needle ps where
  first : ∀ (i p : Nat) (n : UInt8), ps[i]? = some p → needle[i]? = some n →
    ∀ q < p, (∀ p', 0 < i → ps[i - 1]? = some p' → p' < q) →
      ∀ b, candidate[q]? = some b → ¬ SameLetter caseSensitive b n

/-- The needle as it is searched for: folded unless case matters. -/
def ScoreOptions.normalize (options : ScoreOptions) (needle : Bytes) : Bytes :=
  if options.caseSensitive then needle else needle.fold

@[simp] theorem length_normalize (options : ScoreOptions) (needle : Bytes) :
    (options.normalize needle).length = needle.length := by
  unfold ScoreOptions.normalize
  split <;> simp

theorem normalize_ne_nil (options : ScoreOptions) {needle : Bytes} (hne : needle ≠ []) :
    options.normalize needle ≠ [] := by
  rw [← List.length_pos_iff, length_normalize]
  exact List.length_pos_iff.mpr hne

theorem normalize_eq_map (options : ScoreOptions) (needle : Bytes) :
    options.normalize needle
      = needle.map fun n => if options.caseSensitive then n else Byte.fold n := by
  unfold ScoreOptions.normalize
  split
  · simp
  · rfl

/-- A prepared query needs no more folding under switches of its case mode. -/
theorem normalize_ofQuery {query : Bytes} {mode : CaseMatching} {ignoreSpaces : Bool}
    (h : options.caseSensitive = (Needle.ofQuery query mode ignoreSpaces).caseSensitive) :
    options.normalize (Needle.ofQuery query mode ignoreSpaces).bytes
      = (Needle.ofQuery query mode ignoreSpaces).bytes := by
  unfold ScoreOptions.normalize
  rw [h]
  unfold Needle.ofQuery
  cases mode.isSensitive query <;> simp

theorem getElem?_normalize (options : ScoreOptions) (needle : Bytes) (i : Nat) :
    (options.normalize needle)[i]?
      = needle[i]?.map fun n => if options.caseSensitive then n else Byte.fold n := by
  rw [normalize_eq_map, List.getElem?_map]

/-- Folding the needle once is as good as folding both sides. -/
theorem agrees_normalized (caseSensitive : Bool) (b n : UInt8) :
    Byte.agrees caseSensitive b (if caseSensitive then n else Byte.fold n) = true
      ↔ SameLetter caseSensitive b n := by
  cases caseSensitive <;> simp [Byte.agrees, SameLetter]

theorem getElem?_eq_some_iff_getD {q : Nat} {b : UInt8} (hb : b ≠ 0) :
    candidate[q]? = some b ↔ candidate.getD q 0 = b := by
  rw [List.getD_eq_getElem?_getD]
  cases candidate[q]? with
  | none => simp [hb.symm]
  | some _ => simp

theorem blocks_iff (options : ScoreOptions) (n : UInt8) :
    options.dotPolicy.blocks n = true ↔
      options.neverShowDotFiles = true ∨ n ≠ Byte.dot ∧ options.alwaysShowDotFiles = false := by
  unfold ScoreOptions.dotPolicy
  split
  · simp_all [DotPolicy.blocks]
  · split <;> simp_all [DotPolicy.blocks]

theorem blocked_iff_isClosedDot (n : UInt8) (q : Nat) :
    Blocked candidate options (if options.caseSensitive then n else Byte.fold n) q
      ↔ IsClosedDot candidate options n q := by
  have hdot : (if options.caseSensitive then n else Byte.fold n) = Byte.dot ↔ n = Byte.dot := by
    split
    · rfl
    · exact Byte.fold_eq_iff (by decide) n
  unfold Blocked OpensHidden IsClosedDot
  rw [blocks_iff, Ne, hdot, getElem?_eq_some_iff_getD (by decide),
    getElem?_eq_some_iff_getD (by decide), and_assoc]

/-- Where the scan for the `i`-th byte begins. -/
def scanStart (start : Nat) (ps : List Nat) : Nat → Nat
  | 0 => start
  | i + 1 => ps.getD i 0 + 1

/-- A chain, position by position. -/
theorem chain_iff_getElem? {start : Nat} {ps : List Nat} :
    Chain candidate options start needle ps ↔ ps.length = needle.length ∧
      ∀ i p n, ps[i]? = some p → needle[i]? = some n →
        Reaches candidate options n (scanStart start ps i) p := by
  induction needle generalizing start ps with
  | nil => simp [List.length_eq_zero_iff]
  | cons m later ih =>
    rw [chain_cons_iff]
    constructor
    · rintro ⟨j, js, rfl, hreach, hchain⟩
      obtain ⟨hlen, hall⟩ := ih.mp hchain
      refine ⟨by simp [hlen], ?_⟩
      intro i p n hp hn
      cases i with
      | zero =>
        obtain rfl : j = p := by simpa using hp
        obtain rfl : m = n := by simpa using hn
        exact hreach
      | succ i =>
        have := hall i p n (by simpa using hp) (by simpa using hn)
        cases i <;> exact this
    · rintro ⟨hlen, hall⟩
      cases ps with
      | nil => simp at hlen
      | cons j js =>
        refine ⟨j, js, rfl, hall 0 j m rfl rfl, ih.mpr ⟨by simpa using hlen, ?_⟩⟩
        intro i p n hp hn
        have := hall (i + 1) p n (by simpa using hp) (by simpa using hn)
        cases i <;> exact this

theorem Chain.pairwise {start : Nat} {ps : List Nat} (h : Chain candidate options start needle ps) :
    ps.Pairwise (· < ·) ∧ ∀ p ∈ ps, start ≤ p := by
  induction needle generalizing start ps with
  | nil => simp_all
  | cons n later ih =>
    obtain ⟨j, js, rfl, hreach, hchain⟩ := (chain_cons_iff ..).mp h
    obtain ⟨hpair, hle⟩ := ih hchain
    have hstart := hreach.start_le
    refine ⟨List.pairwise_cons.mpr ⟨fun p hp => hle p hp, hpair⟩, ?_⟩
    intro p hp
    rcases List.mem_cons.mp hp with rfl | hp
    · exact hstart
    · have := hle p hp
      omega

/-- A chain has room behind its start. -/
theorem Chain.add_length_le {start : Nat} {js : List Nat}
    (h : Chain candidate options start needle js) (hstart : start ≤ candidate.length) :
    start + needle.length ≤ candidate.length := by
  induction needle generalizing start js with
  | nil => exact hstart
  | cons n later ih =>
    obtain ⟨j, js', rfl, hreach, hchain⟩ := (chain_cons_iff ..).mp h
    have := ih hchain hreach.lt
    have := hreach.start_le
    rw [List.length_cons]
    omega

theorem Chain.lt_length {start : Nat} {js : List Nat}
    (h : Chain candidate options start needle js) : ∀ j ∈ js, j < candidate.length := by
  induction needle generalizing start js with
  | nil => simp_all
  | cons n later ih =>
    obtain ⟨j, js', rfl, hreach, hchain⟩ := (chain_cons_iff ..).mp h
    intro p hp
    rcases List.mem_cons.mp hp with rfl | hp
    · exact hreach.lt
    · exact ih hchain p hp

/-- The scan for the `i`-th byte begins right behind the position before. -/
theorem scanStart_le_iff {ps : List Nat} {i p : Nat} (hp : ps[i]? = some p) (q : Nat) :
    scanStart 0 ps i ≤ q ↔ ∀ p', 0 < i → ps[i - 1]? = some p' → p' < q := by
  cases i with
  | zero => simp [scanStart]
  | succ i =>
    have hi : i < ps.length := by
      have := (List.getElem?_eq_some_iff.mp hp).1
      omega
    rw [scanStart, List.getD_eq_getElem ps 0 hi, Nat.add_sub_cancel, List.getElem?_eq_getElem hi]
    constructor
    · rintro h _ - ⟨⟩
      exact h
    · exact fun h => h ps[i] (Nat.succ_pos i) rfl

theorem Chain.isLegal {ps : List Nat}
    (h : Chain candidate options 0 (options.normalize needle) ps) :
    IsLegal candidate options needle ps := by
  obtain ⟨hlen, hall⟩ := chain_iff_getElem?.mp h
  have hreach : ∀ (i p : Nat) (n : UInt8), ps[i]? = some p → needle[i]? = some n →
      Reaches candidate options (if options.caseSensitive then n else Byte.fold n)
        (scanStart 0 ps i) p := by
    intro i p n hp hn
    exact hall i p _ hp (by rw [getElem?_normalize, hn]; rfl)
  refine ⟨⟨by simpa using hlen, h.pairwise.1, ?_⟩, ?_⟩
  · intro i p n hp hn
    have hr := hreach i p n hp hn
    have hlt := hr.lt
    refine ⟨candidate[p], List.getElem?_eq_getElem hlt, ?_⟩
    rw [← agrees_normalized, ← List.getD_eq_getElem candidate 0 hlt]
    exact hr.fits
  · intro i p n hp hn q hq hbehind
    rw [← blocked_iff_isClosedDot]
    exact (hreach i p n hp hn).clear q ((scanStart_le_iff hp q).mpr hbehind) hq

/-- A search that commits to the first fit must find it in the placement. -/
theorem IsLegal.chain {ps : List Nat} (h : IsLegal candidate options needle ps)
    (hcommits : options.recurse = false → IsFirstFit options.caseSensitive candidate needle ps) :
    Chain candidate options 0 (options.normalize needle) ps := by
  obtain ⟨⟨hlen, hpair, hsame⟩, hclear⟩ := h
  refine chain_iff_getElem?.mpr ⟨by simpa using hlen, ?_⟩
  intro i p m hp hm
  rw [getElem?_normalize, Option.map_eq_some_iff] at hm
  obtain ⟨n, hn, rfl⟩ := hm
  obtain ⟨b, hb, hletter⟩ := hsame i p n hp hn
  obtain ⟨hlt, hget⟩ := List.getElem?_eq_some_iff.mp hb
  refine ⟨?_, hlt, ?_, ?_, fun hrecurse q hstart hq => ?_⟩
  · -- positions increase, so the scan begins no later than at `p`
    rw [scanStart_le_iff hp]
    intro p' hi hp'
    obtain ⟨hi', rfl⟩ := List.getElem?_eq_some_iff.mp hp
    obtain ⟨hi'', rfl⟩ := List.getElem?_eq_some_iff.mp hp'
    exact List.pairwise_iff_getElem.mp hpair (i - 1) i hi'' hi' (by omega)
  · rw [List.getD_eq_getElem candidate 0 hlt, hget, agrees_normalized]
    exact hletter
  · intro q hstart hq
    rw [blocked_iff_isClosedDot]
    exact hclear i p n hp hn q hq ((scanStart_le_iff hp q).mp hstart)
  · have hq' : q < candidate.length := Nat.lt_trans hq hlt
    rw [List.getD_eq_getElem candidate 0 hq', Bool.eq_false_iff, Ne, agrees_normalized]
    exact (hcommits hrecurse).first i p n hp hn q hq ((scanStart_le_iff hp q).mp hstart) _
      (List.getElem?_eq_getElem hq')

/-- **With every position explored, chains are legal placements.** -/
theorem chain_iff_isLegal (hrecurse : options.recurse = true) {ps : List Nat} :
    Chain candidate options 0 (options.normalize needle) ps
      ↔ IsLegal candidate options needle ps :=
  ⟨Chain.isLegal, fun h => h.chain fun hfirst => absurd (hrecurse.symm.trans hfirst) (by decide)⟩

end FuzzyFinder
