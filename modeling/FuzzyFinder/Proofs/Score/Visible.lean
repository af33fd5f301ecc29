import FuzzyFinder.Proofs.Score.Inheritance
import FuzzyFinder.Proofs.Score.Rate

/-!
# FuzzyFinder — what stays visible when hidden components are never shown

Under the strictest dot policy no scan gets past a dot that opens a component. A candidate is then
searched up to its first such dot and no further: `visiblePart` is what is left of it. A needle that
is not empty matches exactly when it occurs there as a subsequence (`isMatch_iff_occurs`), whether
positions are explored or the first fit is taken. So a hidden component behind the match does not
keep the candidate from matching; only what follows its opening is out of reach.
-/

namespace FuzzyFinder

/-! ## The visible part -/

/-- What precedes the first dot that opens a component; `opening` says that the next byte opens
one. -/
def visibleFrom (opening : Bool) : Bytes → Bytes
  | [] => []
  | b :: rest => if opening && b == Byte.dot then [] else b :: visibleFrom (b == Byte.slash) rest

/-- What precedes the first hidden component of a candidate. -/
def visiblePart (candidate : Bytes) : Bytes := visibleFrom true candidate

theorem visibleFrom_begins (opening : Bool) (s : Bytes) : visibleFrom opening s <+: s := by
  induction s generalizing opening with
  | nil => exact List.prefix_refl []
  | cons b rest ih =>
    rw [visibleFrom]
    split
    · exact List.nil_prefix
    · exact (List.prefix_cons_inj b).mpr (ih _)

theorem hidesFrom_visibleFrom (opening : Bool) (s : Bytes) :
    hidesFrom opening (visibleFrom opening s) = false := by
  induction s generalizing opening with
  | nil => rfl
  | cons b rest ih =>
    rw [visibleFrom]
    split
    · rfl
    · rename_i hplain
      rw [hidesFrom, ih, Bool.or_false]
      exact (Bool.not_eq_true _).mp hplain

/-- The visible part ends where the candidate does, or in front of a dot that opens a component. -/
theorem visibleFrom_stops (opening : Bool) (s : Bytes)
    (hlt : (visibleFrom opening s).length < s.length) :
    s.getD (visibleFrom opening s).length 0 = Byte.dot
      ∧ ((visibleFrom opening s).length = 0 ∧ opening = true
        ∨ 0 < (visibleFrom opening s).length
          ∧ s.getD ((visibleFrom opening s).length - 1) 0 = Byte.slash) := by
  induction s generalizing opening with
  | nil => exact absurd hlt (Nat.lt_irrefl 0)
  | cons b rest ih =>
    rw [visibleFrom] at hlt ⊢
    split
    · rename_i hdot
      obtain ⟨hopening, hb⟩ := Bool.and_eq_true_iff.mp hdot
      exact ⟨eq_of_beq hb, .inl ⟨rfl, hopening⟩⟩
    · rename_i hplain
      rw [if_neg hplain, List.length_cons, List.length_cons] at hlt
      obtain ⟨hdot, hbefore⟩ := ih (b == Byte.slash) (Nat.lt_of_succ_lt_succ hlt)
      refine ⟨by simpa using hdot, .inr ⟨Nat.succ_pos _, ?_⟩⟩
      -- the byte before the dot is the first one, or one of those behind it
      rcases hbefore with ⟨hzero, hslash⟩ | ⟨hpos, hslash⟩
      · rw [List.length_cons, hzero]
        exact eq_of_beq hslash
      · obtain ⟨k, hk⟩ := Nat.exists_eq_add_of_lt hpos
        rw [List.length_cons, Nat.add_sub_cancel]
        rw [hk] at hslash ⊢
        simpa using hslash

variable {candidate needle : Bytes} {options : ScoreOptions}

theorem length_visiblePart_le (candidate : Bytes) :
    (visiblePart candidate).length ≤ candidate.length :=
  (visibleFrom_begins true candidate).length_le

theorem getD_visiblePart {q : Nat} (hq : q < (visiblePart candidate).length) :
    (visiblePart candidate).getD q 0 = candidate.getD q 0 := by
  obtain ⟨later, hlater⟩ := visibleFrom_begins true candidate
  have happend := List.getD_append (visiblePart candidate) later 0 q hq
  rw [visiblePart, hlater] at happend
  exact happend.symm

theorem not_opensHidden_of_visible {q : Nat} (hq : q < (visiblePart candidate).length) :
    ¬ OpensHidden candidate q := by
  rintro ⟨hdot, hbefore⟩
  have hopens : OpensHidden (visiblePart candidate) q := by
    refine ⟨by rw [getD_visiblePart hq]; exact hdot, hbefore.imp_right fun hslash => ?_⟩
    rw [getD_visiblePart (by omega)]
    exact hslash
  have hhidden := (hasHiddenComponent_iff _).mpr ⟨q, hopens⟩
  rw [hasHiddenComponent, visiblePart, hidesFrom_visibleFrom] at hhidden
  exact absurd hhidden (by decide)

theorem opensHidden_visiblePart (hlt : (visiblePart candidate).length < candidate.length) :
    OpensHidden candidate (visiblePart candidate).length := by
  obtain ⟨hdot, hbefore⟩ := visibleFrom_stops true candidate hlt
  rcases hbefore with ⟨hzero, -⟩ | ⟨-, hslash⟩
  · exact ⟨hdot, .inl hzero⟩
  · exact ⟨hdot, .inr hslash⟩

/-- The first `d` bytes are those in front of the first dot that opens a component, or all bytes if
there is no such dot. -/
structure IsVisibleUpTo (candidate : Bytes) (d : Nat) : Prop where
  le : d ≤ candidate.length
  clear : ∀ q < d, ¬ OpensHidden candidate q
  stops : d < candidate.length → OpensHidden candidate d

theorem isVisibleUpTo_visiblePart (candidate : Bytes) :
    IsVisibleUpTo candidate (visiblePart candidate).length :=
  ⟨length_visiblePart_le candidate, fun _ => not_opensHidden_of_visible, opensHidden_visiblePart⟩

theorem IsVisibleUpTo.unique {d d' : Nat} (h : IsVisibleUpTo candidate d)
    (h' : IsVisibleUpTo candidate d') : d = d' := by
  have hle := h.le
  have hle' := h'.le
  rcases Nat.lt_trichotomy d d' with hlt | heq | hgt
  · exact absurd (h.stops (by omega)) (h'.clear d hlt)
  · exact heq
  · exact absurd (h'.stops (by omega)) (h.clear d' hgt)

/-- A candidate is visible as a whole unless it has a hidden component. -/
theorem visiblePart_eq_self_iff : visiblePart candidate = candidate
    ↔ hasHiddenComponent candidate = false := by
  rw [← Bool.not_eq_true, hasHiddenComponent_iff, not_exists]
  constructor
  · intro hself q hopens
    exact not_opensHidden_of_visible (by rw [hself]; exact hopens.lt) hopens
  · intro hnone
    refine (visibleFrom_begins true candidate).eq_of_length (Nat.le_antisymm ?_ ?_)
    · exact length_visiblePart_le candidate
    · exact Nat.le_of_not_lt fun hlt => hnone _ (opensHidden_visiblePart hlt)

theorem visiblePart_of_head (hhead : candidate.head? = some Byte.dot) :
    visiblePart candidate = [] := by
  obtain ⟨rest, rfl⟩ := List.head?_eq_some_iff.mp hhead
  rfl

/-- The first hidden component stands at the front, or behind a slash that is visible. -/
theorem slash_mem_visiblePart (hhidden : hasHiddenComponent candidate = true)
    (hhead : candidate.head? ≠ some Byte.dot) : Byte.slash ∈ visiblePart candidate := by
  have hne : visiblePart candidate ≠ candidate := by
    rw [Ne, visiblePart_eq_self_iff, hhidden]
    exact Bool.noConfusion
  have hlt : (visiblePart candidate).length < candidate.length :=
    Nat.lt_of_le_of_ne (length_visiblePart_le candidate)
      fun hlen => hne ((visibleFrom_begins true candidate).eq_of_length hlen)
  obtain ⟨hdot, hbefore⟩ := opensHidden_visiblePart hlt
  by_cases hzero : (visiblePart candidate).length = 0
  · rw [hzero, ← getElem?_eq_some_iff_getD (by decide), ← List.head?_eq_getElem?] at hdot
    exact absurd hdot hhead
  · have hslash := hbefore.resolve_left hzero
    rw [← getD_visiblePart (by omega), List.getD_eq_getElem _ _ (by omega)] at hslash
    exact List.mem_of_getElem hslash

/-! ## Occurrences -/

/-- The needle's letters occur in the text one after the other. -/
def Occurs (caseSensitive : Bool) (text needle : Bytes) : Prop :=
  List.SublistForall₂ (fun n b => SameLetter caseSensitive b n) needle text

/-- A sublist of a text occurs there letter by letter. -/
theorem occurs_of_sublist {caseSensitive : Bool} {text : Bytes} (h : needle.Sublist text) :
    Occurs caseSensitive text needle :=
  List.sublistForall₂_iff.mpr
    ⟨needle, List.forall₂_same.mpr fun b _ => sameLetter_refl caseSensitive b, h⟩

/-- The needle's bytes fit into the text one after the other; other than `Occurs` this takes the
needle to be folded already. -/
def FitsInto (caseSensitive : Bool) (text needle : Bytes) : Prop :=
  List.SublistForall₂ (fun n b => Byte.agrees caseSensitive b n = true) needle text

theorem fitsInto_normalize_iff {text : Bytes} :
    FitsInto options.caseSensitive text (options.normalize needle)
      ↔ Occurs options.caseSensitive text needle := by
  unfold FitsInto Occurs
  rw [normalize_eq_map, List.sublistForall₂_map_left_iff]
  simp only [agrees_normalized]

/-! ## Where scans end -/

/-- Scans see the first `d` bytes of the candidate and nothing behind them, whatever byte they are
for. -/
structure ScansUpTo (candidate : Bytes) (options : ScoreOptions) (d : Nat) : Prop where
  le : d ≤ candidate.length
  clear : ∀ n, ∀ q < d, ¬ Blocked candidate options n q
  stops : d < candidate.length → ∀ n, Blocked candidate options n d

/-- Where hidden components are never shown, scans end in front of the first one. -/
theorem IsVisibleUpTo.scansUpTo {d : Nat} (h : IsVisibleUpTo candidate d)
    (hnever : options.neverShowDotFiles = true) : ScansUpTo candidate options d where
  le := h.le
  clear _ q hq hblocked := h.clear q hq hblocked.1
  stops hlt _ := ⟨h.stops hlt, (blocks_iff ..).mpr (.inl hnever)⟩

theorem drop_take_eq_cons {d start : Nat} (hd : d ≤ candidate.length) (hlt : start < d) :
    (candidate.take d).drop start
      = candidate.getD start 0 :: (candidate.take d).drop (start + 1) := by
  have hlt' : start < (candidate.take d).length := by
    rw [List.length_take]
    omega
  rw [List.drop_eq_getElem_cons hlt', List.getElem_take, List.getD_eq_getElem _ _ (by omega)]

/-- No scan leaves these bytes. -/
theorem Chain.fitsInto {d start : Nat} {js : List Nat}
    (h : Chain candidate options start needle js) (hscans : ScansUpTo candidate options d)
    (hstart : start ≤ d) :
    FitsInto options.caseSensitive ((candidate.take d).drop start) needle := by
  induction needle generalizing start js with
  | nil => exact .nil
  | cons n later ih =>
    obtain ⟨j, js', rfl, hreach, hchain⟩ := (chain_cons_iff ..).mp h
    have hj : j < d := by
      by_contra hnot
      have hlt := hreach.lt
      exact hreach.clear d hstart (by omega) (hscans.stops (by omega) n)
    obtain ⟨picked, hpicked, hsub⟩ := List.sublistForall₂_iff.mp (ih hchain hj)
    refine List.sublistForall₂_iff.mpr ⟨candidate.getD j 0 :: picked, .cons hreach.fits hpicked, ?_⟩
    have hhere : (candidate.getD j 0 :: picked).Sublist ((candidate.take d).drop j) := by
      rw [drop_take_eq_cons hscans.le hj]
      exact hsub.cons_cons _
    exact hhere.trans (List.drop_sublist_drop_left _ hreach.start_le)

theorem lt_of_drop_take_eq_cons {d start : Nat} {b : UInt8} {rest : Bytes}
    (hd : d ≤ candidate.length) (h : b :: rest = (candidate.take d).drop start) :
    start < d ∧ b = candidate.getD start 0 ∧ rest = (candidate.take d).drop (start + 1) := by
  have hlt : start < d := by
    by_contra hnot
    rw [List.drop_eq_nil_of_le (by rw [List.length_take]; omega)] at h
    exact absurd h (List.cons_ne_nil b rest)
  rw [drop_take_eq_cons hd hlt] at h
  obtain ⟨hb, hrest⟩ := List.cons_eq_cons.mp h
  exact ⟨hlt, hb, hrest⟩

/-- With every position explored, what fits into these bytes is found. -/
theorem FitsInto.chain {d : Nat} (hrecurse : options.recurse = true)
    (hscans : ScansUpTo candidate options d) {start : Nat} {text : Bytes}
    (h : FitsInto options.caseSensitive text needle)
    (htext : text = (candidate.take d).drop start) :
    ∃ js, Chain candidate options start needle js := by
  unfold FitsInto at h
  induction h generalizing start with
  | nil => exact ⟨[], (chain_nil_iff ..).mpr rfl⟩
  | cons hfits _ ih =>
    -- the byte sits right where its scan begins
    obtain ⟨hlt, hb, hrest⟩ := lt_of_drop_take_eq_cons hscans.le htext
    obtain ⟨js, hchain⟩ := ih hrest
    refine ⟨start :: js, (chain_cons_iff ..).mpr ⟨start, js, rfl, ?_, hchain⟩⟩
    refine ⟨Nat.le_refl start, Nat.lt_of_lt_of_le hlt hscans.le, ?_, ?_, ?_⟩
    · rw [← hb]
      exact hfits
    · intro q _ hq
      exact hscans.clear _ q (by omega)
    · intro _ q hq hqs
      omega
  | cons_right _ ih =>
    -- nothing is placed here, and nothing here is in the way
    obtain ⟨hlt, -, hrest⟩ := lt_of_drop_take_eq_cons hscans.le htext
    obtain ⟨js, hchain⟩ := ih hrest
    refine ⟨js, hchain.of_le hrecurse (Nat.le_succ start) ?_⟩
    intro n _ q _ hq
    exact hscans.clear n q (by omega)

/-- **Where scans end at the same byte whatever they are for, a needle can be placed exactly when it
occurs in front of it.** -/
theorem ScansUpTo.placeable_iff {d : Nat} (h : ScansUpTo candidate options d)
    (heven : options.Even) : Placeable candidate options (options.normalize needle)
      ↔ Occurs options.caseSensitive (candidate.take d) needle := by
  rw [← fitsInto_normalize_iff]
  constructor
  · rintro ⟨js, hchain⟩
    exact hchain.fitsInto h (Nat.zero_le d)
  · intro hfits
    have hscans : ScansUpTo candidate { options with recurse := true } d := ⟨h.le, h.clear, h.stops⟩
    obtain ⟨js, hchain⟩ : ∃ js, Chain candidate { options with recurse := true } 0
        (options.normalize needle) js := FitsInto.chain rfl hscans hfits rfl
    -- this policy treats all bytes alike, so the first fits will do as well
    exact hchain.firstFit rfl rfl rfl heven

/-- **Where hidden components are never shown, a needle can be placed exactly when it occurs in the
visible part.** -/
theorem placeable_iff_occurs (hnever : options.neverShowDotFiles = true) :
    Placeable candidate options (options.normalize needle)
      ↔ Occurs options.caseSensitive (visiblePart candidate) needle := by
  have hvisible : visiblePart candidate = candidate.take (visiblePart candidate).length :=
    List.prefix_iff_eq_take.mp (visibleFrom_begins true candidate)
  rw [hvisible]
  have hscans := (isVisibleUpTo_visiblePart candidate).scansUpTo hnever
  exact hscans.placeable_iff (ScoreOptions.even_of_flag (.inl hnever))

/-- Without a needle, a candidate matches unless it has a hidden component. -/
theorem rateBytes_nil_isMatch_iff (hnever : options.neverShowDotFiles = true)
    (letters : LetterSet) (known : Option LetterSet) :
    (rateBytes candidate [] letters known options).1.isMatch = true
      ↔ hasHiddenComponent candidate = false := by
  have hconceals : options.dotPolicy.conceals = true := by
    rw [ScoreOptions.dotPolicy, if_pos hnever]
    rfl
  have hconcealed : Score.isMatch Score.concealed = false := by decide
  have hperfect : Score.isMatch Score.perfect = true := by decide
  rw [rateBytes, if_pos List.isEmpty_nil, hconceals, Bool.true_and]
  cases hasHiddenComponent candidate with
  | true => simp [hconcealed]
  | false => simp [hperfect]

/-- **Where hidden components are never shown, a needle matches what it occurs in.** -/
theorem isMatch_iff_occurs (hnever : options.neverShowDotFiles = true) (hne : needle ≠ [])
    (hlt : candidate.length < 2 ^ 64) : (score candidate needle options).isMatch = true
      ↔ Occurs options.caseSensitive (visiblePart candidate) needle := by
  rw [score_eq_rateBytes, rateBytes_isMatch_iff hlt (normalize_ne_nil options hne)]
  exact placeable_iff_occurs hnever

end FuzzyFinder
