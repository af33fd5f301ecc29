import FuzzyFinder.Proofs.Score.Inheritance
import FuzzyFinder.Proofs.Score.Rate

/-!
# FuzzyFinder — what committing to first fits costs

A search that commits to first fits matches nothing that a search through all positions does not
match. It may match less, and only for one reason: hidden components open for a dot of the needle.
The first dot that fits is taken, and if a hidden component lies behind it that a later dot would
have opened, the bytes that follow never get there. So `a./.b` is missed by the needle `.b`.

Nothing is lost when no byte has to get there. From the first dot on, a needle that `EndsInDots`
has only dots, which every component opens for, and slashes right behind a dot, which are met before
the next component begins. Every other needle misses some candidate (`exists_trap`), so this is
exactly when first fits suffice (`firstFitsSuffice_iff`).
-/

namespace FuzzyFinder

variable {candidate needle : Bytes} {options options' : ScoreOptions}

/-! ## What stops a scan -/

/-- Where hidden components open for a dot, the scan for one is never stopped. -/
theorem not_blocked_dot (hopen : options.dotPolicy.blocks Byte.dot = false) (q : Nat) :
    ¬ Blocked candidate options Byte.dot q := by
  rintro ⟨-, hblocks⟩
  rw [hopen] at hblocks
  exact absurd hblocks (by decide)

/-- Where they open on request, every hidden component stops the scan for another byte. -/
theorem blocked_iff_opensHidden (hrequest : options.dotPolicy = .onRequest) {n : UInt8}
    (hn : n ≠ Byte.dot) (q : Nat) : Blocked candidate options n q ↔ OpensHidden candidate q := by
  refine and_iff_left ?_
  rw [hrequest]
  exact bne_iff_ne.mpr hn

/-! ## Needles that end in dots -/

/-- Behind the first dot of a needle that ends in dots, `n` may follow `b`: a dot follows anything, and
a slash follows a dot. -/
def Trails (b n : UInt8) : Prop := n = Byte.dot ∨ b = Byte.dot ∧ n = Byte.slash

instance (b n : UInt8) : Decidable (Trails b n) := inferInstanceAs (Decidable (_ ∨ _))

/-- From its first dot on the needle has only dots, and slashes right behind a dot. -/
def EndsInDots (needle : Bytes) : Prop := (needle.dropWhile (· != Byte.dot)).IsChain Trails

instance (needle : Bytes) : Decidable (EndsInDots needle) :=
  inferInstanceAs (Decidable (List.IsChain _ _))

theorem endsInDots_cons_dot {later : Bytes} :
    EndsInDots (Byte.dot :: later) ↔ (Byte.dot :: later).IsChain Trails := by
  rw [EndsInDots, List.dropWhile_cons_of_neg (by simp)]

theorem endsInDots_cons {n : UInt8} (hn : n ≠ Byte.dot) {later : Bytes} :
    EndsInDots (n :: later) ↔ EndsInDots later := by
  have hskip : (n != Byte.dot) = true := bne_iff_ne.mpr hn
  rw [EndsInDots, List.dropWhile_cons_of_pos (p := (· != Byte.dot)) hskip, EndsInDots]

theorem endsInDots_normalize : EndsInDots (options.normalize needle) ↔ EndsInDots needle := by
  -- folding touches neither dots nor slashes
  let fold (n : UInt8) : UInt8 := if options.caseSensitive then n else Byte.fold n
  have hfold : ∀ c n, c < 0x41 → (fold n = c ↔ n = c) := by
    intro c n hc
    by_cases hcase : options.caseSensitive = true
    · simp [fold, hcase]
    · simp [fold, hcase, Byte.fold_eq_iff hc]
  have hdot : ∀ n, fold n = Byte.dot ↔ n = Byte.dot := fun n => hfold Byte.dot n (by decide)
  have hslash : ∀ n, fold n = Byte.slash ↔ n = Byte.slash := fun n => hfold Byte.slash n (by decide)
  -- so the first dot stays the first, and what trails what stays the same
  have hskip : (· != Byte.dot) ∘ fold = (· != Byte.dot) := by
    funext n
    rw [Function.comp_apply, Bool.eq_iff_iff, bne_iff_ne, bne_iff_ne, Ne, hdot]
  have htrails : (fun b n => Trails (fold b) (fold n)) = Trails := by
    funext b n
    rw [Trails, Trails, hdot, hdot, hslash]
  rw [normalize_eq_map, EndsInDots, EndsInDots, List.dropWhile_map, List.isChain_map]
  change List.IsChain (fun b n => Trails (fold b) (fold n))
    (needle.dropWhile ((· != Byte.dot) ∘ fold)) ↔ _
  rw [hskip, htrails]

/-! ## First fits that suffice -/

/-- Behind a dot that has been placed, the first fits of dots and of slashes behind dots pass no
closed dot: a slash would have to come before it. -/
theorem Chain.firstFit_behind_dot {b : UInt8} {start start' : Nat} {js : List Nat}
    (h : Chain candidate options start needle js)
    (hcase : options'.caseSensitive = options.caseSensitive)
    (hpolicy : options'.dotPolicy = options.dotPolicy)
    (hopen : options.dotPolicy.blocks Byte.dot = false) (htrails : (b :: needle).IsChain Trails)
    (hle : start' ≤ start)
    (hbehind : b = Byte.dot → 0 < start' ∧ candidate.getD (start' - 1) 0 = Byte.dot) :
    ∃ js', Chain candidate options' start' needle js' := by
  -- `b` is the byte placed last; if it is a dot, the scan starts right behind it
  induction needle generalizing b start start' js with
  | nil => exact ⟨[], by simp⟩
  | cons n later ih =>
    obtain ⟨j, js', rfl, hreach, hchain⟩ := (chain_cons_iff ..).mp h
    obtain ⟨hn, hlater⟩ := List.isChain_cons_cons.mp htrails
    obtain ⟨i, -, hij, hfits, hfirst, hreach'⟩ := hreach.exists_first hcase hle
    have hclear : ∀ q, start' ≤ q → q ≤ i → ¬ Blocked candidate options' n q := by
      intro q hq hqi hblocked
      rcases hn with rfl | ⟨rfl, rfl⟩
      · exact not_blocked_dot (hpolicy ▸ hopen) q hblocked
      obtain ⟨hpos, hlast⟩ := hbehind rfl
      rcases hblocked.1.2 with rfl | hslash
      · omega
      rcases Nat.eq_or_lt_of_le hq with rfl | hlt
      · exact absurd (hlast.symm.trans hslash) (by decide)
      · -- the slash in front of the dot would have been the first fit
        have hmiss := hfirst (q - 1) (by omega) (by omega)
        rw [hslash, (Byte.agrees_iff_eq (by decide)).mpr rfl] at hmiss
        exact absurd hmiss (by decide)
    have hbehind' : n = Byte.dot → 0 < i + 1 ∧ candidate.getD (i + 1 - 1) 0 = Byte.dot := by
      rintro rfl
      exact ⟨Nat.succ_pos i, (Byte.agrees_iff_eq (by decide)).mp hfits⟩
    obtain ⟨js'', hchain'⟩ := ih hchain hlater (Nat.succ_le_succ hij) hbehind'
    exact ⟨i :: js'', (chain_cons_iff ..).mpr ⟨i, js'', rfl, hreach' hclear, hchain'⟩⟩

/-- **First fits suffice for a needle that ends in dots.** Up to its first dot, no placement passes
a hidden component, so its first fits pass none either. -/
theorem Chain.firstFit_of_endsInDots {start start' : Nat} {js : List Nat}
    (h : Chain candidate options start needle js)
    (hcase : options'.caseSensitive = options.caseSensitive)
    (hpolicy : options'.dotPolicy = options.dotPolicy)
    (hrequest : options.dotPolicy = .onRequest) (hends : EndsInDots needle) (hle : start' ≤ start)
    (hclear : ∀ q, start' ≤ q → q < start → ¬ OpensHidden candidate q) :
    ∃ js', Chain candidate options' start' needle js' := by
  induction needle generalizing start start' js with
  | nil => exact ⟨[], by simp⟩
  | cons n later ih =>
    obtain ⟨j, js', rfl, hreach, hchain⟩ := (chain_cons_iff ..).mp h
    obtain ⟨i, hstart, hij, hfits, -, hreach'⟩ := hreach.exists_first hcase hle
    by_cases hn : n = Byte.dot
    · subst hn
      have hopen : options.dotPolicy.blocks Byte.dot = false := by rw [hrequest]; rfl
      obtain ⟨js'', hchain'⟩ := hchain.firstFit_behind_dot hcase hpolicy hopen
        (endsInDots_cons_dot.mp hends) (Nat.succ_le_succ hij)
        (fun _ => ⟨Nat.succ_pos i, (Byte.agrees_iff_eq (by decide)).mp hfits⟩)
      refine ⟨i :: js'', (chain_cons_iff ..).mpr ⟨i, js'', rfl, hreach' ?_, hchain'⟩⟩
      exact fun q _ _ => not_blocked_dot (hpolicy ▸ hopen) q
    · -- the scan up to `j` was stopped by no hidden component
      have hvisible : ∀ q, start' ≤ q → q ≤ j → ¬ OpensHidden candidate q := by
        intro q hq hqj hopens
        rcases Nat.lt_or_ge q start with hlt | hge
        · exact hclear q hq hlt hopens
        · exact hreach.clear q hge hqj ((blocked_iff_opensHidden hrequest hn q).mpr hopens)
      obtain ⟨js'', hchain'⟩ := ih hchain ((endsInDots_cons hn).mp hends) (Nat.succ_le_succ hij)
        (fun q hq hqj => hvisible q (by omega) (by omega))
      refine ⟨i :: js'', (chain_cons_iff ..).mpr ⟨i, js'', rfl, hreach' ?_, hchain'⟩⟩
      exact fun q hq hqi hblocked => hvisible q hq (by omega) hblocked.1

theorem Reaches.of_visible {n : UInt8} {start j : Nat} (h : Reaches candidate options n start j)
    (hvisible : hasHiddenComponent candidate = false)
    (hcase : options'.caseSensitive = options.caseSensitive)
    (hrecurse : options'.recurse = options.recurse) : Reaches candidate options' n start j := by
  obtain ⟨hstart, hlt, hfits, -, hfirst⟩ := h
  have hopens : ∀ q, ¬ OpensHidden candidate q := by
    rw [← not_exists, ← hasHiddenComponent_iff, hvisible]
    exact Bool.false_ne_true
  refine ⟨hstart, hlt, ?_, fun q _ _ hblocked => hopens q hblocked.1, ?_⟩
  · rw [hcase]
    exact hfits
  · rw [hcase, hrecurse]
    exact hfirst

/-- First fits suffice where nothing is hidden. -/
theorem Chain.firstFit_of_visible {start : Nat} {js : List Nat}
    (h : Chain candidate { options with recurse := true } start needle js)
    (hvisible : hasHiddenComponent candidate = false) :
    ∃ js', Chain candidate { options with recurse := false } start needle js' := by
  -- the dot policy makes no difference, so hidden components may as well be shown
  have hshown : Chain candidate { options with alwaysShowDotFiles := true, recurse := true } start
      needle js := by
    refine h.mono fun _ _ _ _ hreach => ?_
    exact hreach.of_visible hvisible rfl rfl
  have hfirst : ∃ js', Chain candidate
      { options with alwaysShowDotFiles := true, recurse := false } start needle js' :=
    hshown.firstFit rfl rfl rfl (ScoreOptions.even_of_flag (.inr rfl))
  obtain ⟨js', hchain⟩ := hfirst
  refine ⟨js', hchain.mono fun _ _ _ _ hreach => ?_⟩
  exact hreach.of_visible hvisible rfl rfl

/-! ## Traps for all other needles -/

/-- What a candidate holds is taken as it stands. -/
theorem Chain.prepend {front text later rest : Bytes} (hcandidate : candidate = front ++ text ++ rest)
    (hself : ∀ b ∈ text, Byte.agrees options.caseSensitive b b = true)
    (hopen : options.dotPolicy.blocks Byte.dot = false) {js : List Nat}
    (h : Chain candidate options (front ++ text).length later js) :
    ∃ js', Chain candidate options front.length (text ++ later) js' := by
  induction text generalizing front with
  | nil => exact ⟨js, by simpa using h⟩
  | cons b text ih =>
    have hsplit : candidate = front ++ [b] ++ text ++ rest := by simpa using hcandidate
    obtain ⟨js', hchain⟩ := ih hsplit (fun b' hb' => hself b' (List.mem_cons_of_mem b hb'))
      (by simpa using h)
    have hb : candidate.getD front.length 0 = b := by simp [hcandidate]
    have hlt : front.length < candidate.length := by simp [hcandidate]
    have hclear : ¬ Blocked candidate options b front.length := by
      intro hblocked
      -- only a dot opens a hidden component, and the byte wanted is the one that stands there
      have hdot : b = Byte.dot := hb.symm.trans hblocked.1.1
      subst hdot
      exact not_blocked_dot hopen _ hblocked
    refine ⟨front.length :: js', (chain_cons_iff ..).mpr ⟨_, _, rfl, ?_, by simpa using hchain⟩⟩
    refine ⟨Nat.le_refl _, hlt, by rw [hb]; exact hself b List.mem_cons_self, ?_, fun _ => by omega⟩
    intro q hq hqj
    rwa [Nat.le_antisymm hqj hq]

/-- Whatever stands in front of a dot, a search that explores every position finds the dot. -/
theorem placeable_around {head between l : Bytes}
    (hself : ∀ b ∈ head ++ Byte.dot :: l, Byte.agrees options.caseSensitive b b = true)
    (hopen : options.dotPolicy.blocks Byte.dot = false) :
    Placeable (head ++ between ++ Byte.dot :: l) { options with recurse := true }
      (head ++ Byte.dot :: l) := by
  let candidate := head ++ between ++ Byte.dot :: l
  let options' : ScoreOptions := { options with recurse := true }
  have hopen' : options'.dotPolicy.blocks Byte.dot = false := hopen
  have hself' : ∀ b ∈ head ++ Byte.dot :: l, Byte.agrees options'.caseSensitive b b = true := hself
  have hend : Chain candidate options' candidate.length [] [] := trivial
  obtain ⟨js, hinside⟩ := Chain.prepend (List.append_nil _).symm
    (fun b hb => hself' b (List.mem_append_right head hb)) hopen' hend
  rw [List.append_nil] at hinside
  have hbehind : Chain candidate options' head.length (Byte.dot :: l) js := by
    refine hinside.of_le rfl (by simp) ?_
    intro n hn q _ _
    rw [← Option.some_inj.mp hn]
    exact not_blocked_dot hopen' q
  have hfront : candidate = [] ++ head ++ (between ++ Byte.dot :: l) := List.append_assoc ..
  exact Chain.prepend hfront (fun b hb => hself' b (List.mem_append_left _ hb)) hopen' hbehind

theorem Chain.behind {front text later rest : Bytes} (hcandidate : candidate = front ++ text ++ rest)
    (hself : ∀ b ∈ text, Byte.agrees options.caseSensitive b b = true) {js : List Nat}
    (h : Chain candidate { options with recurse := false } front.length (text ++ later) js) :
    ∃ js', Chain candidate { options with recurse := false } (front ++ text).length later js' := by
  induction text generalizing front js with
  | nil => exact ⟨js, by simpa using h⟩
  | cons b text ih =>
    rw [List.cons_append] at h
    obtain ⟨j, js', rfl, hreach, hchain⟩ := (chain_cons_iff ..).mp h
    have hb : candidate.getD front.length 0 = b := by simp [hcandidate]
    -- the first fit for `b` is where the scan begins
    have hj : j = front.length := by
      by_contra hne
      have hmiss := hreach.first rfl front.length (Nat.le_refl _)
        (Nat.lt_of_le_of_ne hreach.start_le (Ne.symm hne))
      rw [hb, hself b List.mem_cons_self] at hmiss
      exact absurd hmiss (by decide)
    have hchain' : Chain candidate { options with recurse := false } (front ++ [b]).length
        (text ++ later) js' := by
      rw [List.length_append, List.length_singleton, ← hj]
      exact hchain
    have hsplit : candidate = front ++ [b] ++ text ++ rest := by simpa using hcandidate
    obtain ⟨js'', hlater⟩ :=
      ih hsplit (fun b' hb' => hself b' (List.mem_cons_of_mem b hb')) hchain'
    exact ⟨js'', by simpa using hlater⟩

/-- **A trap.** Where a needle goes on with `n` behind `stem`, and the candidate behind `stem` opens
a hidden component before it holds `n`, first fits lead nowhere. -/
theorem not_chain_of_trap {stem gap later rest : Bytes} {n : UInt8}
    (hcandidate : candidate = stem ++ gap ++ Byte.dot :: rest)
    (hslash : (stem ++ gap).getLast? = some Byte.slash)
    (hgap : ∀ b ∈ gap, Byte.agrees options.caseSensitive b n = false)
    (hself : ∀ b ∈ stem, Byte.agrees options.caseSensitive b b = true)
    (hrequest : options.dotPolicy = .onRequest) (hn : n ≠ Byte.dot) (js : List Nat) :
    ¬ Chain candidate { options with recurse := false } 0 (stem ++ n :: later) js := by
  intro h
  have hcandidate' : candidate = [] ++ stem ++ (gap ++ Byte.dot :: rest) := by
    rw [hcandidate, List.nil_append, List.append_assoc]
  obtain ⟨js', hchain⟩ := Chain.behind hcandidate' hself h
  obtain ⟨j, -, -, hreach, -⟩ := (chain_cons_iff ..).mp hchain
  have hstart : stem.length ≤ j := hreach.start_le
  -- the scan ends at the dot behind the gap
  have hopens : OpensHidden candidate (stem ++ gap).length := by
    refine ⟨by simp [hcandidate], .inr ?_⟩
    have hpos : 0 < (stem ++ gap).length := List.length_pos_of_mem (List.mem_of_getLast? hslash)
    rw [← getElem?_eq_some_iff_getD (by decide), hcandidate, List.getElem?_append_left (by omega),
      ← List.getLast?_eq_getElem?]
    exact hslash
  have hlt : j < (stem ++ gap).length := by
    by_contra hge
    have hrequest' : ({ options with recurse := false } : ScoreOptions).dotPolicy = .onRequest :=
      hrequest
    exact hreach.clear _ (by simp) (Nat.le_of_not_lt hge)
      ((blocked_iff_opensHidden hrequest' hn _).mpr hopens)
  -- and nothing fits in the gap
  rw [List.length_append] at hlt
  have hj : j - stem.length < gap.length := by omega
  have hbyte : candidate.getD j 0 = gap[j - stem.length] := by
    rw [hcandidate, List.append_assoc, List.getD_eq_getElem?_getD,
      List.getElem?_append_right hstart, List.getElem?_append_left hj, List.getElem?_eq_getElem hj]
    rfl
  have hmiss := hgap _ (List.getElem_mem hj)
  rw [← hbyte, hreach.fits] at hmiss
  exact absurd hmiss (by decide)

/-- A needle that does not end in dots goes on with something else behind a dot or a slash. -/
theorem exists_break {b : UInt8} {l : Bytes} (hb : b = Byte.dot ∨ b = Byte.slash)
    (h : ¬ (b :: l).IsChain Trails) :
    ∃ front b' n later, b :: l = front ++ b' :: n :: later ∧ (b' = Byte.dot ∨ b' = Byte.slash)
      ∧ ¬ Trails b' n := by
  induction l generalizing b with
  | nil => exact absurd (List.isChain_singleton b) h
  | cons n l ih =>
    by_cases hn : Trails b n
    · have hb' : n = Byte.dot ∨ n = Byte.slash := hn.imp_right And.right
      have htail : ¬ (n :: l).IsChain Trails := fun htail => h (List.isChain_cons_cons.mpr ⟨hn, htail⟩)
      obtain ⟨front, b', n', later, hsplit, hbreak⟩ := ih hb' htail
      exact ⟨b :: front, b', n', later, by rw [hsplit, List.cons_append], hbreak⟩
    · exact ⟨[], b, n, l, rfl, hb, hn⟩

theorem exists_dot_of_not_endsInDots (h : ¬ EndsInDots needle) :
    ∃ head l, needle = head ++ Byte.dot :: l ∧ ¬ (Byte.dot :: l).IsChain Trails := by
  induction needle with
  | nil => exact absurd List.isChain_nil h
  | cons n later ih =>
    by_cases hn : n = Byte.dot
    · subst hn
      exact ⟨[], later, rfl, fun hchain => h (endsInDots_cons_dot.mpr hchain)⟩
    · obtain ⟨head, l, rfl, hbreak⟩ := ih (fun hends => h ((endsInDots_cons hn).mpr hends))
      exact ⟨n :: head, l, rfl, hbreak⟩

/-- What stands between the stem of a trap and its hidden component: a slash, unless the stem ends
with one and the needle goes on with another. -/
theorem exists_gap {caseSensitive : Bool} {stem : Bytes} {b n : UInt8}
    (hlast : stem.getLast? = some b) (hb : b = Byte.dot ∨ b = Byte.slash) (hn : ¬ Trails b n) :
    ∃ gap : Bytes, gap.length ≤ 1 ∧ (stem ++ gap).getLast? = some Byte.slash
      ∧ ∀ x ∈ gap, Byte.agrees caseSensitive x n = false := by
  by_cases hnslash : n = Byte.slash
  · have hbslash : b = Byte.slash := hb.resolve_left fun hbdot => hn (.inr ⟨hbdot, hnslash⟩)
    exact ⟨[], Nat.zero_le 1, by rw [List.append_nil, hlast, hbslash], nofun⟩
  · refine ⟨[Byte.slash], Nat.le_refl 1, by simp, fun x hx => ?_⟩
    rw [List.mem_singleton.mp hx, Bool.eq_false_iff]
    exact fun hfits => hnslash (Byte.eq_of_agrees (by decide) hfits)

/-- **A trap for every other needle.** The needle is written out as far as it ends in dots, and once
more from its first dot on, inside a hidden component. -/
theorem exists_trap (hends : ¬ EndsInDots needle) (hrequest : options.dotPolicy = .onRequest)
    (hself : ∀ b ∈ needle, Byte.agrees options.caseSensitive b b = true) :
    ∃ candidate : Bytes, candidate.length ≤ 2 * needle.length
      ∧ Placeable candidate { options with recurse := true } needle
      ∧ ¬ Placeable candidate { options with recurse := false } needle := by
  obtain ⟨head, l, hneedle, hbreak⟩ := exists_dot_of_not_endsInDots hends
  obtain ⟨front, b, n, later, htail, hb, hn⟩ := exists_break (.inl rfl) hbreak
  let stem := head ++ front ++ [b]
  have hstem : needle = stem ++ n :: later := by rw [hneedle, htail]; simp [stem]
  obtain ⟨gap, hgap, hlast, hmiss⟩ :=
    @exists_gap options.caseSensitive stem b n (by simp [stem]) hb hn
  refine ⟨stem ++ gap ++ Byte.dot :: l, ?_, ?_, ?_⟩
  · have hlength := congrArg List.length htail
    simp only [List.length_append, List.length_cons, List.length_nil, hneedle, stem] at hlength ⊢
    omega
  · have hwritten : stem ++ gap ++ Byte.dot :: l
        = head ++ (front ++ [b] ++ gap) ++ Byte.dot :: l := by simp [stem]
    rw [hwritten, hneedle]
    exact placeable_around (hneedle ▸ hself) (by rw [hrequest]; rfl)
  · rintro ⟨js, hchain⟩
    rw [hstem] at hchain
    exact not_chain_of_trap rfl hlast hmiss
      (fun x hx => hself x (hstem ▸ List.mem_append_left _ hx)) hrequest (not_or.mp hn).1 js hchain

/-! ## Scores -/

/-- Whether `candidate` matches does not depend on committing to first fits. -/
def FirstFitsSuffice (options : ScoreOptions) (needle candidate : Bytes) : Prop :=
  (score candidate needle { options with recurse := false }).isMatch = true
    ↔ (score candidate needle { options with recurse := true }).isMatch = true

theorem firstFitsSuffice_nil : FirstFitsSuffice options [] candidate := by
  have hpolicy : ({ options with recurse := false } : ScoreOptions).dotPolicy
      = ({ options with recurse := true } : ScoreOptions).dotPolicy := rfl
  rw [FirstFitsSuffice, score_nil, score_nil, hpolicy]

/-- In `a./.b` the first dot is no way to the `b`, and the second one is. -/
theorem not_firstFitsSuffice_hidden :
    ¬ FirstFitsSuffice {} (.ofString ".b") (.ofString "a./.b") := by
  rw [FirstFitsSuffice]
  decide +kernel

/-- First fits match nothing that no search through all positions matches. -/
theorem isMatch_of_firstFits (hlt : candidate.length < 2 ^ 64)
    (h : (score candidate needle { options with recurse := false }).isMatch = true) :
    (score candidate needle { options with recurse := true }).isMatch = true := by
  by_cases hne : needle = []
  · subst hne
    exact firstFitsSuffice_nil.mp h
  · obtain ⟨js, hchain⟩ := (score_isMatch_iff hne hlt).mp h
    exact (score_isMatch_iff hne hlt).mpr ⟨js, hchain.explore rfl rfl rfl⟩

theorem firstFitsSuffice_of_placeable (hlt : candidate.length < 2 ^ 64)
    (h : ∀ js, Chain candidate { options with recurse := true } 0 (options.normalize needle) js →
      Placeable candidate { options with recurse := false } (options.normalize needle)) :
    FirstFitsSuffice options needle candidate := by
  by_cases hne : needle = []
  · subst hne
    exact firstFitsSuffice_nil
  · refine ⟨isMatch_of_firstFits hlt, fun hmatch => (score_isMatch_iff hne hlt).mpr ?_⟩
    obtain ⟨js, hchain⟩ := (score_isMatch_iff hne hlt).mp hmatch
    exact h js hchain

theorem agrees_self_of_mem_normalize {b : UInt8} (h : b ∈ options.normalize needle) :
    Byte.agrees options.caseSensitive b b = true := by
  unfold ScoreOptions.normalize at h
  cases hcase : options.caseSensitive with
  | true => exact beq_self_eq_true b
  | false =>
    rw [if_neg (by simp [hcase])] at h
    exact beq_iff_eq.mpr (Bytes.fold_eq_self_of_mem h)

/-- **When first fits suffice.** Committing to first fits never makes a match, and loses none among
candidates without a hidden component. It loses none at all exactly when a switch settles whether
hidden components are shown, or the needle ends in dots. -/
theorem firstFitsSuffice_iff (hshort : 2 * needle.length < 2 ^ 64) :
    (∀ candidate : Bytes, candidate.length < 2 ^ 64 →
      (score candidate needle { options with recurse := false }).isMatch = true →
        (score candidate needle { options with recurse := true }).isMatch = true)
      ∧ (∀ candidate : Bytes, candidate.length < 2 ^ 64 → hasHiddenComponent candidate = false →
        FirstFitsSuffice options needle candidate)
      ∧ ((∀ candidate : Bytes, candidate.length < 2 ^ 64 → FirstFitsSuffice options needle candidate)
        ↔ options.neverShowDotFiles = true ∨ options.alwaysShowDotFiles = true
          ∨ EndsInDots needle) := by
  refine ⟨fun _ hlt => isMatch_of_firstFits hlt, fun _ hlt hvisible => ?_, ?_, ?_⟩
  · exact firstFitsSuffice_of_placeable hlt fun _ hchain => hchain.firstFit_of_visible hvisible
  · intro hall
    -- where neither switch is set, a trap is set for the needle unless it ends in dots
    by_contra hnone
    obtain ⟨hnever, halways, hends⟩ : ¬ options.neverShowDotFiles = true
        ∧ ¬ options.alwaysShowDotFiles = true ∧ ¬ EndsInDots needle := by
      rwa [not_or, not_or] at hnone
    have hrequest : options.dotPolicy = .onRequest := by
      rw [ScoreOptions.dotPolicy, if_neg hnever, if_neg halways]
    have hne : needle ≠ [] := by
      rintro rfl
      exact hends List.isChain_nil
    obtain ⟨candidate, hlength, hplaceable, hmiss⟩ := exists_trap
      (mt endsInDots_normalize.mp hends) hrequest (fun _ => agrees_self_of_mem_normalize)
    rw [length_normalize] at hlength
    have hlt : candidate.length < 2 ^ 64 := by omega
    exact hmiss ((score_isMatch_iff hne hlt).mp
      ((hall candidate hlt).mpr ((score_isMatch_iff hne hlt).mpr hplaceable)))
  · intro hsafe candidate hlt
    refine firstFitsSuffice_of_placeable hlt fun js hchain => ?_
    by_cases hflag : options.neverShowDotFiles = true ∨ options.alwaysShowDotFiles = true
    · exact hchain.firstFit rfl rfl rfl (ScoreOptions.even_of_flag hflag)
    · obtain ⟨hnever, halways⟩ := not_or.mp hflag
      have hrequest : options.dotPolicy = .onRequest := by
        rw [ScoreOptions.dotPolicy, if_neg hnever, if_neg halways]
      have hends : EndsInDots needle := (hsafe.resolve_left hnever).resolve_left halways
      exact hchain.firstFit_of_endsInDots rfl rfl hrequest (endsInDots_normalize.mpr hends)
        (Nat.le_refl 0) fun q _ hq => absurd hq (Nat.not_lt_zero q)

/-- The needle `a/..` ends in dots; `.b` does not, and misses `a./.b`. -/
theorem firstFitsSuffice_iff_of_dots :
    (∀ candidate : Bytes, candidate.length < 2 ^ 64 → FirstFitsSuffice {} (.ofString "a/..") candidate)
      ∧ ¬ ∀ candidate : Bytes, candidate.length < 2 ^ 64 →
        FirstFitsSuffice {} (.ofString ".b") candidate := by
  have hdots : 2 * (Bytes.ofString "a/..").length < 2 ^ 64 := by decide +kernel
  have hother : 2 * (Bytes.ofString ".b").length < 2 ^ 64 := by decide +kernel
  refine ⟨(firstFitsSuffice_iff hdots).2.2.mpr (.inr (.inr (by decide +kernel))), ?_⟩
  rw [(firstFitsSuffice_iff hother).2.2]
  decide +kernel

end FuzzyFinder
