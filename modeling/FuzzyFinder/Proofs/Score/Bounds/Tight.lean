import FuzzyFinder.Proofs.Score.Visible

/-!
# FuzzyFinder — the bounds are tight

What the two greedy passes find are placements themselves, the leftmost and the rightmost one, so
neither bound could be drawn any closer (`rightmost_leftmost_tight`). For the pass from the left
this is an exchange: wherever a placement puts a byte, the pass has found a position for it that is
no further right, and from there on the rest of that placement is still good (`leftmost_spec`). The
pass from the right has the same argument backwards (`IsRightmost.forall₂_le`).
-/

namespace FuzzyFinder

variable {caseSensitive : Bool} {candidate needle : Bytes}

/-! ## Placements without a dot policy -/

/-- Strictly increasing positions, one for each needle byte, that hold bytes equal to it under the
case mode. -/
structure Places (caseSensitive : Bool) (candidate needle : Bytes) (ps : List Nat) : Prop where
  increasing : ps.Pairwise (· < ·)
  holds : List.Forall₂
    (fun p n => ∃ b, candidate[p]? = some b ∧ Byte.agrees caseSensitive b n = true) ps needle

theorem Fits.places {js : List Nat} (h : Fits caseSensitive candidate needle js) :
    Places caseSensitive candidate needle js := by
  induction needle generalizing js with
  | nil =>
    obtain rfl := (fits_nil_iff js).mp h
    exact ⟨.nil, .nil⟩
  | cons n later ih =>
    obtain ⟨j, js', rfl, hlt, hagrees, hlater⟩ := (fits_cons_iff ..).mp h
    obtain ⟨hincreasing, hholds⟩ := ih hlater
    have hj : j < candidate.length := Nat.lt_of_lt_of_le hlt hlater.exists_agrees.1
    refine ⟨List.pairwise_cons.mpr ⟨?_, hincreasing⟩, .cons ?_ hholds⟩
    · cases js' with
      | nil => simp
      | cons j' js'' =>
        intro p hp
        rcases List.mem_cons.mp hp with rfl | hp
        · exact hlt
        · exact Nat.lt_trans hlt ((List.pairwise_cons.mp hincreasing).1 p hp)
    · rw [List.getD_eq_getElem _ _ hj] at hagrees
      exact ⟨candidate[j], List.getElem?_eq_getElem hj, hagrees⟩

theorem Places.fits {ps : List Nat} (h : Places caseSensitive candidate needle ps) :
    Fits caseSensitive candidate needle ps := by
  obtain ⟨hincreasing, hholds⟩ := h
  induction hholds with
  | nil => exact (fits_nil_iff []).mpr rfl
  | @cons p n ps later hhere _ ih =>
    obtain ⟨hbefore, hincreasing'⟩ := List.pairwise_cons.mp hincreasing
    obtain ⟨b, hb, hagrees⟩ := hhere
    obtain ⟨hlt, rfl⟩ := List.getElem?_eq_some_iff.mp hb
    refine (fits_cons_iff ..).mpr ⟨p, ps, rfl, ?_, ?_, ih hincreasing'⟩
    · cases ps with
      | nil => exact hlt
      | cons p' _ => exact hbefore p' List.mem_cons_self
    · rw [List.getD_eq_getElem _ _ hlt]
      exact hagrees

theorem fitsInto_iff_exists_places :
    FitsInto caseSensitive candidate needle
      ↔ ∃ ps, Places caseSensitive candidate needle ps := by
  unfold FitsInto
  rw [List.sublistForall₂_iff]
  constructor
  · rintro ⟨picked, hagrees, hsub⟩
    obtain ⟨indices, rfl, hincreasing⟩ := List.sublist_eq_map_getElem hsub
    rw [List.forall₂_map_right_iff] at hagrees
    refine ⟨indices.map Fin.val, List.pairwise_map.mpr hincreasing, ?_⟩
    rw [List.forall₂_map_left_iff]
    refine hagrees.flip.imp fun i n hn => ?_
    exact ⟨candidate[i], List.getElem?_eq_getElem i.isLt, hn⟩
  · rintro ⟨ps, hincreasing, hholds⟩
    -- every position lies inside the candidate, so it is an index of it
    have hlt : ∀ p ∈ ps, p < candidate.length := by
      intro p hp
      obtain ⟨i, hi, rfl⟩ := List.mem_iff_getElem.mp hp
      obtain ⟨b, hb, -⟩ := hholds.get hi (hholds.length_eq ▸ hi)
      exact (List.getElem?_eq_some_iff.mp hb).1
    obtain ⟨indices, rfl⟩ : ∃ indices : List (Fin candidate.length), indices.map Fin.val = ps :=
      ⟨ps.pmap Fin.mk hlt, by simp [List.map_pmap]⟩
    rw [List.forall₂_map_left_iff] at hholds
    refine ⟨indices.map (candidate[·]), ?_, ?_⟩
    · rw [List.forall₂_map_right_iff]
      refine hholds.flip.imp fun n i hn => ?_
      obtain ⟨b, hb, hagrees⟩ := hn
      obtain ⟨_, rfl⟩ := List.getElem?_eq_some_iff.mp hb
      exact hagrees
    · rw [List.pairwise_map] at hincreasing
      exact List.map_getElem_sublist hincreasing

/-! ## The exchange from the left -/

/-- Where some byte from `start` on fits, the pass stops at one that is no further right. -/
theorem exists_leftmost_cons {start j : Nat} {n : UInt8} (later : Bytes) (hstart : start ≤ j)
    (hlt : j < candidate.length) (hfits : Byte.agrees caseSensitive (candidate.getD j 0) n = true) :
    ∃ l, leftmost caseSensitive candidate start (n :: later)
        = l :: leftmost caseSensitive candidate (l + 1) later
      ∧ start ≤ l ∧ l ≤ j ∧ Byte.agrees caseSensitive (candidate.getD l 0) n = true := by
  have hle : (leftmost caseSensitive candidate start (n :: later)).getD 0 0 ≤ j :=
    leftmost_head_le hstart hlt hfits
  rw [leftmost, List.getD_cons_zero] at hle
  cases hfind : (candidate.drop start).findIdx? (Byte.agrees caseSensitive · n) with
  | none =>
    rw [hfind] at hle
    have hle' : candidate.length ≤ j := hle
    omega
  | some offset =>
    rw [hfind] at hle
    obtain ⟨hoffset, hagrees, -⟩ := List.findIdx?_eq_some_iff_getElem.mp hfind
    refine ⟨start + offset, ?_, Nat.le_add_right _ _, hle, ?_⟩
    · rw [leftmost, hfind]
    · rw [List.getElem_drop] at hagrees
      rw [List.length_drop] at hoffset
      rw [List.getD_eq_getElem _ _ (by omega)]
      exact hagrees

/-- **The pass from the left finds a placement, and none lies further left.** The induction is on
the needle; the next byte is looked for right behind the position just found, which is no further
right than where the other placement goes on. -/
theorem leftmost_spec {start : Nat} {js : List Nat} (h : Fits caseSensitive candidate needle js)
    (hstart : start ≤ bound candidate js) :
    Fits caseSensitive candidate needle (leftmost caseSensitive candidate start needle)
      ∧ start ≤ bound candidate (leftmost caseSensitive candidate start needle)
      ∧ List.Forall₂ (· ≤ ·) (leftmost caseSensitive candidate start needle) js := by
  induction needle generalizing start js with
  | nil =>
    obtain rfl := (fits_nil_iff js).mp h
    exact ⟨h, hstart, .nil⟩
  | cons n later ih =>
    obtain ⟨j, js', rfl, hlt, hagrees, hlater⟩ := (fits_cons_iff ..).mp h
    have hj : j < candidate.length := Nat.lt_of_lt_of_le hlt hlater.exists_agrees.1
    obtain ⟨l, hcons, hstart', hle, hagrees'⟩ := exists_leftmost_cons later hstart hj hagrees
    obtain ⟨hfits, hbehind, hforall⟩ := ih hlater (Nat.lt_of_le_of_lt hle hlt)
    rw [hcons]
    exact ⟨(fits_cons_iff ..).mpr ⟨l, _, rfl, hbehind, hagrees', hfits⟩, hstart', .cons hle hforall⟩

/-! ## The exchange from the right -/

theorem IsRightmost.forall₂_le {ps js : List Nat}
    (h : IsRightmost caseSensitive candidate needle ps)
    (hfits : Fits caseSensitive candidate needle js) : List.Forall₂ (· ≤ ·) js ps := by
  induction needle generalizing ps js with
  | nil =>
    obtain rfl := (fits_nil_iff js).mp hfits
    cases ps with
    | nil => exact .nil
    | cons p ps => exact h.elim
  | cons n later ih =>
    have hle := h.bound_le hfits
    obtain ⟨j, js', rfl, -, -, hlater⟩ := (fits_cons_iff ..).mp hfits
    cases ps with
    | nil => exact h.elim
    | cons p ps => exact .cons hle (ih h.2.2 hlater)

/-! ## Tightness -/

/-- The positions `ls` and `rs` are placements, and every placement lies between them. -/
structure AreBounds (caseSensitive : Bool) (candidate needle : Bytes) (ls rs : List Nat) : Prop where
  left : Places caseSensitive candidate needle ls
  right : Places caseSensitive candidate needle rs
  between : ∀ ps, Places caseSensitive candidate needle ps →
    List.Forall₂ (· ≤ ·) ls ps ∧ List.Forall₂ (· ≤ ·) ps rs

/-- **The two bounds are tight.** The pass from the right succeeds exactly when the needle's bytes
come one after the other in the candidate, whatever is known of its letters. Then its positions and
those of the pass from the left are placements, and every placement lies between the two. -/
theorem rightmost_leftmost_tight (caseSensitive : Bool) (candidate needle : Bytes)
    (known : Option LetterSet) :
    ((rightmost caseSensitive candidate needle known).1.isSome = true
        ↔ FitsInto caseSensitive candidate needle)
      ∧ ∀ rs ∈ (rightmost caseSensitive candidate needle known).1,
        AreBounds caseSensitive candidate needle (leftmost caseSensitive candidate 0 needle) rs := by
  rw [fitsInto_iff_exists_places]
  refine ⟨?_, fun rs hfound => ?_⟩
  · cases hfound : (rightmost caseSensitive candidate needle known).1 with
    | none =>
      refine ⟨fun hsome => absurd hsome (by decide), fun ⟨ps, hps⟩ => ?_⟩
      exact absurd hps.fits (rightmost_none hfound ps)
    | some rs => exact ⟨fun _ => ⟨rs, (rightmost_fits hfound).places⟩, fun _ => rfl⟩
  · obtain ⟨hfits, hright⟩ := rightmost_spec hfound
    obtain ⟨hleft, -, -⟩ := leftmost_spec hfits (Nat.zero_le _)
    refine ⟨hleft.places, hfits.places, fun ps hps => ⟨?_, hright.forall₂_le hps.fits⟩⟩
    exact (leftmost_spec hps.fits (Nat.zero_le _)).2.2

/-- In `a/b/ab` the needle `ab` may begin at the front, and end at the end. -/
example : leftmost true (.ofString "a/b/ab") 0 (.ofString "ab") = [0, 2]
    ∧ (rightmost true (.ofString "a/b/ab") (.ofString "ab") none).1 = some [4, 5] := by
  decide +kernel

end FuzzyFinder
