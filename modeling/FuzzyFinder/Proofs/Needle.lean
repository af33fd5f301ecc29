import FuzzyFinder.Proofs.Letters

/-!
# FuzzyFinder — needles while a query is typed

Whether case matters is decided by a query as a whole, and may change with its last byte. Yet what
is typed behind a query only ever goes behind its needle (`Needle.bytes_append`): when case begins
to matter there is nothing in the older needle that was folded. A needle that continues another one
accepts no byte in the other's place that the other does not accept (`Needle.Narrows`), since case
does not cease to matter (`Needle.caseSensitive_of_continues`). `Needle.ofQuery_narrows` collects
what this means for a person who types.
-/

namespace FuzzyFinder

/-! ## Folding -/

theorem Byte.fold_of_not_upper {b : UInt8} (h : Byte.isUpper b = false) : Byte.fold b = b := by
  rw [fold, h]
  rfl

namespace Bytes

theorem fold_append (s t : Bytes) : fold (s ++ t) = fold s ++ fold t := List.map_append

theorem fold_eq_self_of_mem {s : Bytes} {n : UInt8} (h : n ∈ s.fold) : Byte.fold n = n := by
  obtain ⟨b, -, rfl⟩ := List.mem_map.mp h
  exact Byte.fold_fold b

theorem fold_eq_self {s : Bytes} (h : ∀ b ∈ s, Byte.isUpper b = false) : s.fold = s := by
  rw [fold, List.map_congr_left fun b hb => Byte.fold_of_not_upper (h b hb)]
  exact List.map_id _

end Bytes

namespace LetterSet

theorem contains_refl (s : LetterSet) : s.contains s = true := by
  rw [contains, UInt32.and_self]
  exact beq_self_eq_true _

theorem ofBytes_append_contains (s t : Bytes) :
    (ofBytes (s ++ t)).contains (ofBytes s) = true := by
  rw [ofBytes, List.foldl_append]
  exact contains_foldl (contains_refl _) t

end LetterSet

/-! ## Case modes -/

namespace CaseMatching

variable {mode : CaseMatching} {query : Bytes}

theorem isSensitive_append (h : mode.isSensitive query = true) (typed : Bytes) :
    mode.isSensitive (query ++ typed) = true := by
  cases mode with
  | respect => rfl
  | ignore => exact h
  | smart =>
    have hupper : query.any Byte.isUpper = true := h
    rw [isSensitive, List.any_append, hupper, Bool.true_or]

theorem isSensitive_eq (hsmart : mode ≠ .smart) (query query' : Bytes) :
    mode.isSensitive query = mode.isSensitive query' := by
  cases mode with
  | respect => rfl
  | ignore => rfl
  | smart => exact absurd rfl hsmart

theorem eq_smart_of_ne {query' : Bytes} (h : mode.isSensitive query ≠ mode.isSensitive query') :
    mode = .smart :=
  by_contra fun hsmart => h (isSensitive_eq hsmart query query')

end CaseMatching

namespace Needle

variable {query query' : Bytes} {mode : CaseMatching} {ignoreSpaces ignoreSpaces' : Bool}

/-! ## The bytes of a needle -/

/-- The part of a query that is searched for. -/
def kept (ignoreSpaces : Bool) (query : Bytes) : Bytes :=
  if ignoreSpaces then query.filter (· != Byte.space) else query

theorem kept_append (ignoreSpaces : Bool) (query typed : Bytes) :
    kept ignoreSpaces (query ++ typed) = kept ignoreSpaces query ++ kept ignoreSpaces typed := by
  cases ignoreSpaces with
  | true => exact List.filter_append ..
  | false => rfl

theorem mem_of_mem_kept {b : UInt8} (h : b ∈ kept ignoreSpaces query) : b ∈ query := by
  cases ignoreSpaces with
  | true => exact List.mem_of_mem_filter h
  | false => exact h

/-- A letter is never dropped. -/
theorem mem_kept_of_upper {b : UInt8} (h : b ∈ query) (hupper : Byte.isUpper b = true) :
    b ∈ kept ignoreSpaces query := by
  cases ignoreSpaces with
  | false => exact h
  | true =>
    refine List.mem_filter.mpr ⟨h, bne_iff_ne.mpr ?_⟩
    rintro rfl
    exact absurd hupper (by decide)

theorem bytes_of_sensitive (h : mode.isSensitive query = true) :
    (ofQuery query mode ignoreSpaces).bytes = kept ignoreSpaces query := if_pos h

theorem bytes_of_insensitive (h : mode.isSensitive query = false) :
    (ofQuery query mode ignoreSpaces).bytes = (kept ignoreSpaces query).fold :=
  if_neg (Bool.eq_false_iff.mp h)

/-- A needle that is matched without case has been folded. -/
theorem fold_eq_of_mem_bytes (h : (ofQuery query mode ignoreSpaces).caseSensitive = false) :
    ∀ n ∈ (ofQuery query mode ignoreSpaces).bytes, Byte.fold n = n := by
  intro n hn
  rw [bytes_of_insensitive h] at hn
  exact Bytes.fold_eq_self_of_mem hn

/-- Smart case is sensitive for the sake of a letter that stays in the needle. -/
theorem exists_fold_ne_of_smart (h : (ofQuery query .smart ignoreSpaces).caseSensitive = true) :
    ∃ n ∈ (ofQuery query .smart ignoreSpaces).bytes, Byte.fold n ≠ n := by
  have hsensitive : CaseMatching.smart.isSensitive query = true := h
  obtain ⟨b, hb, hupper⟩ : ∃ b ∈ query, Byte.isUpper b = true := List.any_eq_true.mp hsensitive
  refine ⟨b, ?_, fun hfold => ?_⟩
  · rw [bytes_of_sensitive hsensitive]
    exact mem_kept_of_upper hb hupper
  · have hlower := Byte.isUpper_fold b
    rw [hfold, hupper] at hlower
    exact absurd hlower (by decide)

/-- **What is typed goes to the end of the needle.** Case may begin to matter on the way; then
nothing in the needle so far has been folded. -/
theorem bytes_append (query typed : Bytes) (mode : CaseMatching) (ignoreSpaces : Bool) :
    ∃ later, (ofQuery (query ++ typed) mode ignoreSpaces).bytes
      = (ofQuery query mode ignoreSpaces).bytes ++ later := by
  cases hlonger : mode.isSensitive (query ++ typed) with
  | false =>
    -- case did not matter before either
    have hshorter : mode.isSensitive query = false :=
      Bool.eq_false_iff.mpr fun h => Bool.eq_false_iff.mp hlonger (mode.isSensitive_append h typed)
    rw [bytes_of_insensitive hlonger, bytes_of_insensitive hshorter, kept_append, Bytes.fold_append]
    exact ⟨_, rfl⟩
  | true =>
    rw [bytes_of_sensitive hlonger, kept_append]
    cases hshorter : mode.isSensitive query with
    | true =>
      rw [bytes_of_sensitive hshorter]
      exact ⟨_, rfl⟩
    | false =>
      obtain rfl : mode = .smart :=
        CaseMatching.eq_smart_of_ne (hlonger.trans_ne (by rw [hshorter]; exact nofun))
      have hplain : (kept ignoreSpaces query).fold = kept ignoreSpaces query :=
        Bytes.fold_eq_self fun b hb =>
          Bool.eq_false_iff.mpr (List.any_eq_false.mp hshorter b (mem_of_mem_kept hb))
      rw [bytes_of_insensitive hshorter, hplain]
      exact ⟨_, rfl⟩

/-! ## Needles that continue each other -/

/-- Whatever is accepted in place of a byte of `longer` is accepted in place of the byte of `shorter`
at the same position. -/
def Narrows (longer shorter : Needle) : Prop :=
  ∀ (i : Nat) (m n : UInt8), longer.bytes[i]? = some m → shorter.bytes[i]? = some n →
    ∀ b, Byte.agrees longer.caseSensitive b m = true → Byte.agrees shorter.caseSensitive b n = true

/-- **Case does not cease to matter** in a needle that continues one of the same case mode: the
letter for whose sake it matters is still there, as it is. -/
theorem caseSensitive_of_continues
    (hcontinues : (ofQuery query' mode ignoreSpaces').continues (ofQuery query mode ignoreSpaces) = true)
    (h : (ofQuery query mode ignoreSpaces).caseSensitive = true) :
    (ofQuery query' mode ignoreSpaces').caseSensitive = true := by
  by_contra hcase
  have hfolded : (ofQuery query' mode ignoreSpaces').caseSensitive = false :=
    (Bool.not_eq_true _).mp hcase
  have hflips : mode.isSensitive query ≠ mode.isSensitive query' := by
    change (ofQuery query mode ignoreSpaces).caseSensitive
      ≠ (ofQuery query' mode ignoreSpaces').caseSensitive
    rw [h, hfolded]
    exact nofun
  obtain rfl := CaseMatching.eq_smart_of_ne hflips
  obtain ⟨n, hn, hne⟩ := exists_fold_ne_of_smart h
  have hbegins := List.isPrefixOf_iff_prefix.mp hcontinues
  exact hne (fold_eq_of_mem_bytes hfolded n (hbegins.subset hn))

theorem narrows_of_continues
    (h : (ofQuery query' mode ignoreSpaces').continues (ofQuery query mode ignoreSpaces) = true) :
    (ofQuery query' mode ignoreSpaces').Narrows (ofQuery query mode ignoreSpaces) := by
  intro i m n hm hn b hagrees
  obtain ⟨later, hlater⟩ := List.isPrefixOf_iff_prefix.mp h
  -- both needles have the same byte there
  obtain rfl : m = n := by
    obtain ⟨hi, -⟩ := List.getElem?_eq_some_iff.mp hn
    rw [← hlater, List.getElem?_append_left hi, hn] at hm
    exact (Option.some_inj.mp hm).symm
  cases hcase : (ofQuery query mode ignoreSpaces).caseSensitive with
  | true =>
    rw [caseSensitive_of_continues h hcase] at hagrees
    exact hagrees
  | false =>
    cases hcase' : (ofQuery query' mode ignoreSpaces').caseSensitive with
    | true =>
      rw [hcase'] at hagrees
      exact Byte.agrees_of_sensitive hagrees
        (fold_eq_of_mem_bytes hcase m (List.mem_of_getElem? hn)) false
    | false =>
      rw [hcase'] at hagrees
      exact hagrees

/-- **Typing narrows a needle.** The needle of a longer query continues that of a shorter one, has
its letters, and minds case if that one does. Whenever one needle continues another, however the
queries came about and whether blanks count in them, it narrows the other. -/
theorem ofQuery_narrows (mode : CaseMatching) :
    (∀ (ignoreSpaces : Bool) (query typed : Bytes),
      let shorter := ofQuery query mode ignoreSpaces
      let longer := ofQuery (query ++ typed) mode ignoreSpaces
      longer.continues shorter = true ∧ longer.letters.contains shorter.letters = true ∧
        (shorter.caseSensitive = true → longer.caseSensitive = true)) ∧
    (∀ (ignoreSpaces ignoreSpaces' : Bool) (query query' : Bytes),
      let shorter := ofQuery query mode ignoreSpaces
      let longer := ofQuery query' mode ignoreSpaces'
      longer.continues shorter = true →
        shorter.length ≤ longer.length ∧ longer.Narrows shorter) := by
  refine ⟨fun ignoreSpaces query typed => ?_, fun ignoreSpaces ignoreSpaces' query query' => ?_⟩
  · intro shorter longer
    obtain ⟨later, hlater⟩ := bytes_append query typed mode ignoreSpaces
    refine ⟨List.isPrefixOf_iff_prefix.mpr ⟨later, hlater.symm⟩, ?_, fun h => ?_⟩
    · change (LetterSet.ofBytes longer.bytes).contains (.ofBytes shorter.bytes) = true
      rw [hlater]
      exact LetterSet.ofBytes_append_contains _ _
    · exact CaseMatching.isSensitive_append h typed
  · intro shorter longer hcontinues
    exact ⟨(List.isPrefixOf_iff_prefix.mp hcontinues).length_le, narrows_of_continues hcontinues⟩

/-- A capital behind `a b` makes case matter: `B` is accepted in place of the second byte no more. -/
theorem ofQuery_narrows_of_capital :
    let shorter := ofQuery [0x61, 0x20, 0x62] .smart true
    let longer := ofQuery ([0x61, 0x20, 0x62] ++ [0x43]) .smart true
    longer.continues shorter = true ∧ longer.letters.contains shorter.letters = true ∧
    longer.Narrows shorter ∧
    shorter.caseSensitive = false ∧ longer.caseSensitive = true ∧
    Byte.agrees shorter.caseSensitive 0x42 0x62 = true ∧
    Byte.agrees longer.caseSensitive 0x42 0x62 = false := by
  intro shorter longer
  obtain ⟨htyping, hqueries⟩ := ofQuery_narrows .smart
  obtain ⟨hcontinues, hletters, -⟩ := htyping true [0x61, 0x20, 0x62] [0x43]
  exact ⟨hcontinues, hletters, (hqueries true true _ _ hcontinues).2, rfl, rfl, rfl, rfl⟩

end Needle

end FuzzyFinder
