import FuzzyFinder.Proofs.Corpus

/-!
# FuzzyFinder — which slabs are adopted

A corpus adopts a slab when all spans lie inside of it, and otherwise names the first that does not
(`Corpus.ofSlab_adopts`). It does so with numbers of any size. A machine has words, and the sum of
two words may wrap around; a machine that notices this (`WordSpan.stop?`) comes to the same verdict,
as a sum that no word holds is greater than the length of any buffer (`Corpus.ofWords_eq`).
-/

namespace FuzzyFinder

/-! ## Spans in machine words -/

/-- A span as a machine has it. -/
structure WordSpan where
  start : UInt64
  length : UInt64

namespace WordSpan

def span (s : WordSpan) : Span := ⟨s.start.toNat, s.length.toNat⟩

theorem span_stop (s : WordSpan) : s.span.stop = s.start.toNat + s.length.toNat := rfl

/-- The first byte behind a span, unless no word can say where it is: a sum that has wrapped around
is less than what was added to. -/
def stop? (s : WordSpan) : Option UInt64 :=
  if s.start + s.length < s.start then none else some (s.start + s.length)

theorem stop?_eq_some_iff (s : WordSpan) (stop : UInt64) :
    s.stop? = some stop ↔ s.span.stop = stop.toNat := by
  have hstart := s.start.toNat_lt
  have hlength := s.length.toNat_lt
  have hstop := stop.toNat_lt
  have hsum : (s.start + s.length).toNat = (s.start.toNat + s.length.toNat) % 2 ^ 64 :=
    UInt64.toNat_add ..
  rw [stop?, span_stop]
  split
  · rename_i hwrapped
    rw [UInt64.lt_iff_toNat_lt] at hwrapped
    exact iff_of_false nofun (by omega)
  · rename_i hplain
    rw [UInt64.lt_iff_toNat_lt] at hplain
    rw [Option.some_inj, ← UInt64.toNat_inj]
    omega

/-- **A sum that wraps around lies outside of every buffer.** -/
theorem any_stop?_le_iff (s : WordSpan) (length : UInt64) :
    s.stop?.any (· ≤ length) = true ↔ s.span.stop ≤ length.toNat := by
  rw [Option.any_eq_true]
  constructor
  · rintro ⟨stop, hstop, hle⟩
    rw [(stop?_eq_some_iff ..).mp hstop]
    exact UInt64.le_iff_toNat_le.mp (of_decide_eq_true hle)
  · intro hle
    -- a number up to the length is a word
    have hword : s.span.stop < UInt64.size := Nat.lt_of_le_of_lt hle length.toNat_lt
    have hstop : s.span.stop = (UInt64.ofNat s.span.stop).toNat :=
      (UInt64.toNat_ofNat_of_lt hword).symm
    refine ⟨.ofNat s.span.stop, (stop?_eq_some_iff ..).mpr hstop, decide_eq_true ?_⟩
    rw [UInt64.le_iff_toNat_le, ← hstop]
    exact hle

end WordSpan

namespace Corpus

def firstInvalidWord (length : UInt64) (index : Nat) : List WordSpan → Option MatchError
  | [] => none
  | s :: rest =>
    if s.stop?.any (· ≤ length) then firstInvalidWord length (index + 1) rest
    else some (.invalidSpan index s.start.toNat s.length.toNat length.toNat)

theorem firstInvalidWord_eq (length : UInt64) (index : Nat) (words : List WordSpan) :
    firstInvalidWord length index words
      = firstInvalid length.toNat index (words.map WordSpan.span) := by
  induction words generalizing index with
  | nil => rfl
  | cons s words ih =>
    simp only [firstInvalidWord, List.map_cons, firstInvalid, ih, s.any_stop?_le_iff]
    rfl

def ofWords (buffer : Array UInt8) (words : List WordSpan) : Except MatchError Corpus :=
  match firstInvalidWord (.ofNat buffer.size) 0 words with
  | some e => .error e
  | none =>
    .ok { slab := some buffer, entries := (words.map fun s => (.slab, s.span)).toArray }

theorem ofWords_eq {buffer : Array UInt8} (h : buffer.size < UInt64.size) (words : List WordSpan) :
    ofWords buffer words = ofSlab buffer (words.map WordSpan.span) := by
  have hsize : (UInt64.ofNat buffer.size).toNat = buffer.size := UInt64.toNat_ofNat_of_lt h
  have hentries : (words.map WordSpan.span).map (fun s => (Region.slab, s))
      = words.map fun s => (.slab, s.span) := List.map_map
  rw [ofWords, ofSlab, firstInvalidWord_eq, hsize]
  cases firstInvalid buffer.size 0 (words.map WordSpan.span) with
  | some e => rfl
  | none =>
    dsimp only
    rw [hentries]

/-! ## The first span outside -/

theorem firstInvalid_eq_some_iff (length index : Nat) (spans : List Span) (e : MatchError) :
    firstInvalid length index spans = some e ↔ ∃ before s behind,
      spans = before ++ s :: behind ∧ (∀ t ∈ before, t.stop ≤ length) ∧ length < s.stop
        ∧ e = .invalidSpan (index + before.length) s.start s.length length := by
  induction spans generalizing index with
  | nil => simp [firstInvalid]
  | cons t spans ih =>
    rw [firstInvalid]
    split
    case isTrue hinside =>
      -- the first one outside is among the others
      rw [ih]
      constructor
      · rintro ⟨before, s, behind, rfl, hbefore, hs, rfl⟩
        refine ⟨t :: before, s, behind, rfl, List.forall_mem_cons.mpr ⟨hinside, hbefore⟩, hs, ?_⟩
        rw [List.length_cons, Nat.add_assoc, Nat.add_comm 1]
      · rintro ⟨_ | ⟨u, before⟩, s, behind, hspans, hbefore, hs, rfl⟩
        · obtain ⟨rfl, -⟩ := List.cons.inj hspans
          exact absurd hinside (Nat.not_le_of_lt hs)
        · obtain ⟨rfl, rfl⟩ := List.cons.inj hspans
          refine ⟨before, s, behind, rfl, (List.forall_mem_cons.mp hbefore).2, hs, ?_⟩
          rw [List.length_cons, Nat.add_assoc, Nat.add_comm 1]
    case isFalse houtside =>
      -- it is `t`
      constructor
      · rintro ⟨⟩
        exact ⟨[], t, spans, rfl, List.forall_mem_nil _, Nat.lt_of_not_le houtside, rfl⟩
      · rintro ⟨_ | ⟨u, before⟩, s, behind, hspans, hbefore, hs, rfl⟩
        · obtain ⟨rfl, -⟩ := List.cons.inj hspans
          rfl
        · obtain ⟨rfl, -⟩ := List.cons.inj hspans
          exact absurd (hbefore t List.mem_cons_self) houtside

theorem ofSlab_eq_error_iff {buffer : Array UInt8} {spans : List Span} {e : MatchError} :
    ofSlab buffer spans = .error e ↔ firstInvalid buffer.size 0 spans = some e := by
  rw [ofSlab]
  cases firstInvalid buffer.size 0 spans with
  | none => exact iff_of_false nofun nofun
  | some _ => rw [Except.error.injEq, Option.some_inj]

theorem exists_ofSlab_eq_ok_iff {buffer : Array UInt8} {spans : List Span} :
    (∃ c, ofSlab buffer spans = .ok c) ↔ firstInvalid buffer.size 0 spans = none := by
  rw [ofSlab]
  cases firstInvalid buffer.size 0 spans with
  | none => exact iff_of_true ⟨_, rfl⟩ rfl
  | some _ => exact iff_of_false nofun nofun

/-- **A slab is adopted exactly when all spans lie inside of it.** Otherwise the first one that does
not is named. A machine that adds words comes to the same verdict about all spans that it can be
given. -/
theorem ofSlab_adopts (buffer : Array UInt8) (spans : List Span) :
    ((∃ c, ofSlab buffer spans = .ok c) ↔ ∀ s ∈ spans, s.start + s.length ≤ buffer.size) ∧
    (∀ e, ofSlab buffer spans = .error e ↔ ∃ before s behind, spans = before ++ s :: behind ∧
      (∀ t ∈ before, t.start + t.length ≤ buffer.size) ∧ buffer.size < s.start + s.length ∧
      e = .invalidSpan before.length s.start s.length buffer.size) ∧
    (∀ words : List WordSpan, words.map WordSpan.span = spans → buffer.size < UInt64.size →
      ofWords buffer words = ofSlab buffer spans) := by
  refine ⟨?_, fun e => ?_, ?_⟩
  · rw [exists_ofSlab_eq_ok_iff, firstInvalid_eq_none_iff]
    rfl
  · rw [ofSlab_eq_error_iff, firstInvalid_eq_some_iff]
    simp only [Nat.zero_add, Span.stop]
  · rintro words rfl hsize
    exact ofWords_eq hsize words

/-- Behind an empty span at the very end stands one whose end wraps around to 0. -/
theorem ofSlab_adopts_of_wrapped :
    let buffer : Array UInt8 := #[0x61, 0x62, 0x63]
    let words : List WordSpan := [⟨3, 0⟩, ⟨0xffffffffffffffff, 1⟩, ⟨9, 9⟩]
    let spans : List Span := [⟨3, 0⟩, ⟨0xffffffffffffffff, 1⟩, ⟨9, 9⟩]
    words.map WordSpan.span = spans ∧ buffer.size < UInt64.size ∧
    ofSlab buffer spans = .error (.invalidSpan 1 0xffffffffffffffff 1 3) ∧
    ofWords buffer words = .error (.invalidSpan 1 0xffffffffffffffff 1 3) ∧
    ∃ c, ofSlab buffer [⟨3, 0⟩] = .ok c := by
  intro buffer words spans
  have hspans : words.map WordSpan.span = spans := rfl
  obtain ⟨-, hrefused, hwords⟩ := ofSlab_adopts buffer spans
  have herror : ofSlab buffer spans = .error (.invalidSpan 1 0xffffffffffffffff 1 3) :=
    (hrefused _).mpr ⟨[⟨3, 0⟩], ⟨0xffffffffffffffff, 1⟩, [⟨9, 9⟩], rfl, by decide, by decide, rfl⟩
  refine ⟨hspans, by decide, herror, ?_, (ofSlab_adopts buffer [⟨3, 0⟩]).1.mpr (by decide)⟩
  rw [hwords words hspans (by decide), herror]

end Corpus

end FuzzyFinder
