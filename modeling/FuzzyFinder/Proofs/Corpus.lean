import FuzzyFinder.Session

/-!
# FuzzyFinder — a corpus is a list of byte strings

A corpus keeps its candidates as spans of two buffers. Seen from outside it is a plain list: it
starts out with the candidates it was made of (`Origin.candidates`), and appending to it appends to
the list. What carries this is that every span lies inside its buffer (`InBounds`); the arena grows
at its end, so no span ever shows other bytes than it did when it was made. `build_mirrors` collects
what follows, for a corpus of any origin after any number of appends.
-/

namespace FuzzyFinder

/-- The bytes under a span, cut out of the buffer as a list. -/
theorem Span.bytes_eq (s : Span) (buffer : Array UInt8) :
    s.bytes buffer = (buffer.toList.drop s.start).take s.length := by
  rw [Span.bytes, Array.toList_extract, List.extract_eq_take_drop, Span.stop, Nat.add_sub_cancel_left]

/-- A span shows the same bytes once its buffer has grown at the end. -/
theorem Span.bytes_append {s : Span} {buffer : Array UInt8} (h : s.stop ≤ buffer.size)
    (more : Bytes) : s.bytes (buffer ++ more) = s.bytes buffer := by
  unfold Span.stop at h
  rw [bytes_eq, bytes_eq, Array.toList_appendList, List.drop_append_of_le_length
    (by rw [Array.length_toList]; omega), List.take_append_of_le_length
    (by rw [List.length_drop, Array.length_toList]; omega)]

/-- What is written behind a buffer is under the span that begins at its end. -/
theorem Span.bytes_behind (buffer : Array UInt8) (s : Bytes) :
    Span.bytes ⟨buffer.size, s.length⟩ (buffer ++ s) = s := by
  rw [bytes_eq, Array.toList_appendList, ← Array.length_toList, List.drop_left, List.take_length]

namespace Corpus

/-! ## What is appended -/

/-- Every candidate lies inside of its buffer. -/
def InBounds (c : Corpus) : Prop := ∀ entry ∈ c.entries, entry.2.stop ≤ (c.buffer entry.1).size

/-- Growing the arena moves no candidate. -/
theorem resolve_push {c : Corpus} {entry : Region × Span}
    (h : entry.2.stop ≤ (c.buffer entry.1).size) (s : Bytes) :
    (c.push s).resolve entry = c.resolve entry := by
  obtain ⟨region, span⟩ := entry
  cases region with
  | arena => exact Span.bytes_append h s
  | slab => rfl

theorem push_inBounds {c : Corpus} (h : c.InBounds) (s : Bytes) : (c.push s).InBounds := by
  intro entry hentry
  have hsize : (c.arena ++ s).size = c.arena.size + s.length := by
    rw [← Array.length_toList, Array.toList_appendList, List.length_append, Array.length_toList]
  rcases Array.mem_push.mp hentry with hold | rfl
  · have hbound := h entry hold
    obtain ⟨region, span⟩ := entry
    cases region with
    | arena =>
      refine Nat.le_trans hbound ?_
      change c.arena.size ≤ (c.arena ++ s).size
      omega
    | slab => exact hbound
  · change c.arena.size + s.length ≤ (c.arena ++ s).size
    omega

/-- **A copy goes to the end of the list.** -/
theorem toList_push {c : Corpus} (h : c.InBounds) (s : Bytes) :
    (c.push s).toList = c.toList ++ [s] := by
  have hentries : (c.push s).entries.toList
      = c.entries.toList ++ [(.arena, ⟨c.arena.size, s.length⟩)] := Array.toList_push
  -- the candidates from before stay as they are, and the new one is the copy
  have hold : c.entries.toList.map (c.push s).resolve = c.entries.toList.map c.resolve :=
    List.map_congr_left fun entry hentry => resolve_push (h entry (Array.mem_toList_iff.mp hentry)) s
  have hnew : (c.push s).resolve (.arena, ⟨c.arena.size, s.length⟩) = s :=
    Span.bytes_behind c.arena s
  unfold toList
  rw [hentries, List.map_append, hold, List.map_singleton, hnew]

theorem append_inBounds {c : Corpus} (h : c.InBounds) (l : List Bytes) : (c.append l).InBounds := by
  induction l generalizing c with
  | nil => exact h
  | cons s l ih => exact ih (push_inBounds h s)

theorem toList_append {c : Corpus} (h : c.InBounds) (l : List Bytes) :
    (c.append l).toList = c.toList ++ l := by
  induction l generalizing c with
  | nil => exact (List.append_nil _).symm
  | cons s l ih =>
    change ((c.push s).append l).toList = _
    rw [ih (push_inBounds h s), toList_push h, List.append_assoc, List.singleton_append]

theorem storage_append (c : Corpus) (l : List Bytes) : (c.append l).storage = c.storage := by
  induction l generalizing c with
  | nil => rfl
  | cons s l ih => exact ih (c.push s)

/-- Appends one list of candidates after the other. -/
def appendAll (c : Corpus) (lists : List (List Bytes)) : Corpus := lists.foldl append c

theorem appendAll_inBounds {c : Corpus} (h : c.InBounds) (lists : List (List Bytes)) :
    (c.appendAll lists).InBounds := by
  induction lists generalizing c with
  | nil => exact h
  | cons l lists ih => exact ih (append_inBounds h l)

theorem toList_appendAll {c : Corpus} (h : c.InBounds) (lists : List (List Bytes)) :
    (c.appendAll lists).toList = c.toList ++ lists.flatten := by
  induction lists generalizing c with
  | nil => exact (List.append_nil _).symm
  | cons l lists ih =>
    change ((c.append l).appendAll lists).toList = _
    rw [ih (append_inBounds h l), toList_append h, List.append_assoc, List.flatten_cons]

theorem storage_appendAll (c : Corpus) (lists : List (List Bytes)) :
    (c.appendAll lists).storage = c.storage := by
  induction lists generalizing c with
  | nil => rfl
  | cons l lists ih =>
    change ((c.append l).appendAll lists).storage = _
    rw [ih, storage_append]

/-! ## Looking things up -/

@[simp] theorem length_toList (c : Corpus) : c.toList.length = c.size := by
  rw [toList, List.length_map, Array.length_toList, size]

/-- Looking up an index is looking it up in the list. -/
theorem get_eq (c : Corpus) (i : Nat) :
    c.get i = match c.toList[i]? with
      | some s => .ok s
      | none => .error (.indexOutOfRange i c.toList.length) := by
  rw [length_toList, toList, List.getElem?_map, Array.getElem?_toList, get]
  cases c.entries[i]? <;> rfl

/-- An index that was handed out shows the same candidate however much is appended. -/
theorem get_append {c : Corpus} (h : c.InBounds) (l : List Bytes) {i : Nat} (hi : i < c.size) :
    (c.append l).get i = c.get i := by
  rw [get_eq, get_eq, toList_append h, List.getElem?_append_left (by rw [length_toList]; exact hi),
    List.getElem?_eq_getElem (by rw [length_toList]; exact hi)]

/-! ## Where a corpus comes from -/

/-- What a corpus is made of. -/
inductive Origin where
  | nothing
  | copies (candidates : List Bytes)
  | slab (buffer : Array UInt8) (spans : List Span)

namespace Origin

/-- Makes the corpus; a slab may be refused. -/
def build : Origin → Except MatchError Corpus
  | nothing => .ok empty
  | copies candidates => .ok (ofCopies candidates)
  | slab buffer spans => ofSlab buffer spans

/-- The candidates that a corpus starts out with. -/
def candidates : Origin → List Bytes
  | nothing => []
  | copies candidates => candidates
  | slab buffer spans => spans.map fun s => (buffer.toList.drop s.start).take s.length

def storage : Origin → Storage
  | nothing => .owned
  | copies _ => .owned
  | slab buffer _ => .borrowed buffer.size

end Origin

theorem empty_inBounds : empty.InBounds := fun _ hentry => by simp [empty] at hentry

theorem firstInvalid_eq_none_iff (length index : Nat) (spans : List Span) :
    firstInvalid length index spans = none ↔ ∀ s ∈ spans, s.stop ≤ length := by
  induction spans generalizing index with
  | nil => simp [firstInvalid]
  | cons s spans ih =>
    rw [firstInvalid, List.forall_mem_cons]
    split
    · rename_i hstop
      rw [ih]
      exact ⟨fun h => ⟨hstop, h⟩, fun h => h.2⟩
    · rename_i hstop
      exact ⟨fun h => absurd h (by simp), fun h => absurd h.1 hstop⟩

theorem ofSlab_eq_ok {buffer : Array UInt8} {spans : List Span} {c : Corpus}
    (h : ofSlab buffer spans = .ok c) : (∀ s ∈ spans, s.stop ≤ buffer.size)
      ∧ c = { slab := some buffer, entries := (spans.map fun s => (.slab, s)).toArray } := by
  unfold ofSlab at h
  split at h
  · exact absurd h (by simp)
  · rename_i hvalid
    exact ⟨(firstInvalid_eq_none_iff ..).mp hvalid, (Except.ok.inj h).symm⟩

theorem build_inBounds {origin : Origin} {c : Corpus} (h : origin.build = .ok c) : c.InBounds := by
  cases origin with
  | nothing =>
    obtain rfl := Except.ok.inj h
    exact empty_inBounds
  | copies candidates =>
    obtain rfl := Except.ok.inj h
    exact append_inBounds empty_inBounds candidates
  | slab buffer spans =>
    obtain ⟨hvalid, rfl⟩ := ofSlab_eq_ok h
    intro entry hentry
    obtain ⟨s, hs, rfl⟩ := List.mem_map.mp (List.mem_toArray.mp hentry)
    exact hvalid s hs

theorem toList_build {origin : Origin} {c : Corpus} (h : origin.build = .ok c) :
    c.toList = origin.candidates := by
  cases origin with
  | nothing =>
    obtain rfl := Except.ok.inj h
    rfl
  | copies candidates =>
    obtain rfl := Except.ok.inj h
    exact toList_append empty_inBounds candidates
  | slab buffer spans =>
    obtain ⟨-, rfl⟩ := ofSlab_eq_ok h
    unfold toList Origin.candidates
    rw [List.map_map]
    exact List.map_congr_left fun s _ => Span.bytes_eq s buffer

theorem storage_build {origin : Origin} {c : Corpus} (h : origin.build = .ok c) :
    c.storage = origin.storage := by
  cases origin with
  | nothing =>
    obtain rfl := Except.ok.inj h
    rfl
  | copies candidates =>
    obtain rfl := Except.ok.inj h
    exact storage_append empty candidates
  | slab buffer spans =>
    obtain ⟨-, rfl⟩ := ofSlab_eq_ok h
    rfl

/-! ## The list behind a corpus -/

/-- From outside, the corpus is the list `l` with the tag `storage`. -/
structure Mirrors (c : Corpus) (l : List Bytes) (storage : Storage) : Prop where
  /-- No candidate is cut out of its buffer where there is none. -/
  inBounds : c.InBounds
  /-- The candidates in index order. -/
  toList_eq : c.toList = l
  size_eq : c.size = l.length
  /-- Every index below the length is good, and every other one is refused. -/
  get_eq : ∀ i, c.get i = match l[i]? with
    | some s => .ok s
    | none => .error (.indexOutOfRange i l.length)
  /-- Appending keeps the candidates behind all indices handed out. -/
  get_append : ∀ more i, i < c.size → (c.append more).get i = c.get i
  storage_eq : c.storage = storage
  /-- Another corpus with the same candidates is listed and searched alike. -/
  alike : ∀ other : Corpus, other.toList = l → other.dump = c.dump
    ∧ ∀ options, Session.start other options = Session.start c options

/-- Searching and listing look at nothing but the candidates. -/
theorem alike_of_toList_eq {c other : Corpus} (h : other.toList = c.toList) :
    other.dump = c.dump ∧ ∀ options, Session.start other options = Session.start c options := by
  refine ⟨?_, fun options => ?_⟩
  · rw [dump, dump, h]
  · rw [Session.start, Session.start, h]

/-- **A corpus mirrors a list.** Whatever it was made of and whatever was appended to it, it shows
the candidates it was made of and then those that were appended. -/
theorem build_mirrors {origin : Origin} {c : Corpus} (h : origin.build = .ok c)
    (lists : List (List Bytes)) :
    (c.appendAll lists).Mirrors (origin.candidates ++ lists.flatten) origin.storage := by
  have hbounds := appendAll_inBounds (build_inBounds h) lists
  have hlist : (c.appendAll lists).toList = origin.candidates ++ lists.flatten := by
    rw [toList_appendAll (build_inBounds h), toList_build h]
  refine ⟨hbounds, hlist, ?_, ?_, ?_, ?_, ?_⟩
  · rw [← hlist, length_toList]
  · intro i
    rw [← hlist]
    exact get_eq _ i
  · intro more i hi
    exact get_append hbounds more hi
  · rw [storage_appendAll, storage_build h]
  · intro other hother
    exact alike_of_toList_eq (hother.trans hlist.symm)

/-- Spans that overlap, go backwards and are empty, one of them at the very end, and two appends. -/
theorem build_mirrors_of_overlap :
    ∃ c, (Origin.slab #[0x61, 0x2f, 0x62, 0x63] [⟨2, 2⟩, ⟨0, 3⟩, ⟨4, 0⟩]).build = .ok c
      ∧ (c.appendAll [[[0x78], []], [[0x79, 0x7a]]]).Mirrors
        [[0x62, 0x63], [0x61, 0x2f, 0x62], [], [0x78], [], [0x79, 0x7a]] (.borrowed 4) :=
  ⟨_, rfl, @build_mirrors (.slab #[0x61, 0x2f, 0x62, 0x63] [⟨2, 2⟩, ⟨0, 3⟩, ⟨4, 0⟩]) _ rfl
    [[[0x78], []], [[0x79, 0x7a]]]⟩

end Corpus

end FuzzyFinder
