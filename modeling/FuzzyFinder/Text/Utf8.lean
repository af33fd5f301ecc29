import FuzzyFinder.Bytes

/-!
# FuzzyFinder — reading bytes as text

Bytes are shown to people as UTF-8. Bytes that are no UTF-8 are replaced: each maximal stretch
that could have begun a character but does not complete one becomes a single U+FFFD, as does each
byte that can begin none. The decoder walks the bytes once. Between characters it owes nothing;
inside one it knows how many continuation bytes are still due, and which range the next one may
come from, so that overlong forms, surrogates and values past U+10FFFF are refused at the first
byte that gives them away.
-/

namespace FuzzyFinder

namespace Utf8

/-- A character under way. -/
structure Pending where
  /-- Continuation bytes still due, at least one. -/
  due : Nat
  /-- The least byte that may come next. -/
  low : UInt8
  /-- The greatest byte that may come next. -/
  high : UInt8
  /-- The code point as far as it is known. -/
  code : Nat

/-- Stands for bytes that are no character. -/
def replacement : Char := '\uFFFD'

/-- A byte between characters: a whole character, a replacement for a byte that opens none, or
the character it opens. -/
def start (b : UInt8) : Char ⊕ Pending :=
  if b ≤ 0x7f then .inl (Char.ofNat b.toNat)
  else if b < 0xc2 then .inl replacement
  else if b ≤ 0xdf then .inr ⟨1, 0x80, 0xbf, b.toNat - 0xc0⟩
  else if b ≤ 0xef then
    .inr ⟨2, if b == 0xe0 then 0xa0 else 0x80, if b == 0xed then 0x9f else 0xbf, b.toNat - 0xe0⟩
  else if b ≤ 0xf4 then
    .inr ⟨3, if b == 0xf0 then 0x90 else 0x80, if b == 0xf4 then 0x8f else 0xbf, b.toNat - 0xf0⟩
  else .inl replacement

/-- Decodes from between characters (`none`) or from inside one. -/
def decodeFrom : Option Pending → Bytes → List Char
  | none, [] => []
  | some _, [] => [replacement]
  | none, b :: rest =>
    match start b with
    | .inl c => c :: decodeFrom none rest
    | .inr p => decodeFrom (some p) rest
  | some p, b :: rest =>
    if p.low ≤ b && b ≤ p.high then
      let code := p.code * 64 + (b.toNat - 0x80)
      if p.due ≤ 1 then Char.ofNat code :: decodeFrom none rest
      else decodeFrom (some ⟨p.due - 1, 0x80, 0xbf, code⟩) rest
    else
      replacement :: match start b with
        | .inl c => c :: decodeFrom none rest
        | .inr p => decodeFrom (some p) rest

/-- The text of a byte string, with replacements where it is no UTF-8. -/
def decode (s : Bytes) : List Char := decodeFrom none s

/-- The bytes of a text. -/
def encode (text : List Char) : Bytes := text.flatMap String.utf8EncodeChar

/-- The text of a byte string, `none` where it is no UTF-8: a replacement for other bytes does not
give them back. -/
def decode? (s : Bytes) : Option (List Char) :=
  let text := decode s
  if encode text == s then some text else none

end Utf8

end FuzzyFinder
