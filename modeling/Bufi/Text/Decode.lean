import Bufi.Text.Utf8

/-!
# Reading UTF-8

`decodeChars` reads bytes as characters and never fails: where the bytes are not the
encoding of a character, as much of them as could have been the start of one is read as
U+FFFD.  `decodeUtf8` is `TextDecoder`, which drops a byte order mark at the start.

What was encoded is read back (`decodeUtf8_utf8`), but for surrogates without their partners.
-/

namespace Bufi.Text

open Bufi.Evm

/-! ### Characters -/

/-- The start of a character: its bits so far, how many bytes are missing, and the bounds of
the next one. -/
structure Pending where
  bits : ℕ
  needed : ℕ
  lower : ℕ := 0x80
  upper : ℕ := 0xbf

/-- What a byte means, and the state behind it, at the start of a character. -/
def startByte (b : ℕ) : List Char × Option Pending :=
  if b < 0x80 then ([Char.ofNat b], none)
  else if 0xc2 ≤ b ∧ b ≤ 0xdf then ([], some { bits := b - 0xc0, needed := 1 })
  else if 0xe0 ≤ b ∧ b ≤ 0xef then
    ([], some
      { bits := b - 0xe0
        needed := 2
        lower := if b = 0xe0 then 0xa0 else 0x80
        upper := if b = 0xed then 0x9f else 0xbf })
  else if 0xf0 ≤ b ∧ b ≤ 0xf4 then
    ([], some
      { bits := b - 0xf0
        needed := 3
        lower := if b = 0xf0 then 0x90 else 0x80
        upper := if b = 0xf4 then 0x8f else 0xbf })
  else ([replacement], none)

/-- What a byte means inside of a character; a byte that does not belong there is read again,
at the start of one. -/
def nextByte (p : Pending) (b : ℕ) : List Char × Option Pending :=
  if p.lower ≤ b ∧ b ≤ p.upper then
    if p.needed = 1 then ([Char.ofNat (p.bits * 64 + (b - 0x80))], none)
    else ([], some { bits := p.bits * 64 + (b - 0x80), needed := p.needed - 1 })
  else (replacement :: (startByte b).1, (startByte b).2)

/-- The characters of bytes. -/
def decodeFrom : Option Pending → Bytes → List Char
  | none, [] => []
  | some _, [] => [replacement]
  | none, b :: rest => (startByte b.toNat).1 ++ decodeFrom (startByte b.toNat).2 rest
  | some p, b :: rest => (nextByte p b.toNat).1 ++ decodeFrom (nextByte p b.toNat).2 rest

def decodeChars (b : Bytes) : List Char := decodeFrom none b

/-- `new TextDecoder().decode(bytes)` -/
def decodeUtf8 (b : Bytes) : Utf16 :=
  unscalars (decodeChars (if [0xef, 0xbb, 0xbf] <+: b then b.drop 3 else b))

/-! ### Reading what was written -/

theorem decodeChars_ascii {b : UInt8} (h : b.toNat < 0x80) (rest : Bytes) :
    decodeChars (b :: rest) = Char.ofNat b.toNat :: decodeChars rest := by
  rw [decodeChars, decodeFrom, startByte, if_pos h]
  rfl

theorem startByte_two {b : ℕ} (h : 0xc2 ≤ b ∧ b ≤ 0xdf) :
    startByte b = ([], some { bits := b - 0xc0, needed := 1 }) := by
  rw [startByte, if_neg (by omega), if_pos h]

theorem startByte_three {b : ℕ} (h : 0xe0 ≤ b ∧ b ≤ 0xef) :
    startByte b = ([], some
      { bits := b - 0xe0
        needed := 2
        lower := if b = 0xe0 then 0xa0 else 0x80
        upper := if b = 0xed then 0x9f else 0xbf }) := by
  rw [startByte, if_neg (by omega), if_neg (by omega), if_pos h]

theorem startByte_four {b : ℕ} (h : 0xf0 ≤ b ∧ b ≤ 0xf4) :
    startByte b = ([], some
      { bits := b - 0xf0
        needed := 3
        lower := if b = 0xf0 then 0x90 else 0x80
        upper := if b = 0xf4 then 0x8f else 0xbf }) := by
  rw [startByte, if_neg (by omega), if_neg (by omega), if_neg (by omega), if_pos h]

theorem decodeFrom_more {p : Pending} {b : UInt8} (hneeded : p.needed ≠ 1)
    (hb : p.lower ≤ b.toNat ∧ b.toNat ≤ p.upper) (rest : Bytes) :
    decodeFrom (some p) (b :: rest) = decodeFrom
      (some { bits := p.bits * 64 + (b.toNat - 0x80), needed := p.needed - 1 }) rest := by
  rw [decodeFrom, nextByte, if_pos hb, if_neg hneeded]
  rfl

theorem decodeFrom_last {p : Pending} {b : UInt8} (hneeded : p.needed = 1)
    (hb : p.lower ≤ b.toNat ∧ b.toNat ≤ p.upper) (rest : Bytes) :
    decodeFrom (some p) (b :: rest)
      = Char.ofNat (p.bits * 64 + (b.toNat - 0x80)) :: decodeFrom none rest := by
  rw [decodeFrom, nextByte, if_pos hb, if_pos hneeded]
  rfl

/-- **A character is read back from its bytes.** -/
theorem decodeChars_encodeChar (ch : Char) (rest : Bytes) :
    decodeChars (String.utf8EncodeChar ch ++ rest) = ch :: decodeChars rest := by
  have hvalid : ch.toNat < 0xd800 ∨ 0xdfff < ch.toNat ∧ ch.toNat < 0x110000 := ch.valid
  have hbyte : ∀ n < 256, (UInt8.ofNat n).toNat = n := by
    intro n hn
    exact UInt8.toNat_ofNat_of_lt hn
  have hval : ch.val.toNat = ch.toNat := rfl
  rw [String.utf8EncodeChar]
  simp only [hval]
  generalize hn : ch.toNat = n at *
  have hch : Char.ofNat n = ch := by rw [← hn, Char.ofNat_toNat]
  split
  · next h1 =>
    rw [List.cons_append, List.nil_append, decodeChars_ascii (by rw [hbyte n (by omega)]; omega),
      hbyte n (by omega), hch]
  split
  · next h1 h2 =>
    have b1 := hbyte (n / 64 % 32 + 192) (by omega)
    have b2 := hbyte (n % 64 + 128) (by omega)
    have hpoint : (n / 64 % 32 + 192 - 192) * 64 + (n % 64 + 128 - 128) = n := by omega
    rw [List.cons_append, List.cons_append, List.nil_append, decodeChars, decodeFrom, b1,
      startByte_two (by omega), List.nil_append,
      decodeFrom_last rfl (by rw [b2]; dsimp only; omega), b2, hpoint, hch, decodeChars]
  split
  · next h1 h2 h3 =>
    have b1 := hbyte (n / 4096 % 16 + 224) (by omega)
    have b2 := hbyte (n / 64 % 64 + 128) (by omega)
    have b3 := hbyte (n % 64 + 128) (by omega)
    have hpoint : ((n / 4096 % 16 + 224 - 224) * 64 + (n / 64 % 64 + 128 - 128)) * 64
        + (n % 64 + 128 - 128) = n := by omega
    rw [List.cons_append, List.cons_append, List.cons_append, List.nil_append, decodeChars,
      decodeFrom, b1, startByte_three (by omega), List.nil_append,
      decodeFrom_more (show 2 ≠ 1 by decide)
        (by rw [b2]; dsimp only; split <;> split <;> omega),
      decodeFrom_last rfl (by rw [b3]; dsimp only; omega), b2, b3, hpoint, hch, decodeChars]
  · next h1 h2 h3 =>
    have b1 := hbyte (n / 262144 % 8 + 240) (by omega)
    have b2 := hbyte (n / 4096 % 64 + 128) (by omega)
    have b3 := hbyte (n / 64 % 64 + 128) (by omega)
    have b4 := hbyte (n % 64 + 128) (by omega)
    have hpoint : (((n / 262144 % 8 + 240 - 240) * 64 + (n / 4096 % 64 + 128 - 128)) * 64
        + (n / 64 % 64 + 128 - 128)) * 64 + (n % 64 + 128 - 128) = n := by omega
    rw [List.cons_append, List.cons_append, List.cons_append, List.cons_append, List.nil_append,
      decodeChars, decodeFrom, b1, startByte_four (by omega), List.nil_append,
      decodeFrom_more (show 3 ≠ 1 by decide)
        (by rw [b2]; dsimp only; split <;> split <;> omega),
      decodeFrom_more (show 2 ≠ 1 by decide) (by rw [b3]; dsimp only; omega),
      decodeFrom_last rfl (by rw [b4]; dsimp only; omega), b2, b3, b4, hpoint, hch, decodeChars]

/-- **What was encoded is read back.** -/
theorem decodeChars_utf8 (s : Utf16) : decodeChars (utf8 s) = scalars s := by
  rw [utf8]
  induction scalars s with
  | nil => rfl
  | cons ch l ih => rw [List.flatMap_cons, decodeChars_encodeChar, ih]

/-- The string with U+FFFD in the place of every surrogate without its partner. -/
def toWellFormed (s : Utf16) : Utf16 := unscalars (scalars s)

theorem wellFormed_iff {s : Utf16} : WellFormed s ↔ toWellFormed s = s := by
  constructor
  · exact fun h => h.unscalars_scalars
  · intro h
    exact ⟨scalars s, h⟩

theorem utf8_toWellFormed (s : Utf16) : utf8 (toWellFormed s) = utf8 s := by
  rw [utf8_eq_iff, toWellFormed, scalars_unscalars]

theorem decodeUtf8_utf8 {s : Utf16} (h : ¬[0xef, 0xbb, 0xbf] <+: utf8 s) :
    decodeUtf8 (utf8 s) = toWellFormed s := by
  rw [decodeUtf8, if_neg h, decodeChars_utf8, toWellFormed]

/-! ### ASCII -/

theorem not_surrogate_of_lt {c : CodeUnit} (h : c < 0x80) :
    isLead c = false ∧ isTrail c = false := by
  have hnat : c.toNat < 128 := UInt16.lt_iff_toNat_lt.mp h
  constructor
  · rw [Bool.eq_false_iff, ne_eq, isLead_iff]
    omega
  · rw [Bool.eq_false_iff, ne_eq, isTrail_iff]
    omega

/-- The string of ASCII bytes. -/
def asciiText (b : Bytes) : Utf16 := b.map (fun c => UInt16.ofNat c.toNat)

theorem utf8_cons_of_lt {c : CodeUnit} (h : c < 0x80) (rest : Utf16) :
    utf8 (c :: rest) = UInt8.ofNat c.toNat :: utf8 rest := by
  have hnat : c.toNat < 128 := UInt16.lt_iff_toNat_lt.mp h
  obtain ⟨hlead, htrail⟩ := not_surrogate_of_lt h
  have hchar : (Char.ofNat c.toNat).val.toNat = c.toNat :=
    toNat_ofNat_of_isValidChar (Or.inl (by omega))
  rw [utf8, scalars_plain hlead htrail, List.flatMap_cons, String.utf8EncodeChar]
  simp only [hchar]
  rw [if_pos (by omega)]
  rfl

theorem utf8_asciiText {b : Bytes} (h : ∀ c ∈ b, c < 0x80) : utf8 (asciiText b) = b := by
  induction b with
  | nil => rfl
  | cons c b ih =>
    obtain ⟨hc, hb⟩ := List.forall_mem_cons.mp h
    have hnat : c.toNat < 128 := UInt8.lt_iff_toNat_lt.mp hc
    have hunit : (UInt16.ofNat c.toNat).toNat = c.toNat :=
      UInt16.toNat_ofNat_of_lt (by rw [UInt16.size]; omega)
    have hlt : UInt16.ofNat c.toNat < 0x80 := by
      rw [UInt16.lt_iff_toNat_lt, hunit]
      exact hnat
    rw [asciiText, List.map_cons, utf8_cons_of_lt hlt, hunit, UInt8.ofNat_toNat, ← asciiText, ih hb]

/-! ### Strings in parts -/

theorem unscalar_ofNat {c : CodeUnit} (hlead : isLead c = false) (htrail : isTrail c = false) :
    unscalar (Char.ofNat c.toNat) = [c] := by
  have hwell := (WellFormed.plain hlead htrail).unscalars_scalars
  rwa [scalars_plain hlead htrail, scalars, unscalars, List.flatMap_singleton] at hwell

theorem unscalar_pairChar {c d : CodeUnit} (hlead : isLead c = true) (htrail : isTrail d = true) :
    unscalar (pairChar c d) = [c, d] := by
  have hwell := (WellFormed.pair hlead htrail).unscalars_scalars
  rwa [scalars_pair hlead htrail, scalars, unscalars, List.flatMap_singleton] at hwell

theorem scalars_lead {c d : CodeUnit} (hlead : isLead c = true) (htrail : isTrail d = false)
    (rest : Utf16) : scalars (c :: d :: rest) = replacement :: scalars (d :: rest) := by
  rw [scalars.eq_def]
  simp [hlead, htrail]

theorem scalars_trail {c : CodeUnit} (hlead : isLead c = false) (htrail : isTrail c = true)
    (rest : Utf16) : scalars (c :: rest) = replacement :: scalars rest := by
  rw [scalars.eq_def]
  simp [hlead, htrail]

theorem scalars_append_cons {c : CodeUnit} (hlead : isLead c = false) (htrail : isTrail c = false)
    (s t : Utf16) : scalars (s ++ c :: t) = scalars s ++ Char.ofNat c.toNat :: scalars t := by
  fun_induction scalars s with
  | case1 => exact scalars_plain hlead htrail t
  | case2 d hd =>
    rw [List.cons_append, List.nil_append, scalars_lead hd htrail, scalars_plain hlead htrail]
    rfl
  | case3 d hd e rest he ih =>
    rw [List.cons_append, List.cons_append, scalars_pair hd he, ih]
    rfl
  | case4 d hd e rest he ih =>
    rw [List.cons_append, List.cons_append, scalars_lead hd (by simpa using he), ← List.cons_append,
      ih]
    rfl
  | case5 d rest hd he ih =>
    rw [List.cons_append, scalars_trail (by simpa using hd) he, ih]
    rfl
  | case6 d rest hd he ih =>
    rw [List.cons_append, scalars_plain (by simpa using hd) (by simpa using he), ih]
    rfl

/-- A surrogate and U+FFFD are one code unit each. -/
theorem length_toWellFormed (s : Utf16) : (toWellFormed s).length = s.length := by
  have hone : (unscalar replacement).length = 1 := by decide
  rw [toWellFormed]
  fun_induction scalars s with
  | case1 => rfl
  | case2 d hd => exact hone
  | case3 d hd e rest he ih =>
    rw [unscalars, List.flatMap_cons, ← unscalars, unscalar_pairChar hd he]
    simp [ih]
  | case4 d hd e rest he ih =>
    rw [unscalars, List.flatMap_cons, ← unscalars, List.length_append, hone, ih,
      List.length_cons (a := d)]
    omega
  | case5 d rest hd he ih =>
    rw [unscalars, List.flatMap_cons, ← unscalars, List.length_append, hone, ih, List.length_cons]
    omega
  | case6 d rest hd he ih =>
    rw [unscalars, List.flatMap_cons, ← unscalars,
      unscalar_ofNat (by simpa using hd) (by simpa using he)]
    simp [ih]

/-- **A character that is no surrogate separates.** -/
theorem toWellFormed_append_cons {c : CodeUnit} (hlead : isLead c = false)
    (htrail : isTrail c = false) (s t : Utf16) :
    toWellFormed (s ++ c :: t) = toWellFormed s ++ c :: toWellFormed t := by
  rw [toWellFormed, scalars_append_cons hlead htrail, unscalars, List.flatMap_append,
    List.flatMap_cons, unscalar_ofNat hlead htrail]
  rfl

end Bufi.Text
