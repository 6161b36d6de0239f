import Bufi.Evm.Word
import Bufi.Text.Digits
import Bufi.Text.Utf16

/-!
# Base64

`base64Decode` of the subgraph, in place of a decoder that graph-ts does not have.  It
takes groups of four characters; a last group that is shorter is moved to the left of the
24-bit frame, so that the bytes are at the same places in it.  `base64` is the standard
text, without padding.

A text that is not Base64 gives null where a character is not in the alphabet.  A last
group of one character has no byte and is not refused (`base64Decode_eq_none_iff`).
-/

namespace Bufi.Document

open Bufi.Evm Bufi.Text Bufi.Digits

def ALPHABET : Utf16 := lit "ABCDEFGHIJKLMNOPQRSTUVWXYZabcdefghijklmnopqrstuvwxyz0123456789+/"

/-! ### The decoder -/

def isWhitespace (code : CodeUnit) : Bool :=
  code == 0x20 || code == 0x09 || code == 0x0a || code == 0x0d

def withoutWhitespace (value : Utf16) : Utf16 := value.filter (fun code => !isWhitespace code)

def equalsSign : CodeUnit := 0x3d

/-- The length without the `=` at the end, from `significantLength` down. -/
def significantLength (cleaned : Utf16) : ℕ → ℕ
  | 0 => 0
  | n + 1 => if cleaned[n]? = some equalsSign then significantLength cleaned n else n + 1

/-- The loop over the characters of a chunk; `none` is `return null`. -/
def gatherBits : Utf16 → ℕ → Option ℕ
  | [], buffer => some buffer
  | c :: chunk, buffer =>
    if c ∈ ALPHABET then gatherBits chunk ((buffer <<< 6) ||| ALPHABET.idxOf c) else none

/-- The bytes of a chunk of at most four characters. -/
def chunkBytes (chunk : Utf16) : Option Bytes := do
  let buffer ← gatherBits chunk 0
  let chunkBits := chunk.length * 6
  let buffer := buffer <<< (24 - chunkBits)
  let byteCount := chunkBits / 8
  pure ((List.range byteCount).map (fun (i : ℕ) => UInt8.ofNat ((buffer >>> (16 - i * 8)) &&& 0xff)))

/-- The chunks of four characters; the last may be shorter. -/
def decodeChunks : Utf16 → Option Bytes
  | [] => some []
  | a :: b :: c :: d :: rest => do
    let bytes ← chunkBytes [a, b, c, d]
    let more ← decodeChunks rest
    pure (bytes ++ more)
  | chunk => chunkBytes chunk

def base64Decode (input : Utf16) : Option Bytes :=
  let cleaned := withoutWhitespace input
  decodeChunks (cleaned.take (significantLength cleaned cleaned.length))

/-! ### The standard text -/

def base64Char (d : ℕ) : CodeUnit := ALPHABET.getD d 0

/-- The Base64 text of a byte string, without padding. -/
def base64 : Bytes → Utf16
  | [] => []
  | [a] => [base64Char (a.toNat / 4), base64Char (a.toNat % 4 * 16)]
  | [a, b] =>
    [base64Char (a.toNat / 4), base64Char (a.toNat % 4 * 16 + b.toNat / 16),
      base64Char (b.toNat % 16 * 4)]
  | a :: b :: c :: rest =>
    [base64Char (a.toNat / 4), base64Char (a.toNat % 4 * 16 + b.toNat / 16),
      base64Char (b.toNat % 16 * 4 + c.toNat / 64), base64Char (c.toNat % 64)] ++ base64 rest

/-- The padding of a byte string. -/
def base64Padding (b : Bytes) : Utf16 := List.replicate ((3 - b.length % 3) % 3) equalsSign

example : base64 (ascii "fooba") ++ base64Padding (ascii "fooba") = lit "Zm9vYmE=" := by decide

/-! ### A chunk -/

theorem idxOf_base64Char : ∀ d < 64, ALPHABET.idxOf (base64Char d) = d := by decide +kernel

theorem base64Char_mem : ∀ d < 64, base64Char d ∈ ALPHABET := by decide +kernel

theorem equalsSign_notMem : equalsSign ∉ ALPHABET := by decide

theorem gatherBits_of_notMem {chunk : Utf16} {c : CodeUnit} (hc : c ∈ chunk) (h : c ∉ ALPHABET)
    (buffer : ℕ) : gatherBits chunk buffer = none := by
  induction chunk generalizing buffer with
  | nil => cases hc
  | cons d chunk ih =>
    rw [gatherBits]
    by_cases hd : d ∈ ALPHABET
    · obtain rfl | hc := List.mem_cons.mp hc
      · exact absurd hd h
      · rw [if_pos hd, ih hc]
    · rw [if_neg hd]

/-- **The bits of a chunk are its digits in base 64.** -/
theorem gatherBits_of_mem {chunk : Utf16} (h : ∀ c ∈ chunk, c ∈ ALPHABET) (buffer : ℕ) :
    gatherBits chunk buffer
      = some ((chunk.map (fun c => ALPHABET.idxOf c)).foldl (fun n d => n * 64 + d) buffer) := by
  induction chunk generalizing buffer with
  | nil => rfl
  | cons c chunk ih =>
    obtain ⟨hc, hchunk⟩ := List.forall_mem_cons.mp h
    have hlt : ALPHABET.idxOf c < 2 ^ 6 := List.idxOf_lt_length_iff.mpr hc
    rw [gatherBits, if_pos hc, ih hchunk, ← Nat.shiftLeft_add_eq_or_of_lt hlt, Nat.shiftLeft_eq]
    rfl

theorem chunkBytes_eq_none_iff {chunk : Utf16} :
    chunkBytes chunk = none ↔ ∃ c ∈ chunk, c ∉ ALPHABET := by
  constructor
  · intro hnone
    by_contra hall
    have hall : ∀ c ∈ chunk, c ∈ ALPHABET := by simpa using hall
    rw [chunkBytes, gatherBits_of_mem hall] at hnone
    cases hnone
  · rintro ⟨c, hc, h⟩
    rw [chunkBytes, gatherBits_of_notMem hc h]
    rfl

/-- **The bytes of a chunk.** -/
theorem chunkBytes_digits {ds : List ℕ} (h : ∀ d ∈ ds, d < 64) :
    chunkBytes (ds.map base64Char) = some ((List.range (ds.length * 6 / 8)).map (fun i =>
      UInt8.ofNat (value 64 ds * 2 ^ (24 - ds.length * 6) / 2 ^ (16 - i * 8)))) := by
  have hmem : ∀ c ∈ ds.map base64Char, c ∈ ALPHABET := by
    intro c hc
    obtain ⟨d, hd, rfl⟩ := List.mem_map.mp hc
    exact base64Char_mem d (h d hd)
  have hdigits : (ds.map base64Char).map (fun c => ALPHABET.idxOf c) = ds := by
    rw [List.map_map]
    exact (List.map_congr_left (fun d hd => idxOf_base64Char d (h d hd))).trans (List.map_id _)
  have hbyte : ∀ n, UInt8.ofNat (n &&& 0xff) = UInt8.ofNat n := by
    intro n
    rw [show (0xff : ℕ) = 2 ^ 8 - 1 by rfl, Nat.and_two_pow_sub_one_eq_mod]
    exact UInt8.ofNat_mod_size
  rw [chunkBytes, gatherBits_of_mem hmem, hdigits, List.length_map]
  simp only [Option.bind_eq_bind, Option.bind_some, Option.pure_def, hbyte, Nat.shiftLeft_eq,
    Nat.shiftRight_eq_div_pow]
  rfl

theorem ofNat_mul_add (k : ℕ) (b : UInt8) : UInt8.ofNat (k * 256 + b.toNat) = b := by
  have hb := b.toNat_lt
  rw [← UInt8.toNat_inj, UInt8.toNat_ofNat']
  omega

theorem chunkBytes_three (a b c : UInt8) :
    chunkBytes (base64 [a, b, c]) = some [a, b, c] := by
  have ha := a.toNat_lt
  have hb := b.toNat_lt
  have hc := c.toNat_lt
  have hchunk := @chunkBytes_digits [a.toNat / 4, a.toNat % 4 * 16 + b.toNat / 16,
    b.toNat % 16 * 4 + c.toNat / 64, c.toNat % 64] (by simp; omega)
  have hvalue : value 64 [a.toNat / 4, a.toNat % 4 * 16 + b.toNat / 16,
      b.toNat % 16 * 4 + c.toNat / 64, c.toNat % 64]
        = (a.toNat * 256 + b.toNat) * 256 + c.toNat := by
    simp only [value, List.foldl_cons, List.foldl_nil]
    omega
  rw [hvalue] at hchunk
  refine hchunk.trans ?_
  have h₀ : ((a.toNat * 256 + b.toNat) * 256 + c.toNat) / 65536 = a.toNat := by omega
  have h₁ : ((a.toNat * 256 + b.toNat) * 256 + c.toNat) / 256 = a.toNat * 256 + b.toNat := by omega
  simp only [List.length_cons, List.length_nil, List.range_succ, List.range_zero, List.map_cons,
    List.map_nil, List.nil_append, List.cons_append, Nat.reduceAdd, Nat.reduceMul, Nat.reduceDiv,
    Nat.reduceSub, Nat.reducePow, Nat.mul_one, Nat.div_one, h₀, h₁, ofNat_mul_add, UInt8.ofNat_toNat]

theorem chunkBytes_two (a b : UInt8) : chunkBytes (base64 [a, b]) = some [a, b] := by
  have ha := a.toNat_lt
  have hb := b.toNat_lt
  have hchunk := @chunkBytes_digits [a.toNat / 4, a.toNat % 4 * 16 + b.toNat / 16,
    b.toNat % 16 * 4] (by simp; omega)
  have hvalue : value 64 [a.toNat / 4, a.toNat % 4 * 16 + b.toNat / 16, b.toNat % 16 * 4]
      = (a.toNat * 256 + b.toNat) * 4 := by
    simp only [value, List.foldl_cons, List.foldl_nil]
    omega
  rw [hvalue] at hchunk
  refine hchunk.trans ?_
  have h₀ : (a.toNat * 256 + b.toNat) * 4 * 64 / 65536 = a.toNat := by omega
  have h₁ : (a.toNat * 256 + b.toNat) * 4 * 64 / 256 = a.toNat * 256 + b.toNat := by omega
  simp only [List.length_cons, List.length_nil, List.range_succ, List.range_zero, List.map_cons,
    List.map_nil, List.nil_append, List.cons_append, Nat.reduceAdd, Nat.reduceMul, Nat.reduceDiv,
    Nat.reduceSub, Nat.reducePow, h₀, h₁, ofNat_mul_add, UInt8.ofNat_toNat]

theorem chunkBytes_one (a : UInt8) : chunkBytes (base64 [a]) = some [a] := by
  have ha := a.toNat_lt
  have hchunk := @chunkBytes_digits [a.toNat / 4, a.toNat % 4 * 16] (by simp; omega)
  have hvalue : value 64 [a.toNat / 4, a.toNat % 4 * 16] = a.toNat * 16 := by
    simp only [value, List.foldl_cons, List.foldl_nil]
    omega
  rw [hvalue] at hchunk
  refine hchunk.trans ?_
  have h₀ : a.toNat * 16 * 4096 / 65536 = a.toNat := by omega
  simp only [List.length_cons, List.length_nil, List.range_succ, List.range_zero, List.map_cons,
    List.map_nil, List.nil_append, Nat.reduceAdd, Nat.reduceMul, Nat.reduceDiv,
    Nat.reduceSub, Nat.reducePow, h₀, UInt8.ofNat_toNat]

/-! ### The text -/

/-- **The text of a byte string is decoded to it.** -/
theorem decodeChunks_base64 (b : Bytes) : decodeChunks (base64 b) = some b := by
  fun_induction base64 b with
  | case1 => rfl
  | case2 a => exact chunkBytes_one a
  | case3 a b => exact chunkBytes_two a b
  | case4 a b c rest ih =>
    have hchunk := chunkBytes_three a b c
    rw [base64, base64, List.append_nil] at hchunk
    rw [List.cons_append, List.cons_append, List.cons_append, List.cons_append, List.nil_append,
      decodeChunks, hchunk, ih]
    rfl

theorem mem_alphabet_of_base64 (b : Bytes) : ∀ c ∈ base64 b, c ∈ ALPHABET := by
  fun_induction base64 b with
  | case1 => simp
  | case2 a =>
    have ha := a.toNat_lt
    simp only [List.forall_mem_cons, List.not_mem_nil, false_implies, implies_true, and_true]
    exact ⟨base64Char_mem _ (by omega), base64Char_mem _ (by omega)⟩
  | case3 a b =>
    have ha := a.toNat_lt
    have hb := b.toNat_lt
    simp only [List.forall_mem_cons, List.not_mem_nil, false_implies, implies_true, and_true]
    exact ⟨base64Char_mem _ (by omega), base64Char_mem _ (by omega), base64Char_mem _ (by omega)⟩
  | case4 a b c rest ih =>
    have ha := a.toNat_lt
    have hb := b.toNat_lt
    have hc := c.toNat_lt
    simp only [List.cons_append, List.nil_append, List.forall_mem_cons]
    exact ⟨base64Char_mem _ (by omega), base64Char_mem _ (by omega), base64Char_mem _ (by omega),
      base64Char_mem _ (by omega), ih⟩

/-- **Null is returned for a character outside the alphabet**, and for nothing else. -/
theorem decodeChunks_eq_none_iff (s : Utf16) :
    decodeChunks s = none ↔ ∃ c ∈ s, c ∉ ALPHABET := by
  fun_induction decodeChunks s with
  | case1 => simp
  | case2 a b c d rest ih =>
    have hsplit : (∃ e ∈ a :: b :: c :: d :: rest, e ∉ ALPHABET)
        ↔ (∃ e ∈ [a, b, c, d], e ∉ ALPHABET) ∨ ∃ e ∈ rest, e ∉ ALPHABET := by
      rw [show a :: b :: c :: d :: rest = [a, b, c, d] ++ rest by rfl]
      simp only [List.mem_append, or_and_right, exists_or]
    rw [hsplit, ← chunkBytes_eq_none_iff, ← ih]
    cases chunkBytes [a, b, c, d] with
    | none => exact iff_of_true rfl (Or.inl rfl)
    | some bytes =>
      cases decodeChunks rest with
      | none => exact iff_of_true rfl (Or.inr rfl)
      | some more => exact iff_of_false (fun h => nomatch h) (by simp)
  | case3 chunk => exact chunkBytes_eq_none_iff

/-! ### The padding -/

/-- What is left without the `=` at the end. -/
theorem eq_append_of_significantLength (cleaned : Utf16) (n : ℕ) (hn : n ≤ cleaned.length) :
    ∃ k, cleaned.take n
        = cleaned.take (significantLength cleaned n) ++ List.replicate k equalsSign
      ∧ (cleaned.take (significantLength cleaned n)).getLast? ≠ some equalsSign := by
  induction n with
  | zero => exact ⟨0, by simp [significantLength]⟩
  | succ n ih =>
    obtain ⟨k, heq, hlast⟩ := ih (by omega)
    rw [significantLength]
    by_cases hc : cleaned[n]? = some equalsSign
    · rw [if_pos hc]
      refine ⟨k + 1, ?_, hlast⟩
      rw [List.take_add_one, heq, hc, List.append_assoc, List.replicate_succ']
      rfl
    · rw [if_neg hc]
      refine ⟨0, by simp, ?_⟩
      rw [List.getElem?_eq_getElem hn] at hc
      rw [List.take_succ_eq_append_getElem hn, List.getLast?_concat]
      exact hc

/-- The part before the padding is determined. -/
theorem eq_of_append_replicate {s t : Utf16} (hs : s.getLast? ≠ some equalsSign)
    (ht : t.getLast? ≠ some equalsSign) {j k : ℕ}
    (h : s ++ List.replicate j equalsSign = t ++ List.replicate k equalsSign) : s = t := by
  induction j generalizing k with
  | zero =>
    cases k with
    | zero => simpa using h
    | succ k =>
      rw [List.replicate_zero, List.append_nil, List.replicate_succ', ← List.append_assoc] at h
      rw [h, List.getLast?_concat] at hs
      exact absurd rfl hs
  | succ j ih =>
    rw [List.replicate_succ', ← List.append_assoc] at h
    cases k with
    | zero =>
      rw [List.replicate_zero, List.append_nil] at h
      rw [← h, List.getLast?_concat] at ht
      exact absurd rfl ht
    | succ k =>
      rw [List.replicate_succ', ← List.append_assoc] at h
      exact ih (List.append_cancel_right h)

/-- What the decoder is given for a cleaned text. -/
theorem significant_spec (cleaned : Utf16) :
    ∃ k, cleaned = cleaned.take (significantLength cleaned cleaned.length)
        ++ List.replicate k equalsSign
      ∧ (cleaned.take (significantLength cleaned cleaned.length)).getLast? ≠ some equalsSign := by
  obtain ⟨k, heq, hlast⟩ := eq_append_of_significantLength cleaned cleaned.length le_rfl
  rw [List.take_length] at heq
  exact ⟨k, heq, hlast⟩

/-- **A Base64 text is decoded**, with any number of `=` behind it. -/
theorem base64Decode_of_eq {input : Utf16} {b : Bytes} {k : ℕ}
    (h : withoutWhitespace input = base64 b ++ List.replicate k equalsSign) :
    base64Decode input = some b := by
  obtain ⟨j, heq, hlast⟩ := significant_spec (withoutWhitespace input)
  have hb : (base64 b).getLast? ≠ some equalsSign := by
    intro hsome
    exact equalsSign_notMem (mem_alphabet_of_base64 b _ (List.mem_of_getLast? hsome))
  rw [base64Decode, eq_of_append_replicate hlast hb (heq.symm.trans h), decodeChunks_base64]

/-! ### What is not Base64 -/

/-- A character that is neither in the alphabet nor `=`. -/
def HasForeign (cleaned : Utf16) : Prop := ∃ c ∈ cleaned, c ∉ ALPHABET ∧ c ≠ equalsSign

/-- A `=` with a character of the alphabet somewhere behind it. -/
def EqualsInside (cleaned : Utf16) : Prop :=
  ∃ i j : ℕ, i < j ∧ cleaned[i]? = some equalsSign ∧ ∃ c ∈ ALPHABET, cleaned[j]? = some c

/-- Not the text of a byte string. -/
def NotBase64 (cleaned : Utf16) : Prop :=
  HasForeign cleaned ∨ EqualsInside cleaned
    ∨ cleaned.countP (fun c => decide (c ∈ ALPHABET)) % 4 = 1

/-- Before the padding, a character outside the alphabet is foreign or an inner `=`. -/
theorem exists_notMem_iff {s : Utf16} {k : ℕ} (hs : s.getLast? ≠ some equalsSign) :
    (∃ c ∈ s, c ∉ ALPHABET)
      ↔ HasForeign (s ++ List.replicate k equalsSign)
        ∨ EqualsInside (s ++ List.replicate k equalsSign) := by
  constructor
  · rintro ⟨c, hc, hnot⟩
    by_cases heq : c = equalsSign
    swap
    · exact Or.inl ⟨c, List.mem_append_left _ hc, hnot, heq⟩
    obtain ⟨i, hi, hci⟩ := List.getElem_of_mem hc
    -- the last character is not `=`, so it is behind this one
    have hlast : s.getLast? = some (s[s.length - 1]) := by
      rw [List.getLast?_eq_getElem?, List.getElem?_eq_getElem]
    have hne : s[s.length - 1] ≠ equalsSign := fun h => hs (h ▸ hlast)
    have hlt : i < s.length - 1 := by
      rcases Nat.lt_or_ge i (s.length - 1) with hlt | hge
      · exact hlt
      · obtain rfl : i = s.length - 1 := by omega
        exact absurd (hci.trans heq) hne
    by_cases hmem : s[s.length - 1] ∈ ALPHABET
    · refine Or.inr ⟨i, s.length - 1, hlt, ?_, s[s.length - 1], hmem, ?_⟩
      · rw [List.getElem?_append_left hi, List.getElem?_eq_getElem hi, hci, heq]
      · rw [List.getElem?_append_left (by omega), List.getElem?_eq_getElem]
    · exact Or.inl ⟨_, List.mem_append_left _ (List.getElem_mem _), hmem, hne⟩
  · rintro (⟨c, hc, hnot, hne⟩ | ⟨i, j, hij, hi, c, hmem, hj⟩)
    · obtain hc | hc := List.mem_append.mp hc
      · exact ⟨c, hc, hnot⟩
      · exact absurd (List.eq_of_mem_replicate hc) hne
    · have hjs : j < s.length := by
        by_contra hge
        rw [List.getElem?_append_right (by omega)] at hj
        have hc := List.eq_of_mem_replicate (List.mem_of_getElem? hj)
        exact equalsSign_notMem (hc ▸ hmem)
      rw [List.getElem?_append_left (by omega)] at hi
      exact ⟨equalsSign, List.mem_of_getElem? hi, equalsSign_notMem⟩

/-- **When null is returned.** -/
theorem base64Decode_eq_none_iff (input : Utf16) :
    base64Decode input = none
      ↔ HasForeign (withoutWhitespace input) ∨ EqualsInside (withoutWhitespace input) := by
  obtain ⟨k, heq, hlast⟩ := significant_spec (withoutWhitespace input)
  rw [base64Decode, decodeChunks_eq_none_iff, exists_notMem_iff (k := k) hlast, ← heq]

/-- Characters of the alphabet, then `=`, with one character in the last group. -/
def Dangling (cleaned : Utf16) : Prop :=
  cleaned.countP (fun c => decide (c ∈ ALPHABET)) % 4 = 1
    ∧ ¬ HasForeign cleaned ∧ ¬ EqualsInside cleaned

/-- **Base64 and what is not.**  The text of a byte string, with or without padding and
with whitespace anywhere, is decoded to it.  What is not such a text is refused, unless its
only fault is a single character in the last group. -/
theorem base64Decode_spec (input : Utf16) :
    (∀ b, withoutWhitespace input = base64 b ∨ withoutWhitespace input = base64 b ++ base64Padding b →
      base64Decode input = some b)
    ∧ ((NotBase64 (withoutWhitespace input) → base64Decode input = none)
      ↔ ¬ Dangling (withoutWhitespace input)) := by
  constructor
  · rintro b (h | h)
    · exact base64Decode_of_eq (k := 0) (by simpa using h)
    · exact base64Decode_of_eq h
  · rw [base64Decode_eq_none_iff]
    constructor
    · rintro h ⟨hcount, hforeign, hinside⟩
      exact (h (Or.inr (Or.inr hcount))).elim hforeign hinside
    · intro h hnot
      by_contra hnone
      obtain ⟨hforeign, hinside⟩ := not_or.mp hnone
      exact h ⟨(hnot.resolve_left hforeign).resolve_left hinside, hforeign, hinside⟩

/-- One character of the alphabet is not the text of a byte string, and is not refused. -/
theorem base64Decode_one :
    NotBase64 (withoutWhitespace (lit "A")) ∧ base64Decode (lit "A") = some [] := by
  refine ⟨Or.inr (Or.inr ?_), ?_⟩ <;> decide +kernel

end Bufi.Document
