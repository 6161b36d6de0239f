import Bufi.Text.Utf16
import Bufi.Evm.Word
import Mathlib.Data.Bool.AllAny

/-!
# Unicode texts

A string of code units stands for characters: a lead surrogate and a trail surrogate
behind it are one character, and a surrogate without its partner is read as U+FFFD.
`scalars` are the characters of a string and `unscalars` are the code units of characters.
A string is well formed if it is the code units of some characters.

`utf8` encodes a string as bytes, by its characters, so two strings have the same bytes
exactly if they have the same characters (`utf8_eq_iff`).
-/

namespace Bufi.Text

open Bufi.Evm

def isLead (c : CodeUnit) : Bool := 0xd800 ≤ c && c < 0xdc00

def isTrail (c : CodeUnit) : Bool := 0xdc00 ≤ c && c < 0xe000

/-- The character of a surrogate pair. -/
def pairChar (c d : CodeUnit) : Char :=
  Char.ofNat (0x10000 + (c.toNat - 0xd800) * 0x400 + (d.toNat - 0xdc00))

/-- U+FFFD -/
def replacement : Char := Char.ofNat 0xfffd

/-- The characters of a string. -/
def scalars : Utf16 → List Char
  | [] => []
  | c :: rest =>
    if isLead c then
      match rest with
      | [] => [replacement]
      | d :: rest' =>
        if isTrail d then pairChar c d :: scalars rest' else replacement :: scalars (d :: rest')
    else if isTrail c then replacement :: scalars rest
    else Char.ofNat c.toNat :: scalars rest

/-- The code units of a character. -/
def unscalar (ch : Char) : Utf16 :=
  if ch.toNat < 0x10000 then [UInt16.ofNat ch.toNat]
  else [UInt16.ofNat (0xd800 + (ch.toNat - 0x10000) / 0x400),
    UInt16.ofNat (0xdc00 + (ch.toNat - 0x10000) % 0x400)]

/-- The code units of characters. -/
def unscalars (l : List Char) : Utf16 := l.flatMap unscalar

/-- The UTF-8 bytes of a string. -/
def utf8 (s : Utf16) : Bytes := (scalars s).flatMap String.utf8EncodeChar

/-! ### Characters -/

theorem isLead_iff {c : CodeUnit} : isLead c = true ↔ 0xd800 ≤ c.toNat ∧ c.toNat < 0xdc00 := by
  rw [isLead, Bool.and_eq_true, decide_eq_true_iff, decide_eq_true_iff, UInt16.le_iff_toNat_le,
    UInt16.lt_iff_toNat_lt]
  rfl

theorem isTrail_iff {c : CodeUnit} : isTrail c = true ↔ 0xdc00 ≤ c.toNat ∧ c.toNat < 0xe000 := by
  rw [isTrail, Bool.and_eq_true, decide_eq_true_iff, decide_eq_true_iff, UInt16.le_iff_toNat_le,
    UInt16.lt_iff_toNat_lt]
  rfl

theorem scalars_plain {c : CodeUnit} (hlead : isLead c = false) (htrail : isTrail c = false)
    (rest : Utf16) : scalars (c :: rest) = Char.ofNat c.toNat :: scalars rest := by
  rw [scalars.eq_def]
  simp [hlead, htrail]

theorem scalars_pair {c d : CodeUnit} (hlead : isLead c = true) (htrail : isTrail d = true)
    (rest : Utf16) : scalars (c :: d :: rest) = pairChar c d :: scalars rest := by
  rw [scalars.eq_def]
  simp [hlead, htrail]

theorem scalars_unscalar (ch : Char) (rest : Utf16) :
    scalars (unscalar ch ++ rest) = ch :: scalars rest := by
  have hvalid : ch.toNat < 0xd800 ∨ 0xdfff < ch.toNat ∧ ch.toNat < 0x110000 := ch.valid
  rw [unscalar]
  split
  · next hlt =>
    have hunit : (UInt16.ofNat ch.toNat).toNat = ch.toNat := by
      rw [UInt16.toNat_ofNat']
      omega
    have hlead : isLead (UInt16.ofNat ch.toNat) = false := by
      rw [Bool.eq_false_iff, ne_eq, isLead_iff, hunit]
      omega
    have htrail : isTrail (UInt16.ofNat ch.toNat) = false := by
      rw [Bool.eq_false_iff, ne_eq, isTrail_iff, hunit]
      omega
    rw [List.singleton_append, scalars_plain hlead htrail, hunit, Char.ofNat_toNat]
  · next hge =>
    have hfirst : (UInt16.ofNat (0xd800 + (ch.toNat - 0x10000) / 0x400)).toNat
        = 0xd800 + (ch.toNat - 0x10000) / 0x400 := by
      rw [UInt16.toNat_ofNat']
      omega
    have hsecond : (UInt16.ofNat (0xdc00 + (ch.toNat - 0x10000) % 0x400)).toNat
        = 0xdc00 + (ch.toNat - 0x10000) % 0x400 := by
      rw [UInt16.toNat_ofNat']
      omega
    have hlead : isLead (UInt16.ofNat (0xd800 + (ch.toNat - 0x10000) / 0x400)) = true := by
      rw [isLead_iff, hfirst]
      omega
    have htrail : isTrail (UInt16.ofNat (0xdc00 + (ch.toNat - 0x10000) % 0x400)) = true := by
      rw [isTrail_iff, hsecond]
      omega
    have hpoint : 0x10000 + (0xd800 + (ch.toNat - 0x10000) / 0x400 - 0xd800) * 0x400
        + (0xdc00 + (ch.toNat - 0x10000) % 0x400 - 0xdc00) = ch.toNat := by omega
    rw [List.cons_append, List.singleton_append, scalars_pair hlead htrail, pairChar, hfirst,
      hsecond, hpoint, Char.ofNat_toNat]

/-- **Characters are read back from their code units.** -/
theorem scalars_unscalars (l : List Char) : scalars (unscalars l) = l := by
  induction l with
  | nil => rfl
  | cons ch l ih => rw [unscalars, List.flatMap_cons, scalars_unscalar, ← unscalars, ih]

/-! ### Well-formed strings -/

theorem toNat_ofNat_of_isValidChar {n : ℕ} (h : n.isValidChar) : (Char.ofNat n).toNat = n := by
  rw [Char.ofNat, dif_pos h]
  rfl

/-- Every surrogate of the string has its partner. -/
def WellFormed (s : Utf16) : Prop := ∃ l, unscalars l = s

namespace WellFormed

theorem nil : WellFormed [] := ⟨[], rfl⟩

theorem append {s t : Utf16} (hs : WellFormed s) (ht : WellFormed t) : WellFormed (s ++ t) := by
  obtain ⟨l, rfl⟩ := hs
  obtain ⟨m, rfl⟩ := ht
  exact ⟨l ++ m, List.flatMap_append⟩

theorem unscalars_scalars {s : Utf16} (h : WellFormed s) : unscalars (scalars s) = s := by
  obtain ⟨l, rfl⟩ := h
  rw [scalars_unscalars]

theorem plain {c : CodeUnit} (hlead : isLead c = false) (htrail : isTrail c = false) :
    WellFormed [c] := by
  have hlt := c.toNat_lt
  have hvalid : c.toNat.isValidChar := by
    rw [Bool.eq_false_iff, ne_eq, isLead_iff] at hlead
    rw [Bool.eq_false_iff, ne_eq, isTrail_iff] at htrail
    rw [Nat.isValidChar]
    omega
  have hnat : (Char.ofNat c.toNat).toNat = c.toNat := toNat_ofNat_of_isValidChar hvalid
  refine ⟨[Char.ofNat c.toNat], ?_⟩
  rw [unscalars, List.flatMap_singleton, unscalar, hnat, if_pos hlt, UInt16.ofNat_toNat]

theorem pair {c d : CodeUnit} (hlead : isLead c = true) (htrail : isTrail d = true) :
    WellFormed [c, d] := by
  rw [isLead_iff] at hlead
  rw [isTrail_iff] at htrail
  have hvalid : (0x10000 + (c.toNat - 0xd800) * 0x400 + (d.toNat - 0xdc00)).isValidChar := by
    rw [Nat.isValidChar]
    omega
  have hnat : (pairChar c d).toNat = 0x10000 + (c.toNat - 0xd800) * 0x400 + (d.toNat - 0xdc00) :=
    toNat_ofNat_of_isValidChar hvalid
  refine ⟨[pairChar c d], ?_⟩
  rw [unscalars, List.flatMap_singleton, unscalar, hnat, if_neg (by omega)]
  have hfirst : 0xd800 + (0x10000 + (c.toNat - 0xd800) * 0x400 + (d.toNat - 0xdc00) - 0x10000) / 0x400
      = c.toNat := by omega
  have hsecond : 0xdc00 + (0x10000 + (c.toNat - 0xd800) * 0x400 + (d.toNat - 0xdc00) - 0x10000) % 0x400
      = d.toNat := by omega
  rw [hfirst, hsecond, UInt16.ofNat_toNat, UInt16.ofNat_toNat]

/-- A string without surrogates. -/
theorem of_forall {s : Utf16} (h : ∀ c ∈ s, isLead c = false ∧ isTrail c = false) :
    WellFormed s := by
  induction s with
  | nil => exact nil
  | cons c s ih =>
    obtain ⟨hc, hs⟩ := List.forall_mem_cons.mp h
    exact (plain hc.1 hc.2).append (ih hs)

theorem intercalate {sep : Utf16} (hsep : WellFormed sep) {l : List Utf16}
    (h : ∀ s ∈ l, WellFormed s) : WellFormed (sep.intercalate l) := by
  induction l with
  | nil => exact nil
  | cons s l ih =>
    obtain ⟨hs, hl⟩ := List.forall_mem_cons.mp h
    cases l with
    | nil => rwa [List.intercalate_singleton]
    | cons t l =>
      rw [List.intercalate_cons_cons]
      exact (hs.append hsep).append (ih hl)

end WellFormed

/-- Characters without surrogates stand for themselves. -/
theorem scalars_append {s : Utf16} (h : ∀ c ∈ s, isLead c = false ∧ isTrail c = false)
    (t : Utf16) : scalars (s ++ t) = s.map (fun c => Char.ofNat c.toNat) ++ scalars t := by
  induction s with
  | nil => rfl
  | cons c s ih =>
    obtain ⟨hc, hs⟩ := List.forall_mem_cons.mp h
    rw [List.cons_append, scalars_plain hc.1 hc.2, ih hs, List.map_cons, List.cons_append]

/-! ### Bytes -/

theorem utf8Encode_injective : Function.Injective List.utf8Encode := by
  intro l m h
  have hdecode := congrArg ByteArray.utf8Decode? h
  rw [List.utf8Decode?_utf8Encode, List.utf8Decode?_utf8Encode] at hdecode
  exact List.toArray_inj (Option.some.inj hdecode)

/-- **Strings have the same bytes exactly if they have the same characters.** -/
theorem utf8_eq_iff {s t : Utf16} : utf8 s = utf8 t ↔ scalars s = scalars t := by
  constructor
  · intro h
    exact utf8Encode_injective (congrArg List.toByteArray h)
  · intro h
    rw [utf8, h, utf8]

/-- Well-formed strings with the same bytes are equal. -/
theorem eq_of_utf8_eq {s t : Utf16} (hs : WellFormed s) (ht : WellFormed t)
    (h : utf8 s = utf8 t) : s = t := by
  rw [← hs.unscalars_scalars, utf8_eq_iff.mp h, ht.unscalars_scalars]

/-- The bytes of a surrogate without its partner are those of U+FFFD. -/
example : utf8 [0xd800] = utf8 [0xfffd] := by decide +kernel

end Bufi.Text
