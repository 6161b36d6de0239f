import Mathlib.Data.Nat.Digits.Lemmas
import Bufi.Evm.Word

/-!
# Addresses as text

An address is written as `0x` and forty hexadecimal digits, in either case: two
texts that differ in the case of their letters are one address
(`addressOf_eq_of_lowerCase`).

viem takes a text with capital letters only if they are those of its checksum, for
which `isAddress` has a parameter.
-/

namespace Bufi.Js

open Bufi.Evm

/-- `s.toLowerCase()`, of a text of ASCII letters. -/
def lowerCase (s : String) : List Char := s.toList.map Char.toLower

def hexDigits : List Char :=
  ['0', '1', '2', '3', '4', '5', '6', '7', '8', '9', 'a', 'b', 'c', 'd', 'e', 'f']

/-- The value of a hexadecimal digit; sixteen, if it is none. -/
def hexValue (c : Char) : ℕ := hexDigits.idxOf c.toLower

/-- The address that a text is. -/
def addressOf (s : String) : Option Address :=
  match s.toList with
  | '0' :: 'x' :: digits =>
    if digits.length = 40 ∧ digits.all (fun c => hexValue c < 16) then
      some (BitVec.ofNat 160 (Nat.ofDigits 16 (digits.map hexValue).reverse))
    else none
  | _ => none

/-- The characters that JavaScript trims from a text that it reads as a number. -/
def whiteSpace : List ℕ :=
  [9, 10, 11, 12, 13, 32, 160, 0x1680] ++ List.range' 0x2000 11 ++
    [0x2028, 0x2029, 0x202f, 0x205f, 0x3000, 0xfeff]

/-- Digits of a base, at least one. -/
def digitsIn (base : ℕ) (ds : List Char) : Option ℕ :=
  if ds ≠ [] ∧ ds.all (fun c => hexValue c < base) then
    some (Nat.ofDigits base (ds.map hexValue).reverse)
  else none

/-- `BigInt(s)`; `none` is a `SyntaxError`. -/
def bigInt (s : String) : Option ℤ :=
  let blank : Char → Bool := fun c => whiteSpace.contains c.toNat
  match ((s.toList.dropWhile blank).reverse.dropWhile blank).reverse with
  | [] => some 0
  | '0' :: 'x' :: ds | '0' :: 'X' :: ds => (digitsIn 16 ds).map Int.ofNat
  | '0' :: 'o' :: ds | '0' :: 'O' :: ds => (digitsIn 8 ds).map Int.ofNat
  | '0' :: 'b' :: ds | '0' :: 'B' :: ds => (digitsIn 2 ds).map Int.ofNat
  | '-' :: ds => (digitsIn 10 ds).map (fun n => -(n : ℤ))
  | '+' :: ds => (digitsIn 10 ds).map Int.ofNat
  | ds => (digitsIn 10 ds).map Int.ofNat

/-- viem's check of an address. -/
def isAddress (checksumAddress : String → String) (s : String) : Bool :=
  (addressOf s).isSome && (lowerCase s == s.toList || checksumAddress s == s)

theorem addressOf_eq_some {s : String} {a : Address} (h : addressOf s = some a) :
    ∃ digits, s.toList = '0' :: 'x' :: digits ∧ digits.length = 40
      ∧ (∀ c ∈ digits, hexValue c < 16)
      ∧ a.toNat = Nat.ofDigits 16 (digits.map hexValue).reverse := by
  unfold addressOf at h
  split at h
  · rename_i digits hs
    rw [Option.ite_none_right_eq_some, Option.some.injEq] at h
    obtain ⟨⟨hlen, hall⟩, rfl⟩ := h
    have hdigits : ∀ c ∈ digits, hexValue c < 16 := by simpa using hall
    refine ⟨digits, hs, hlen, hdigits, ?_⟩
    rw [BitVec.toNat_ofNat, Nat.mod_eq_of_lt]
    have hlt := Nat.ofDigits_lt_base_pow_length (b := 16) (l := (digits.map hexValue).reverse)
      (by decide) (by simpa using hdigits)
    rw [List.length_reverse, List.length_map, hlen] at hlt
    exact hlt.trans_eq (by norm_num)
  · cases h

/-- **Texts that differ in the case of letters only are one address.** -/
theorem addressOf_eq_of_lowerCase {s t : String} {a b : Address} (hs : addressOf s = some a)
    (ht : addressOf t = some b) (h : lowerCase s = lowerCase t) : a = b := by
  obtain ⟨ds, hds, -, -, hval⟩ := addressOf_eq_some hs
  obtain ⟨es, hes, -, -, hval'⟩ := addressOf_eq_some ht
  rw [lowerCase, lowerCase, hds, hes] at h
  simp only [List.map_cons, List.cons.injEq] at h
  have hvalue : ∀ l : List Char, l.map hexValue = (l.map Char.toLower).map (hexDigits.idxOf ·) := by
    intro l
    rw [List.map_map]
    rfl
  apply BitVec.eq_of_toNat_eq
  rw [hval, hval', hvalue ds, hvalue es, h.2.2]

end Bufi.Js
