import Bufi.Evm.Word
import Bufi.Text.Json

/-!
# Hexadecimal texts

Two digits for every byte.  Digits are written in lower case and read in either case.
-/

namespace Bufi.Text

open Bufi.Evm

/-- The character of a digit. -/
def hexChar (d : ℕ) : CodeUnit := UInt16.ofNat (if d < 10 then 0x30 + d else 0x57 + d)

def byteToHex (b : UInt8) : Utf16 := [hexChar (b.toNat / 16), hexChar (b.toNat % 16)]

def bytesToHex (b : Bytes) : Utf16 := b.flatMap byteToHex

/-- The bytes of a text of an even number of digits. -/
def hexToBytes : Utf16 → Option Bytes
  | [] => some []
  | [_] => none
  | a :: b :: rest => do
    let high ← Json.hexOf a
    let low ← Json.hexOf b
    pure (UInt8.ofNat (high * 16 + low) :: (← hexToBytes rest))

theorem hexOf_hexChar : ∀ d < 16, Json.hexOf (hexChar d) = some d := by decide +kernel

theorem hexChar_lt : ∀ d < 16, hexChar d < 0x80 := by decide +kernel

/-- **Bytes are read back from their digits.** -/
theorem hexToBytes_bytesToHex (b : Bytes) : hexToBytes (bytesToHex b) = some b := by
  induction b with
  | nil => rfl
  | cons c b ih =>
    have hc := c.toNat_lt
    have hbyte : c.toNat / 16 * 16 + c.toNat % 16 = c.toNat := by omega
    rw [bytesToHex, List.flatMap_cons, byteToHex, List.cons_append, List.cons_append,
      List.nil_append, hexToBytes, hexOf_hexChar _ (by omega), hexOf_hexChar _ (by omega),
      ← bytesToHex, ih]
    simp only [Option.bind_eq_bind, Option.bind_some, Option.pure_def, hbyte, UInt8.ofNat_toNat]

theorem bytesToHex_injective : Function.Injective bytesToHex := by
  intro a b h
  have hread := congrArg hexToBytes h
  rw [hexToBytes_bytesToHex, hexToBytes_bytesToHex] at hread
  exact Option.some.inj hread

theorem bytesToHex_append (a b : Bytes) : bytesToHex (a ++ b) = bytesToHex a ++ bytesToHex b :=
  List.flatMap_append

theorem lt_of_mem_bytesToHex {b : Bytes} {c : CodeUnit} (h : c ∈ bytesToHex b) : c < 0x80 := by
  obtain ⟨d, -, hd⟩ := List.mem_flatMap.mp h
  have hlt := d.toNat_lt
  rw [byteToHex, List.mem_cons, List.mem_singleton] at hd
  obtain rfl | rfl := hd
  · exact hexChar_lt _ (by omega)
  · exact hexChar_lt _ (by omega)

end Bufi.Text
