import Mathlib.Data.UInt

/-!
# Strings as code units

Strings of JavaScript and AssemblyScript are lists of 16-bit code units.
-/

namespace Bufi.Text

abbrev CodeUnit := UInt16

abbrev Utf16 := List CodeUnit

/-- The code unit of a character that has one. -/
def unit (c : Char) : CodeUnit := UInt16.ofNat c.toNat

/-- A literal whose characters are single code units. -/
def lit (s : String) : Utf16 := s.toList.map unit

/-- The code units of a character: one, or a surrogate pair. -/
def unitsOf (c : Char) : Utf16 :=
  if c.toNat < 0x10000 then [unit c]
  else
    let rest := c.toNat - 0x10000
    [UInt16.ofNat (0xD800 + rest / 0x400), UInt16.ofNat (0xDC00 + rest % 0x400)]

/-- The code units of any text. -/
def units (s : String) : Utf16 := s.toList.flatMap unitsOf

example : units "a😀" = [0x61, 0xD83D, 0xDE00] := by decide +kernel

end Bufi.Text
