import Bufi.Evm.Word

/-!
# Reading ABI data

What Solidity's `abi.decode` accepts, for the types the contracts decode.  A
static value is one word in the head; a dynamic one is an offset in the head,
relative to the start of its tuple, of a length word with the contents behind
it.  Offsets and lengths of `2 ^ 64` or more, dirty high bits and every read
past the end of the data make the decoder revert, which is `none` here.

`MemBytes` is a `bytes` value in memory: the allocator refuses `2 ^ 64` bytes,
so the bound is part of the type.
-/

namespace Bufi.Evm

/-- A `bytes memory` value. -/
structure MemBytes where
  data : Bytes
  size_lt : data.length < 2 ^ 64
  deriving DecidableEq

namespace Abi

/-- The word at offset `p`. -/
def word (d : Bytes) (p : ℕ) : Option Bytes32 :=
  if p + 32 ≤ d.length then some (wordAt d p) else none

/-- An unsigned number of `n` bits; set bits above them revert. -/
def uint (n : ℕ) (d : Bytes) (p : ℕ) : Option (BitVec n) :=
  (word d p).bind (fun w => if w.toNat < 2 ^ n then some (w.setWidth n) else none)

def address (d : Bytes) (p : ℕ) : Option Address := uint 160 d p

def bool (d : Bytes) (p : ℕ) : Option Bool :=
  (word d p).bind (fun w => if w = 0 then some false else if w = 1 then some true else none)

/-- A `bytes4` is left-aligned in its word. -/
def bytes4 (d : Bytes) (p : ℕ) : Option Bytes4 :=
  (word d p).bind (fun w =>
    if w.toNat % 2 ^ 224 = 0 then some ((w >>> 224).setWidth 32) else none)

/-- Where the dynamic component whose head word is at `p` starts, in a tuple
that starts at `base`. -/
def tail (d : Bytes) (base p : ℕ) : Option ℕ :=
  (word d p).bind (fun w => if w.toNat < 2 ^ 64 then some (base + w.toNat) else none)

/-- A length word and the bytes behind it. -/
def bytes (d : Bytes) (p : ℕ) : Option MemBytes :=
  (word d p).bind (fun w =>
    if h : w.toNat < 2 ^ 64 ∧ p + 32 + w.toNat ≤ d.length then
      some ⟨(d.drop (p + 32)).take w.toNat,
        Nat.lt_of_le_of_lt (List.length_take_le _ _) h.1⟩
    else none)

/-- A length word and that many words behind it, each read by `elem`. -/
def array {α : Type} (elem : Bytes → ℕ → Option α) (d : Bytes) (p : ℕ) : Option (List α) :=
  (word d p).bind (fun w =>
    if w.toNat < 2 ^ 64 ∧ p + 32 + 32 * w.toNat ≤ d.length then
      (List.range w.toNat).mapM (fun i => elem d (p + 32 + 32 * i))
    else none)

/-- An array of dynamic values: a length word, that many offsets behind it, and
the values where the offsets, counted from the first of them, point. -/
def dynArray {α : Type} (elem : Bytes → ℕ → Option α) (d : Bytes) (p : ℕ) : Option (List α) :=
  array (fun d q => (tail d (p + 32) q).bind (elem d)) d p

end Abi

end Bufi.Evm
