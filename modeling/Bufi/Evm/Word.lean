import Mathlib.Data.List.Basic
import Mathlib.Data.Nat.Digits.Defs
import Mathlib.Tactic.Ring
import Mathlib.Tactic.Linarith

/-!
# Words, bytes and memory

The fixed-width values of the EVM are bit vectors, so that a word can never be
out of range: `Uint256`, `Address` and so on.  A byte string is a list of
bytes, and `beNat` reads one as a big-endian number.

`mload` reads thirty-two bytes of a memory that is a function of the address.
A `bytes` value lies in a memory whose other bytes are unknown, `inMemory b
beyond`; a program that only reads inside `b` cannot see `beyond`, and
`mload_inMemory` is how this is used: inside the string a load is `wordAt`,
which does not mention `beyond` at all.  `sliceCopy` is the word-by-word copy
loop that Solidity programs write by hand, and `sliceCopy_eq` says that it
copies exactly the range it was asked for, whatever the alignment.
-/

namespace Bufi.Evm

abbrev Uint8 := BitVec 8
abbrev Uint16 := BitVec 16
abbrev Uint32 := BitVec 32
abbrev Uint48 := BitVec 48
abbrev Uint256 := BitVec 256
abbrev Address := BitVec 160
abbrev Bytes4 := BitVec 32
abbrev Bytes32 := BitVec 256
abbrev Bytes := List UInt8

/-- Membership in a list of words is decided by comparing the words. -/
instance decidableMemWord {n : ℕ} (a : BitVec n) (l : List (BitVec n)) : Decidable (a ∈ l) :=
  List.instDecidableMemOfLawfulBEq a l

/-- The bytes of an ASCII literal. -/
def ascii (s : String) : Bytes := s.toList.map (fun c => UInt8.ofNat c.toNat)

/-- The word of a left-padded address. -/
def toBytes32 (a : Address) : Bytes32 := a.setWidth 256

/-- The low 160 bits of a word, `address(uint160(uint256(w)))`. -/
def toAddress (w : Bytes32) : Address := w.setWidth 160

theorem toNat_toBytes32 (a : Address) : (toBytes32 a).toNat = a.toNat := by
  have := a.isLt
  rw [toBytes32, BitVec.toNat_setWidth, Nat.mod_eq_of_lt (by omega)]

theorem toBytes32_injective : Function.Injective toBytes32 := by
  intro a b h
  apply BitVec.eq_of_toNat_eq
  rw [← toNat_toBytes32 a, ← toNat_toBytes32 b, h]

theorem toAddress_toBytes32 (a : Address) : toAddress (toBytes32 a) = a := by
  apply BitVec.eq_of_toNat_eq
  rw [toAddress, BitVec.toNat_setWidth, toNat_toBytes32, Nat.mod_eq_of_lt a.isLt]

/-! ### Checked arithmetic -/

/-- Solidity's checked `uint256` addition; `none` is the panic. -/
def checkedAdd (a b : ℕ) : Option ℕ := if a + b < 2 ^ 256 then some (a + b) else none

def checkedMul (a b : ℕ) : Option ℕ := if a * b < 2 ^ 256 then some (a * b) else none

def checkedSub (a b : ℕ) : Option ℕ := if b ≤ a then some (a - b) else none

theorem checkedAdd_of_lt {a b : ℕ} (h : a + b < 2 ^ 256) : checkedAdd a b = some (a + b) :=
  if_pos h

theorem checkedMul_of_lt {a b : ℕ} (h : a * b < 2 ^ 256) : checkedMul a b = some (a * b) :=
  if_pos h

theorem checkedSub_of_le {a b : ℕ} (h : b ≤ a) : checkedSub a b = some (a - b) :=
  if_pos h

/-! ### Big-endian numbers -/

/-- The number a byte string spells, most significant byte first. -/
def beNat (b : Bytes) : ℕ := b.foldl (fun n c => n * 256 + c.toNat) 0

theorem foldl_beNat (b : Bytes) (n : ℕ) :
    b.foldl (fun n c => n * 256 + c.toNat) n = n * 256 ^ b.length + beNat b := by
  induction b generalizing n with
  | nil => simp [beNat]
  | cons c r ih =>
    have hb : beNat (c :: r) = c.toNat * 256 ^ r.length + beNat r := by
      rw [beNat, List.foldl_cons, ih]
      simp
    rw [List.foldl_cons, ih, hb, List.length_cons, pow_succ]
    ring

theorem beNat_append (a b : Bytes) : beNat (a ++ b) = beNat a * 256 ^ b.length + beNat b := by
  rw [beNat, List.foldl_append, foldl_beNat]
  rfl

theorem beNat_cons (c : UInt8) (b : Bytes) :
    beNat (c :: b) = c.toNat * 256 ^ b.length + beNat b := by
  rw [← List.singleton_append, beNat_append]
  simp [beNat]

theorem beNat_lt (b : Bytes) : beNat b < 256 ^ b.length := by
  induction b with
  | nil => simp [beNat]
  | cons c r ih =>
    have hc : c.toNat < 256 := c.toNat_lt
    have hm : c.toNat * 256 ^ r.length ≤ 255 * 256 ^ r.length :=
      Nat.mul_le_mul_right _ (by omega)
    rw [beNat_cons, List.length_cons, pow_succ]
    omega

/-- The `n` low bytes of a number, most significant first. -/
def beBytes : ℕ → ℕ → Bytes
  | 0, _ => []
  | n + 1, x => UInt8.ofNat (x / 256 ^ n) :: beBytes n x

@[simp] theorem beBytes_length (n x : ℕ) : (beBytes n x).length = n := by
  induction n with
  | zero => rfl
  | succ n ih => rw [beBytes, List.length_cons, ih]

theorem beNat_beBytes (n x : ℕ) : beNat (beBytes n x) = x % 256 ^ n := by
  induction n with
  | zero => simp [beBytes, beNat, Nat.mod_one]
  | succ n ih =>
    have hb : (UInt8.ofNat (x / 256 ^ n)).toNat = x / 256 ^ n % 256 := by simp
    rw [beBytes, beNat_cons, beBytes_length, ih, hb, pow_succ, Nat.mod_mul]
    ring

/-- Byte strings of one length that spell one number are equal. -/
theorem beNat_inj {a b : Bytes} (hlen : a.length = b.length) (h : beNat a = beNat b) : a = b := by
  induction a generalizing b with
  | nil => exact (List.eq_nil_of_length_eq_zero hlen.symm).symm
  | cons c a ih =>
    cases b with
    | nil => cases hlen
    | cons d b =>
      have hlen' : a.length = b.length := Nat.succ.inj hlen
      have ha := beNat_lt a
      have hb := beNat_lt b
      rw [beNat_cons, beNat_cons, hlen', Nat.mul_comm, Nat.mul_comm d.toNat] at h
      rw [hlen'] at ha
      have hhead : c.toNat = d.toNat := by
        have hdiv := congrArg (· / 256 ^ b.length) h
        simp only [Nat.mul_add_div (Nat.pow_pos (by decide : 0 < 256)), Nat.div_eq_of_lt ha,
          Nat.div_eq_of_lt hb, Nat.add_zero] at hdiv
        exact hdiv
      rw [hhead] at h
      rw [UInt8.toNat_inj.mp hhead, ih hlen' (Nat.add_left_cancel h)]

theorem beBytes_beNat (b : Bytes) : beBytes b.length (beNat b) = b := by
  apply beNat_inj
  · exact beBytes_length _ _
  · rw [beNat_beBytes, Nat.mod_eq_of_lt (beNat_lt b)]

/-- The byte at position `k` of a big-endian string is a base-256 digit of the
number it spells. -/
theorem beNat_digit {b : Bytes} {k : ℕ} (hk : k < b.length) :
    beNat b / 256 ^ (b.length - 1 - k) % 256 = b[k].toNat := by
  induction b generalizing k with
  | nil => simp at hk
  | cons c r ih =>
    rw [beNat_cons]
    cases k with
    | zero =>
      have hr : beNat r < 256 ^ r.length := beNat_lt r
      have hc : c.toNat < 256 := c.toNat_lt
      simp only [List.length_cons, Nat.add_sub_cancel, Nat.sub_zero, List.getElem_cons_zero]
      rw [Nat.mul_comm, Nat.mul_add_div (by positivity), Nat.div_eq_of_lt hr]
      omega
    | succ k =>
      have hk' : k < r.length := by simpa using hk
      have he : (c :: r).length - 1 - (k + 1) = r.length - 1 - k := by
        simp only [List.length_cons]
        omega
      have hp : 256 ^ r.length = 256 ^ (r.length - 1 - k) * (256 * 256 ^ k) := by
        rw [← Nat.pow_succ', ← Nat.pow_add]
        congr 1
        omega
      rw [he, hp, List.getElem_cons_succ, ← ih hk']
      rw [show c.toNat * (256 ^ (r.length - 1 - k) * (256 * 256 ^ k))
          = 256 ^ (r.length - 1 - k) * (256 * (c.toNat * 256 ^ k)) by ring,
        Nat.mul_add_div (by positivity), Nat.mul_add_mod]

/-! ### Memory -/

/-- A memory, byte by byte. -/
abbrev Memory := ℕ → UInt8

/-- The thirty-two bytes at `p`. -/
def bytesAt (mem : Memory) (p : ℕ) : Bytes := (List.range 32).map (fun i => mem (p + i))

@[simp] theorem bytesAt_length (mem : Memory) (p : ℕ) : (bytesAt mem p).length = 32 := by
  simp [bytesAt]

def mload (mem : Memory) (p : ℕ) : Bytes32 := BitVec.ofNat 256 (beNat (bytesAt mem p))

/-- Byte `k` of a word, byte `0` being the most significant. -/
def byteOf (w : Bytes32) (k : ℕ) : UInt8 := UInt8.ofNat (w.toNat / 256 ^ (31 - k))

def mstore (mem : Memory) (p : ℕ) (w : Bytes32) : Memory :=
  fun i => if p ≤ i ∧ i < p + 32 then byteOf w (i - p) else mem i

theorem toNat_mload (mem : Memory) (p : ℕ) : (mload mem p).toNat = beNat (bytesAt mem p) := by
  have h := beNat_lt (bytesAt mem p)
  rw [bytesAt_length] at h
  rw [mload, BitVec.toNat_ofNat, Nat.mod_eq_of_lt]
  calc beNat (bytesAt mem p) < 256 ^ 32 := h
    _ = 2 ^ 256 := by norm_num

theorem byteOf_mload (mem : Memory) (p : ℕ) {k : ℕ} (hk : k < 32) :
    byteOf (mload mem p) k = mem (p + k) := by
  have hl : k < (bytesAt mem p).length := by simpa using hk
  have hd := beNat_digit hl
  rw [bytesAt_length] at hd
  apply UInt8.toNat_inj.mp
  rw [byteOf, toNat_mload, UInt8.toNat_ofNat', show 31 - k = 32 - 1 - k by omega, hd]
  simp [bytesAt]

/-- The byte string `b` in a memory that holds `beyond` outside it. -/
def inMemory (b : Bytes) (beyond : Memory) : Memory := fun i => b.getD i (beyond i)

theorem inMemory_of_lt {b : Bytes} (beyond : Memory) {i : ℕ} (h : i < b.length) :
    inMemory b beyond i = b[i] := by
  exact (List.getElem_eq_getD (beyond i)).symm

/-- The word at offset `p` of a byte string. -/
def wordAt (b : Bytes) (p : ℕ) : Bytes32 := BitVec.ofNat 256 (beNat ((b.drop p).take 32))

theorem bytesAt_inMemory {b : Bytes} (beyond : Memory) {p : ℕ} (h : p + 32 ≤ b.length) :
    bytesAt (inMemory b beyond) p = (b.drop p).take 32 := by
  apply List.ext_getElem
  · rw [bytesAt_length, List.length_take, List.length_drop]
    omega
  · intro i h₁ h₂
    rw [bytesAt_length] at h₁
    rw [List.getElem_take, List.getElem_drop]
    simp only [bytesAt, List.getElem_map, List.getElem_range]
    exact inMemory_of_lt beyond (by omega)

theorem mload_inMemory {b : Bytes} (beyond : Memory) {p : ℕ} (h : p + 32 ≤ b.length) :
    mload (inMemory b beyond) p = wordAt b p := by
  rw [mload, bytesAt_inMemory beyond h, wordAt]

theorem toNat_wordAt {b : Bytes} {p : ℕ} : (wordAt b p).toNat = beNat ((b.drop p).take 32) := by
  have h := beNat_lt ((b.drop p).take 32)
  have hl : ((b.drop p).take 32).length ≤ 32 := by
    rw [List.length_take]
    omega
  rw [wordAt, BitVec.toNat_ofNat, Nat.mod_eq_of_lt]
  calc beNat ((b.drop p).take 32) < 256 ^ ((b.drop p).take 32).length := h
    _ ≤ 256 ^ 32 := Nat.pow_le_pow_right (by omega) hl
    _ = 2 ^ 256 := by norm_num

/-- A word written into a byte string is read back. -/
theorem wordAt_append (a c : Bytes) (w : Bytes32) :
    wordAt (a ++ (beBytes 32 w.toNat ++ c)) a.length = w := by
  apply BitVec.eq_of_toNat_eq
  rw [toNat_wordAt, List.drop_left, List.take_append_of_le_length (by simp),
    List.take_of_length_le (by simp), beNat_beBytes, Nat.mod_eq_of_lt]
  calc w.toNat < 2 ^ 256 := w.isLt
    _ = 256 ^ 32 := by norm_num

/-- A word inside a string that stands inside another. -/
theorem wordAt_append_left (a b c : Bytes) {p : ℕ} (h : p + 32 ≤ b.length) :
    wordAt (a ++ (b ++ c)) (a.length + p) = wordAt b p := by
  rw [wordAt, wordAt, List.drop_append, List.drop_eq_nil_of_le (by omega), List.nil_append,
    Nat.add_sub_cancel_left, List.drop_append_of_le_length (by omega),
    List.take_append_of_le_length (by rw [List.length_drop]; omega)]

/-! ### Copying a range -/

/-- `length` bytes from offset `start` of the string at the bottom of `mem`,
copied a word at a time into fresh zeroed memory; the last word may run past
the range, and the store after the loop clears what it left there. -/
def sliceCopy (mem : Memory) (start length : ℕ) : Bytes :=
  let out := (List.range ((length + 31) / 32)).foldl
    (fun out j => mstore out (32 * j) (mload mem (start + 32 * j))) (fun _ => 0)
  (List.range length).map (mstore out length 0)

theorem foldl_mstore (mem : Memory) (start n : ℕ) {i : ℕ} (hi : i < 32 * n) :
    (List.range n).foldl (fun out j => mstore out (32 * j) (mload mem (start + 32 * j)))
      (fun _ => 0) i = mem (start + i) := by
  induction n with
  | zero => omega
  | succ n ih =>
    rw [List.range_succ, List.foldl_append, List.foldl_cons, List.foldl_nil, mstore]
    by_cases h : 32 * n ≤ i ∧ i < 32 * n + 32
    · rw [if_pos h, byteOf_mload _ _ (by omega)]
      congr 1
      omega
    · rw [if_neg h]
      exact ih (by omega)

/-- **The copy is exactly the range**, for every start, length and alignment. -/
theorem sliceCopy_eq {b : Bytes} (beyond : Memory) {start length : ℕ}
    (h : start + length ≤ b.length) :
    sliceCopy (inMemory b beyond) start length = (b.drop start).take length := by
  apply List.ext_getElem
  · simp only [sliceCopy, List.length_map, List.length_range, List.length_take, List.length_drop]
    omega
  · intro i h₁ h₂
    have hi : i < length := by simpa [sliceCopy] using h₁
    rw [List.getElem_take, List.getElem_drop]
    simp only [sliceCopy, List.getElem_map, List.getElem_range]
    rw [mstore, if_neg (by omega), foldl_mstore _ _ _ (by omega)]
    exact inMemory_of_lt beyond (by omega)

end Bufi.Evm
