import Bufi.Evm.Abi

/-!
# Words that are read back

The static values of a call are written one word after another.  Each reader of
`Abi` gets back what was written at the front of the data (`word_front` and so on),
and a reader that starts further on does not see it (`word_skip`).  A byte string is its
length and its bytes (`bytes_front`), wherever its tuple says that it stands.
-/

namespace Bufi.Evm.Abi

/-- The word of a `bool`. -/
def boolWord (b : Bool) : ℕ := if b then 1 else 0

/-- The word of a `bytes4`. -/
def bytes4Front (b : Bytes4) : ℕ := b.toNat * 2 ^ 224

variable {rest : Bytes}

theorem word_front_of_lt {x : ℕ} (hx : x < 2 ^ 256) :
    word (beBytes 32 x ++ rest) 0 = some (BitVec.ofNat 256 x) := by
  have hread := wordAt_append [] rest (BitVec.ofNat 256 x)
  rw [BitVec.toNat_ofNat, Nat.mod_eq_of_lt hx] at hread
  rw [word, if_pos (by simp)]
  exact congrArg some hread

theorem word_front (w : Bytes32) : word (beBytes 32 w.toNat ++ rest) 0 = some w := by
  rw [word_front_of_lt w.isLt, BitVec.ofNat_toNat, BitVec.setWidth_eq]

theorem word_skip {x p : ℕ} : word (beBytes 32 x ++ rest) (p + 32) = word rest p := by
  have hlen : p + 32 + 32 ≤ (beBytes 32 x ++ rest).length ↔ p + 32 ≤ rest.length := by
    rw [List.length_append, beBytes_length]
    omega
  have hdrop : (beBytes 32 x ++ rest).drop (p + 32) = rest.drop p := by
    rw [Nat.add_comm, ← List.drop_drop, List.drop_left' (beBytes_length 32 x)]
  simp only [word, hlen, wordAt, hdrop]

theorem uint_front {n : ℕ} (hn : n ≤ 256) (x : BitVec n) :
    uint n (beBytes 32 x.toNat ++ rest) 0 = some x := by
  have hlt : x.toNat < 2 ^ 256 := x.isLt.trans_le (Nat.pow_le_pow_right (by decide) hn)
  have hnat : (BitVec.ofNat 256 x.toNat).toNat = x.toNat := by
    rw [BitVec.toNat_ofNat, Nat.mod_eq_of_lt hlt]
  rw [uint, word_front_of_lt hlt, Option.bind_some, hnat, if_pos x.isLt, Option.some.injEq]
  apply BitVec.eq_of_toNat_eq
  rw [BitVec.toNat_setWidth, hnat, Nat.mod_eq_of_lt x.isLt]

theorem uint_skip {n x p : ℕ} : uint n (beBytes 32 x ++ rest) (p + 32) = uint n rest p := by
  rw [uint, word_skip, uint]

theorem address_front (a : Address) : address (beBytes 32 a.toNat ++ rest) 0 = some a :=
  uint_front (by decide) a

theorem bool_front (b : Bool) : bool (beBytes 32 (boolWord b) ++ rest) 0 = some b := by
  have hlt : boolWord b < 2 ^ 256 := by
    cases b with
    | false => decide
    | true => decide
  rw [bool, word_front_of_lt hlt, Option.bind_some]
  cases b with
  | false => rfl
  | true => rfl

theorem bool_skip {x p : ℕ} : bool (beBytes 32 x ++ rest) (p + 32) = bool rest p := by
  rw [bool, word_skip, bool]

theorem bytes4_front (b : Bytes4) : bytes4 (beBytes 32 (bytes4Front b) ++ rest) 0 = some b := by
  have hb := b.isLt
  have hlt : bytes4Front b < 2 ^ 256 := by
    rw [bytes4Front]
    omega
  have hnat : (BitVec.ofNat 256 (bytes4Front b)).toNat = b.toNat * 2 ^ 224 := by
    rw [BitVec.toNat_ofNat, Nat.mod_eq_of_lt hlt, bytes4Front]
  rw [bytes4, word_front_of_lt hlt, Option.bind_some, hnat, if_pos (Nat.mul_mod_left _ _),
    Option.some.injEq]
  apply BitVec.eq_of_toNat_eq
  rw [BitVec.toNat_setWidth, BitVec.toNat_ushiftRight, hnat, Nat.shiftRight_eq_div_pow,
    Nat.mul_div_cancel _ (by decide), Nat.mod_eq_of_lt hb]

theorem bytes4_skip {x p : ℕ} : bytes4 (beBytes 32 x ++ rest) (p + 32) = bytes4 rest p := by
  rw [bytes4, word_skip, bytes4]

theorem tail_front {n : ℕ} (hn : n < 2 ^ 64) (base : ℕ) :
    tail (beBytes 32 n ++ rest) base 0 = some (base + n) := by
  have hlt : n < 2 ^ 256 := by omega
  have hnat : (BitVec.ofNat 256 n).toNat = n := by
    rw [BitVec.toNat_ofNat, Nat.mod_eq_of_lt hlt]
  rw [tail, word_front_of_lt hlt, Option.bind_some, hnat, if_pos hn]

theorem tail_skip {x base p : ℕ} :
    tail (beBytes 32 x ++ rest) base (p + 32) = tail rest base p := by
  rw [tail, word_skip, tail]

theorem bytes_front (b : MemBytes) :
    bytes (beBytes 32 b.data.length ++ (b.data ++ rest)) 0 = some b := by
  have hb := b.size_lt
  have hlt : b.data.length < 2 ^ 256 := by omega
  have hnat : (BitVec.ofNat 256 b.data.length).toNat = b.data.length := by
    rw [BitVec.toNat_ofNat, Nat.mod_eq_of_lt hlt]
  have hread : ((beBytes 32 b.data.length ++ (b.data ++ rest)).drop (0 + 32)).take b.data.length
      = b.data := by
    rw [Nat.zero_add, List.drop_left' (beBytes_length 32 _), List.take_left]
  rw [bytes, word_front_of_lt hlt, Option.bind_some, dif_pos]
  · simp only [hnat, hread]
  · rw [hnat]
    refine ⟨hb, ?_⟩
    simp only [List.length_append, beBytes_length]
    omega

theorem bytes_skip {x p : ℕ} : bytes (beBytes 32 x ++ rest) (p + 32) = bytes rest p := by
  have hlen : ∀ n, p + 32 + 32 + n ≤ (beBytes 32 x ++ rest).length ↔ p + 32 + n ≤ rest.length := by
    intro n
    rw [List.length_append, beBytes_length]
    omega
  have hdrop : (beBytes 32 x ++ rest).drop (p + 32 + 32) = rest.drop (p + 32) := by
    rw [Nat.add_comm, ← List.drop_drop, List.drop_left' (beBytes_length 32 x)]
  simp only [bytes, word_skip, hlen, hdrop]

end Bufi.Evm.Abi
