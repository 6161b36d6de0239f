import Bufi.Evm.Word

/-!
# An ideal keccak

The contracts use keccak as if two different pre-images never had one digest.
No function into thirty-two bytes does that, so the digests live in a type `W`
of their own, with the plain words among them (`Keccak.word`).  The three ways
a contract forms a pre-image are three functions, and each is one to one:

* `hash b` is `keccak256(b)` of a byte string;
* `hashWords ws` is `keccak256(abi.encode(..))` of static values, which is the
  concatenation of their words;
* `hashTyped d s` is the EIP-712 digest `keccak256("\x19\x01" ‖ d ‖ s)`.

Nothing is assumed about digests of different kinds.  `Keccak.symbolic` is the
ideal hash whose digests are the terms themselves; it shows that the laws can
be met, and concrete runs are evaluated in it.
-/

namespace Bufi.Evm

/-- An ideal keccak with digests in `W`. -/
structure Keccak (W : Type) where
  word : Uint256 → W
  hash : Bytes → W
  hashWords : List W → W
  hashTyped : W → W → W
  word_inj : ∀ {a b}, word a = word b → a = b
  hash_inj : ∀ {a b}, hash a = hash b → a = b
  hashWords_inj : ∀ {a b}, hashWords a = hashWords b → a = b
  hashTyped_inj : ∀ {d s d' s'}, hashTyped d s = hashTyped d' s' → d = d' ∧ s = s'
  hash_ne_zero : ∀ b, hash b ≠ word 0

namespace Keccak

variable {W : Type} (K : Keccak W)

/-- The word of an address in an encoding. -/
def addr (a : Address) : W := K.word (toBytes32 a)

/-- The word of a number narrower than a word. -/
def uint {n : ℕ} (x : BitVec n) : W := K.word (x.setWidth 256)

theorem addr_inj {a b : Address} (h : K.addr a = K.addr b) : a = b :=
  toBytes32_injective (K.word_inj h)

theorem uint32_inj {a b : Uint32} (h : K.uint a = K.uint b) : a = b := by
  have he := congrArg BitVec.toNat (K.word_inj h)
  have ha := a.isLt
  have hb := b.isLt
  apply BitVec.eq_of_toNat_eq
  rwa [BitVec.toNat_setWidth, BitVec.toNat_setWidth, Nat.mod_eq_of_lt (by omega),
    Nat.mod_eq_of_lt (by omega)] at he

/-- A type hash, `keccak256("Type(..)")`. -/
def typeHash (s : String) : W := K.hash (ascii s)

end Keccak

/-! ### The symbolic hash -/

/-- The digests of the symbolic hash: a list of words is a chain of `cons`. -/
inductive Term
  | word (w : Uint256)
  | hash (b : Bytes)
  | nil
  | cons (head tail : Term)
  | typed (domain message : Term)
  deriving DecidableEq

namespace Term

def ofList : List Term → Term
  | [] => nil
  | a :: l => cons a (ofList l)

theorem ofList_inj : ∀ {a b : List Term}, ofList a = ofList b → a = b
  | [], [], _ => rfl
  | [], _ :: _, h => by simp [ofList] at h
  | _ :: _, [], h => by simp [ofList] at h
  | x :: a, y :: b, h => by
    simp only [ofList, cons.injEq] at h
    rw [h.1, ofList_inj h.2]

end Term

/-- The hash that keeps its pre-image. -/
def Keccak.symbolic : Keccak Term where
  word := Term.word
  hash := Term.hash
  hashWords := Term.ofList
  hashTyped := Term.typed
  word_inj h := Term.word.inj h
  hash_inj h := Term.hash.inj h
  hashWords_inj h := Term.ofList_inj h
  hashTyped_inj h := Term.typed.inj h
  hash_ne_zero _ h := Term.noConfusion h

end Bufi.Evm
