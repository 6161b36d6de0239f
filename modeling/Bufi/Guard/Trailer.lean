import Bufi.Evm.Abi
import Bufi.Evm.Checks
import Bufi.Guard.Core

/-!
# The envelope behind a signature

`GatewayIntentGuardPlugin.sol`: the guard's envelope is appended to the signature, with
its length and a magic word behind it, so that it is read from the end.
`trailerEnvelope` reads through `load`, the word at an offset of the signature, and
through nothing else; the words it reads are inside the signature
(`trailerEnvelope_congr`), so the memory behind it is never seen.

The copy goes word by word and its last word may run past the envelope, into the length
word.  `copyLoop_apply` is the invariant: after the turn for `j` the bytes below `j` are
copied, whatever the alignment.
-/

namespace Bufi.Guard

open Bufi.Evm

/-- `keccak256("BUFI.GatewayIntentGuard.envelope.v1")` -/
def ENVELOPE_MAGIC : Bytes32 := 0x1d496f6f517cc4e4262a75390051e3e26b57b4520de66ae0fa148f2781479043

inductive TrailerRevert
  | missingIntentEnvelope
  deriving DecidableEq

/-- The loop over the words of the envelope, from `j` on. -/
def copyLoop (load : ℕ → Bytes32) (start envLen j : ℕ) (env : Memory) : Memory :=
  if j < envLen then copyLoop load start envLen (j + 32) (mstore env j (load (start + j)))
  else env
  termination_by envLen - j

/-- `_trailerEnvelope`, for a signature of `len` bytes; the store behind the loop clears
what the last word left there. -/
def trailerEnvelope (load : ℕ → Bytes32) (len : ℕ) : Except TrailerRevert Bytes := do
  require (¬ len < 64) .missingIntentEnvelope
  let magic := load (len - 32)
  let envLen := (load (len - 64)).toNat
  require (¬ (magic ≠ ENVELOPE_MAGIC ∨ envLen > len - 64)) .missingIntentEnvelope
  let start := len - 64 - envLen
  let env := copyLoop load start envLen 0 (fun _ => 0)
  let env := mstore env envLen 0
  pure ((List.range envLen).map env)

/-- On a signature in memory, with the bytes behind it. -/
def trailerOf (beyond : Memory) (sig : Bytes) : Except TrailerRevert Bytes :=
  trailerEnvelope (mload (inMemory sig beyond)) sig.length

/-- `multisigSig ‖ envelope ‖ uint256(envelope.length) ‖ ENVELOPE_MAGIC` -/
def frame (multisigSig envelope : Bytes) : Bytes :=
  multisigSig ++ (envelope ++ (beBytes 32 envelope.length ++ beBytes 32 ENVELOPE_MAGIC.toNat))

/-! ### The loop -/

/-- **The loop copies from `j` on**, and leaves what is below. -/
theorem copyLoop_apply {mem : Memory} {start envLen j : ℕ} {env : Memory} {i : ℕ}
    (hi : i < envLen) :
    copyLoop (mload mem) start envLen j env i = if i < j then env i else mem (start + i) := by
  fun_induction copyLoop (mload mem) start envLen j env with
  | case1 j env hj ih =>
    rw [ih, mstore]
    by_cases hlow : i < j
    · rw [if_pos (by omega), if_pos hlow, if_neg (by omega)]
    · rw [if_neg hlow]
      by_cases hword : i < j + 32
      · rw [if_pos hword, if_pos ⟨by omega, hword⟩, byteOf_mload _ _ (by omega)]
        congr 1
        omega
      · rw [if_neg hword]
  | case2 j env hj =>
    rw [if_pos (by omega)]

/-- The loop reads the words that start inside the envelope. -/
theorem copyLoop_congr {load load' : ℕ → Bytes32} {start envLen : ℕ} (j : ℕ) (env : Memory)
    (h : ∀ o < start + envLen, load o = load' o) :
    copyLoop load start envLen j env = copyLoop load' start envLen j env := by
  fun_induction copyLoop load start envLen j env with
  | case1 j env hj ih =>
    rw [ih, copyLoop.eq_def load' start envLen j, if_pos hj, h (start + j) (by omega)]
  | case2 j env hj =>
    rw [copyLoop.eq_def, if_neg hj]

/-- **The copy is the envelope**, for every length. -/
theorem map_copyLoop {sig : Bytes} (beyond : Memory) {start envLen : ℕ}
    (h : start + envLen ≤ sig.length) :
    (List.range envLen).map
        (mstore (copyLoop (mload (inMemory sig beyond)) start envLen 0 (fun _ => 0)) envLen 0)
      = (sig.drop start).take envLen := by
  apply List.ext_getElem
  · simp only [List.length_map, List.length_range, List.length_take, List.length_drop]
    omega
  · intro i h₁ h₂
    have hi : i < envLen := by simpa using h₁
    rw [List.getElem_take, List.getElem_drop, List.getElem_map, List.getElem_range, mstore,
      if_neg (by omega), copyLoop_apply hi, if_neg (by omega)]
    exact inMemory_of_lt beyond (by omega)

/-- **Every word that is read lies inside the signature.** -/
theorem trailerEnvelope_congr {load load' : ℕ → Bytes32} {len : ℕ}
    (h : ∀ o, o + 32 ≤ len → load o = load' o) :
    trailerEnvelope load len = trailerEnvelope load' len := by
  by_cases hlen : len < 64
  · have hshort : require (¬ len < 64) TrailerRevert.missingIntentEnvelope
        = .error .missingIntentEnvelope := if_neg (not_not.mpr hlen)
    rw [trailerEnvelope, trailerEnvelope, hshort]
    rfl
  · rw [trailerEnvelope, trailerEnvelope, ← h (len - 32) (by omega), ← h (len - 64) (by omega)]
    by_cases hfits : (load (len - 64)).toNat ≤ len - 64
    · have hsame : ∀ o < len - 64 - (load (len - 64)).toNat + (load (len - 64)).toNat,
          load o = load' o := fun o ho => h o (by omega)
      have hcopy := copyLoop_congr 0 (fun _ => 0) hsame
      simp only [hcopy]
    · have hlong : require (¬ (load (len - 32) ≠ ENVELOPE_MAGIC
          ∨ (load (len - 64)).toNat > len - 64)) TrailerRevert.missingIntentEnvelope
          = .error .missingIntentEnvelope := if_neg (not_not.mpr (Or.inr (by omega)))
      simp only [hlong]
      rfl

/-! ### What is read -/

/-- **The result, and when there is one.** -/
theorem trailerOf_eq_ok {beyond : Memory} {sig env : Bytes} :
    trailerOf beyond sig = .ok env ↔
      64 ≤ sig.length ∧ wordAt sig (sig.length - 32) = ENVELOPE_MAGIC ∧
      (wordAt sig (sig.length - 64)).toNat ≤ sig.length - 64 ∧
      env = (sig.drop (sig.length - 64 - (wordAt sig (sig.length - 64)).toNat)).take
        (wordAt sig (sig.length - 64)).toNat := by
  rw [trailerOf, trailerEnvelope]
  by_cases hlen : sig.length < 64
  · have hshort : require (¬ sig.length < 64) TrailerRevert.missingIntentEnvelope
        = .error .missingIntentEnvelope := if_neg (not_not.mpr hlen)
    rw [hshort]
    constructor
    · intro h
      cases h
    · intro h
      omega
  · rw [require_of hlen, ok_bind, mload_inMemory beyond (by omega), mload_inMemory beyond (by omega)]
    simp only [bind_eq_ok, require_eq_ok, exists_const, pure_eq_ok, not_or, not_not]
    constructor
    · intro h
      obtain ⟨⟨hmagic, hle⟩, rfl⟩ := h
      exact ⟨by omega, hmagic, by omega, map_copyLoop beyond (by omega)⟩
    · intro h
      obtain ⟨-, hmagic, hle, rfl⟩ := h
      exact ⟨⟨hmagic, by omega⟩, (map_copyLoop beyond (by omega)).symm⟩

theorem trailerOf_eq_error {beyond : Memory} {sig : Bytes} :
    trailerOf beyond sig = .error .missingIntentEnvelope ↔
      sig.length < 64 ∨ wordAt sig (sig.length - 32) ≠ ENVELOPE_MAGIC ∨
      sig.length - 64 < (wordAt sig (sig.length - 64)).toNat := by
  have hok : ∀ env, _ := fun env => @trailerOf_eq_ok beyond sig env
  cases hr : trailerOf beyond sig with
  | error e =>
    cases e
    refine ⟨fun _ => ?_, fun _ => rfl⟩
    by_contra hgood
    rw [not_or, not_or, not_not] at hgood
    have hnone := (hok _).mpr ⟨by omega, hgood.2.1, by omega, rfl⟩
    rw [hr] at hnone
    cases hnone
  | ok env =>
    obtain ⟨hlen, hmagic, hle, -⟩ := (hok env).mp hr
    constructor
    · intro h
      cases h
    · intro h
      rcases h with h | h | h
      · omega
      · exact absurd hmagic h
      · omega

/-! ### The frame -/

theorem frame_length (p e : Bytes) : (frame p e).length = p.length + e.length + 64 := by
  simp only [frame, List.length_append, beBytes_length]
  omega

theorem wordAt_frame_magic (p e : Bytes) :
    wordAt (frame p e) ((frame p e).length - 32) = ENVELOPE_MAGIC := by
  have h := wordAt_append (p ++ e ++ beBytes 32 e.length) [] ENVELOPE_MAGIC
  have hoffset : (frame p e).length - 32 = (p ++ e ++ beBytes 32 e.length).length := by
    rw [frame_length]
    simp only [List.length_append, beBytes_length]
    omega
  rw [List.append_nil] at h
  rw [hoffset, frame, ← List.append_assoc p, ← List.append_assoc (p ++ e)]
  exact h

theorem wordAt_frame_length {p e : Bytes} (h : e.length < 2 ^ 256) :
    (wordAt (frame p e) ((frame p e).length - 64)).toNat = e.length := by
  have hword := wordAt_append (p ++ e) (beBytes 32 ENVELOPE_MAGIC.toNat) (BitVec.ofNat 256 e.length)
  rw [BitVec.toNat_ofNat, Nat.mod_eq_of_lt h] at hword
  have hoffset : (frame p e).length - 64 = (p ++ e).length := by
    rw [frame_length, List.length_append]
    omega
  rw [hoffset, frame, ← List.append_assoc p, hword, BitVec.toNat_ofNat, Nat.mod_eq_of_lt h]

theorem trailerOf_frame (beyond : Memory) {p e : Bytes} (h : e.length < 2 ^ 256) :
    trailerOf beyond (frame p e) = .ok e := by
  have hlen := frame_length p e
  rw [trailerOf_eq_ok, wordAt_frame_length h]
  refine ⟨by omega, wordAt_frame_magic p e, by omega, ?_⟩
  have hstart : (frame p e).length - 64 - e.length = p.length := by omega
  rw [hstart, frame, List.drop_left, List.take_left]

/-- A byte string is its front, and its last two words. -/
theorem eq_frame {sig : Bytes} (hlen : 64 ≤ sig.length)
    (hmagic : wordAt sig (sig.length - 32) = ENVELOPE_MAGIC)
    (hle : (wordAt sig (sig.length - 64)).toNat ≤ sig.length - 64) :
    ∃ p e, e.length = (wordAt sig (sig.length - 64)).toNat ∧ sig = frame p e := by
  generalize hn : (wordAt sig (sig.length - 64)).toNat = n at hle
  have hword : ∀ o, o + 32 ≤ sig.length →
      beBytes 32 (wordAt sig o).toNat = (sig.drop o).take 32 := by
    intro o ho
    have hl : ((sig.drop o).take 32).length = 32 := by
      rw [List.length_take, List.length_drop]
      omega
    have := beBytes_beNat ((sig.drop o).take 32)
    rwa [hl, ← toNat_wordAt] at this
  have hlenWord := hword (sig.length - 64) (by omega)
  have hmagicWord := hword (sig.length - 32) (by omega)
  rw [hn] at hlenWord
  rw [hmagic] at hmagicWord
  refine ⟨sig.take (sig.length - 64 - n), (sig.drop (sig.length - 64 - n)).take n, ?_, ?_⟩
  · rw [List.length_take, List.length_drop]
    omega
  · have hel : ((sig.drop (sig.length - 64 - n)).take n).length = n := by
      rw [List.length_take, List.length_drop]
      omega
    have hrest : sig.drop (sig.length - 32) = (sig.drop (sig.length - 32)).take 32 := by
      rw [List.take_of_length_le]
      rw [List.length_drop]
      omega
    have hsplit : sig.drop (sig.length - 64)
        = (sig.drop (sig.length - 64)).take 32 ++ sig.drop (sig.length - 32) := by
      rw [show sig.length - 32 = sig.length - 64 + 32 by omega, ← List.drop_drop,
        List.take_append_drop]
    have hback : sig.drop (sig.length - 64 - n)
        = (sig.drop (sig.length - 64 - n)).take n ++ sig.drop (sig.length - 64) := by
      conv_rhs => rw [show sig.length - 64 = sig.length - 64 - n + n by omega, ← List.drop_drop]
      rw [show sig.length - 64 - n + n - n = sig.length - 64 - n by omega, List.take_append_drop]
    rw [frame, hel, hlenWord, hmagicWord, ← hrest, ← hsplit, ← hback, List.take_append_drop]

/-- **Framing.**  The envelope of a framed signature is read back, whatever stands before
it; a signature is read only if it is framed, in one way, and the result is its envelope;
every other signature is refused, which is to say the short ones, those with another magic
word and those with too large a length; and no word that is read reaches outside. -/
theorem trailer_framing :
    (∀ beyond p e, e.length < 2 ^ 256 → trailerOf beyond (frame p e) = .ok e) ∧
    (∀ beyond sig env, trailerOf beyond sig = .ok env →
      ∃! pe : Bytes × Bytes, sig = frame pe.1 pe.2 ∧ pe.2.length < 2 ^ 256 ∧ env = pe.2) ∧
    (∀ beyond sig, (¬ ∃ p e, e.length < 2 ^ 256 ∧ sig = frame p e) →
      trailerOf beyond sig = .error .missingIntentEnvelope) ∧
    (∀ beyond sig, trailerOf beyond sig = .error .missingIntentEnvelope ↔
      sig.length < 64 ∨ wordAt sig (sig.length - 32) ≠ ENVELOPE_MAGIC ∨
      sig.length - 64 < (wordAt sig (sig.length - 64)).toNat) ∧
    (∀ (load load' : ℕ → Bytes32) (len : ℕ), (∀ o, o + 32 ≤ len → load o = load' o) →
      trailerEnvelope load len = trailerEnvelope load' len) := by
  refine ⟨fun beyond _ _ h => trailerOf_frame beyond h, ?_, ?_, fun _ _ => trailerOf_eq_error,
    fun _ _ _ => trailerEnvelope_congr⟩
  · intro beyond sig env h
    obtain ⟨hlen, hmagic, hle, -⟩ := trailerOf_eq_ok.mp h
    obtain ⟨p, e, he, rfl⟩ := eq_frame hlen hmagic hle
    have hbound : e.length < 2 ^ 256 := he ▸ BitVec.isLt _
    have henv : env = e := Except.ok.inj (h.symm.trans (trailerOf_frame beyond hbound))
    refine ⟨(p, e), ⟨rfl, hbound, henv⟩, ?_⟩
    intro pe hpe
    obtain ⟨hframe, -, henv'⟩ := hpe
    obtain rfl : e = pe.2 := henv.symm.trans henv'
    rw [frame, frame, List.append_cancel_right_eq] at hframe
    exact Prod.ext hframe.symm rfl
  · intro beyond sig h
    cases hr : trailerOf beyond sig with
    | error r =>
      cases r
      rfl
    | ok env =>
      obtain ⟨hlen, hmagic, hle, -⟩ := trailerOf_eq_ok.mp hr
      obtain ⟨p, e, he, rfl⟩ := eq_frame hlen hmagic hle
      exact absurd ⟨p, e, he ▸ BitVec.isLt _, rfl⟩ h

end Bufi.Guard
