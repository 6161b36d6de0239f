import Bufi.Evm.Checks
import Bufi.Js.Address
import Mathlib.Algebra.BigOperators.Group.List.Lemmas
import Mathlib.Data.List.SplitLengths

/-!
# The binary layout of a Solana burn intent

Circle's layout of a burn intent on Solana is written twice, by `encodeSolanaIntent` of
the treasury server and by `encodeIntent` of the weighted-treasury script, and read by
`parse_message` of `frost-delegate`, which signs nothing that it cannot read.

The encoders take words as hexadecimal text and numbers as integers.  A 32-byte array
of the reader is the word it spells.  The reader has offsets where the encoders have a
list of fields; `layout` is the widths of the fields, and a byte string of the right
length is cut by it into fields (`List.splitLengths`).  So a message is read field by
field, `parseMessage_flatten`, and from it follow the round trip and that nothing else
is accepted.
-/

namespace Bufi.Delegate

open Bufi.Evm Bufi.Js

def TRANSFER_SPEC_MAGIC : Uint32 := 0xca85def7
def BURN_INTENT_MAGIC : Uint32 := 0x070afbc2
def SIGNING_DOMAIN : Bytes := 0xff :: List.replicate 15 0

/-! ### Writing -/

/-- `Buffer.from(digits, 'hex')`: pairs of digits, up to the first that is none. -/
def bufferFromHex : List Char → Bytes
  | a :: b :: rest =>
    if hexValue a < 16 ∧ hexValue b < 16 then
      UInt8.ofNat (16 * hexValue a + hexValue b) :: bufferFromHex rest
    else []
  | _ => []

/-- `hex.replace(/^0x/, '')` -/
def without0x : List Char → List Char
  | '0' :: 'x' :: digits => digits
  | digits => digits

/-- `h` -/
def hexBytes (hex : String) : Bytes := bufferFromHex (without0x hex.toList)

inductive EncodeError
  | outOfRange (v : ℤ)
  | specLength (length expected : ℕ)
  deriving DecidableEq

def u32be (v : ℤ) : Except EncodeError Bytes := do
  require (0 ≤ v ∧ v < 2 ^ 32) (.outOfRange v)
  pure (beBytes 4 v.toNat)

/-- `b.writeBigUInt64BE(v & 0xffffffffffffffffn)` -/
def u64be (v : ℤ) : Bytes := beBytes 8 (v % 2 ^ 64).toNat

/-- `u256be` of the server. -/
def u256be (v : ℤ) : Bytes :=
  u64be (v >>> (192 : ℕ)) ++ u64be (v >>> (128 : ℕ)) ++ u64be (v >>> (64 : ℕ)) ++ u64be v

/-- `u256be` of `encoding.ts`. -/
def u256beBytes (v : ℤ) : Except EncodeError Bytes := do
  require (0 ≤ v ∧ v >>> (256 : ℕ) = 0) (.outOfRange v)
  pure ((List.range 4).flatMap (fun (i : ℕ) => u64be (v >>> (64 * (3 - i) : ℕ))))

structure SolanaSpec where
  version : ℤ
  sourceDomain : ℤ
  destinationDomain : ℤ
  sourceContract : String
  destinationContract : String
  sourceToken : String
  destinationToken : String
  sourceDepositor : String
  destinationRecipient : String
  sourceSigner : String
  destinationCaller : String
  value : ℤ
  salt : String
  hookData : String

structure SolanaIntent where
  maxBlockHeight : ℤ
  maxFee : ℤ
  spec : SolanaSpec

/-- The transfer spec, with its length checked. -/
def encodeTransferSpec (transferSpecMagic : ℤ) (u256 : ℤ → Except EncodeError Bytes)
    (s : SolanaSpec) : Except EncodeError Bytes := do
  let hook := hexBytes s.hookData
  let spec := [
    ← u32be transferSpecMagic, ← u32be s.version, ← u32be s.sourceDomain,
    ← u32be s.destinationDomain,
    hexBytes s.sourceContract, hexBytes s.destinationContract, hexBytes s.sourceToken,
    hexBytes s.destinationToken, hexBytes s.sourceDepositor, hexBytes s.destinationRecipient,
    hexBytes s.sourceSigner, hexBytes s.destinationCaller,
    ← u256 s.value, hexBytes s.salt, ← u32be hook.length, hook].flatten
  require (spec.length = 340 + hook.length) (.specLength spec.length (340 + hook.length))
  pure spec

/-- The body of the two encoders. -/
def encodeBurnIntent (transferSpecMagic burnIntentMagic : ℤ) (u256 : ℤ → Except EncodeError Bytes)
    (bi : SolanaIntent) : Except EncodeError Bytes := do
  let spec ← encodeTransferSpec transferSpecMagic u256 bi.spec
  pure [← u32be burnIntentMagic, ← u256 bi.maxBlockHeight, ← u256 bi.maxFee,
    ← u32be spec.length, spec].flatten

def encodeSolanaIntent : SolanaIntent → Except EncodeError Bytes :=
  encodeBurnIntent 0xca85def7 0x070afbc2 (fun v => pure (u256be v))

def encodeIntent : SolanaIntent → Except EncodeError Bytes :=
  encodeBurnIntent 0xca85def7 0x070afbc2 u256beBytes

/-! ### Reading -/

/-- One decoded burn intent; the salt is not kept. -/
structure Intent where
  maxBlockHeight : Bytes32
  maxFee : Bytes32
  version : Uint32
  sourceDomain : Uint32
  destinationDomain : Uint32
  sourceContract : Bytes32
  destinationContract : Bytes32
  sourceToken : Bytes32
  destinationToken : Bytes32
  sourceDepositor : Bytes32
  destinationRecipient : Bytes32
  sourceSigner : Bytes32
  destinationCaller : Bytes32
  value : Bytes32
  deriving DecidableEq

inductive ParseError
  | length (n : ℕ)
  | signingDomain
  | burnIntentMagic
  | specLength
  | transferSpecMagic
  | hookData
  deriving DecidableEq

def ParseError.text : ParseError → String
  | length n => "message is " ++ toString n ++ " bytes; one hook-free burn intent is 428"
  | signingDomain => "missing the burn-intent signing-domain prefix"
  | burnIntentMagic => "not a burn intent (magic)"
  | specLength => "transfer spec length"
  | transferSpecMagic => "not a transfer spec (magic)"
  | hookData => "hook data must be empty"

/-- `u32::from_be_bytes(msg[o..o + 4])` -/
def u32At (msg : Bytes) (o : ℕ) : Uint32 := BitVec.ofNat 32 (beNat ((msg.drop o).take 4))

/-- `parse_message`; every read is inside the length that is checked first. -/
def parseMessage (msg : Bytes) : Except ParseError Intent := do
  require (msg.length = 16 + 4 + 32 + 32 + 4 + 340) (.length msg.length)
  require (msg.take 16 = SIGNING_DOMAIN) .signingDomain
  let o := 16
  require (u32At msg o = BURN_INTENT_MAGIC) .burnIntentMagic
  let o := o + 4
  let maxBlockHeight := wordAt msg o
  let o := o + 32
  let maxFee := wordAt msg o
  let o := o + 32
  require (u32At msg o = 340) .specLength
  let o := o + 4
  require (u32At msg o = TRANSFER_SPEC_MAGIC) .transferSpecMagic
  let version := u32At msg (o + 4)
  let sourceDomain := u32At msg (o + 8)
  let destinationDomain := u32At msg (o + 12)
  let o := o + 16
  let words := fun i => wordAt msg (o + 32 * i)
  let o := o + 32 * 10
  require (u32At msg o = 0) .hookData
  pure {
    maxBlockHeight, maxFee, version, sourceDomain, destinationDomain
    sourceContract := words 0
    destinationContract := words 1
    sourceToken := words 2
    destinationToken := words 3
    sourceDepositor := words 4
    destinationRecipient := words 5
    sourceSigner := words 6
    destinationCaller := words 7
    value := words 8 }

/-! ### Fields and offsets -/

/-- The widths of the fields of a message. -/
def layout : List ℕ :=
  [16, 4, 32, 32, 4, 4, 4, 4, 4, 32, 32, 32, 32, 32, 32, 32, 32, 32, 32, 4]

/-- A field, read at its offset. -/
theorem take_drop_flatten {fs : List Bytes} {ws : List ℕ} (h : fs.map List.length = ws)
    (k w : ℕ) (hw : ws[k]? = some w) :
    (fs.flatten.drop (ws.take k).sum).take w = fs.getD k [] := by
  subst h
  rw [List.getElem?_map, Option.map_eq_some_iff] at hw
  obtain ⟨f, hf, rfl⟩ := hw
  obtain ⟨hk, hget⟩ := List.getElem?_eq_some_iff.mp hf
  have hsum : ((fs.map List.length).take (k + 1)).sum
      = ((fs.map List.length).take k).sum + f.length := by
    rw [List.take_add_one, List.sum_append, List.getElem?_map, hf]
    simp
  have := List.drop_take_succ_flatten_eq_getElem fs k hk
  rw [hsum, hget, List.drop_take, Nat.add_sub_cancel_left] at this
  rw [List.getD_eq_getElem?_getD, hf, Option.getD_some, this]

section

variable {fs : List Bytes} (hfs : fs.map List.length = layout)

include hfs

theorem u32At_flatten (k o : ℕ) (ho : (layout.take k).sum = o) (hw : layout[k]? = some 4) :
    u32At fs.flatten o = BitVec.ofNat 32 (beNat (fs.getD k [])) := by
  rw [u32At, ← ho, take_drop_flatten hfs k 4 hw]

theorem wordAt_flatten (k o : ℕ) (ho : (layout.take k).sum = o) (hw : layout[k]? = some 32) :
    wordAt fs.flatten o = BitVec.ofNat 256 (beNat (fs.getD k [])) := by
  rw [wordAt, ← ho, take_drop_flatten hfs k 32 hw]

theorem length_getD (k w : ℕ) (hw : layout[k]? = some w) : (fs.getD k []).length = w := by
  rw [← hfs, List.getElem?_map, Option.map_eq_some_iff] at hw
  obtain ⟨f, hf, rfl⟩ := hw
  rw [List.getD_eq_getElem?_getD, hf, Option.getD_some]

end

/-- The words a record is read as. -/
def readFields (fs : List Bytes) : Intent :=
  let u32 := fun k => BitVec.ofNat 32 (beNat (fs.getD k []))
  let word := fun k => BitVec.ofNat 256 (beNat (fs.getD k []))
  { maxBlockHeight := word 2, maxFee := word 3, version := u32 6, sourceDomain := u32 7
    destinationDomain := u32 8, sourceContract := word 9, destinationContract := word 10
    sourceToken := word 11, destinationToken := word 12, sourceDepositor := word 13
    destinationRecipient := word 14, sourceSigner := word 15, destinationCaller := word 16
    value := word 17 }

/-- What the reader checks of a record. -/
structure Framed (fs : List Bytes) : Prop where
  layout : fs.map List.length = layout
  signingDomain : fs.getD 0 [] = SIGNING_DOMAIN
  burnIntentMagic : BitVec.ofNat 32 (beNat (fs.getD 1 [])) = BURN_INTENT_MAGIC
  specLength : BitVec.ofNat 32 (beNat (fs.getD 4 [])) = (340 : Uint32)
  transferSpecMagic : BitVec.ofNat 32 (beNat (fs.getD 5 [])) = TRANSFER_SPEC_MAGIC
  hookData : BitVec.ofNat 32 (beNat (fs.getD 19 [])) = (0 : Uint32)

/-- **The reader, field by field.** -/
theorem parseMessage_flatten {fs : List Bytes} (hfs : fs.map List.length = layout) {i : Intent} :
    parseMessage fs.flatten = .ok i ↔ Framed fs ∧ i = readFields fs := by
  have hlen : fs.flatten.length = 428 := by
    rw [List.length_flatten, hfs]
    rfl
  have hdomain : fs.flatten.take 16 = fs.getD 0 [] := take_drop_flatten hfs 0 16 rfl
  have hwords : ∀ j, layout[9 + j]? = some 32 → (layout.take (9 + j)).sum = 104 + 32 * j →
      wordAt fs.flatten (16 + 4 + 32 + 32 + 4 + 16 + 32 * j)
        = BitVec.ofNat 256 (beNat (fs.getD (9 + j) [])) := by
    intro j hw ho
    exact wordAt_flatten hfs (9 + j) _ ho hw
  simp only [parseMessage, bind_eq_ok, require_eq_ok, exists_const, pure_eq_ok, hlen, true_and,
    hdomain, u32At_flatten hfs 1 16 rfl rfl, u32At_flatten hfs 4 (16 + 4 + 32 + 32) rfl rfl,
    u32At_flatten hfs 5 (16 + 4 + 32 + 32 + 4) rfl rfl,
    u32At_flatten hfs 6 (16 + 4 + 32 + 32 + 4 + 4) rfl rfl,
    u32At_flatten hfs 7 (16 + 4 + 32 + 32 + 4 + 8) rfl rfl,
    u32At_flatten hfs 8 (16 + 4 + 32 + 32 + 4 + 12) rfl rfl,
    u32At_flatten hfs 19 (16 + 4 + 32 + 32 + 4 + 16 + 32 * 10) rfl rfl,
    wordAt_flatten hfs 2 (16 + 4) rfl rfl, wordAt_flatten hfs 3 (16 + 4 + 32) rfl rfl,
    hwords 0 rfl rfl, hwords 1 rfl rfl, hwords 2 rfl rfl, hwords 3 rfl rfl, hwords 4 rfl rfl,
    hwords 5 rfl rfl, hwords 6 rfl rfl, hwords 7 rfl rfl, hwords 8 rfl rfl]
  constructor
  · intro h
    obtain ⟨h0, h1, h4, h5, h19, rfl⟩ := h
    exact ⟨⟨hfs, h0, h1, h4, h5, h19⟩, rfl⟩
  · intro h
    obtain ⟨h, rfl⟩ := h
    exact ⟨h.signingDomain, h.burnIntentMagic, h.specLength, h.transferSpecMagic, h.hookData, rfl⟩

/-! ### The fields of an intent -/

/-- The 32-byte words of a spec. -/
def SolanaSpec.words (s : SolanaSpec) : List String :=
  [s.sourceContract, s.destinationContract, s.sourceToken, s.destinationToken, s.sourceDepositor,
    s.destinationRecipient, s.sourceSigner, s.destinationCaller, s.salt]

/-- Words of 32 bytes, and integers in the range of their width. -/
structure SolanaIntent.InRange (bi : SolanaIntent) : Prop where
  maxBlockHeight : 0 ≤ bi.maxBlockHeight ∧ bi.maxBlockHeight < 2 ^ 256
  maxFee : 0 ≤ bi.maxFee ∧ bi.maxFee < 2 ^ 256
  version : 0 ≤ bi.spec.version ∧ bi.spec.version < 2 ^ 32
  sourceDomain : 0 ≤ bi.spec.sourceDomain ∧ bi.spec.sourceDomain < 2 ^ 32
  destinationDomain : 0 ≤ bi.spec.destinationDomain ∧ bi.spec.destinationDomain < 2 ^ 32
  value : 0 ≤ bi.spec.value ∧ bi.spec.value < 2 ^ 256
  words : ∀ w ∈ bi.spec.words, (hexBytes w).length = 32

def SolanaIntent.HookFree (bi : SolanaIntent) : Prop := hexBytes bi.spec.hookData = []

/-- The fields of the message of an intent, with its signing domain. -/
def SolanaIntent.fields (bi : SolanaIntent) : List Bytes :=
  [SIGNING_DOMAIN, beBytes 4 BURN_INTENT_MAGIC.toNat, beBytes 32 bi.maxBlockHeight.toNat,
    beBytes 32 bi.maxFee.toNat, beBytes 4 340, beBytes 4 TRANSFER_SPEC_MAGIC.toNat,
    beBytes 4 bi.spec.version.toNat, beBytes 4 bi.spec.sourceDomain.toNat,
    beBytes 4 bi.spec.destinationDomain.toNat, hexBytes bi.spec.sourceContract,
    hexBytes bi.spec.destinationContract, hexBytes bi.spec.sourceToken,
    hexBytes bi.spec.destinationToken, hexBytes bi.spec.sourceDepositor,
    hexBytes bi.spec.destinationRecipient, hexBytes bi.spec.sourceSigner,
    hexBytes bi.spec.destinationCaller, beBytes 32 bi.spec.value.toNat, hexBytes bi.spec.salt,
    beBytes 4 0]

theorem beBytes_add (m k x : ℕ) : beBytes (m + k) x = beBytes m (x / 256 ^ k) ++ beBytes k x := by
  apply beNat_inj
  · simp
  · rw [beNat_append, beNat_beBytes, beNat_beBytes, beNat_beBytes, beBytes_length, pow_add,
      Nat.mul_comm (256 ^ m), Nat.mod_mul]
    ring

theorem u64be_natCast (n : ℕ) : u64be n = beBytes 8 n := by
  rw [u64be]
  apply beNat_inj
  · simp
  · have hcast : ((n : ℤ) % 2 ^ 64).toNat = n % 2 ^ 64 := by omega
    rw [beNat_beBytes, beNat_beBytes, hcast, show (256 : ℕ) ^ 8 = 2 ^ 64 by norm_num, Nat.mod_mod]

theorem u64be_shiftRight (n k : ℕ) : u64be ((n : ℤ) >>> (8 * k : ℕ)) = beBytes 8 (n / 256 ^ k) := by
  have hshift : ((n : ℤ) >>> (8 * k : ℕ)) = ((n / 256 ^ k : ℕ) : ℤ) := by
    rw [Int.shiftRight_eq_div_pow, pow_mul]
    norm_cast
  rw [hshift, u64be_natCast]

theorem u256be_natCast (n : ℕ) : u256be n = beBytes 32 n := by
  have h24 := u64be_shiftRight n 24
  have h16 := u64be_shiftRight n 16
  have h8 := u64be_shiftRight n 8
  rw [u256be, h24, h16, h8, u64be_natCast, show 32 = 8 + (8 + (8 + 8)) from rfl, beBytes_add 8,
    beBytes_add 8 (8 + 8), beBytes_add 8 8]
  simp only [List.append_assoc]

/-- The checked encoder writes what the other does. -/
theorem u256beBytes_eq {v : ℤ} (h : 0 ≤ v ∧ v < 2 ^ 256) : u256beBytes v = .ok (u256be v) := by
  have hshift : v >>> (256 : ℕ) = 0 := by
    rw [Int.shiftRight_eq_div_pow]
    exact Int.ediv_eq_zero_of_lt h.1 h.2
  rw [u256beBytes, require_of ⟨h.1, hshift⟩]
  show Except.ok _ = _
  have hrange : List.range 4 = [0, 1, 2, 3] := rfl
  rw [hrange, u256be]
  simp [List.flatMap_cons]

theorem u256be_eq {v : ℤ} (h : 0 ≤ v) : u256be v = beBytes 32 v.toNat := by
  rw [← u256be_natCast, Int.toNat_of_nonneg h]

theorem u32be_eq {v : ℤ} (h : 0 ≤ v ∧ v < 2 ^ 32) : u32be v = .ok (beBytes 4 v.toNat) := by
  rw [u32be, require_of h]
  rfl

section

variable {bi : SolanaIntent} (hbi : bi.InRange)

include hbi

theorem SolanaIntent.InRange.layout : bi.fields.map List.length = Delegate.layout := by
  have hwords := hbi.words
  simp only [SolanaSpec.words, List.mem_cons, List.not_mem_nil, or_false, forall_eq_or_imp,
    forall_eq] at hwords
  obtain ⟨h1, h2, h3, h4, h5, h6, h7, h8, h9⟩ := hwords
  simp only [SolanaIntent.fields, List.map_cons, List.map_nil, beBytes_length, h1, h2, h3, h4, h5,
    h6, h7, h8, h9]
  rfl

/-- A transfer spec without hook data has 340 bytes. -/
theorem encodeTransferSpec_eq (hfree : bi.HookFree) {u256 : ℤ → Except EncodeError Bytes}
    (hu : ∀ v : ℤ, 0 ≤ v ∧ v < 2 ^ 256 → u256 v = .ok (u256be v)) :
    encodeTransferSpec 0xca85def7 u256 bi.spec = .ok (bi.fields.drop 5).flatten
      ∧ (bi.fields.drop 5).flatten.length = 340 := by
  have hlen : (bi.fields.drop 5).flatten.length = 340 := by
    rw [List.length_flatten, List.map_drop, hbi.layout]
    rfl
  have hspec : u32be 0xca85def7 = .ok (beBytes 4 TRANSFER_SPEC_MAGIC.toNat) :=
    u32be_eq (by norm_num)
  have hnil : hexBytes bi.spec.hookData = [] := hfree
  have hzero : u32be (([] : Bytes).length : ℤ) = .ok (beBytes 4 0) := u32be_eq (by norm_num)
  refine ⟨?_, hlen⟩
  rw [encodeTransferSpec, hspec, ok_bind, u32be_eq hbi.version, ok_bind, u32be_eq hbi.sourceDomain,
    ok_bind, u32be_eq hbi.destinationDomain, ok_bind, hu _ hbi.value, ok_bind,
    u256be_eq hbi.value.1, hnil, hzero, ok_bind]
  -- the empty hook data is the only difference to the fields
  have hflat : ((bi.fields.drop 5) ++ [[]]).flatten = (bi.fields.drop 5).flatten := by
    rw [List.flatten_append, List.flatten_cons, List.flatten_nil, List.append_nil, List.append_nil]
  show (require (((bi.fields.drop 5) ++ [[]]).flatten.length = 340 + 0) _ >>=
    fun _ => pure ((bi.fields.drop 5) ++ [[]]).flatten) = _
  rw [hflat, require_of hlen]
  rfl

/-- **The encoders write the fields of the intent.** -/
theorem encodeBurnIntent_eq (hfree : bi.HookFree) {u256 : ℤ → Except EncodeError Bytes}
    (hu : ∀ v : ℤ, 0 ≤ v ∧ v < 2 ^ 256 → u256 v = .ok (u256be v)) :
    encodeBurnIntent 0xca85def7 0x070afbc2 u256 bi = .ok bi.fields.tail.flatten := by
  obtain ⟨hspec, hlen⟩ := encodeTransferSpec_eq hbi hfree hu
  have h340 : u32be ((340 : ℕ) : ℤ) = .ok (beBytes 4 340) := u32be_eq (by norm_num)
  have hburn : u32be 0x070afbc2 = .ok (beBytes 4 BURN_INTENT_MAGIC.toNat) :=
    u32be_eq (by norm_num)
  rw [encodeBurnIntent, hspec, ok_bind, hburn, ok_bind, hu _ hbi.maxBlockHeight, ok_bind,
    hu _ hbi.maxFee, ok_bind, hlen, h340, ok_bind, u256be_eq hbi.maxBlockHeight.1,
    u256be_eq hbi.maxFee.1]
  simp only [SolanaIntent.fields, List.tail_cons, List.drop_succ_cons, List.drop_zero,
    List.flatten_cons, List.flatten_nil, List.append_nil]
  rfl

end

theorem encodeSolanaIntent_eq {bi : SolanaIntent} (hbi : bi.InRange) (hfree : bi.HookFree) :
    encodeSolanaIntent bi = .ok bi.fields.tail.flatten :=
  encodeBurnIntent_eq hbi hfree (fun _ _ => rfl)

theorem encodeIntent_eq {bi : SolanaIntent} (hbi : bi.InRange) (hfree : bi.HookFree) :
    encodeIntent bi = .ok bi.fields.tail.flatten :=
  encodeBurnIntent_eq hbi hfree (fun _ hv => u256beBytes_eq hv)

/-! ### The round trip -/

/-- The word that a text spells. -/
def wordOf (hex : String) : Bytes32 := BitVec.ofNat 256 (beNat (hexBytes hex))

/-- The fields of an intent as the reader returns them. -/
def SolanaIntent.decoded (bi : SolanaIntent) : Intent where
  maxBlockHeight := BitVec.ofInt 256 bi.maxBlockHeight
  maxFee := BitVec.ofInt 256 bi.maxFee
  version := BitVec.ofInt 32 bi.spec.version
  sourceDomain := BitVec.ofInt 32 bi.spec.sourceDomain
  destinationDomain := BitVec.ofInt 32 bi.spec.destinationDomain
  sourceContract := wordOf bi.spec.sourceContract
  destinationContract := wordOf bi.spec.destinationContract
  sourceToken := wordOf bi.spec.sourceToken
  destinationToken := wordOf bi.spec.destinationToken
  sourceDepositor := wordOf bi.spec.sourceDepositor
  destinationRecipient := wordOf bi.spec.destinationRecipient
  sourceSigner := wordOf bi.spec.sourceSigner
  destinationCaller := wordOf bi.spec.destinationCaller
  value := BitVec.ofInt 256 bi.spec.value

theorem ofNat_beNat_beBytes (n x : ℕ) :
    BitVec.ofNat (8 * n) (beNat (beBytes n x)) = BitVec.ofNat (8 * n) x := by
  apply BitVec.eq_of_toNat_eq
  rw [BitVec.toNat_ofNat, BitVec.toNat_ofNat, beNat_beBytes, show (256 : ℕ) = 2 ^ 8 by norm_num,
    ← pow_mul, Nat.mod_mod]

theorem ofInt_beBytes (n : ℕ) {v : ℤ} (h : 0 ≤ v) :
    BitVec.ofNat (8 * n) (beNat (beBytes n v.toNat)) = BitVec.ofInt (8 * n) v := by
  rw [ofNat_beNat_beBytes, ← BitVec.ofInt_natCast, Int.toNat_of_nonneg h]

theorem SolanaIntent.InRange.framed {bi : SolanaIntent} (hbi : bi.InRange) : Framed bi.fields where
  layout := hbi.layout
  signingDomain := rfl
  burnIntentMagic := ofNat_beNat_beBytes 4 _
  specLength := ofNat_beNat_beBytes 4 _
  transferSpecMagic := ofNat_beNat_beBytes 4 _
  hookData := ofNat_beNat_beBytes 4 _

theorem SolanaIntent.InRange.readFields {bi : SolanaIntent} (hbi : bi.InRange) :
    readFields bi.fields = bi.decoded := by
  have hheight := ofInt_beBytes 32 hbi.maxBlockHeight.1
  have hfee := ofInt_beBytes 32 hbi.maxFee.1
  have hversion := ofInt_beBytes 4 hbi.version.1
  have hsource := ofInt_beBytes 4 hbi.sourceDomain.1
  have hdestination := ofInt_beBytes 4 hbi.destinationDomain.1
  have hvalue := ofInt_beBytes 32 hbi.value.1
  rw [Delegate.readFields, SolanaIntent.decoded, ← hheight, ← hfee, ← hversion, ← hsource,
    ← hdestination, ← hvalue]
  rfl

theorem parseMessage_fields {bi : SolanaIntent} (hbi : bi.InRange) :
    parseMessage (SIGNING_DOMAIN ++ bi.fields.tail.flatten) = .ok bi.decoded := by
  rw [← hbi.readFields]
  exact (parseMessage_flatten hbi.layout).mpr ⟨hbi.framed, rfl⟩

/-! ### The encoder is one to one -/

/-- What an intent says: its numbers, and the bytes of its words. -/
def SolanaIntent.contents (bi : SolanaIntent) : List ℤ × List Bytes :=
  ([bi.maxBlockHeight, bi.maxFee, bi.spec.version, bi.spec.sourceDomain, bi.spec.destinationDomain,
    bi.spec.value], bi.spec.words.map hexBytes)

theorem beBytes_toNat_inj {n : ℕ} {v w : ℤ} (hv : 0 ≤ v ∧ v < 256 ^ n) (hw : 0 ≤ w ∧ w < 256 ^ n)
    (h : beBytes n v.toNat = beBytes n w.toNat) : v = w := by
  have hnat := congrArg beNat h
  have hlt : ∀ x : ℤ, 0 ≤ x ∧ x < 256 ^ n → x.toNat < 256 ^ n := by
    intro x hx
    have := (Int.toNat_lt hx.1).mpr (show x < ((256 ^ n : ℕ) : ℤ) by push_cast; exact hx.2)
    exact this
  rw [beNat_beBytes, beNat_beBytes, Nat.mod_eq_of_lt (hlt v hv), Nat.mod_eq_of_lt (hlt w hw)] at hnat
  omega

theorem contents_eq_of_fields {a b : SolanaIntent} (ha : a.InRange) (hb : b.InRange)
    (h : a.fields = b.fields) : a.contents = b.contents := by
  simp only [SolanaIntent.fields, List.cons.injEq, true_and, and_true] at h
  obtain ⟨hheight, hfee, hversion, hsource, hdestination, h1, h2, h3, h4, h5, h6, h7, h8, hvalue,
    h9⟩ := h
  have h32 : (256 : ℤ) ^ 4 = 2 ^ 32 := by norm_num
  have h256 : (256 : ℤ) ^ 32 = 2 ^ 256 := by norm_num
  simp only [SolanaIntent.contents, SolanaSpec.words, List.map_cons, List.map_nil, Prod.mk.injEq,
    List.cons.injEq, and_true]
  exact ⟨⟨beBytes_toNat_inj (h256 ▸ ha.maxBlockHeight) (h256 ▸ hb.maxBlockHeight) hheight,
    beBytes_toNat_inj (h256 ▸ ha.maxFee) (h256 ▸ hb.maxFee) hfee,
    beBytes_toNat_inj (h32 ▸ ha.version) (h32 ▸ hb.version) hversion,
    beBytes_toNat_inj (h32 ▸ ha.sourceDomain) (h32 ▸ hb.sourceDomain) hsource,
    beBytes_toNat_inj (h32 ▸ ha.destinationDomain) (h32 ▸ hb.destinationDomain) hdestination,
    beBytes_toNat_inj (h256 ▸ ha.value) (h256 ▸ hb.value) hvalue⟩,
    h1, h2, h3, h4, h5, h6, h7, h8, h9⟩

theorem fields_eq_of_encode {a b : SolanaIntent} (ha : a.InRange) (hb : b.InRange)
    (h : a.fields.tail.flatten = b.fields.tail.flatten) : a.fields = b.fields := by
  refine List.eq_iff_flatten_eq.mpr ⟨?_, ha.layout.trans hb.layout.symm⟩
  exact congrArg (SIGNING_DOMAIN ++ ·) h

/-! ### What the reader accepts -/

/-- A byte as two digits. -/
def hexPair (c : UInt8) : List Char :=
  [hexDigits.getD (c.toNat / 16) '0', hexDigits.getD (c.toNat % 16) '0']

/-- Bytes as text. -/
def hexText (b : Bytes) : String := String.ofList ('0' :: 'x' :: b.flatMap hexPair)

theorem hexValue_hexDigits : ∀ n < 16, hexValue (hexDigits.getD n '0') = n := by decide

theorem bufferFromHex_hexPair (c : UInt8) (rest : List Char) :
    bufferFromHex (hexPair c ++ rest) = c :: bufferFromHex rest := by
  have hc := c.toNat_lt
  have hhigh := hexValue_hexDigits (c.toNat / 16) (by omega)
  have hlow := hexValue_hexDigits (c.toNat % 16) (by omega)
  have hbyte : UInt8.ofNat (16 * (c.toNat / 16) + c.toNat % 16) = c := by
    rw [Nat.div_add_mod]
    exact UInt8.ofNat_toNat
  rw [hexPair, List.cons_append, List.cons_append, List.nil_append, bufferFromHex, hhigh, hlow,
    if_pos ⟨by omega, by omega⟩, hbyte]

theorem hexBytes_hexText (b : Bytes) : hexBytes (hexText b) = b := by
  rw [hexBytes, hexText, String.toList_ofList]
  show bufferFromHex (b.flatMap hexPair) = b
  induction b with
  | nil => rfl
  | cons c b ih => rw [List.flatMap_cons, bufferFromHex_hexPair, ih]

/-- The intent whose message is a record. -/
def intentOf (fs : List Bytes) : SolanaIntent where
  maxBlockHeight := beNat (fs.getD 2 [])
  maxFee := beNat (fs.getD 3 [])
  spec := {
    version := beNat (fs.getD 6 [])
    sourceDomain := beNat (fs.getD 7 [])
    destinationDomain := beNat (fs.getD 8 [])
    sourceContract := hexText (fs.getD 9 [])
    destinationContract := hexText (fs.getD 10 [])
    sourceToken := hexText (fs.getD 11 [])
    destinationToken := hexText (fs.getD 12 [])
    sourceDepositor := hexText (fs.getD 13 [])
    destinationRecipient := hexText (fs.getD 14 [])
    sourceSigner := hexText (fs.getD 15 [])
    destinationCaller := hexText (fs.getD 16 [])
    value := beNat (fs.getD 17 [])
    salt := hexText (fs.getD 18 [])
    hookData := "0x" }

theorem natCast_beNat_lt {b : Bytes} {n m : ℕ} (h : b.length = n) (hm : 8 * n = m) :
    0 ≤ (beNat b : ℤ) ∧ (beNat b : ℤ) < 2 ^ m := by
  have hlt := beNat_lt b
  rw [h, show (256 : ℕ) = 2 ^ 8 by norm_num, ← pow_mul, hm] at hlt
  refine ⟨Int.natCast_nonneg _, ?_⟩
  exact_mod_cast hlt

theorem beBytes_of_ofNat {b : Bytes} {n : ℕ} {w : BitVec (8 * n)} (hlen : b.length = n)
    (h : BitVec.ofNat (8 * n) (beNat b) = w) : beBytes n w.toNat = b := by
  have hlt := beNat_lt b
  rw [hlen, show (256 : ℕ) = 2 ^ 8 by norm_num, ← pow_mul] at hlt
  rw [← h, BitVec.toNat_ofNat, Nat.mod_eq_of_lt hlt, ← hlen, beBytes_beNat]

theorem intentOf_hookFree (fs : List Bytes) : (intentOf fs).HookFree := by
  show hexBytes "0x" = []
  decide

theorem intentOf_inRange {fs : List Bytes} (hfs : fs.map List.length = layout) :
    (intentOf fs).InRange where
  maxBlockHeight := natCast_beNat_lt (length_getD hfs 2 32 rfl) rfl
  maxFee := natCast_beNat_lt (length_getD hfs 3 32 rfl) rfl
  version := natCast_beNat_lt (length_getD hfs 6 4 rfl) rfl
  sourceDomain := natCast_beNat_lt (length_getD hfs 7 4 rfl) rfl
  destinationDomain := natCast_beNat_lt (length_getD hfs 8 4 rfl) rfl
  value := natCast_beNat_lt (length_getD hfs 17 32 rfl) rfl
  words := by
    simp only [SolanaSpec.words, intentOf, List.mem_cons, List.not_mem_nil, or_false,
      forall_eq_or_imp, forall_eq, hexBytes_hexText]
    exact ⟨length_getD hfs 9 32 rfl, length_getD hfs 10 32 rfl, length_getD hfs 11 32 rfl,
      length_getD hfs 12 32 rfl, length_getD hfs 13 32 rfl, length_getD hfs 14 32 rfl,
      length_getD hfs 15 32 rfl, length_getD hfs 16 32 rfl, length_getD hfs 18 32 rfl⟩

theorem eq_map_getD (fs : List Bytes) : fs = (List.range fs.length).map (fun k => fs.getD k []) := by
  apply List.ext_getElem
  · simp
  · intro k hk _
    simp [List.getElem?_eq_getElem hk]

/-- **A record that the reader accepts is that of an intent.** -/
theorem intentOf_fields {fs : List Bytes} (h : Framed fs) : (intentOf fs).fields = fs := by
  have hfs := h.layout
  have hlen : fs.length = 20 := by
    have := congrArg List.length hfs
    rw [List.length_map] at this
    exact this
  have hnumber : ∀ k n, layout[k]? = some n →
      beBytes n ((beNat (fs.getD k []) : ℕ) : ℤ).toNat = fs.getD k [] := by
    intro k n hk
    rw [Int.toNat_natCast, ← length_getD hfs k n hk, beBytes_beNat]
  have hmagic : beBytes 4 BURN_INTENT_MAGIC.toNat = fs.getD 1 [] :=
    beBytes_of_ofNat (length_getD hfs 1 4 rfl) h.burnIntentMagic
  have hspecLength : beBytes 4 (340 : Uint32).toNat = fs.getD 4 [] :=
    beBytes_of_ofNat (length_getD hfs 4 4 rfl) h.specLength
  have hspecMagic : beBytes 4 TRANSFER_SPEC_MAGIC.toNat = fs.getD 5 [] :=
    beBytes_of_ofNat (length_getD hfs 5 4 rfl) h.transferSpecMagic
  have hhook : beBytes 4 (0 : Uint32).toNat = fs.getD 19 [] :=
    beBytes_of_ofNat (length_getD hfs 19 4 rfl) h.hookData
  have h340 : (340 : Uint32).toNat = 340 := rfl
  have h0 : (0 : Uint32).toNat = 0 := rfl
  rw [h340] at hspecLength
  rw [h0] at hhook
  conv_rhs => rw [eq_map_getD fs, hlen]
  simp only [SolanaIntent.fields, intentOf, hexBytes_hexText, hnumber 2 32 rfl, hnumber 3 32 rfl,
    hnumber 6 4 rfl, hnumber 7 4 rfl, hnumber 8 4 rfl, hnumber 17 32 rfl, ← h.signingDomain,
    hmagic, hspecLength, hspecMagic, hhook]
  rfl

/-- **The reader accepts the messages of the intents without hook data, and nothing else.** -/
theorem accepts_iff (msg : Bytes) :
    (∃ i, parseMessage msg = .ok i) ↔
      ∃ bi : SolanaIntent, ∃ e, bi.InRange ∧ bi.HookFree ∧ encodeSolanaIntent bi = .ok e
        ∧ msg = SIGNING_DOMAIN ++ e := by
  constructor
  · intro h
    obtain ⟨i, hi⟩ := h
    have hlen : msg.length = layout.sum := by
      have hparse := hi
      simp only [parseMessage, bind_eq_ok, require_eq_ok, exists_const] at hparse
      exact hparse.1
    have hfs := List.map_splitLengths_length msg layout hlen.ge
    have hflat := List.flatten_splitLengths msg layout hlen.le
    rw [← hflat, parseMessage_flatten hfs] at hi
    have hinRange := intentOf_inRange hfs
    have hfields := intentOf_fields hi.1
    refine ⟨intentOf (layout.splitLengths msg), _, hinRange, intentOf_hookFree _,
      encodeSolanaIntent_eq hinRange (intentOf_hookFree _), ?_⟩
    have hflat' := congrArg List.flatten hfields
    rw [hflat] at hflat'
    exact hflat'.symm
  · intro h
    obtain ⟨bi, e, hinRange, hfree, he, rfl⟩ := h
    rw [encodeSolanaIntent_eq hinRange hfree] at he
    obtain rfl := Except.ok.inj he
    exact ⟨_, parseMessage_fields hinRange⟩

/-! ### Hook data -/

theorem u256be_length (v : ℤ) : (u256be v).length = 32 := by
  simp [u256be, u64be]

theorem u32be_length {v : ℤ} {b : Bytes} (h : u32be v = .ok b) : b.length = 4 := by
  simp only [u32be, bind_eq_ok, require_eq_ok, exists_const, pure_eq_ok] at h
  rw [h.2, beBytes_length]

/-- The message of any intent that the encoder takes is as long as its hook data asks. -/
theorem encodeSolanaIntent_length {bi : SolanaIntent} {e : Bytes}
    (h : encodeSolanaIntent bi = .ok e) :
    e.length = 412 + (hexBytes bi.spec.hookData).length := by
  simp only [encodeSolanaIntent, encodeBurnIntent, bind_eq_ok, pure_eq_ok] at h
  obtain ⟨spec, hspec, burn, hburn, height, rfl, fee, rfl, len, hlen, rfl⟩ := h
  have hlength : spec.length = 340 + (hexBytes bi.spec.hookData).length := by
    simp only [encodeTransferSpec, bind_eq_ok, require_eq_ok, exists_const, pure_eq_ok] at hspec
    obtain ⟨_, _, _, _, _, _, _, _, _, _, _, _, hcheck, rfl⟩ := hspec
    exact hcheck
  simp only [List.length_flatten, List.map_cons, List.map_nil, List.sum_cons, List.sum_nil,
    u256be_length, u32be_length hburn, u32be_length hlen, hlength]
  omega

theorem parseMessage_hook {bi : SolanaIntent} {e : Bytes} (hhook : hexBytes bi.spec.hookData ≠ [])
    (h : encodeSolanaIntent bi = .ok e) : ∀ i, parseMessage (SIGNING_DOMAIN ++ e) ≠ .ok i := by
  intro i hi
  simp only [parseMessage, bind_eq_ok, require_eq_ok, exists_const] at hi
  have hlen := hi.1
  rw [List.length_append, encodeSolanaIntent_length h] at hlen
  have hdomain : SIGNING_DOMAIN.length = 16 := rfl
  have hpos := List.length_pos_iff.mpr hhook
  omega

/-! ### Agreement -/

/-- **The encoders and the reader agree.**  The reader gives back the fields of every
intent without hook data; the encoder is one to one; the reader accepts the messages of
such intents and nothing else, so none of an intent with hook data; and the other
encoder writes the same bytes. -/
theorem solanaCodec_agrees :
    (∀ bi : SolanaIntent, bi.InRange → bi.HookFree →
      ∃ e, encodeSolanaIntent bi = .ok e ∧ parseMessage (SIGNING_DOMAIN ++ e) = .ok bi.decoded)
    ∧ (∀ a b : SolanaIntent, a.InRange → a.HookFree → b.InRange → b.HookFree →
      encodeSolanaIntent a = encodeSolanaIntent b → a.contents = b.contents)
    ∧ (∀ msg, (∃ i, parseMessage msg = .ok i) ↔
      ∃ bi : SolanaIntent, ∃ e, bi.InRange ∧ bi.HookFree ∧ encodeSolanaIntent bi = .ok e
        ∧ msg = SIGNING_DOMAIN ++ e)
    ∧ (∀ (bi : SolanaIntent) (e : Bytes), hexBytes bi.spec.hookData ≠ [] →
      encodeSolanaIntent bi = .ok e → ∀ i, parseMessage (SIGNING_DOMAIN ++ e) ≠ .ok i)
    ∧ (∀ bi : SolanaIntent, bi.InRange → bi.HookFree → encodeIntent bi = encodeSolanaIntent bi) := by
  refine ⟨?_, ?_, accepts_iff, ?_, ?_⟩
  · intro bi hbi hfree
    exact ⟨_, encodeSolanaIntent_eq hbi hfree, parseMessage_fields hbi⟩
  · intro a b ha hfreeA hb hfreeB h
    rw [encodeSolanaIntent_eq ha hfreeA, encodeSolanaIntent_eq hb hfreeB] at h
    exact contents_eq_of_fields ha hb (fields_eq_of_encode ha hb (Except.ok.inj h))
  · intro bi e hhook h
    exact parseMessage_hook hhook h
  · intro bi hbi hfree
    rw [encodeIntent_eq hbi hfree, encodeSolanaIntent_eq hbi hfree]

/-- One dollar from Solana to Arc. -/
def payout : SolanaIntent where
  maxBlockHeight := 3035000
  maxFee := 2010000
  spec := {
    version := 1
    sourceDomain := 5
    destinationDomain := 26
    sourceContract := hexText (List.replicate 32 0x77)
    destinationContract := hexText (List.replicate 12 0 ++ List.replicate 20 0x22)
    sourceToken := hexText (List.replicate 32 0x55)
    destinationToken := hexText (List.replicate 12 0 ++ List.replicate 20 0x36)
    sourceDepositor := hexText (List.replicate 32 0xd0)
    destinationRecipient := hexText (List.replicate 12 0 ++ List.replicate 20 0xf7)
    sourceSigner := hexText (List.replicate 32 0x9e)
    destinationCaller := hexText (List.replicate 32 0)
    value := 1000000
    salt := hexText (List.replicate 32 0x5a)
    hookData := "0x" }

theorem payout_inRange : payout.InRange := by
  refine ⟨⟨by decide, by norm_num [payout]⟩, ⟨by decide, by norm_num [payout]⟩,
    ⟨by decide, by norm_num [payout]⟩, ⟨by decide, by norm_num [payout]⟩,
    ⟨by decide, by norm_num [payout]⟩, ⟨by decide, by norm_num [payout]⟩, ?_⟩
  simp [SolanaSpec.words, payout, hexBytes_hexText]

theorem payout_hookFree : payout.HookFree := by
  show hexBytes "0x" = []
  decide

/-- The same payment under another salt. -/
def secondPayout : SolanaIntent :=
  { payout with spec := { payout.spec with salt := hexText (List.replicate 32 0x5b) } }

def hookedPayout : SolanaIntent :=
  { payout with spec := { payout.spec with hookData := "0xabcd" } }

/-- Only the encoder takes hook data. -/
theorem solanaCodec_agrees_payout :
    (∃ e, encodeSolanaIntent payout = .ok e
      ∧ parseMessage (SIGNING_DOMAIN ++ e) = .ok payout.decoded
      ∧ encodeIntent payout = .ok e)
    ∧ encodeSolanaIntent payout ≠ encodeSolanaIntent secondPayout
    ∧ (¬ ∃ i, parseMessage SIGNING_DOMAIN = .ok i)
    ∧ ∃ e, encodeSolanaIntent hookedPayout = .ok e
      ∧ ∀ i, parseMessage (SIGNING_DOMAIN ++ e) ≠ .ok i := by
  obtain ⟨hround, hinj, haccepts, hhook, hsame⟩ := solanaCodec_agrees
  refine ⟨?_, ?_, ?_, ?_⟩
  · obtain ⟨e, he, hparse⟩ := hround payout payout_inRange payout_hookFree
    exact ⟨e, he, hparse, (hsame payout payout_inRange payout_hookFree).trans he⟩
  · intro heq
    have hrange : secondPayout.InRange := { payout_inRange with
      words := by simp [SolanaSpec.words, secondPayout, payout, hexBytes_hexText] }
    have hsalt := congrArg (fun c => c.2.getLast?)
      (hinj payout secondPayout payout_inRange payout_hookFree hrange payout_hookFree heq)
    simp [SolanaIntent.contents, SolanaSpec.words, payout, secondPayout, hexBytes_hexText] at hsalt
  · intro hparse
    obtain ⟨bi, e, -, -, he, hmsg⟩ := (haccepts SIGNING_DOMAIN).mp hparse
    have hlen := congrArg List.length hmsg
    rw [List.length_append, encodeSolanaIntent_length he] at hlen
    omega
  · have hbytes : hexBytes "0xabcd" = [0xab, 0xcd] := by decide
    have hsome : (encodeSolanaIntent hookedPayout).toOption.isSome = true := by
      simp only [encodeSolanaIntent, encodeBurnIntent, encodeTransferSpec, hookedPayout, payout,
        hexBytes_hexText, hbytes]
      decide +kernel
    obtain ⟨e, he⟩ := Option.isSome_iff_exists.mp hsome
    exact ⟨e, toOption_eq_some.mp he, hhook hookedPayout e (by decide) (toOption_eq_some.mp he)⟩

end Bufi.Delegate
