import Bufi.Delegate.Codec
import Bufi.Gateway.Rules
import Bufi.Send.Frost

/-!
# The policy of the FROST delegate

`check_policy` of `frost-delegate` is the intent policy once more, off chain: it reads
`policy.json` and refuses a burn intent before any share signs.  On chain the policy is
`BurnAllowed`, over sets that an account keeps.  On Solana a source word is not an
address, so the two are compared on `WordRules`: the rules of the chain with the source
words as they are, from which `BurnAllowed` differs in the format of the source token
alone (`burnAllowed_iff_words`).

Two rules are missing off chain.  A policy may name a minter that is zero, and a token
that does not have the shape of an address of its domain; `checked_of_checkPolicy` is
what is checked, and where the record of the domain is sound the rest follows.
-/

namespace Bufi.Delegate

open Bufi.Evm Bufi.Js Bufi.Gateway

/-! ### policy.json -/

structure Destination where
  domain : Uint32
  minter : String
  token : String
  recipients : List String
  callers : List String

structure Policy where
  depositor : String
  sourceDomain : Uint32
  sourceContract : String
  sourceToken : String
  perIntentCap : String
  maxFeeCap : String
  maxExpirySlots : BitVec 64
  destinations : List Destination

inductive PolicyError
  | badHex (s : String)
  | notBytes32 (s : String)
  | version
  | sourceDomain (got want : Uint32)
  | differs (what : String) (got : Bytes32) (want : String)
  | sourceSigner
  | perIntentCap
  | maxFeeCap
  | valueTooLarge
  | value (value cap : ℕ)
  | maxFeeTooLarge
  | maxFee (fee cap : ℕ)
  | maxBlockHeightTooLarge
  | maxBlockHeight (height slots now : ℕ)
  | destinationDomain (domain : Uint32)
  | recipient (got : Bytes32) (domain : Uint32)
  | destinationCaller (got : Bytes32)
  deriving DecidableEq

/-- `s.trim_start_matches("0x")` -/
def trimStart0x : List Char → List Char
  | '0' :: 'x' :: rest => trimStart0x rest
  | s => s

/-- `hex::decode`; `none` is a character that is no digit, or one too many. -/
def hexDecode : List Char → Option Bytes
  | [] => some []
  | [_] => none
  | a :: b :: rest =>
    if hexValue a < 16 ∧ hexValue b < 16 then
      (hexDecode rest).map (UInt8.ofNat (16 * hexValue a + hexValue b) :: ·)
    else none

def parseHex32 (s : String) : Except PolicyError Bytes32 := do
  let b ← orRevert (hexDecode (trimStart0x s.toList)) (.badHex s)
  require (b.length = 32) (.notBytes32 s)
  pure (BitVec.ofNat 256 (beNat b))

/-- `s.parse::<u128>()` -/
def parseU128 (s : String) : Option ℕ :=
  let digits := if s.toList.head? = some '+' then s.toList.tail else s.toList
  if digits ≠ [] ∧ digits.all Char.isDigit = true ∧ Send.digitsValue digits < 2 ^ 128 then
    some (Send.digitsValue digits)
  else none

/-! ### Words -/

/-- The bytes of a word. -/
def bytesOf (w : Bytes32) : Bytes := beBytes 32 w.toNat

/-- `word_u128` -/
def wordU128 (w : Bytes32) : Option ℕ :=
  if ((bytesOf w).take 16).any (· != 0) then none else some (beNat ((bytesOf w).drop 16))

def isCanonicalEvm (w : Bytes32) : Bool :=
  ((bytesOf w).take 12).all (· == 0) && (bytesOf w).any (· != 0)

/-- `matches_domain_shape`; domain 5 is Solana. -/
def hasDomainShape (domain : Uint32) (w : Bytes32) : Bool :=
  if domain = 5 then !((bytesOf w).take 12).all (· == 0) else isCanonicalEvm w

/-! ### The check -/

def hex32 (w : Bytes32) : String := hexText (bytesOf w)

/-- The text of an error; `fromHexError` is what the `hex` crate says of a bad text. -/
def PolicyError.text (fromHexError : String → String) : PolicyError → String
  | .badHex s => s!"bad hex {s}: {fromHexError s}"
  | .notBytes32 s => s!"not 32 bytes: {s}"
  | .version => "transfer spec version"
  | .sourceDomain got want => s!"source domain {got.toNat} is not {want.toNat}"
  | .differs what got want => s!"{what} {hex32 got} is not {want}"
  | .sourceSigner => "source signer is not this delegate key"
  | .perIntentCap => "policy perIntentCap"
  | .maxFeeCap => "policy maxFeeCap"
  | .valueTooLarge => "value too large"
  | .value n cap => s!"value {n} outside (0, {cap}]"
  | .maxFeeTooLarge => "maxFee too large"
  | .maxFee fee cap => s!"maxFee {fee} above {cap}"
  | .maxBlockHeightTooLarge => "maxBlockHeight too large"
  | .maxBlockHeight height slots now =>
    s!"maxBlockHeight {height} not within {slots} slots above {now}"
  | .destinationDomain domain => s!"destination domain {domain.toNat} not allowed"
  | .recipient got domain => s!"recipient {hex32 got} not allowed on domain {domain.toNat}"
  | .destinationCaller got => s!"destination caller {hex32 got} not allowed"

/-- The closure `eq`. -/
def checkWord (got : Bytes32) (want what : String) : Except PolicyError Unit := do
  require (got = (← parseHex32 want)) (.differs what got want)

/-- The closure `in_set`. -/
def inSet (w : Bytes32) : List String → Except PolicyError Bool
  | [] => pure false
  | s :: rest => do
    if (← parseHex32 s) = w then pure true else inSet w rest

/-- `matches_domain_shape(domain, w) && in_set(w, set)?` -/
def allowedOn (domain : Uint32) (w : Bytes32) (set : List String) : Except PolicyError Bool :=
  if hasDomainShape domain w then inSet w set else pure false

/-- The record of a domain. -/
def Policy.destination (p : Policy) (domain : Uint32) : Option Destination :=
  p.destinations.find? (fun d => d.domain = domain)

def checkPolicy (i : Intent) (p : Policy) (groupKey : Bytes32) (currentSlot : BitVec 64) :
    Except PolicyError Unit := do
  require (i.version = 1) .version
  require (i.sourceDomain = p.sourceDomain) (.sourceDomain i.sourceDomain p.sourceDomain)
  checkWord i.sourceContract p.sourceContract "source contract"
  checkWord i.sourceToken p.sourceToken "source token"
  checkWord i.sourceDepositor p.depositor "depositor"
  require (i.sourceSigner = groupKey) .sourceSigner
  let cap ← orRevert (parseU128 p.perIntentCap) .perIntentCap
  let feeCap ← orRevert (parseU128 p.maxFeeCap) .maxFeeCap
  let value ← orRevert (wordU128 i.value) .valueTooLarge
  require (¬ (value = 0 ∨ value > cap)) (.value value cap)
  let fee ← orRevert (wordU128 i.maxFee) .maxFeeTooLarge
  require (¬ fee > feeCap) (.maxFee fee feeCap)
  let mbh ← orRevert (wordU128 i.maxBlockHeight) .maxBlockHeightTooLarge
  let now := currentSlot.toNat
  require (¬ (mbh ≤ now ∨ mbh - now > p.maxExpirySlots.toNat))
    (.maxBlockHeight mbh p.maxExpirySlots.toNat now)
  let d ← orRevert (p.destination i.destinationDomain) (.destinationDomain i.destinationDomain)
  checkWord i.destinationContract d.minter "destination contract"
  checkWord i.destinationToken d.token "destination token"
  let recipient ← allowedOn d.domain i.destinationRecipient d.recipients
  require (recipient = true) (.recipient i.destinationRecipient d.domain)
  if i.destinationCaller ≠ 0 then do
    let caller ← allowedOn d.domain i.destinationCaller d.callers
    require (caller = true) (.destinationCaller i.destinationCaller)
  else pure ()

/-! ### The rules of the chain, on words -/

/-- A configuration of the policy with the source words as they are. -/
structure WordConfig where
  sourceContract : Bytes32
  sourceDomain : Uint32
  depositor : Bytes32
  signer : Bytes32
  maxExpiryBlocks : Uint256
  perIntentCap : Uint256
  maxFeeCap : Uint256
  domain : Uint32 → Prop
  minter : Uint32 → Bytes32
  destinationToken : Bytes32 → Prop
  recipient : Uint32 → Bytes32 → Prop
  caller : Bytes32 → Prop

/-- The rules for a burn intent that do not ask whether a source word is an address. -/
structure WordRules (cfg : WordConfig) (blockNumber : Uint256) (intent : BurnIntent) : Prop where
  version : intent.spec.version = 1
  sourceDomain : intent.spec.sourceDomain = cfg.sourceDomain
  sourceContract : intent.spec.sourceContract = cfg.sourceContract
  sourceDepositor : intent.spec.sourceDepositor = cfg.depositor
  sourceSigner : intent.spec.sourceSigner = cfg.signer
  expiry : intent.maxBlockHeight.toNat ≤ blockNumber.toNat + cfg.maxExpiryBlocks.toNat
  hookData : intent.spec.hookData = []
  value_pos : 0 < intent.spec.value.toNat
  value_le : intent.spec.value.toNat ≤ cfg.perIntentCap.toNat
  maxFee_le : intent.maxFee.toNat ≤ cfg.maxFeeCap.toNat
  domain : cfg.domain intent.spec.destinationDomain
  minter_ne : cfg.minter intent.spec.destinationDomain ≠ 0
  minter : intent.spec.destinationContract = cfg.minter intent.spec.destinationDomain
  destinationToken : cfg.destinationToken intent.spec.destinationToken
  destinationToken_shape :
    matchesDomainShape intent.spec.destinationDomain intent.spec.destinationToken = true
  recipient : cfg.recipient intent.spec.destinationDomain intent.spec.destinationRecipient
  recipient_shape :
    matchesDomainShape intent.spec.destinationDomain intent.spec.destinationRecipient = true
  caller : intent.spec.destinationCaller ≠ 0 → cfg.caller intent.spec.destinationCaller
    ∧ matchesDomainShape intent.spec.destinationDomain intent.spec.destinationCaller = true

/-- The configuration of an account, with its addresses as words. -/
def words (cfg : PolicyConfig) : WordConfig where
  sourceContract := toBytes32 cfg.limits.gatewayWallet
  sourceDomain := cfg.limits.sourceDomain
  depositor := toBytes32 cfg.limits.depositor
  signer := toBytes32 cfg.limits.depositor
  maxExpiryBlocks := cfg.limits.maxExpiryBlocks
  perIntentCap := cfg.limits.perIntentCap
  maxFeeCap := cfg.limits.maxFeeCap
  domain := cfg.domain
  minter := cfg.minter
  destinationToken := cfg.destinationToken
  recipient := cfg.recipient
  caller := cfg.caller

/-- **The rules on words are those of the chain**, but for the source token. -/
theorem burnAllowed_iff_words {cfg : PolicyConfig} {blockNumber : Uint256} {intent : BurnIntent} :
    BurnAllowed cfg blockNumber intent ↔ WordRules (words cfg) blockNumber intent
      ∧ isCanonicalAddress intent.spec.sourceToken = true
      ∧ cfg.tokenName (toAddress intent.spec.sourceToken) ≠ [] := by
  constructor
  · intro h
    have hs := h.shape
    exact ⟨⟨hs.version, hs.sourceDomain, hs.sourceContract, hs.sourceDepositor, hs.sourceSigner,
      hs.expiry, hs.hookData, hs.value_pos, hs.value_le, hs.maxFee_le, h.domain, h.minter_ne,
      h.minter, h.destinationToken, h.destinationToken_shape, h.recipient, h.recipient_shape,
      h.caller⟩, hs.sourceToken, h.sourceToken⟩
  · intro h
    obtain ⟨h, hcanonical, hname⟩ := h
    exact ⟨⟨h.version, h.sourceDomain, h.sourceContract, h.sourceDepositor, h.sourceSigner,
      h.expiry, hcanonical, h.hookData, h.value_pos, h.value_le, h.maxFee_le⟩, hname, h.domain,
      h.minter_ne, h.minter, h.destinationToken, h.destinationToken_shape, h.recipient,
      h.recipient_shape, h.caller⟩

/-- The intent that the parsed fields are on chain. -/
def Intent.burnIntent (i : Intent) (salt : Bytes32) : BurnIntent where
  maxBlockHeight := i.maxBlockHeight
  maxFee := i.maxFee
  spec := {
    version := i.version
    sourceDomain := i.sourceDomain
    destinationDomain := i.destinationDomain
    sourceContract := i.sourceContract
    destinationContract := i.destinationContract
    sourceToken := i.sourceToken
    destinationToken := i.destinationToken
    sourceDepositor := i.sourceDepositor
    destinationRecipient := i.destinationRecipient
    sourceSigner := i.sourceSigner
    destinationCaller := i.destinationCaller
    value := i.value
    salt := salt
    hookData := [] }

/-- The word a text of the policy spells. -/
def policyWord (s : String) : Bytes32 := (parseHex32 s).toOption.getD 0

/-- The configuration with the sets of the policy. -/
def Policy.config (p : Policy) (groupKey : Bytes32) : WordConfig where
  sourceContract := policyWord p.sourceContract
  sourceDomain := p.sourceDomain
  depositor := policyWord p.depositor
  signer := groupKey
  maxExpiryBlocks := p.maxExpirySlots.setWidth 256
  perIntentCap := BitVec.ofNat 256 ((parseU128 p.perIntentCap).getD 0)
  maxFeeCap := BitVec.ofNat 256 ((parseU128 p.maxFeeCap).getD 0)
  domain n := ∃ d ∈ p.destinations, d.domain = n
  minter n := ((p.destination n).map (fun d => policyWord d.minter)).getD 0
  destinationToken w := ∃ d ∈ p.destinations, parseHex32 d.token = .ok w
  recipient _ w := ∃ d ∈ p.destinations, ∃ s ∈ d.recipients, parseHex32 s = .ok w
  caller w := ∃ d ∈ p.destinations, ∃ s ∈ d.callers, parseHex32 s = .ok w

/-! ### Shapes -/

theorem beNat_eq_zero_iff {b : Bytes} : beNat b = 0 ↔ ∀ c ∈ b, c = 0 := by
  induction b with
  | nil => simp [beNat]
  | cons c b ih =>
    have hc : c.toNat = 0 ↔ c = 0 := by
      rw [← UInt8.toNat_inj]
      rfl
    rw [beNat_cons, Nat.add_eq_zero_iff, Nat.mul_eq_zero, ih, hc, List.forall_mem_cons]
    simp

theorem beNat_bytesOf (w : Bytes32) : beNat (bytesOf w) = w.toNat := by
  rw [bytesOf, beNat_beBytes, Nat.mod_eq_of_lt]
  calc w.toNat < 2 ^ 256 := w.isLt
    _ = 256 ^ 32 := by norm_num

/-- The high bytes and the low bytes of a word. -/
theorem toNat_eq_take_drop (w : Bytes32) (k : ℕ) :
    w.toNat = beNat ((bytesOf w).take k) * 256 ^ (32 - k) + beNat ((bytesOf w).drop k) := by
  have hlen : ((bytesOf w).drop k).length = 32 - k := by simp [bytesOf]
  rw [← hlen, ← beNat_append, List.take_append_drop, beNat_bytesOf]

theorem wordU128_eq_some {w : Bytes32} {n : ℕ} (h : wordU128 w = some n) : n = w.toNat := by
  unfold wordU128 at h
  split at h
  · cases h
  · rename_i hany
    have hzero : beNat ((bytesOf w).take 16) = 0 := by
      rw [beNat_eq_zero_iff]
      intro c hc
      by_contra hne
      exact hany (List.any_eq_true.mpr ⟨c, hc, by simpa using hne⟩)
    rw [toNat_eq_take_drop w 16, hzero, Nat.zero_mul, Nat.zero_add]
    exact (Option.some.inj h).symm

theorem take_all_zero_iff (w : Bytes32) :
    ((bytesOf w).take 12).all (· == 0) = isCanonicalAddress w := by
  have hdrop := beNat_lt ((bytesOf w).drop 12)
  have hlen : ((bytesOf w).drop 12).length = 20 := by simp [bytesOf]
  rw [hlen] at hdrop
  have hsplit := toNat_eq_take_drop w 12
  rw [Bool.eq_iff_iff, List.all_eq_true, isCanonicalAddress, beq_iff_eq, ← BitVec.toNat_inj,
    BitVec.toNat_ushiftRight, Nat.shiftRight_eq_div_pow, hsplit, Nat.mul_comm,
    show (2 : ℕ) ^ 160 = 256 ^ (32 - 12) by norm_num, Nat.mul_add_div (by positivity),
    Nat.div_eq_of_lt hdrop, Nat.add_zero]
  show _ ↔ beNat ((bytesOf w).take 12) = 0
  rw [beNat_eq_zero_iff]
  simp

theorem any_ne_zero_iff (w : Bytes32) : (bytesOf w).any (· != 0) = true ↔ w ≠ 0 := by
  have hzero : w = 0 ↔ beNat (bytesOf w) = 0 := by
    rw [beNat_bytesOf, ← BitVec.toNat_inj]
    rfl
  rw [ne_eq, hzero, beNat_eq_zero_iff, List.any_eq_true]
  simp

/-- **The shapes of addresses agree.** -/
theorem hasDomainShape_eq (domain : Uint32) (w : Bytes32) :
    hasDomainShape domain w = matchesDomainShape domain w := by
  rw [hasDomainShape, matchesDomainShape, isCanonicalEvm, take_all_zero_iff, isEvmDomain,
    solanaDomain]
  by_cases hw : w = 0
  · subst hw
    have hcanonical : isCanonicalAddress 0 = true := by decide
    have hany : (bytesOf 0).any (· != 0) = false :=
      Bool.eq_false_iff.mpr (fun h => (any_ne_zero_iff 0).mp h rfl)
    rw [hcanonical, hany, if_pos rfl]
    by_cases hd : domain = 5
    · rw [if_pos hd]
      rfl
    · rw [if_neg hd]
      rfl
  · rw [if_neg hw, (any_ne_zero_iff w).mpr hw, Bool.and_true]
    by_cases hd : domain = 5
    · rw [if_pos hd, hd]
      rfl
    · have hne : (domain != 5) = true := bne_iff_ne.mpr hd
      rw [if_neg hd, hne, if_pos rfl]

/-! ### What is checked -/

theorem checkWord_eq_ok {got : Bytes32} {want what : String} {u : Unit} :
    checkWord got want what = .ok u ↔ parseHex32 want = .ok got := by
  simp only [checkWord, bind_eq_ok, require_eq_ok]
  constructor
  · intro h
    obtain ⟨w, hw, rfl⟩ := h
    exact hw
  · intro h
    exact ⟨got, h, rfl⟩

theorem mem_of_inSet {w : Bytes32} {set : List String} (h : inSet w set = .ok true) :
    ∃ s ∈ set, parseHex32 s = .ok w := by
  induction set with
  | nil =>
    rw [inSet, pure_eq_ok] at h
    cases h
  | cons s set ih =>
    simp only [inSet, bind_eq_ok] at h
    obtain ⟨v, hv, h⟩ := h
    split at h
    · rename_i heq
      exact ⟨s, List.mem_cons_self, by rw [hv, heq]⟩
    · obtain ⟨t, ht, hparse⟩ := ih h
      exact ⟨t, List.mem_cons_of_mem s ht, hparse⟩

theorem allowed_of_allowedOn {domain : Uint32} {w : Bytes32} {set : List String}
    (h : allowedOn domain w set = .ok true) :
    matchesDomainShape domain w = true ∧ ∃ s ∈ set, parseHex32 s = .ok w := by
  rw [allowedOn, hasDomainShape_eq] at h
  split at h
  · rename_i hshape
    exact ⟨hshape, mem_of_inSet h⟩
  · rw [pure_eq_ok] at h
    cases h

/-- What `checkPolicy` has checked, with the record `d` of the destination domain. -/
structure Checked (i : Intent) (p : Policy) (groupKey : Bytes32) (currentSlot : BitVec 64)
    (d : Destination) : Prop where
  version : i.version = 1
  sourceDomain : i.sourceDomain = p.sourceDomain
  sourceContract : parseHex32 p.sourceContract = .ok i.sourceContract
  sourceToken : parseHex32 p.sourceToken = .ok i.sourceToken
  sourceDepositor : parseHex32 p.depositor = .ok i.sourceDepositor
  sourceSigner : i.sourceSigner = groupKey
  value : ∃ cap, parseU128 p.perIntentCap = some cap ∧ 0 < i.value.toNat ∧ i.value.toNat ≤ cap
  maxFee : ∃ cap, parseU128 p.maxFeeCap = some cap ∧ i.maxFee.toNat ≤ cap
  maxBlockHeight : currentSlot.toNat < i.maxBlockHeight.toNat
    ∧ i.maxBlockHeight.toNat ≤ currentSlot.toNat + p.maxExpirySlots.toNat
  record : p.destination i.destinationDomain = some d
  destinationContract : parseHex32 d.minter = .ok i.destinationContract
  destinationToken : parseHex32 d.token = .ok i.destinationToken
  destinationRecipient : matchesDomainShape d.domain i.destinationRecipient = true
    ∧ ∃ s ∈ d.recipients, parseHex32 s = .ok i.destinationRecipient
  destinationCaller : i.destinationCaller ≠ 0 →
    matchesDomainShape d.domain i.destinationCaller = true
      ∧ ∃ s ∈ d.callers, parseHex32 s = .ok i.destinationCaller

/-- **What an intent that passes has been checked for.** -/
theorem checked_of_checkPolicy {i : Intent} {p : Policy} {groupKey : Bytes32}
    {currentSlot : BitVec 64} {u : Unit} (h : checkPolicy i p groupKey currentSlot = .ok u) :
    ∃ d, Checked i p groupKey currentSlot d := by
  simp only [checkPolicy, bind_eq_ok, require_eq_ok, orRevert_eq_ok, checkWord_eq_ok,
    exists_const] at h
  obtain ⟨hversion, hdomain, hcontract, htoken, hdepositor, hsigner, cap, hcap, feeCap, hfeeCap,
    value, hvalue, hpos, fee, hfee, hle, mbh, hmbh, hheight, d, hd, hminter, hdtoken, recipient,
    hrecipient, rfl, hcaller⟩ := h
  obtain rfl := wordU128_eq_some hvalue
  obtain rfl := wordU128_eq_some hfee
  obtain rfl := wordU128_eq_some hmbh
  refine ⟨d, hversion, hdomain, hcontract, htoken, hdepositor, hsigner, ⟨cap, hcap, by omega⟩,
    ⟨feeCap, hfeeCap, by omega⟩, by omega, hd, hminter, hdtoken, allowed_of_allowedOn hrecipient,
    ?_⟩
  intro hne
  rw [if_pos hne] at hcaller
  simp only [bind_eq_ok, require_eq_ok] at hcaller
  obtain ⟨caller, hcaller, rfl⟩ := hcaller
  exact allowed_of_allowedOn hcaller

theorem policyWord_eq {s : String} {w : Bytes32} (h : parseHex32 s = .ok w) : policyWord s = w := by
  rw [policyWord, h]
  rfl

theorem toNat_cap {s : String} {cap : ℕ} (h : parseU128 s = some cap) :
    (BitVec.ofNat 256 ((parseU128 s).getD 0)).toNat = cap := by
  have hlt : cap < 2 ^ 128 := by
    rw [parseU128] at h
    obtain ⟨⟨-, -, hlt⟩, heq⟩ := Option.ite_none_right_eq_some.mp h
    rwa [Option.some.inj heq] at hlt
  rw [h, Option.getD_some, BitVec.toNat_ofNat, Nat.mod_eq_of_lt]
  calc cap < 2 ^ 128 := hlt
    _ ≤ 2 ^ 256 := Nat.pow_le_pow_right (by decide) (by decide)

theorem toNat_setWidth_64 (x : BitVec 64) : (x.setWidth 256).toNat = x.toNat := by
  rw [BitVec.toNat_setWidth, Nat.mod_eq_of_lt]
  calc x.toNat < 2 ^ 64 := x.isLt
    _ ≤ 2 ^ 256 := Nat.pow_le_pow_right (by decide) (by decide)

/-! ### The two policies -/

/-- The first record of the domain has a minter that is not zero, and a token with the
shape of an address of the domain. -/
def RecordSound (p : Policy) (domain : Uint32) : Prop :=
  ∃ d ∈ p.destination domain, policyWord d.minter ≠ 0
    ∧ matchesDomainShape domain (policyWord d.token) = true

/-- **The policy of the delegate against that of the chain.**  The shapes of addresses
agree.  An intent that passes off chain passes the rules of the chain, under the
configuration with the same sets, exactly if the record of its domain is sound. -/
theorem wordRules_iff_recordSound {i : Intent} {p : Policy} {groupKey : Bytes32}
    {currentSlot : BitVec 64} (hcheck : checkPolicy i p groupKey currentSlot = .ok ()) :
    (∀ domain w, hasDomainShape domain w = matchesDomainShape domain w) ∧
    ∀ salt, WordRules (p.config groupKey) (currentSlot.setWidth 256) (i.burnIntent salt)
      ↔ RecordSound p i.destinationDomain := by
  refine ⟨hasDomainShape_eq, ?_⟩
  intro salt
  obtain ⟨d, h⟩ := checked_of_checkPolicy hcheck
  obtain ⟨cap, hcap, hpos, hle⟩ := h.value
  obtain ⟨feeCap, hfeeCap, hfee⟩ := h.maxFee
  have hfound := List.find?_some h.record
  have hdomain : d.domain = i.destinationDomain := by simpa using hfound
  have hmem : d ∈ p.destinations := List.mem_of_find?_eq_some h.record
  have hminter : (p.config groupKey).minter i.destinationDomain = i.destinationContract := by
    show ((p.destination i.destinationDomain).map (fun d => policyWord d.minter)).getD 0 = _
    rw [h.record, Option.map_some, Option.getD_some, policyWord_eq h.destinationContract]
  constructor
  · intro hrules
    refine ⟨d, h.record, ?_, ?_⟩
    · rw [policyWord_eq h.destinationContract, ← hminter]
      exact hrules.minter_ne
    · rw [policyWord_eq h.destinationToken]
      exact hrules.destinationToken_shape
  · intro hsound
    obtain ⟨d', hd', hne, hshape⟩ := hsound
    obtain rfl : d' = d := Option.some.inj (Eq.trans (Option.mem_def.mp hd').symm h.record)
    rw [policyWord_eq h.destinationContract] at hne
    rw [policyWord_eq h.destinationToken] at hshape
    have hrecipient := h.destinationRecipient
    rw [hdomain] at hrecipient
    obtain ⟨s, hs, hparse⟩ := hrecipient.2
    refine ⟨h.version, h.sourceDomain, (policyWord_eq h.sourceContract).symm,
      (policyWord_eq h.sourceDepositor).symm, h.sourceSigner, ?_, rfl, hpos, ?_, ?_,
      ⟨d', hmem, hdomain⟩, ?_, hminter.symm, ⟨d', hmem, h.destinationToken⟩, hshape,
      ⟨d', hmem, s, hs, hparse⟩, hrecipient.1, ?_⟩
    · show i.maxBlockHeight.toNat ≤ (currentSlot.setWidth 256).toNat
        + (p.maxExpirySlots.setWidth 256).toNat
      rw [toNat_setWidth_64, toNat_setWidth_64]
      exact h.maxBlockHeight.2
    · exact hle.trans_eq (toNat_cap hcap).symm
    · exact hfee.trans_eq (toNat_cap hfeeCap).symm
    · intro hzero
      exact hne (hminter.symm.trans hzero)
    · intro hcaller
      obtain ⟨hshape', s', hs', hparse'⟩ := h.destinationCaller hcaller
      rw [hdomain] at hshape'
      exact ⟨⟨d', hmem, s', hs', hparse'⟩, hshape'⟩

/-- Payouts to one address on Arc. -/
def arcPolicy (minter : Bytes) : Policy where
  depositor := hexText (List.replicate 32 0xd0)
  sourceDomain := 5
  sourceContract := hexText (List.replicate 32 0x77)
  sourceToken := hexText (List.replicate 32 0x55)
  perIntentCap := "2000000"
  maxFeeCap := "2010000"
  maxExpirySlots := 3034000
  destinations := [{
    domain := 26
    minter := hexText (List.replicate 12 0 ++ minter)
    token := hexText (List.replicate 12 0 ++ List.replicate 20 0x36)
    recipients := [hexText (List.replicate 12 0 ++ List.replicate 20 0xf7)]
    callers := [] }]

def groupKey : Bytes32 := BitVec.ofNat 256 (beNat (List.replicate 32 0x9e))

/-- One dollar to the address on Arc, minted by the contract that is given. -/
def arcIntent (minter : Bytes) : Intent :=
  { payout.decoded with
    destinationContract := BitVec.ofNat 256 (beNat (List.replicate 12 0 ++ minter)) }

theorem arcPolicy_accepts :
    (checkPolicy (arcIntent (List.replicate 20 0x22)) (arcPolicy (List.replicate 20 0x22)) groupKey
      1000).toOption = some () ∧
    (checkPolicy (arcIntent (List.replicate 20 0)) (arcPolicy (List.replicate 20 0)) groupKey
      1000).toOption = some () := by
  decide +kernel

/-- What the delegate says of an intent that leaves another domain. -/
example : (checkPolicy { arcIntent (List.replicate 20 0x22) with sourceDomain := 26 }
      (arcPolicy (List.replicate 20 0x22)) groupKey 1000).mapError (·.text (fun _ => ""))
    = .error "source domain 26 is not 5" := by
  decide +kernel

/-- A policy with a minter follows the rules of the chain. -/
theorem wordRules_iff_recordSound_arc :
    WordRules ((arcPolicy (List.replicate 20 0x22)).config groupKey) 1000
        ((arcIntent (List.replicate 20 0x22)).burnIntent 0)
      ↔ RecordSound (arcPolicy (List.replicate 20 0x22)) 26 :=
  (wordRules_iff_recordSound (toOption_eq_some.mp arcPolicy_accepts.1)).2 0

/-- With a minter that is zero an intent passes off chain, and not on chain. -/
theorem not_wordRules_zeroMinter :
    checkPolicy (arcIntent (List.replicate 20 0)) (arcPolicy (List.replicate 20 0)) groupKey 1000
        = .ok () ∧
      ¬ WordRules ((arcPolicy (List.replicate 20 0)).config groupKey) 1000
        ((arcIntent (List.replicate 20 0)).burnIntent 0) := by
  refine ⟨toOption_eq_some.mp arcPolicy_accepts.2, ?_⟩
  intro h
  refine h.minter_ne ?_
  show ((arcPolicy (List.replicate 20 0)).config groupKey).minter 26 = 0
  decide +kernel

end Bufi.Delegate
