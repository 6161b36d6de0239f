import Bufi.Gateway.Rules
import Bufi.Treasury.Epoch

/-!
# The ERC-1271 face of the treasury

`isValidSignature` runs the real check in a call to itself, so that nothing a
caller sends can make it revert: a payload that does not decode makes the inner
call fail, and a failed call reads as invalid.

`passesPolicy` is the part of `_validateBurnIntent` and of
`_validateReceiveWithAuth` before the signatures are looked at;
`passesPolicy_iff` says that it decides `IntentAllowed` under the treasury's own
configuration, with the two emergency stops in front.
-/

namespace Bufi.Treasury

open Bufi.Evm Bufi.Gateway

section Code

variable {W : Type} [DecidableEq W] (K : Keccak W) (d : Deployment) (s : State W) (block : Block)

def State.intentLimits {W : Type} (d : Deployment) (s : State W) : IntentLimits where
  gatewayWallet := d.gatewayWallet
  sourceDomain := d.localDomain
  depositor := d.treasury
  maxExpiryBlocks := s.maxExpiryBlocks
  perIntentCap := s.perIntentCap
  maxFeeCap := s.maxFeeCap

def destinationAllowed {W : Type} (s : State W) (spec : TransferSpec) : Bool :=
  let domain := spec.destinationDomain
  let minter := s.destinationMinters domain
  if !s.allowedDestinationDomains domain then false
  else if minter = 0 ∨ spec.destinationContract ≠ minter then false
  else if !s.allowedDestinationTokens spec.destinationToken then false
  else if !matchesDomainShape domain spec.destinationToken then false
  else if !s.allowedRecipients spec.destinationRecipient then false
  else if !matchesDomainShape domain spec.destinationRecipient then false
  else if spec.destinationCaller ≠ 0 then
    if !s.allowedDestinationCallers spec.destinationCaller then false
    else if !matchesDomainShape domain spec.destinationCaller then false
    else true
  else true

/-- `_validateBurnIntent` up to its call of `_checkWeightedSigs`; `none` is a
payload that does not decode. -/
def burnIntentPasses (hash : W) (payload : Bytes) : Option Bool :=
  if s.paused || s.revokedIntents hash then pure false
  else do
    let intent ← decodeBurnIntent payload
    if burnIntentDigest K intent ≠ hash then pure false
    else
      let (shapeOk, sourceToken) := checkIntentShape block.number intent (s.intentLimits d)
      if !shapeOk then pure false
      else if (s.allowedTokens sourceToken).eip712Name.length = 0 then pure false
      else pure (destinationAllowed s intent.spec)

/-- `_validateReceiveWithAuth` up to its call of `_checkWeightedSigs`. -/
def receiveWithAuthPasses (hash : W) (payload : Bytes) (caller : Address) : Option Bool :=
  let ti := s.allowedTokens caller
  if ti.eip712Name.length = 0 then pure false
  else do
    let auth ← decodeReceiveAuth payload
    let digest := receiveWithAuthorizationDigest K ti.eip712Name ti.eip712Version block.chainid
      caller auth
    if digest ≠ hash then pure false
    else if auth.fromAddr ≠ d.treasury then pure false
    else if auth.toAddr ≠ d.gatewayWallet then pure false
    else pure true

/-- Whether the check for an intent of some kind reaches the signatures. -/
def passesPolicy (caller : Address) (hash : W) (kind : Uint8) (payload : Bytes) : Option Bool :=
  if kind = 0 then burnIntentPasses K d s block hash payload
  else if kind = 1 then receiveWithAuthPasses K d s block hash payload caller
  else pure false

/-- `abi.decode(signature, (uint8, bytes, bytes))`. -/
def decodeSignature (signature : Bytes) : Option (Uint8 × MemBytes × MemBytes) := do
  let kind ← Abi.uint 8 signature 0
  let payload ← Abi.bytes signature (← Abi.tail signature 0 32)
  let ownerSigs ← Abi.bytes signature (← Abi.tail signature 0 64)
  return (kind, payload, ownerSigs)

variable (O : SigOracle W)

/-- `_validateSignatureInternal`; `none` is a revert. -/
def validateSignatureInternal (hash : W) (signature : Bytes) (originalCaller : Address) :
    Option Bool := do
  let (kind, payload, ownerSigs) ← decodeSignature signature
  if ← passesPolicy K d s block originalCaller hash kind payload.data then
    checkWeightedSigs O d.treasury s.toSigners hash ownerSigs
  else pure false

def erc1271Invalid : Bytes4 := 0xffffffff

/-- The return data of a function that returns a `bool`. -/
def encodeBool (b : Bool) : Bytes := beBytes 32 (if b then 1 else 0)

/-- `isValidSignature`, called by `caller`. -/
def isValidSignature (hash : W) (signature : Bytes) (caller : Address) : Option Bytes4 :=
  if signature.length < 33 then pure erc1271Invalid
  else
    match (validateSignatureInternal K d s block O hash signature caller).map encodeBool with
    | none => pure erc1271Invalid
    | some result =>
      if result.length < 32 then pure erc1271Invalid
      else do
        let valid ← Abi.bool result 0
        pure (if valid then erc1271MagicValue else erc1271Invalid)

end Code

/-! ### The policy -/

/-- What the rules can ask a treasury. -/
def State.policy {W : Type} (d : Deployment) (s : State W) : PolicyConfig where
  limits := s.intentLimits d
  tokenName a := (s.allowedTokens a).eip712Name
  tokenVersion a := (s.allowedTokens a).eip712Version
  domain n := s.allowedDestinationDomains n = true
  minter := s.destinationMinters
  destinationToken t := s.allowedDestinationTokens t = true
  recipient _ r := s.allowedRecipients r = true
  caller c := s.allowedDestinationCallers c = true

section

variable {W : Type} [DecidableEq W] {K : Keccak W} {d : Deployment} {s : State W} {block : Block}

omit [DecidableEq W] in
theorem destinationAllowed_iff {spec : TransferSpec} :
    destinationAllowed s spec = true
      ↔ s.allowedDestinationDomains spec.destinationDomain = true
        ∧ (s.destinationMinters spec.destinationDomain ≠ 0
          ∧ spec.destinationContract = s.destinationMinters spec.destinationDomain)
        ∧ s.allowedDestinationTokens spec.destinationToken = true
        ∧ matchesDomainShape spec.destinationDomain spec.destinationToken = true
        ∧ s.allowedRecipients spec.destinationRecipient = true
        ∧ matchesDomainShape spec.destinationDomain spec.destinationRecipient = true
        ∧ (spec.destinationCaller ≠ 0 →
          s.allowedDestinationCallers spec.destinationCaller = true
            ∧ matchesDomainShape spec.destinationDomain spec.destinationCaller = true) := by
  simp only [destinationAllowed, Bool.not_eq_true']
  split_ifs with h1 h2 h3 h4 h5 h6 h7 h8 h9
  · simp [h1]
  · refine ⟨fun h => absurd h (by simp), fun h => absurd h2 (not_or.mpr ⟨h.2.1.1, ?_⟩)⟩
    exact not_not.mpr h.2.1.2
  · simp [h3]
  · simp [h4]
  · simp [h5]
  · simp [h6]
  · refine ⟨fun h => absurd h (by simp), ?_⟩
    intro h
    rw [(h.2.2.2.2.2.2 h7).1] at h8
    exact absurd h8 (by simp)
  · refine ⟨fun h => absurd h (by simp), ?_⟩
    intro h
    rw [(h.2.2.2.2.2.2 h7).2] at h9
    exact absurd h9 (by simp)
  · rw [not_or, not_not] at h2
    simp only [Bool.not_eq_false] at h1 h3 h4 h5 h6 h8 h9
    exact ⟨fun _ => ⟨h1, h2, h3, h4, h5, h6, fun _ => ⟨h8, h9⟩⟩, fun _ => rfl⟩
  · rw [not_or, not_not] at h2
    simp only [Bool.not_eq_false] at h1 h3 h4 h5 h6
    exact ⟨fun _ => ⟨h1, h2, h3, h4, h5, h6, fun h => absurd h h7⟩, fun _ => rfl⟩

theorem burnIntentPasses_iff {hash : W} {payload : Bytes} :
    burnIntentPasses K d s block hash payload = some true
      ↔ s.paused = false ∧ s.revokedIntents hash = false
        ∧ ∃ intent, decodeBurnIntent payload = some intent ∧ burnIntentDigest K intent = hash
          ∧ BurnAllowed (s.policy d) block.number intent := by
  rw [burnIntentPasses]
  by_cases hstop : (s.paused || s.revokedIntents hash) = true
  · rw [if_pos hstop]
    rw [Bool.or_eq_true] at hstop
    refine ⟨fun h => absurd h (by simp), ?_⟩
    rintro ⟨hp, hr, -⟩
    rw [hp, hr] at hstop
    simp at hstop
  rw [if_neg hstop]
  rw [Bool.or_eq_true, not_or, Bool.not_eq_true, Bool.not_eq_true] at hstop
  cases hdec : decodeBurnIntent payload with
  | none => simp
  | some intent =>
    simp only [Option.bind_eq_bind, Option.bind_some, Option.some.injEq, exists_eq_left']
    by_cases hd : burnIntentDigest K intent = hash
    swap
    · simp [hd]
    rw [if_neg (not_not.mpr hd)]
    cases hshape : checkIntentShape block.number intent (s.intentLimits d) with
    | mk ok token =>
      cases ok with
      | false =>
        simp only [Bool.not_false, if_true, Option.pure_def, Option.some.injEq, Bool.false_eq_true,
          false_iff]
        rintro ⟨-, -, -, ha⟩
        have := (checkIntentShape_iff _ _ _ _).mpr ⟨ha.shape, rfl⟩
        rw [State.policy] at this
        rw [this] at hshape
        simp at hshape
      | true =>
        obtain ⟨hs, rfl⟩ := (checkIntentShape_iff _ _ _ _).mp hshape
        simp only [Bool.not_true, Bool.false_eq_true, if_false]
        by_cases hn : (s.allowedTokens (toAddress intent.spec.sourceToken)).eip712Name.length = 0
        · rw [if_pos hn]
          simp only [Option.pure_def, Option.some.injEq, Bool.false_eq_true, false_iff]
          rintro ⟨-, -, -, ha⟩
          exact ha.sourceToken (List.eq_nil_of_length_eq_zero hn)
        · rw [if_neg hn, Option.pure_def, Option.some.injEq, destinationAllowed_iff]
          constructor
          · rintro ⟨h1, ⟨h2, h3⟩, h4, h5, h6, h7, h8⟩
            exact ⟨hstop.1, hstop.2, hd, hs, fun h => hn (congrArg List.length h), h1, h2, h3,
              h4, h5, h6, h7, h8⟩
          · rintro ⟨-, -, -, ha⟩
            exact ⟨ha.domain, ⟨ha.minter_ne, ha.minter⟩, ha.destinationToken,
              ha.destinationToken_shape, ha.recipient, ha.recipient_shape, ha.caller⟩

theorem receiveWithAuthPasses_iff {hash : W} {payload : Bytes} {caller : Address} :
    receiveWithAuthPasses K d s block hash payload caller = some true
      ↔ ∃ auth, decodeReceiveAuth payload = some auth
        ∧ receiveWithAuthorizationDigest K ((s.policy d).tokenName caller)
            ((s.policy d).tokenVersion caller) block.chainid caller auth = hash
        ∧ AuthAllowed (s.policy d) caller auth := by
  rw [receiveWithAuthPasses]
  by_cases hn : (s.allowedTokens caller).eip712Name.length = 0
  · rw [if_pos hn]
    refine ⟨fun h => absurd h (by simp), ?_⟩
    rintro ⟨auth, -, -, ha⟩
    exact absurd (List.eq_nil_of_length_eq_zero hn) ha.token
  rw [if_neg hn]
  have hname : (s.allowedTokens caller).eip712Name ≠ [] := fun h => hn (by rw [h]; rfl)
  cases hdec : decodeReceiveAuth payload with
  | none => simp
  | some auth =>
    simp only [Option.bind_eq_bind, Option.bind_some, Option.some.injEq, exists_eq_left']
    constructor
    · intro h
      split_ifs at h with h1 h2 h3
      all_goals simp only [Option.pure_def, Option.some.injEq, Bool.false_eq_true] at h
      exact ⟨not_not.mp h1, hname, not_not.mp h2, not_not.mp h3⟩
    · rintro ⟨hd, ha⟩
      have hd : receiveWithAuthorizationDigest K (s.allowedTokens caller).eip712Name
          (s.allowedTokens caller).eip712Version block.chainid caller auth = hash := hd
      have hf : auth.fromAddr = d.treasury := ha.fromAddr
      have ht : auth.toAddr = d.gatewayWallet := ha.toAddr
      rw [if_neg (not_not.mpr hd), if_neg (not_not.mpr hf), if_neg (not_not.mpr ht)]
      rfl

/-- **The treasury decides the policy**: the check reaches the signatures exactly
when the rules allow the intent, and a burn intent is neither stopped nor
revoked. -/
theorem passesPolicy_iff {caller : Address} {hash : W} {kind : Uint8} {payload : Bytes} :
    passesPolicy K d s block caller hash kind payload = some true
      ↔ IntentAllowed K (s.policy d) block caller hash kind payload
        ∧ (kind = 0 → s.paused = false ∧ s.revokedIntents hash = false) := by
  rw [passesPolicy]
  by_cases h0 : kind = 0
  · subst h0
    rw [if_pos rfl, burnIntentPasses_iff]
    constructor
    · rintro ⟨hp, hr, intent, hdec, hd, ha⟩
      exact ⟨.burn rfl intent hdec hd ha, fun _ => ⟨hp, hr⟩⟩
    · rintro ⟨⟨-, intent, hdec, hd, ha⟩ | ⟨hk, -, -, -, -⟩, hstop⟩
      · exact ⟨(hstop rfl).1, (hstop rfl).2, intent, hdec, hd, ha⟩
      · exact absurd hk (by decide)
  · rw [if_neg h0]
    by_cases h1 : kind = 1
    · subst h1
      rw [if_pos rfl, receiveWithAuthPasses_iff]
      constructor
      · rintro ⟨auth, hdec, hd, ha⟩
        exact ⟨.auth rfl auth hdec hd ha, fun h => absurd h h0⟩
      · rintro ⟨⟨hk, -, -, -, -⟩ | ⟨-, auth, hdec, hd, ha⟩, -⟩
        · exact absurd hk h0
        · exact ⟨auth, hdec, hd, ha⟩
    · rw [if_neg h1]
      refine ⟨fun h => absurd h (by simp), ?_⟩
      rintro ⟨⟨hk, -, -, -, -⟩ | ⟨hk, -, -, -, -⟩, -⟩
      · exact absurd hk h0
      · exact absurd hk h1

/-! ### The answer -/

theorem abi_bool_encodeBool (b : Bool) : Abi.bool (encodeBool b) 0 = some b := by
  cases b with
  | false => decide +kernel
  | true => decide +kernel

/-- The answer is the magic value or the invalid value, by the inner check. -/
theorem isValidSignature_eq (O : SigOracle W) (hash : W) (signature : Bytes) (caller : Address) :
    isValidSignature K d s block O hash signature caller
      = some (if 33 ≤ signature.length
          ∧ validateSignatureInternal K d s block O hash signature caller = some true
        then erc1271MagicValue else erc1271Invalid) := by
  rw [isValidSignature]
  by_cases hlen : signature.length < 33
  · rw [if_pos hlen, if_neg (fun h => absurd h.1 (by omega))]
    rfl
  · rw [if_neg hlen]
    have hlen : 33 ≤ signature.length := by omega
    cases validateSignatureInternal K d s block O hash signature caller with
    | none => simp
    | some b =>
      have hres : ¬ (encodeBool b).length < 32 := by simp [encodeBool]
      simp only [Option.map_some, if_neg hres, abi_bool_encodeBool, Option.bind_eq_bind,
        Option.bind_some, Option.some.injEq, hlen, true_and]
      rfl

theorem validateSignatureInternal_iff (O : SigOracle W) {hash : W} {signature : Bytes}
    {caller : Address} (h0 : s.weights 0 = 0) :
    validateSignatureInternal K d s block O hash signature caller = some true
      ↔ ∃ kind payload ownerSigs, decodeSignature signature = some (kind, payload, ownerSigs)
        ∧ IntentAllowed K (s.policy d) block caller hash kind payload.data
        ∧ (kind = 0 → s.paused = false ∧ s.revokedIntents hash = false)
        ∧ ∃ k l, QuorumBlob O d.treasury s.toSigners hash ownerSigs.data k l := by
  rw [validateSignatureInternal]
  cases hdec : decodeSignature signature with
  | none => simp
  | some t =>
    obtain ⟨kind, payload, ownerSigs⟩ := t
    simp only [Option.bind_eq_bind, Option.bind_some, Option.some.injEq, Prod.mk.injEq]
    constructor
    · intro h
      obtain ⟨b, hb, h⟩ := Option.bind_eq_some_iff.mp h
      cases b with
      | false => exact absurd h (by simp)
      | true =>
        obtain ⟨ha, hstop⟩ := passesPolicy_iff.mp hb
        exact ⟨kind, payload, ownerSigs, ⟨rfl, rfl, rfl⟩, ha, hstop,
          (checkWeightedSigs_eq_true_iff h0).mp h⟩
    · rintro ⟨_, _, _, ⟨rfl, rfl, rfl⟩, ha, hstop, hq⟩
      rw [passesPolicy_iff.mpr ⟨ha, hstop⟩, Option.bind_some]
      exact (checkWeightedSigs_eq_true_iff h0).mpr hq

omit [DecidableEq W] in
theorem burnIntentDigest_ne_admin (intent : BurnIntent) (a : SignedAction W) (s' : State W) :
    burnIntentDigest K intent ≠ a.digest K d s' := by
  intro h
  cases a with
  | queueAdmin | cancelAdmin | pause | revokeIntent =>
    exact gatewayDomainSeparator_ne K _ _ _ _ (K.hashTyped_inj h).1

omit [DecidableEq W] in
/-- An authorization hashes seven words, no admin struct does. -/
theorem receiveWithAuthorizationDigest_ne_admin (n v : Bytes) (c : Uint256) (t : Address)
    (auth : ReceiveAuth) (a : SignedAction W) (s' : State W) :
    receiveWithAuthorizationDigest K n v c t auth ≠ a.digest K d s' := by
  intro h
  cases a with
  | queueAdmin | cancelAdmin | pause | revokeIntent =>
    have := congrArg List.length (K.hashWords_inj (K.hashTyped_inj h).2)
    simp at this

/-- `hash` is the digest of one burn intent, and the policy allows it. -/
def AcceptsBurn (K : Keccak W) (d : Deployment) (s : State W) (block : Block) (hash : W) : Prop :=
  ∃ intent, burnIntentDigest K intent = hash ∧ (∀ j, burnIntentDigest K j = hash → j = intent)
    ∧ s.paused = false ∧ s.revokedIntents hash = false
    ∧ BurnAllowed (s.policy d) block.number intent

/-- `hash` is the digest of one authorization of the token `caller`, from the
treasury to the Gateway wallet. -/
def AcceptsAuth (K : Keccak W) (d : Deployment) (s : State W) (block : Block) (caller : Address)
    (hash : W) : Prop :=
  ∃ auth, (s.allowedTokens caller).eip712Name ≠ []
    ∧ receiveWithAuthorizationDigest K (s.allowedTokens caller).eip712Name
        (s.allowedTokens caller).eip712Version block.chainid caller auth = hash
    ∧ (∀ n v c t b, receiveWithAuthorizationDigest K n v c t b = hash → t = caller ∧ b = auth)
    ∧ auth.fromAddr = d.treasury ∧ auth.toAddr = d.gatewayWallet

/-- **`isValidSignature` is exact.**  It never reverts; the magic value means that
the envelope holds an allowed intent and a quorum over `hash`; that intent is
the only one behind `hash`; and `hash` is no digest of an admin action. -/
theorem isValidSignature_exact {treasury : Address} {chainid : Uint256} {p : SignerParams}
    {pol : PolicyParams} {s₀ : State W} {h : List (Call (State W) (Tx W d))}
    (hd : deploy K treasury chainid p pol = .ok (d, s₀)) (hr : Run (step K d) s₀ h s)
    (O : SigOracle W) (block : Block) (caller : Address) (hash : W) (signature : Bytes) :
    (∃ v, isValidSignature K d s block O hash signature caller = some v)
      ∧ (isValidSignature K d s block O hash signature caller = some erc1271MagicValue
          ↔ 33 ≤ signature.length ∧ ∃ kind payload ownerSigs,
            decodeSignature signature = some (kind, payload, ownerSigs)
            ∧ IntentAllowed K (s.policy d) block caller hash kind payload.data
            ∧ (kind = 0 → s.paused = false ∧ s.revokedIntents hash = false)
            ∧ ∃ k l, QuorumBlob O d.treasury s.toSigners hash ownerSigs.data k l)
      ∧ (isValidSignature K d s block O hash signature caller = some erc1271MagicValue →
          (AcceptsBurn K d s block hash ∨ AcceptsAuth K d s block caller hash)
          ∧ ¬ (AcceptsBurn K d s block hash ∧ AcceptsAuth K d s block caller hash)
          ∧ ∀ (a : SignedAction W) (s' : State W), hash ≠ a.digest K d s') := by
  have hctl := controlled_of_run hd hr
  have hiff : isValidSignature K d s block O hash signature caller = some erc1271MagicValue
      ↔ 33 ≤ signature.length
        ∧ validateSignatureInternal K d s block O hash signature caller = some true := by
    rw [isValidSignature_eq, Option.some.injEq]
    split_ifs with hc
    · exact ⟨fun _ => hc, fun _ => rfl⟩
    · exact ⟨fun h => absurd h (by decide), fun h => absurd h hc⟩
  rw [validateSignatureInternal_iff O hctl.signers.weight_zero] at hiff
  refine ⟨⟨_, isValidSignature_eq O hash signature caller⟩, hiff, ?_⟩
  intro hmagic
  obtain ⟨-, kind, payload, ownerSigs, -, hallow, hstop, -⟩ := hiff.mp hmagic
  have hone : ¬ (AcceptsBurn K d s block hash ∧ AcceptsAuth K d s block caller hash) := by
    rintro ⟨⟨intent, hb, -⟩, ⟨auth, -, ha, -⟩⟩
    exact burnIntentDigest_ne_receive K _ _ _ _ _ _ (hb.trans ha.symm)
  rcases hallow with ⟨rfl, intent, -, hdig, ha⟩ | ⟨rfl, auth, -, hdig, ha⟩
  · refine ⟨Or.inl ⟨intent, hdig, ?_, (hstop rfl).1, (hstop rfl).2, ha⟩, hone, ?_⟩
    · intro j hj
      exact burnIntentDigest_inj K (hj.trans hdig.symm)
    · intro a s'
      rw [← hdig]
      exact burnIntentDigest_ne_admin intent a s'
  · refine ⟨Or.inr ⟨auth, ha.token, hdig, ?_, ha.fromAddr, ha.toAddr⟩, hone, ?_⟩
    · intro n v c t b hb
      obtain ⟨-, -, -, ht, hauth⟩ := receiveWithAuthorizationDigest_inj K (hb.trans hdig.symm)
      exact ⟨ht, hauth⟩
    · intro a s'
      rw [← hdig]
      exact receiveWithAuthorizationDigest_ne_admin _ _ _ _ _ a s'

end

/-- A deposit of `50` by the treasury `0x2` into the Gateway wallet `0x3`. -/
def soleAuth : ReceiveAuth := ⟨2, 3, 50, 0, 999, 77⟩

def soleAuthPayload : Bytes :=
  beBytes 32 2 ++ beBytes 32 3 ++ beBytes 32 50 ++ beBytes 32 0 ++ beBytes 32 999 ++ beBytes 32 77

def soleAuthHash : Term :=
  receiveWithAuthorizationDigest Keccak.symbolic (ascii "USDC") (ascii "2") 1 4 soleAuth

/-- `abi.encode(1, soleAuthPayload, ownerSigs)` with the sole owner's signature. -/
def soleAuthSignature : Bytes :=
  beBytes 32 1 ++ beBytes 32 96 ++ beBytes 32 320 ++ beBytes 32 192 ++ soleAuthPayload
    ++ beBytes 32 65 ++ soleOwnerSig 2

theorem isValidSignature_exact_soleRun :
    isValidSignature Keccak.symbolic soleDeployment (executedState Keccak.symbolic 1) ⟨10, 1⟩
      (soleOwnerOracle (soleSigns Keccak.symbolic 1 soleAuthHash)) soleAuthHash soleAuthSignature 4
      = some erc1271MagicValue := by
  refine (isValidSignature_exact (soleDeploy _) (soleRun _ 1 soleAuthHash) _ _ _ _ _).2.1.mpr
    ⟨by decide +kernel, 1, ⟨soleAuthPayload, by decide +kernel⟩, soleOwnerBlob 2, by decide +kernel,
      .auth rfl soleAuth (by decide +kernel) rfl ⟨by decide +kernel, rfl, rfl⟩,
      fun h => absurd h (by decide), ?_⟩
  exact (checkWeightedSigs_eq_true_iff soleOwner_valid.weight_zero).mp (soleOwner_quorum rfl)

end Bufi.Treasury
