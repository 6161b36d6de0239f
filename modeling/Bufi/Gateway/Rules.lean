import Bufi.Gateway.Policy

/-!
# What the policy allows

The rules of the intent policy, apart from where a contract keeps its sets.
`PolicyConfig` is what a rule can ask about, `BurnAllowed` and `AuthAllowed` are
the rules for the two kinds of intent, and `IntentAllowed` is the verdict on a
hash with its payload.  `GatewayTreasury` and `GatewayIntentGuardCore` each
decide this verdict, from different storage and in a different order.
-/

namespace Bufi.Gateway

open Bufi.Evm

/-- The block a check runs in. -/
structure Block where
  number : Uint256
  chainid : Uint256
  deriving DecidableEq

/-- The configuration a policy is evaluated in; `recipient` depends on the domain
because an address book counts on EVM domains only. -/
structure PolicyConfig where
  limits : IntentLimits
  tokenName : Address → Bytes
  tokenVersion : Address → Bytes
  domain : Uint32 → Prop
  minter : Uint32 → Bytes32
  destinationToken : Bytes32 → Prop
  recipient : Uint32 → Bytes32 → Prop
  caller : Bytes32 → Prop

/-- The rules for a burn intent. -/
structure BurnAllowed (cfg : PolicyConfig) (blockNumber : Uint256) (intent : BurnIntent) : Prop where
  shape : IntentShape blockNumber intent cfg.limits
  sourceToken : cfg.tokenName (toAddress intent.spec.sourceToken) ≠ []
  domain : cfg.domain intent.spec.destinationDomain
  minter_ne : cfg.minter intent.spec.destinationDomain ≠ 0
  minter : intent.spec.destinationContract = cfg.minter intent.spec.destinationDomain
  destinationToken : cfg.destinationToken intent.spec.destinationToken
  destinationToken_shape :
    matchesDomainShape intent.spec.destinationDomain intent.spec.destinationToken = true
  recipient : cfg.recipient intent.spec.destinationDomain intent.spec.destinationRecipient
  recipient_shape :
    matchesDomainShape intent.spec.destinationDomain intent.spec.destinationRecipient = true
  caller : intent.spec.destinationCaller ≠ 0 → cfg.caller intent.spec.destinationCaller
    ∧ matchesDomainShape intent.spec.destinationDomain intent.spec.destinationCaller = true

/-- The rules for an authorization, presented by the token `token`. -/
structure AuthAllowed (cfg : PolicyConfig) (token : Address) (auth : ReceiveAuth) : Prop where
  token : cfg.tokenName token ≠ []
  fromAddr : auth.fromAddr = cfg.limits.depositor
  toAddr : auth.toAddr = cfg.limits.gatewayWallet

/-- The verdict on a hash: the payload decodes to an intent of that kind, the
hash is its digest, and the rules allow it. -/
inductive IntentAllowed {W : Type} (K : Keccak W) (cfg : PolicyConfig) (block : Block)
    (caller : Address) (hash : W) (kind : Uint8) (payload : Bytes) : Prop
  | burn (hkind : kind = 0) (intent : BurnIntent) (decoded : decodeBurnIntent payload = some intent)
      (digest : burnIntentDigest K intent = hash) (allowed : BurnAllowed cfg block.number intent)
  | auth (hkind : kind = 1) (auth : ReceiveAuth) (decoded : decodeReceiveAuth payload = some auth)
      (digest : receiveWithAuthorizationDigest K (cfg.tokenName caller) (cfg.tokenVersion caller)
        block.chainid caller auth = hash)
      (allowed : AuthAllowed cfg caller auth)

/-- The policy with another rule for recipients. -/
def PolicyConfig.withRecipient (cfg : PolicyConfig) (rule : Uint32 → Bytes32 → Prop) :
    PolicyConfig :=
  { cfg with recipient := rule }

/-- **A wider rule for recipients allows what the narrower one does, and the
intents that fail on the recipient alone.** -/
theorem burnAllowed_withRecipient_or {cfg : PolicyConfig} {rule : Uint32 → Bytes32 → Prop}
    {blockNumber : Uint256} {intent : BurnIntent} :
    BurnAllowed (cfg.withRecipient (fun n r => cfg.recipient n r ∨ rule n r)) blockNumber intent
      ↔ BurnAllowed cfg blockNumber intent
        ∨ ¬ cfg.recipient intent.spec.destinationDomain intent.spec.destinationRecipient
          ∧ BurnAllowed (cfg.withRecipient rule) blockNumber intent := by
  constructor
  · rintro ⟨h1, h2, h3, h4, h5, h6, h7, h8, h9, h10⟩
    by_cases hr : cfg.recipient intent.spec.destinationDomain intent.spec.destinationRecipient
    · exact Or.inl ⟨h1, h2, h3, h4, h5, h6, h7, hr, h9, h10⟩
    · exact Or.inr ⟨hr, h1, h2, h3, h4, h5, h6, h7, Or.resolve_left h8 hr, h9, h10⟩
  · rintro (⟨h1, h2, h3, h4, h5, h6, h7, h8, h9, h10⟩ | ⟨-, h1, h2, h3, h4, h5, h6, h7, h8, h9, h10⟩)
    · exact ⟨h1, h2, h3, h4, h5, h6, h7, Or.inl h8, h9, h10⟩
    · exact ⟨h1, h2, h3, h4, h5, h6, h7, Or.inr h8, h9, h10⟩

/-- Only the burn rules ask about recipients. -/
theorem intentAllowed_withRecipient_iff {W : Type} {K : Keccak W} {cfg : PolicyConfig}
    {rule : Uint32 → Bytes32 → Prop} {block : Block} {caller : Address} {hash : W} {kind : Uint8}
    {payload : Bytes} :
    IntentAllowed K (cfg.withRecipient (fun n r => cfg.recipient n r ∨ rule n r)) block caller hash
        kind payload
      ↔ IntentAllowed K cfg block caller hash kind payload
        ∨ kind = 0 ∧ ∃ intent, decodeBurnIntent payload = some intent
          ∧ burnIntentDigest K intent = hash
          ∧ ¬ cfg.recipient intent.spec.destinationDomain intent.spec.destinationRecipient
          ∧ BurnAllowed (cfg.withRecipient rule) block.number intent := by
  constructor
  · rintro (⟨hk, intent, hd, hh, ha⟩ | ⟨hk, auth, hd, hh, ha⟩)
    · rcases burnAllowed_withRecipient_or.mp ha with ha | ⟨hr, ha⟩
      · exact Or.inl (.burn hk intent hd hh ha)
      · exact Or.inr ⟨hk, intent, hd, hh, hr, ha⟩
    · exact Or.inl (.auth hk auth hd hh ⟨ha.token, ha.fromAddr, ha.toAddr⟩)
  · rintro ((⟨hk, intent, hd, hh, ha⟩ | ⟨hk, auth, hd, hh, ha⟩) | ⟨hk, intent, hd, hh, hr, ha⟩)
    · exact .burn hk intent hd hh (burnAllowed_withRecipient_or.mpr (Or.inl ha))
    · exact .auth hk auth hd hh ⟨ha.token, ha.fromAddr, ha.toAddr⟩
    · exact .burn hk intent hd hh (burnAllowed_withRecipient_or.mpr (Or.inr ⟨hr, ha⟩))

end Bufi.Gateway
