import Bufi.Guard.Isolation
import Bufi.Treasury.Erc1271

/-!
# Two packagings of one policy

The guard decides the same rules as the treasury, from its own storage:
`checkIntent_iff` is for the guard what `passesPolicy_iff` is for the treasury.
Where the two are configured alike the verdicts agree; an address book adds the
recipients it holds, on EVM domains, and nothing else.
-/

namespace Bufi.Guard

open Bufi.Evm Bufi.Gateway

section

variable {W : Type} {K : Keccak W} {env : Env W} {block : Block} {s : State W} {account : Address}

/-- The address book of an account holds a recipient of an EVM domain. -/
def BookAllows (env : Env W) (s : State W) (account : Address) (domain : Uint32)
    (recipient : Bytes32) : Prop :=
  (s.limits account).addressBook ≠ 0 ∧ isEvmDomain domain = true ∧ toAddress recipient ≠ 0
    ∧ ∃ book, env.getAllowedRecipients (s.limits account).addressBook account = some book
      ∧ toAddress recipient ∈ book

/-- What the rules can ask a guard about an account. -/
def State.policy (K : Keccak W) (env : Env W) (s : State W) (account : Address) :
    PolicyConfig where
  limits := (s.limits account).intentLimits account
  tokenName a := (s.tokens (s.ns K account) a).name
  tokenVersion a := (s.tokens (s.ns K account) a).version
  domain n := s.domains (s.ns K account) n = true
  minter := s.minters (s.ns K account)
  destinationToken t := s.destTokens (s.ns K account) t = true
  recipient n r := s.recipients (s.ns K account) r = true ∨ BookAllows env s account n r
  caller c := s.callers (s.ns K account) c = true

theorem recipientAllowed_eq_ok {ns : W} {domain : Uint32} {recipient : Bytes32} :
    recipientAllowed env s account (s.limits account) ns domain recipient = .ok true
      ↔ matchesDomainShape domain recipient = true
        ∧ (s.recipients ns recipient = true ∨ BookAllows env s account domain recipient) := by
  rw [recipientAllowed]
  by_cases hm : matchesDomainShape domain recipient = true
  swap
  · simp [hm, pure_eq_ok]
  rw [if_neg (by simp [hm])]
  by_cases hr : s.recipients ns recipient = true
  · simp [hr, hm, pure_eq_ok]
  rw [if_neg hr]
  by_cases hb : (s.limits account).addressBook = 0 ∨ (!isEvmDomain domain) = true
  · rw [if_pos hb, pure_eq_ok]
    refine ⟨fun h => absurd h (by simp), ?_⟩
    rintro ⟨-, h | ⟨h1, h2, -⟩⟩
    · exact absurd h hr
    · rcases hb with hb | hb
      · exact absurd hb h1
      · rw [h2] at hb
        exact absurd hb (by simp)
  rw [if_neg hb]
  rw [not_or] at hb
  have hevm : isEvmDomain domain = true := by simpa using hb.2
  by_cases hz : toAddress recipient = 0
  · rw [if_pos hz, pure_eq_ok]
    refine ⟨fun h => absurd h (by simp), ?_⟩
    rintro ⟨-, h | ⟨-, -, h, -⟩⟩
    · exact absurd h hr
    · exact absurd hz h
  rw [if_neg hz, bind_eq_ok]
  simp only [orRevert_eq_ok, pure_eq_ok]
  constructor
  · rintro ⟨book, hbook, hmem⟩
    exact ⟨hm, Or.inr ⟨hb.1, hevm, hz, book, hbook, by simpa using hmem⟩⟩
  · rintro ⟨-, h | ⟨-, -, -, book, hbook, hmem⟩⟩
    · exact absurd h hr
    · exact ⟨book, hbook, by simpa using hmem⟩

variable [DecidableEq W]

theorem checkBurnIntent_eq_ok {hash : W} {payload : Bytes} {u : Unit} :
    checkBurnIntent K env block s account (s.limits account) (s.ns K account) hash payload = .ok u
      ↔ ∃ intent, decodeBurnIntent payload = some intent ∧ burnIntentDigest K intent = hash
        ∧ BurnAllowed (s.policy K env account) block.number intent := by
  simp only [checkBurnIntent, bind_eq_ok, orRevert_eq_ok, require_eq_ok, exists_const]
  constructor
  · rintro ⟨intent, hdec, hdig, hok, htok, ⟨h1, h2⟩, h3, allowed, h4, h5, h6, h7⟩
    subst h5
    obtain ⟨hshape, htoken⟩ := (checkIntentShape_iff _ _ _ _).mp (Prod.ext hok rfl)
    have hname : (s.policy K env account).tokenName (toAddress intent.spec.sourceToken) ≠ [] := by
      rw [← htoken]
      exact fun h => htok (congrArg List.length h)
    obtain ⟨h8, h9⟩ := recipientAllowed_eq_ok.mp h4
    rw [not_or, not_not] at h7
    refine ⟨intent, hdec, hdig, hshape, hname, h3, h7.1, h7.2, h1, h2, h9, h8, ?_⟩
    intro hc
    rw [not_and, not_or, Bool.not_eq_false, Bool.not_eq_false] at h6
    exact h6 hc
  · rintro ⟨intent, hdec, hdig, ha⟩
    have hs := (checkIntentShape_iff block.number intent _ _).mpr ⟨ha.shape, rfl⟩
    have hs : checkIntentShape block.number intent ((s.limits account).intentLimits account)
      = (true, toAddress intent.spec.sourceToken) := hs
    have hname : (s.tokens (s.ns K account) (checkIntentShape block.number intent
        ((s.limits account).intentLimits account)).2).name.length ≠ 0 := by
      rw [hs]
      exact fun h => ha.sourceToken (List.eq_nil_of_length_eq_zero h)
    refine ⟨intent, hdec, hdig, congrArg Prod.fst hs, hname,
      ⟨ha.destinationToken, ha.destinationToken_shape⟩, ha.domain, true,
      recipientAllowed_eq_ok.mpr ⟨ha.recipient_shape, ha.recipient⟩, rfl, ?_, ?_⟩
    · rintro ⟨hc, h⟩
      obtain ⟨hc1, hc2⟩ := ha.caller hc
      rcases h with h | h
      · exact absurd (hc1.symm.trans h) (by simp)
      · exact absurd (hc2.symm.trans h) (by simp)
    · exact not_or.mpr ⟨ha.minter_ne, not_not.mpr ha.minter⟩

theorem checkReceiveWithAuthorization_eq_ok {caller : Address} {hash : W} {payload : Bytes}
    {u : Unit} :
    checkReceiveWithAuthorization K block s account (s.limits account) (s.ns K account) caller hash
        payload = .ok u
      ↔ ∃ auth, decodeReceiveAuth payload = some auth
        ∧ receiveWithAuthorizationDigest K ((s.policy K env account).tokenName caller)
            ((s.policy K env account).tokenVersion caller) block.chainid caller auth = hash
        ∧ AuthAllowed (s.policy K env account) caller auth := by
  simp only [checkReceiveWithAuthorization, bind_eq_ok, orRevert_eq_ok, require_eq_ok,
    exists_const]
  constructor
  · rintro ⟨htok, auth, hdec, hdig, h⟩
    rw [not_or, not_not, not_not] at h
    exact ⟨auth, hdec, hdig, fun hn => htok (congrArg List.length hn), h.1, h.2⟩
  · rintro ⟨auth, hdec, hdig, ha⟩
    exact ⟨fun hn => ha.token (List.eq_nil_of_length_eq_zero hn), auth, hdec, hdig,
      not_or.mpr ⟨not_not.mpr ha.fromAddr, not_not.mpr ha.toAddr⟩⟩

/-- **The guard decides the policy** of an installed account. -/
theorem checkIntent_iff {caller : Address} {hash : W} {kind : Uint8} {payload : Bytes}
    (hi : (s.limits account).gatewayWallet ≠ 0) :
    checkIntent K env block s account caller hash kind payload = .ok ()
      ↔ IntentAllowed K (s.policy K env account) block caller hash kind payload := by
  simp only [checkIntent, bind_eq_ok, require_eq_ok, exists_const]
  by_cases h0 : kind = 0
  · subst h0
    rw [if_pos rfl, checkBurnIntent_eq_ok]
    constructor
    · rintro ⟨-, intent, hdec, hdig, ha⟩
      exact .burn rfl intent hdec hdig ha
    · rintro (⟨-, intent, hdec, hdig, ha⟩ | ⟨hk, -, -, -, -⟩)
      · exact ⟨hi, intent, hdec, hdig, ha⟩
      · exact absurd hk (by decide)
  · rw [if_neg h0]
    by_cases h1 : kind = 1
    · subst h1
      rw [if_pos rfl, checkReceiveWithAuthorization_eq_ok]
      constructor
      · rintro ⟨-, auth, hdec, hdig, ha⟩
        exact .auth rfl auth hdec hdig ha
      · rintro (⟨hk, -, -, -, -⟩ | ⟨-, auth, hdec, hdig, ha⟩)
        · exact absurd hk h0
        · exact ⟨hi, auth, hdec, hdig, ha⟩
    · rw [if_neg h1]
      constructor
      · rintro ⟨-, h⟩
        exact absurd h (by simp [throw, throwThe, MonadExceptOf.throw])
      · rintro (⟨hk, -, -, -, -⟩ | ⟨hk, -, -, -, -⟩)
        · exact absurd hk h0
        · exact absurd hk h1

/-! ### The same configuration -/

/-- The guard of `account` is configured like the treasury; the address book is
left open. -/
structure Corresponds (K : Keccak W) (d : Treasury.Deployment) (t : Treasury.State W) (s : State W)
    (account : Address) : Prop where
  depositor : account = d.treasury
  installed : (s.limits account).gatewayWallet ≠ 0
  gatewayWallet : (s.limits account).gatewayWallet = d.gatewayWallet
  sourceDomain : (s.limits account).sourceDomain = d.localDomain
  perIntentCap : (s.limits account).perIntentCap = t.perIntentCap
  maxFeeCap : (s.limits account).maxFeeCap = t.maxFeeCap
  maxExpiryBlocks : (s.limits account).maxExpiryBlocks = t.maxExpiryBlocks
  tokenName : ∀ a, (s.tokens (s.ns K account) a).name = (t.allowedTokens a).eip712Name
  tokenVersion : ∀ a, (s.tokens (s.ns K account) a).version = (t.allowedTokens a).eip712Version
  destTokens : ∀ x, s.destTokens (s.ns K account) x = t.allowedDestinationTokens x
  domains : ∀ n, s.domains (s.ns K account) n = t.allowedDestinationDomains n
  minters : ∀ n, s.minters (s.ns K account) n = t.destinationMinters n
  callers : ∀ c, s.callers (s.ns K account) c = t.allowedDestinationCallers c
  recipients : ∀ r, s.recipients (s.ns K account) r = t.allowedRecipients r

variable {d : Treasury.Deployment} {t : Treasury.State W}

omit [DecidableEq W] in
/-- The guard's policy is the treasury's with the address book added. -/
theorem Corresponds.policy_eq (hc : Corresponds K d t s account) :
    s.policy K env account = (t.policy d).withRecipient
      (fun n r => (t.policy d).recipient n r ∨ BookAllows env s account n r) := by
  have hl : (s.limits account).intentLimits account = t.intentLimits d := by
    rw [Limits.intentLimits, Treasury.State.intentLimits, hc.gatewayWallet, hc.sourceDomain,
      hc.maxExpiryBlocks, hc.perIntentCap, hc.maxFeeCap, hc.depositor]
  simp only [State.policy, Treasury.State.policy, PolicyConfig.withRecipient, hl, hc.tokenName,
    hc.tokenVersion, hc.domains, hc.destTokens, hc.recipients, hc.callers]
  congr 1
  exact funext hc.minters

omit [DecidableEq W] in
/-- An intent that passes with the book alone is one whose other checks pass. -/
theorem burnAllowed_book_iff {cfg : PolicyConfig} {n : Uint256} {intent : BurnIntent} :
    BurnAllowed (cfg.withRecipient (BookAllows env s account)) n intent
      ↔ BurnAllowed (cfg.withRecipient (fun _ _ => True)) n intent
        ∧ BookAllows env s account intent.spec.destinationDomain
          intent.spec.destinationRecipient := by
  constructor
  · rintro ⟨h1, h2, h3, h4, h5, h6, h7, h8, h9, h10⟩
    exact ⟨⟨h1, h2, h3, h4, h5, h6, h7, trivial, h9, h10⟩, h8⟩
  · rintro ⟨⟨h1, h2, h3, h4, h5, h6, h7, -, h9, h10⟩, h8⟩
    exact ⟨h1, h2, h3, h4, h5, h6, h7, h8, h9, h10⟩

/-- The guard accepts what the treasury does, or what the address book adds. -/
theorem checkIntent_iff_passesPolicy_or {caller : Address} {hash : W} {kind : Uint8}
    {payload : Bytes} (hc : Corresponds K d t s account) (hp : t.paused = false)
    (hv : t.revokedIntents hash = false) :
    checkIntent K env block s account caller hash kind payload = .ok ()
      ↔ Treasury.passesPolicy K d t block caller hash kind payload = some true
        ∨ kind = 0 ∧ ∃ intent, decodeBurnIntent payload = some intent
          ∧ burnIntentDigest K intent = hash
          ∧ ¬ t.allowedRecipients intent.spec.destinationRecipient = true
          ∧ BurnAllowed ((t.policy d).withRecipient (fun _ _ => True)) block.number intent
          ∧ BookAllows env s account intent.spec.destinationDomain
            intent.spec.destinationRecipient := by
  rw [checkIntent_iff hc.installed, hc.policy_eq, intentAllowed_withRecipient_iff,
    Treasury.passesPolicy_iff]
  simp only [burnAllowed_book_iff]
  exact or_congr ⟨fun h => ⟨h, fun _ => ⟨hp, hv⟩⟩, fun h => h.1⟩ Iff.rfl

omit [DecidableEq W] in
/-- The recipient is what the address book holds: a padded non-zero address. -/
theorem bookAllows_iff {domain : Uint32} {recipient : Bytes32}
    (hb : (s.limits account).addressBook ≠ 0)
    (hshape : matchesDomainShape domain recipient = true) :
    BookAllows env s account domain recipient
      ↔ isEvmDomain domain = true ∧ recipient ≠ 0 ∧ isCanonicalAddress recipient = true
        ∧ ∃ book, env.getAllowedRecipients (s.limits account).addressBook account = some book
          ∧ toAddress recipient ∈ book := by
  constructor
  · rintro ⟨-, hevm, -, hbook⟩
    obtain ⟨hne, hcan⟩ := (matchesDomainShape_evm hevm recipient).mp hshape
    exact ⟨hevm, hne, hcan, hbook⟩
  · rintro ⟨hevm, hne, hcan, hbook⟩
    refine ⟨hb, hevm, fun hz => hne ?_, hbook⟩
    rw [← toBytes32_toAddress hcan, hz]
    rfl

/-- **The two packagings agree.**  Without an address book the guard accepts
exactly what the treasury takes to its signatures; with one, also what fails
there on the recipient alone and names a padded address of the book on an EVM
domain. -/
theorem guard_agrees_treasury (hc : Corresponds K d t s account) (env : Env W) (block : Block)
    (caller : Address) {hash : W} (kind : Uint8) (payload : Bytes) (hp : t.paused = false)
    (hv : t.revokedIntents hash = false) :
    ((s.limits account).addressBook = 0 →
        (checkIntent K env block s account caller hash kind payload = .ok ()
          ↔ Treasury.passesPolicy K d t block caller hash kind payload = some true))
      ∧ ((s.limits account).addressBook ≠ 0 →
        (checkIntent K env block s account caller hash kind payload = .ok ()
          ↔ Treasury.passesPolicy K d t block caller hash kind payload = some true
            ∨ kind = 0 ∧ ∃ intent, decodeBurnIntent payload = some intent
              ∧ burnIntentDigest K intent = hash
              ∧ ¬ t.allowedRecipients intent.spec.destinationRecipient = true
              ∧ BurnAllowed ((t.policy d).withRecipient (fun _ _ => True)) block.number intent
              ∧ isEvmDomain intent.spec.destinationDomain = true
              ∧ intent.spec.destinationRecipient ≠ 0
              ∧ isCanonicalAddress intent.spec.destinationRecipient = true
              ∧ ∃ book, env.getAllowedRecipients (s.limits account).addressBook account = some book
                ∧ toAddress intent.spec.destinationRecipient ∈ book)) := by
  refine ⟨?_, ?_⟩
  · intro hb
    rw [checkIntent_iff_passesPolicy_or hc hp hv]
    constructor
    · rintro (h | ⟨-, intent, -, -, -, -, hbook⟩)
      · exact h
      · exact absurd hb hbook.1
    · exact Or.inl
  · intro hb
    rw [checkIntent_iff_passesPolicy_or hc hp hv]
    refine or_congr Iff.rfl (and_congr_right fun _ => exists_congr fun intent =>
      and_congr_right fun _ => and_congr_right fun _ => and_congr_right fun _ =>
      and_congr_right ?_)
    intro ha
    exact bookAllows_iff hb ha.recipient_shape

end

/-! ### A mirror -/

/-- The configuration of the deployed treasury, as an init of the guard. -/
def mirrorInit : GatewayGuardInit where
  gatewayWallet := 3
  perIntentCap := 100
  maxFeeCap := 10
  maxExpiryBlocks := 1000
  recipients := [9]
  destinationDomains := [6]
  tokens := [4]
  tokenNames := [ascii "USDC"]
  tokenVersions := [ascii "2"]
  destinationTokens := [8]
  sourceDomain := 7
  destinationMinters := [5]
  destinationCallers := []
  addressBook := 0

def mirrorState : State Term := State.initial.installed Keccak.symbolic 2 mirrorInit

theorem mirror_tokens (a : Address) :
    mirrorState.tokens (mirrorState.ns Keccak.symbolic 2) a
      = if a = 4 then ⟨ascii "USDC", ascii "2"⟩ else ⟨[], []⟩ :=
  Function.update_apply _ _ _ _

theorem soleState_tokens (a : Address) :
    (Treasury.soleState Keccak.symbolic).allowedTokens a
      = if a = 4 then ⟨ascii "USDC", ascii "2"⟩ else ⟨[], []⟩ := by
  change setAll _ _ a = _
  rw [setAll, List.foldl_cons, List.foldl_nil, Function.update_apply]

theorem mirror_corresponds : Corresponds Keccak.symbolic Treasury.soleDeployment
    (Treasury.soleState Keccak.symbolic) mirrorState 2 where
  depositor := rfl
  installed := by decide
  gatewayWallet := rfl
  sourceDomain := rfl
  perIntentCap := rfl
  maxFeeCap := rfl
  maxExpiryBlocks := rfl
  tokenName a := by
    rw [mirror_tokens, soleState_tokens]
    split_ifs <;> rfl
  tokenVersion a := by
    rw [mirror_tokens, soleState_tokens]
    split_ifs <;> rfl
  destTokens _ := rfl
  domains _ := rfl
  minters _ := rfl
  callers _ := rfl
  recipients _ := rfl

theorem guard_agrees_treasury_mirror :
    checkIntent Keccak.symbolic noBook ⟨10, 1⟩ mirrorState 2 4 Treasury.soleAuthHash 1
      Treasury.soleAuthPayload = .ok () := by
  refine ((guard_agrees_treasury mirror_corresponds noBook ⟨10, 1⟩ 4 1 Treasury.soleAuthPayload rfl
    rfl).1 rfl).mpr (Treasury.passesPolicy_iff.mpr ⟨?_, fun h => absurd h (by decide)⟩)
  exact .auth rfl Treasury.soleAuth (by decide +kernel) rfl ⟨by decide +kernel, rfl, rfl⟩

end Bufi.Guard
