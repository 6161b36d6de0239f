import Bufi.Grant.Build
import Bufi.Session.AccessKept

/-!
# The spend-from-yield preset

`agentGrantPresets.ts`: `spendFromYieldGrant` lets a key transfer a token under a
budget and withdraw from the vaults the token is kept in.  The vaults are plain
calls, without a budget of their own.

`YieldAccess` is what the compiled grant allows: of the token `transfer`, of a vault
`withdraw` and `redeem`, and nothing else; the token has the budget that was asked
for (`yield_of_build`).
-/

namespace Bufi.Grant

open Bufi.Evm Bufi.Js Bufi.Session

/-! ### The preset -/

/-- Half a native token a day. -/
def DEFAULT_AGENT_GAS_BUDGET : BufiGrantSpendBudget := ⟨500000000000000000, .ofNat 86400⟩

def ERC20_TRANSFER_SELECTOR : Bytes4 := 0xa9059cbb

/-- `withdraw(uint256,address,address)`. -/
def ERC4626_WITHDRAW_SELECTOR : Bytes4 := 0xb460af94

/-- `redeem(uint256,address,address)`. -/
def ERC4626_REDEEM_SELECTOR : Bytes4 := 0xba087652

def grant (scope : List BufiGrantScopeEntry) (expiry : BufiGrantExpiry)
    (erc20 : Option (String × BufiGrantSpendBudget)) (gas : Option BufiGrantSpendBudget)
    (requiredPaymaster : Option String) : BufiGrant where
  allow := scope
  budget := some
    { erc20 := erc20.map (fun e => [{ e.2 with token := e.1 }])
      native := none
      gas := some (gas.getD DEFAULT_AGENT_GAS_BUDGET) }
  expiry := expiry
  requiredPaymaster := requiredPaymaster.filter (· ≠ "")

structure SpendFromYieldGrantParameters where
  token : String
  vaults : List String
  recipients : List String
  budget : BufiGrantSpendBudget
  expiry : BufiGrantExpiry
  gas : Option BufiGrantSpendBudget
  requiredPaymaster : Option String
  includeRedeem : Bool
  deriving DecidableEq

inductive PresetError
  | noVault
  | noRecipient
  | tokenAsVault (token : String)
  deriving DecidableEq

def PresetError.text : PresetError → String
  | noVault =>
    "A spend-from-yield grant must name at least one vault. For a key that only spends a liquid "
      ++ "balance, use floatFunderGrant."
  | noRecipient => "A spend-from-yield grant must name at least one recipient."
  | tokenAsVault token =>
    "A spend-from-yield grant cannot use the budgeted token " ++ token ++ " as a vault: the ERC-20 "
      ++ "spend limit would flag it, and a flagged contract admits transfer and approve only, so "
      ++ "withdraw would be rejected at validation."

def vaultSelectors (includeRedeem : Bool) : List Bytes4 :=
  ERC4626_WITHDRAW_SELECTOR :: if includeRedeem then [ERC4626_REDEEM_SELECTOR] else []

/-- The loop over the vaults; one that was seen is skipped. -/
def vaultScope (token : String) (selectors : List Bytes4) :
    List String → List (List Char) → Except PresetError (List BufiGrantScopeEntry)
  | [], _ => pure []
  | vault :: vaults, seen =>
    if lowerCase vault = lowerCase token then throw (.tokenAsVault token)
    else if lowerCase vault ∈ seen then vaultScope token selectors vaults seen
    else do
      let scope ← vaultScope token selectors vaults (lowerCase vault :: seen)
      pure (⟨vault, some selectors⟩ :: scope)

def spendFromYieldGrant (p : SpendFromYieldGrantParameters) : Except PresetError BufiGrant := do
  require (p.vaults.length ≠ 0) .noVault
  require (p.recipients.length ≠ 0) .noRecipient
  let vaults ← vaultScope p.token (vaultSelectors p.includeRedeem) p.vaults []
  pure (grant (⟨p.token, some [ERC20_TRANSFER_SELECTOR]⟩ :: vaults) p.expiry
    (some (p.token, p.budget)) p.gas p.requiredPaymaster)

theorem vaultScope_eq_ok {token : String} {selectors : List Bytes4} {vaults : List String}
    {seen : List (List Char)} {scope : List BufiGrantScopeEntry}
    (h : vaultScope token selectors vaults seen = .ok scope) :
    (∀ v ∈ vaults, lowerCase v ≠ lowerCase token)
      ∧ ∀ entry ∈ scope, ∃ v ∈ vaults, entry = ⟨v, some selectors⟩ := by
  induction vaults generalizing seen scope with
  | nil =>
    rw [pure_eq_ok.mp h]
    exact ⟨fun v hv => absurd hv List.not_mem_nil, fun e he => absurd he List.not_mem_nil⟩
  | cons vault vaults ih =>
    rw [vaultScope] at h
    split_ifs at h with htoken hseen
    · obtain ⟨hne, hscope⟩ := ih h
      refine ⟨List.forall_mem_cons.mpr ⟨htoken, hne⟩, fun e he => ?_⟩
      obtain ⟨v, hv, rfl⟩ := hscope e he
      exact ⟨v, List.mem_cons_of_mem vault hv, rfl⟩
    · simp only [bind_eq_ok, pure_eq_ok] at h
      obtain ⟨rest, hrest, rfl⟩ := h
      obtain ⟨hne, hscope⟩ := ih hrest
      refine ⟨List.forall_mem_cons.mpr ⟨htoken, hne⟩, fun e he => ?_⟩
      rcases List.mem_cons.mp he with rfl | he
      · exact ⟨vault, List.mem_cons_self, rfl⟩
      · obtain ⟨v, hv, rfl⟩ := hscope e he
        exact ⟨v, List.mem_cons_of_mem vault hv, rfl⟩

theorem spendFromYieldGrant_eq_ok {p : SpendFromYieldGrantParameters} {g : BufiGrant}
    (h : spendFromYieldGrant p = .ok g) :
    ∃ vaults, vaultScope p.token (vaultSelectors p.includeRedeem) p.vaults [] = .ok vaults
      ∧ g = grant (⟨p.token, some [ERC20_TRANSFER_SELECTOR]⟩ :: vaults) p.expiry
        (some (p.token, p.budget)) p.gas p.requiredPaymaster := by
  simp only [spendFromYieldGrant, bind_eq_ok, require_eq_ok, exists_const, pure_eq_ok] at h
  obtain ⟨-, -, vaults, hvaults, rfl⟩ := h
  exact ⟨vaults, hvaults, rfl⟩

/-! ### What the compiled preset allows -/

/-- The addresses of a list of texts. -/
def Names (texts : List String) (a : Address) : Prop := ∃ s ∈ texts, addressOf s = some a

/-- Only `transfer` of the token and `withdraw` and `redeem` of the vaults are on the
list, and every target is checked for its functions. -/
structure YieldAccess (token : Address) (vault : Address → Prop) (p : Permissions) : Prop where
  accessType : p.key.contractAccessControlType = .allowlist
  checkSelectors : ∀ c, (p.contracts c).isOnList = true → (p.contracts c).checkSelectors = true
  functions : ∀ c selector, (p.functions c selector).isOnList = true →
    (c = token ∧ selector = ERC20_TRANSFER_SELECTOR) ∨ (vault c ∧
      (selector = ERC4626_WITHDRAW_SELECTOR ∨ selector = ERC4626_REDEEM_SELECTOR))

theorem YieldAccess.of_sameAccess {token : Address} {vault : Address → Prop} {p q : Permissions}
    (h : YieldAccess token vault p) (hsame : SameAccess p q) : YieldAccess token vault q where
  accessType := hsame.accessType.trans h.accessType
  checkSelectors c hc := by
    rw [hsame.isOnList] at hc
    rw [hsame.checkSelectors]
    exact h.checkSelectors c hc
  functions c selector hf := by
    rw [hsame.functions] at hf
    exact h.functions c selector hf

theorem sameAccess_of_keyUpdate {timestamp : Uint256} {p q : Permissions} {u : PermissionsUpdate}
    (hu : KeyUpdate u) (h : p.perform timestamp u = .ok q) :
    SameAccess p q ∧ q.contracts = p.contracts := by
  cases hu with
  | native =>
    obtain rfl := pure_eq_ok.mp h
    exact ⟨.mapKey rfl, rfl⟩
  | gas =>
    obtain rfl := pure_eq_ok.mp h
    exact ⟨.mapKey rfl, rfl⟩
  | timeRange =>
    obtain rfl := pure_eq_ok.mp h
    exact ⟨.mapKey rfl, rfl⟩
  | paymaster =>
    obtain rfl := pure_eq_ok.mp h
    refine ⟨.mapKey ?_, rfl⟩
    rw [SessionKeyData.setRequiredPaymaster]
    split
    · rfl
    · rfl

theorem perform_setERC20SpendLimit {timestamp : Uint256} {p q : Permissions} {token : Address}
    {spendLimit : Uint256} {refreshInterval : Uint48}
    (h : p.perform timestamp (.setERC20SpendLimit token spendLimit refreshInterval) = .ok q) :
    SameAccess p q ∧ q.contracts token =
      (p.contracts token).setERC20SpendLimit timestamp spendLimit refreshInterval := by
  simp only [Permissions.perform, bind_eq_ok, require_eq_ok, exists_const, pure_eq_ok] at h
  obtain ⟨-, rfl⟩ := h
  refine ⟨.mapContract rfl rfl, ?_⟩
  rw [Permissions.contracts_mapContract, if_pos rfl]

theorem budget_setERC20SpendLimit (timestamp : Uint256) {spendLimit : Uint256}
    (refreshInterval : Uint48) (d : ContractData) (hlimit : spendLimit ≠ BitVec.allOnes 256) :
    (d.setERC20SpendLimit timestamp spendLimit refreshInterval).isERC20WithSpendLimit = true
      ∧ (d.setERC20SpendLimit timestamp spendLimit refreshInterval).budget.2.limitAmount
        = spendLimit
      ∧ (d.setERC20SpendLimit timestamp spendLimit refreshInterval).budget.1.refreshInterval
        = refreshInterval := by
  rw [ContractData.setERC20SpendLimit, updateSpendLimits, if_neg hlimit]
  exact ⟨rfl, rfl, rfl⟩

section

variable {p : SpendFromYieldGrantParameters} {g : BufiGrant} {checksumAddress : String → String}
  {updates : List Bytes} {timestamp : Uint256} {q : Permissions} {token : Address}

/-- An entry of the scope keeps to the token and the vaults. -/
theorem yieldAccess_perform {r r' : Permissions} {u : PermissionsUpdate}
    (hgrant : spendFromYieldGrant p = .ok g) (htoken : addressOf p.token = some token)
    (hu : ScopeUpdate g u) (hr : YieldAccess token (Names p.vaults) r)
    (h : r.perform timestamp u = .ok r') : YieldAccess token (Names p.vaults) r' := by
  obtain ⟨vaults, hvaults, rfl⟩ := spendFromYieldGrant_eq_ok hgrant
  have hscope := (vaultScope_eq_ok hvaults).2
  cases hu with
  | @target entry c hmem hc =>
    obtain rfl := pure_eq_ok.mp h
    have hselectors : 0 < (entry.selectors.getD []).length := by
      rcases List.mem_cons.mp hmem with rfl | hmem
      · exact Nat.one_pos
      · obtain ⟨v, -, rfl⟩ := hscope entry hmem
        exact Nat.succ_pos _
    refine { hr with checkSelectors := fun x hx => ?_ }
    rw [Permissions.contracts_mapContract] at hx ⊢
    split
    · exact decide_eq_true hselectors
    · rename_i hne
      rw [if_neg hne] at hx
      exact hr.checkSelectors x hx
  | @function entry c selector hmem hc hselector =>
    obtain rfl := pure_eq_ok.mp h
    refine { hr with functions := fun x sel hx => ?_ }
    rw [Permissions.functions_setFunction] at hx
    split at hx
    · rename_i heq
      obtain ⟨rfl, rfl⟩ := heq
      rcases List.mem_cons.mp hmem with rfl | hmem
      · exact .inl ⟨Option.some.inj (hc.symm.trans htoken), List.mem_singleton.mp hselector⟩
      · obtain ⟨v, hv, rfl⟩ := hscope entry hmem
        refine .inr ⟨⟨v, hv, hc⟩, ?_⟩
        rcases List.mem_cons.mp hselector with hw | hw
        · exact .inl hw
        · split at hw
          · exact .inr (List.mem_singleton.mp hw)
          · exact absurd hw List.not_mem_nil
    · exact hr.functions x sel hx

/-- **What a key with the preset may call, and its budget.** -/
theorem yield_of_build (hgrant : spendFromYieldGrant p = .ok g)
    (hbuild : buildBufiGrant checksumAddress g = .ok updates)
    (hlimit : p.budget.limit ≠ 2 ^ 256 - 1)
    (h : Permissions.default.updateAll timestamp updates = .ok q) :
    ∃ token, addressOf p.token = some token ∧ YieldAccess token (Names p.vaults) q
      ∧ (q.contracts token).isERC20WithSpendLimit = true
      ∧ p.budget.limit = (q.contracts token).budget.2.limitAmount.toNat
      ∧ (q.contracts token).budget.1.refreshInterval.toNat
        = p.budget.refreshIntervalSeconds.toNat := by
  obtain ⟨scope, erc20, key, rfl, hscope, herc20, hkey⟩ := buildBufiGrant_eq_ok hbuild
  obtain ⟨x, hx, rfl⟩ : ∃ x, encodeSetERC20SpendLimit checksumAddress
      { p.budget with token := p.token } = .ok x ∧ erc20 = [x] := by
    obtain ⟨vaults, -, rfl⟩ := spendFromYieldGrant_eq_ok hgrant
    obtain ⟨x, rest, hx, hrest, rfl⟩ := List.forall₂_cons_left_iff.mp (mapM_eq_ok.mp herc20)
    rw [List.forall₂_nil_left_iff.mp hrest]
    exact ⟨x, hx, rfl⟩
  obtain ⟨token, spendLimit, refreshInterval, rfl, hupdate⟩ := encodeSetERC20SpendLimit_eq_ok hx
  -- the updates in three parts: the scope, the limit of the token, the key
  have hsplit : encodeFunctionData (.setAccessListType .allowlist) :: scope.map encodeFunctionData
      ++ [encodeFunctionData (.setERC20SpendLimit token spendLimit refreshInterval)]
      ++ key.map encodeFunctionData
      = (.setAccessListType .allowlist :: scope
        ++ .setERC20SpendLimit token spendLimit refreshInterval :: key).map encodeFunctionData := by
    simp
  rw [hsplit, updateAll_encode, List.foldlM_append, bind_eq_ok] at h
  obtain ⟨r, hr, h⟩ := h
  rw [foldlM_cons_eq_ok] at hr h
  obtain ⟨start, hstart, hr⟩ := hr
  obtain ⟨r', hr', h⟩ := h
  obtain rfl := pure_eq_ok.mp hstart
  have hyield : YieldAccess token (Names p.vaults) r := by
    refine foldlM_invariant_mem hr ⟨rfl, ?_, ?_⟩ (fun u hu a a' ha hstep =>
      yieldAccess_perform hgrant hupdate.token (hscope u hu) ha hstep)
    · exact fun c hc => absurd hc Bool.false_ne_true
    · exact fun c selector hc => absurd hc Bool.false_ne_true
  obtain ⟨hsame, hcontract⟩ := perform_setERC20SpendLimit hr'
  obtain ⟨hsame', hkept⟩ : SameAccess r' q ∧ q.contracts = r'.contracts := by
    refine foldlM_invariant_mem (P := fun a => SameAccess r' a ∧ a.contracts = r'.contracts) h
      ⟨.refl _, rfl⟩ ?_
    rintro u hu a a' ⟨ha, hac⟩ hstep
    obtain ⟨hsame, hsc⟩ := sameAccess_of_keyUpdate (hkey u hu) hstep
    exact ⟨ha.trans hsame, hsc.trans hac⟩
  have hmax : spendLimit ≠ BitVec.allOnes 256 := by
    rintro rfl
    refine hlimit (hupdate.limit.trans ?_)
    rw [BitVec.toNat_allOnes]
    norm_num
  obtain ⟨hlimited, hamount, hinterval⟩ :=
    budget_setERC20SpendLimit timestamp refreshInterval (r.contracts token) hmax
  rw [← hcontract] at hlimited hamount hinterval
  refine ⟨token, hupdate.token, (hyield.of_sameAccess hsame).of_sameAccess hsame', ?_⟩
  rw [hkept, hamount, hinterval]
  exact ⟨hlimited, hupdate.limit, hupdate.refreshInterval⟩

end

end Bufi.Grant
