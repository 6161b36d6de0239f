import Bufi.Grant.Meaning
import Bufi.Grant.Presets

/-!
# The roles of an agent

`agentGrantPresets.ts`: a preset is a grant for a role.  An agent buys or provides jobs,
rates, funds a hot wallet or a Gateway position, or spends from yield.

`Role.May` is what a role is for: its rows, and of the token it has a budget of nothing
but `transfer` and `approve`.  `grant_of_role` says that every preset is a scope of its
rows, with the budget of its token.
-/

namespace Bufi.Grant

open Bufi.Evm Bufi.Js Bufi.Session

/-! ### Presets -/

def ERC20_APPROVE_SELECTOR : Bytes4 := 0x095ea7b3

/-- `createJob(address,address,uint256,string,address)`. -/
def ERC8183_CREATE_JOB_SELECTOR : Bytes4 := 0x41528812

/-- `setBudget(uint256,uint256,bytes)`. -/
def ERC8183_SET_BUDGET_SELECTOR : Bytes4 := 0xdd4ae9d4

/-- `fund(uint256,bytes)`. -/
def ERC8183_FUND_SELECTOR : Bytes4 := 0xe25ba707

/-- `submit(uint256,bytes32,bytes)`. -/
def ERC8183_SUBMIT_SELECTOR : Bytes4 := 0x9e63798d

/-- `complete(uint256,bytes32,bytes)`. -/
def ERC8183_COMPLETE_SELECTOR : Bytes4 := 0xd75bbdf3

/-- `reject(uint256,bytes32,bytes)`. -/
def ERC8183_REJECT_SELECTOR : Bytes4 := 0x41dd26f5

/-- `deposit(address,uint256)`. -/
def GATEWAY_DEPOSIT_SELECTOR : Bytes4 := 0x47e7ef24

/-- `depositFor(address,address,uint256)`. -/
def GATEWAY_DEPOSIT_FOR_SELECTOR : Bytes4 := 0xb3db428b

def ARC_TESTNET_ERC8183_JOBS : String := "0x0747EEf0706327138c69792bF28Cd525089e4583"

/-- `ARC_TESTNET_ERC8004_REGISTRIES.reputation`. -/
def ARC_TESTNET_ERC8004_REPUTATION : String := "0x8004B663056A597Dffe9eCcC1965A193B7388713"

def ERC8004_GIVE_FEEDBACK_SIGNATURE : String :=
  "function giveFeedback(uint256,int128,uint8,string,string,string,string,bytes32)"

structure AgentGrantPresetBase where
  expiry : BufiGrantExpiry
  gas : Option BufiGrantSpendBudget
  requiredPaymaster : Option String
  deriving DecidableEq

structure Erc8183BuyerGrantParameters extends AgentGrantPresetBase where
  jobContract : Option String
  token : String
  budget : BufiGrantSpendBudget
  includeComplete : Bool
  deriving DecidableEq

structure Erc8183ProviderGrantParameters extends AgentGrantPresetBase where
  jobContract : Option String
  deriving DecidableEq

structure Erc8004RaterGrantParameters extends AgentGrantPresetBase where
  reputationRegistry : Option String
  giveFeedbackSignature : Option String
  deriving DecidableEq

structure FloatFunderGrantParameters extends AgentGrantPresetBase where
  token : String
  recipients : List String
  budget : BufiGrantSpendBudget
  deriving DecidableEq

structure GatewayDepositorGrantParameters extends AgentGrantPresetBase where
  gatewayWallet : String
  token : String
  budget : BufiGrantSpendBudget
  deriving DecidableEq

def jobSelectors (includeComplete : Bool) : List Bytes4 :=
  [ERC8183_CREATE_JOB_SELECTOR, ERC8183_FUND_SELECTOR, ERC8183_REJECT_SELECTOR]
    ++ if includeComplete then [ERC8183_COMPLETE_SELECTOR] else []

def erc8183BuyerGrant (p : Erc8183BuyerGrantParameters) : BufiGrant :=
  grant
    [⟨p.token, some [ERC20_APPROVE_SELECTOR, ERC20_TRANSFER_SELECTOR]⟩,
      ⟨p.jobContract.getD ARC_TESTNET_ERC8183_JOBS, some (jobSelectors p.includeComplete)⟩]
    p.expiry (some (p.token, p.budget)) p.gas p.requiredPaymaster

def erc8183ProviderGrant (p : Erc8183ProviderGrantParameters) : BufiGrant :=
  grant
    [⟨p.jobContract.getD ARC_TESTNET_ERC8183_JOBS,
      some [ERC8183_SET_BUDGET_SELECTOR, ERC8183_SUBMIT_SELECTOR]⟩]
    p.expiry none p.gas p.requiredPaymaster

/-- What a preset throws; a signature is refused by viem. -/
inductive RoleError
  | preset (e : PresetError)
  | noFloatRecipient
  | signature (giveFeedbackSignature : String)
  deriving DecidableEq

def RoleError.text : RoleError → Option String
  | preset e => some e.text
  | noFloatRecipient => some "A float funder grant must name at least one recipient."
  | signature _ => none

/-- `toFunctionSelector` is viem's; `none` is a text that is no signature. -/
def erc8004RaterGrant (toFunctionSelector : String → Option Bytes4)
    (p : Erc8004RaterGrantParameters) : Except RoleError BufiGrant := do
  let giveFeedbackSignature := p.giveFeedbackSignature.getD ERC8004_GIVE_FEEDBACK_SIGNATURE
  let selector ← orRevert (toFunctionSelector giveFeedbackSignature)
    (.signature giveFeedbackSignature)
  pure (grant [⟨p.reputationRegistry.getD ARC_TESTNET_ERC8004_REPUTATION, some [selector]⟩] p.expiry
    none p.gas p.requiredPaymaster)

def floatFunderGrant (p : FloatFunderGrantParameters) : Except RoleError BufiGrant := do
  require (p.recipients.length ≠ 0) .noFloatRecipient
  pure (grant [⟨p.token, some [ERC20_TRANSFER_SELECTOR]⟩] p.expiry (some (p.token, p.budget)) p.gas
    p.requiredPaymaster)

def gatewayDepositorGrant (p : GatewayDepositorGrantParameters) : BufiGrant :=
  grant
    [⟨p.token, some [ERC20_APPROVE_SELECTOR]⟩,
      ⟨p.gatewayWallet, some [GATEWAY_DEPOSIT_SELECTOR, GATEWAY_DEPOSIT_FOR_SELECTOR]⟩]
    p.expiry (some (p.token, p.budget)) p.gas p.requiredPaymaster

/-! ### Roles -/

/-- A preset with its parameters. -/
inductive Role
  | erc8183Buyer (p : Erc8183BuyerGrantParameters)
  | erc8183Provider (p : Erc8183ProviderGrantParameters)
  | erc8004Rater (p : Erc8004RaterGrantParameters)
  | floatFunder (p : FloatFunderGrantParameters)
  | gatewayDepositor (p : GatewayDepositorGrantParameters)
  | spendFromYield (p : SpendFromYieldGrantParameters)
  deriving DecidableEq

namespace Role

variable (toFunctionSelector : String → Option Bytes4)

def grant : Role → Except RoleError BufiGrant
  | erc8183Buyer p => pure (erc8183BuyerGrant p)
  | erc8183Provider p => pure (erc8183ProviderGrant p)
  | erc8004Rater p => erc8004RaterGrant toFunctionSelector p
  | floatFunder p => floatFunderGrant p
  | gatewayDepositor p => pure (gatewayDepositorGrant p)
  | spendFromYield p => (spendFromYieldGrant p).mapError .preset

/-- The contracts a role is about, and what it may call there. -/
def rows : Role → List (String × List Bytes4)
  | erc8183Buyer p =>
    [(p.token, [ERC20_APPROVE_SELECTOR, ERC20_TRANSFER_SELECTOR]),
      (p.jobContract.getD ARC_TESTNET_ERC8183_JOBS, jobSelectors p.includeComplete)]
  | erc8183Provider p =>
    [(p.jobContract.getD ARC_TESTNET_ERC8183_JOBS,
      [ERC8183_SET_BUDGET_SELECTOR, ERC8183_SUBMIT_SELECTOR])]
  | erc8004Rater p =>
    [(p.reputationRegistry.getD ARC_TESTNET_ERC8004_REPUTATION,
      (toFunctionSelector
        (p.giveFeedbackSignature.getD ERC8004_GIVE_FEEDBACK_SIGNATURE)).toList)]
  | floatFunder p => [(p.token, [ERC20_TRANSFER_SELECTOR])]
  | gatewayDepositor p =>
    [(p.token, [ERC20_APPROVE_SELECTOR]),
      (p.gatewayWallet, [GATEWAY_DEPOSIT_SELECTOR, GATEWAY_DEPOSIT_FOR_SELECTOR])]
  | spendFromYield p =>
    (p.token, [ERC20_TRANSFER_SELECTOR])
      :: p.vaults.map (fun vault => (vault, vaultSelectors p.includeRedeem))

/-- The token a role spends, and its budget. -/
def spends : Role → Option (String × BufiGrantSpendBudget)
  | erc8183Buyer p => some (p.token, p.budget)
  | erc8183Provider _ => none
  | erc8004Rater _ => none
  | floatFunder p => some (p.token, p.budget)
  | gatewayDepositor p => some (p.token, p.budget)
  | spendFromYield p => some (p.token, p.budget)

def Lists (r : Role) (c : Address) (selector : Bytes4) : Prop :=
  ∃ row ∈ r.rows toFunctionSelector, addressOf row.1 = some c ∧ selector ∈ row.2

/-- The contract is the token of the role, whose budget is not without end. -/
def Metered (r : Role) (c : Address) : Prop :=
  ∃ e ∈ r.spends, addressOf e.1 = some c ∧ e.2.limit ≠ 2 ^ 256 - 1

/-- What the role may call. -/
def May (r : Role) (c : Address) (selector : Bytes4) : Prop :=
  r.Lists toFunctionSelector c selector
    ∧ (r.Metered c → isAllowedERC20Function selector = true)

end Role

/-! ### The scope of a role -/

/-- Every vault has an entry, its own or that of an equal text. -/
theorem exists_entry_of_vaultScope {token : String} {selectors : List Bytes4} {vaults : List String}
    {seen : List (List Char)} {scope : List BufiGrantScopeEntry}
    (h : vaultScope token selectors vaults seen = .ok scope) {v : String} (hv : v ∈ vaults)
    (hnew : lowerCase v ∉ seen) :
    ∃ entry ∈ scope, lowerCase entry.target = lowerCase v ∧ entry.selectors = some selectors := by
  induction vaults generalizing seen scope with
  | nil => exact absurd hv List.not_mem_nil
  | cons vault vaults ih =>
    rw [vaultScope] at h
    split_ifs at h with htoken hseen
    · rcases List.mem_cons.mp hv with rfl | hv
      · exact absurd hseen hnew
      · exact ih h hv hnew
    · simp only [bind_eq_ok, pure_eq_ok] at h
      obtain ⟨rest, hrest, rfl⟩ := h
      by_cases heq : lowerCase v = lowerCase vault
      · exact ⟨_, List.mem_cons_self, heq.symm, rfl⟩
      · have htail : v ∈ vaults := by
          rcases List.mem_cons.mp hv with rfl | hv
          · exact absurd rfl heq
          · exact hv
        obtain ⟨entry, hmem, hentry⟩ := ih hrest htail
          (fun hc => (List.mem_cons.mp hc).elim heq hnew)
        exact ⟨entry, List.mem_cons_of_mem _ hmem, hentry⟩

/-- A scope says what the rows say, once its targets are addresses. -/
structure Scopes (rows : List (String × List Bytes4))
    (allow : List BufiGrantScopeEntry) : Prop where
  listed : ∀ entry ∈ allow, entry.functions ≠ []
  lists : (∀ entry ∈ allow, addressOf entry.target ≠ none) → ∀ c selector,
    (∃ entry ∈ allow, addressOf entry.target = some c ∧ selector ∈ entry.functions)
      ↔ ∃ row ∈ rows, addressOf row.1 = some c ∧ selector ∈ row.2

theorem scopes_map {rows : List (String × List Bytes4)} (h : ∀ row ∈ rows, row.2 ≠ []) :
    Scopes rows (rows.map (fun row => ⟨row.1, some row.2⟩)) where
  listed entry hentry := by
    obtain ⟨row, hrow, rfl⟩ := List.mem_map.mp hentry
    exact h row hrow
  lists _ c selector := by
    simp only [List.mem_map, exists_exists_and_eq_and]
    rfl

theorem scopes_single {target : String} {selectors : List Bytes4} (h : selectors ≠ []) :
    Scopes [(target, selectors)] [⟨target, some selectors⟩] := by
  have hlisted : ∀ row ∈ [(target, selectors)], row.2 ≠ [] := by
    intro row hrow
    rw [List.mem_singleton.mp hrow]
    exact h
  exact scopes_map hlisted

theorem scopes_vaults {token : String} {includeRedeem : Bool} {vaults : List String}
    {scope : List BufiGrantScopeEntry} {first : List Bytes4} (hfirst : first ≠ [])
    (h : vaultScope token (vaultSelectors includeRedeem) vaults [] = .ok scope) :
    Scopes ((token, first) :: vaults.map (fun vault => (vault, vaultSelectors includeRedeem)))
      (⟨token, some first⟩ :: scope) where
  listed entry hentry := by
    rcases List.mem_cons.mp hentry with rfl | hentry
    · exact hfirst
    · obtain ⟨v, -, rfl⟩ := (vaultScope_eq_ok h).2 entry hentry
      exact List.cons_ne_nil _ _
  lists htargets c selector := by
    constructor
    · rintro ⟨entry, hentry, hc, hsel⟩
      rcases List.mem_cons.mp hentry with rfl | hentry
      · exact ⟨_, List.mem_cons_self, hc, hsel⟩
      · obtain ⟨v, hv, rfl⟩ := (vaultScope_eq_ok h).2 entry hentry
        exact ⟨_, List.mem_cons_of_mem _ (List.mem_map_of_mem hv), hc, hsel⟩
    · rintro ⟨row, hrow, hc, hsel⟩
      rcases List.mem_cons.mp hrow with rfl | hrow
      · exact ⟨_, List.mem_cons_self, hc, hsel⟩
      · obtain ⟨v, hv, rfl⟩ := List.mem_map.mp hrow
        obtain ⟨entry, hmem, hlower, hselectors⟩ :=
          exists_entry_of_vaultScope h hv List.not_mem_nil
        obtain ⟨a, ha⟩ := Option.ne_none_iff_exists'.mp
          (htargets entry (List.mem_cons_of_mem _ hmem))
        obtain rfl := addressOf_eq_of_lowerCase ha hc hlower
        refine ⟨entry, List.mem_cons_of_mem _ hmem, ha, ?_⟩
        rw [BufiGrantScopeEntry.functions, hselectors]
        exact hsel

/-- **Every preset is a scope of its rows**, with the budget of its token. -/
theorem grant_of_role {toFunctionSelector : String → Option Bytes4} {r : Role} {g : BufiGrant}
    (h : r.grant toFunctionSelector = .ok g) :
    ∃ scope expiry gas requiredPaymaster,
      g = grant scope expiry r.spends gas requiredPaymaster
        ∧ Scopes (r.rows toFunctionSelector) scope := by
  cases r with
  | erc8183Buyer p =>
    obtain rfl := pure_eq_ok.mp h
    refine ⟨_, _, _, _, rfl, scopes_map ?_⟩
    intro row hrow
    simp only [Role.rows, List.mem_cons, List.not_mem_nil, or_false] at hrow
    rcases hrow with rfl | rfl
    · exact List.cons_ne_nil _ _
    · exact List.cons_ne_nil _ _
  | erc8183Provider p =>
    obtain rfl := pure_eq_ok.mp h
    exact ⟨_, _, _, _, rfl, scopes_single (List.cons_ne_nil _ _)⟩
  | erc8004Rater p =>
    simp only [Role.grant, erc8004RaterGrant, bind_eq_ok, orRevert_eq_ok, pure_eq_ok] at h
    obtain ⟨selector, hselector, rfl⟩ := h
    refine ⟨_, _, _, _, rfl, ?_⟩
    rw [Role.rows, hselector]
    exact scopes_single (List.cons_ne_nil _ _)
  | floatFunder p =>
    simp only [Role.grant, floatFunderGrant, bind_eq_ok, require_eq_ok, exists_const,
      pure_eq_ok] at h
    obtain ⟨-, rfl⟩ := h
    exact ⟨_, _, _, _, rfl, scopes_single (List.cons_ne_nil _ _)⟩
  | gatewayDepositor p =>
    obtain rfl := pure_eq_ok.mp h
    refine ⟨_, _, _, _, rfl, scopes_map ?_⟩
    intro row hrow
    simp only [Role.rows, List.mem_cons, List.not_mem_nil, or_false] at hrow
    rcases hrow with rfl | rfl
    · exact List.cons_ne_nil _ _
    · exact List.cons_ne_nil _ _
  | spendFromYield p =>
    have hgrant : spendFromYieldGrant p = .ok g := by
      change (spendFromYieldGrant p).mapError RoleError.preset = .ok g at h
      cases hp : spendFromYieldGrant p with
      | error e =>
        rw [hp] at h
        cases h
      | ok g' =>
        rw [hp] at h
        exact congrArg Except.ok (Except.ok.inj h)
    obtain ⟨vaults, hvaults, rfl⟩ := spendFromYieldGrant_eq_ok hgrant
    exact ⟨_, _, _, _, rfl, scopes_vaults (List.cons_ne_nil _ _) hvaults⟩

end Bufi.Grant
