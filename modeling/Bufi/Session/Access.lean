import Bufi.Session.History

/-!
# Calls to tokens with a budget

The budget of a token is kept during execution, by counting what the calls to
it spend.  Only `transfer` and `approve` are counted, so a key must not make
any other call to such a token, and `_checkCallPermissions` ends with a check
of the selector.  Two of its branches return before that: a target on an
allowlist without selectors, and a target that is not on a denylist.

`budgetKept_iff` says that these are the only ways around the check: a target
is safe exactly if it has no budget or is in neither branch.
-/

namespace Bufi.Session

open Bufi.Evm

/-- The access list accepts every call to the target without looking further. -/
def AcceptedUnchecked (t : ContractAccessControlType) (d : ContractData) : Prop :=
  (t = .allowlist ∧ d.isOnList = true ∧ d.checkSelectors = false)
    ∨ (t = .denylist ∧ d.isOnList = false)

/-- What a call spends is what it says: it is a `transfer` or an `approve`, and
counted with the amount it encodes unless it is too short to encode one. -/
def Metered (data : Bytes) : Prop :=
  isAllowedERC20Function (selectorOf data) = true ∧
    (data.length < 68 ∨ getTokenSpendAmount data = wordAt data 36)

theorem metered_of_allowed {data : Bytes}
    (h : isAllowedERC20Function (selectorOf data) = true) : Metered data := by
  refine ⟨h, ?_⟩
  rw [getTokenSpendAmount, if_pos h]
  by_cases hlen : data.length < 68
  · exact .inl hlen
  · exact .inr (if_neg hlen)

/-- `transferFrom` with no arguments. -/
def bareTransferFrom : Bytes := [0x23, 0xb8, 0x72, 0xdd]

theorem not_metered_bareTransferFrom : ¬ Metered bareTransferFrom :=
  fun h => absurd h.1 (by decide)

section

variable {W S : Type} (K : Keccak W) (s : State W S) (account : Address) (id : Bytes32)
  (target : Address)

/-- The permissions of the key id accept the call. -/
def Accepts (data : Bytes) : Prop :=
  checkCallPermissions K s account (s.sessionKeyDataOf K account id).contractAccessControlType id
    target data = true

/-- Every accepted call to the target is metered if the target has a budget. -/
def BudgetKept : Prop :=
  ∀ data, Accepts K s account id target data →
    (s.contractDataOf K account id target).isERC20WithSpendLimit = true → Metered data

variable {K s account id target}

theorem accepts_of_acceptedUnchecked {data : Bytes}
    (h : AcceptedUnchecked (s.sessionKeyDataOf K account id).contractAccessControlType
      (s.contractDataOf K account id target)) : Accepts K s account id target data := by
  rcases h with ⟨htype, hlist, hsel⟩ | ⟨htype, hlist⟩
  · simp [Accepts, checkCallPermissions, htype, hlist, hsel]
  · simp [Accepts, checkCallPermissions, htype, hlist]

/-- Where the list does not decide alone, the selector is checked. -/
theorem allowed_of_accepts {data : Bytes} (h : Accepts K s account id target data)
    (hbudget : (s.contractDataOf K account id target).isERC20WithSpendLimit = true)
    (hchecked : ¬ AcceptedUnchecked (s.sessionKeyDataOf K account id).contractAccessControlType
      (s.contractDataOf K account id target)) :
    isAllowedERC20Function (selectorOf data) = true := by
  simp only [AcceptedUnchecked, not_or, not_and] at hchecked
  cases htype : (s.sessionKeyDataOf K account id).contractAccessControlType with
  | allowlist =>
    cases hlist : (s.contractDataOf K account id target).isOnList with
    | false => simp [Accepts, checkCallPermissions, htype, hlist] at h
    | true =>
      have hsel := hchecked.1 htype hlist
      simp only [Accepts, checkCallPermissions, htype, hlist, hsel, Bool.not_true,
        Bool.false_eq_true, if_false] at h
      exact allowed_of_checkERC20Selector h hbudget
  | denylist =>
    cases hlist : (s.contractDataOf K account id target).isOnList with
    | false => exact absurd hlist (hchecked.2 htype)
    | true =>
      cases hsel : (s.contractDataOf K account id target).checkSelectors with
      | false => simp [Accepts, checkCallPermissions, htype, hlist, hsel] at h
      | true =>
        simp only [Accepts, checkCallPermissions, htype, hlist, hsel, Bool.not_true,
          Bool.false_eq_true, if_false] at h
        exact allowed_of_checkERC20Selector h hbudget
  | allowAllAccess =>
    simp only [Accepts, checkCallPermissions, htype] at h
    exact allowed_of_checkERC20Selector h hbudget

end

/-- **Which targets keep their budget**, in every state: those without one, and
those whose calls the access list does not accept unchecked. -/
theorem budgetKept_iff {W S : Type} (K : Keccak W) (s : State W S) (account : Address)
    (id : Bytes32) (target : Address) :
    BudgetKept K s account id target ↔
      ¬ ((s.contractDataOf K account id target).isERC20WithSpendLimit = true ∧
        AcceptedUnchecked (s.sessionKeyDataOf K account id).contractAccessControlType
          (s.contractDataOf K account id target)) := by
  constructor
  · rintro hkept ⟨hbudget, hunchecked⟩
    exact not_metered_bareTransferFrom
      (hkept bareTransferFrom (accepts_of_acceptedUnchecked hunchecked) hbudget)
  · intro hcond data haccepts hbudget
    exact metered_of_allowed
      (allowed_of_accepts haccepts hbudget (fun hunchecked => hcond ⟨hbudget, hunchecked⟩))

/-! ### A budget that is not kept -/

def token : Address := 0x400

/-- A function call with arguments of a word each. -/
def encodeCall (selector : Bytes4) (args : List ℕ) : Bytes :=
  beBytes 4 selector.toNat ++ args.flatMap (beBytes 32)

/-- The token is on the allowlist without selectors, and may spend 100. -/
def tokenGrant : List Bytes :=
  [encodeCall selUpdateAccessListAddressEntry [token.toNat, 1, 0],
    encodeCall selSetERC20SpendLimit [token.toNat, 100, 0]]

/-- `transferFrom(wallet, agent, 1000)`. -/
def transferFromCall : Bytes := encodeCall 0x23b872dd [wallet.toNat, agent.toNat, 1000]

theorem tokenGrant_runs :
    (step agentEnv (State.initial agentEnv.set)
      (walletTx (.addSessionKey agent 0 tokenGrant))).map
      (fun s => (checkCallPermissions agentEnv.keccak s wallet
          (s.sessionKeyDataOf agentEnv.keccak wallet 1).contractAccessControlType 1 token
          transferFromCall,
        (s.contractDataOf agentEnv.keccak wallet 1 token).isERC20WithSpendLimit)) =
      some (true, true) := by
  decide +kernel

/-- After one `addSessionKey` the agent may move the token unmetered. -/
theorem transferFrom_accepted_unmetered :
    ¬ ∀ h s, Run (step agentEnv) (State.initial agentEnv.set) h s →
      ∀ account id target data, Accepts agentEnv.keccak s account id target data →
        (s.contractDataOf agentEnv.keccak account id target).isERC20WithSpendLimit = true →
        isAllowedERC20Function (selectorOf data) = true := by
  intro hall
  obtain ⟨s, hs, hread⟩ := Option.map_eq_some_iff.mp tokenGrant_runs
  rw [Prod.mk.injEq] at hread
  have hallowed := hall _ s (Run.nil.snoc hs) wallet 1 token transferFromCall hread.1 hread.2
  exact absurd hallowed (by decide +kernel)

end Bufi.Session
