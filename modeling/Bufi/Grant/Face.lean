import Bufi.Grant.Roles
import Bufi.Session.NativeAgreement

/-!
# The face of an agent

`buildAgentFaceCalls.ts`: an account whose agents act through session keys, each with a
role.  `RoleHolds` is what the permissions of a key say then.  A key that is given a role
has them (`roleHolds_of_updateAll`), and keeps them as long as it is not reconfigured
(`RoleHolds.keyStep`).

The owners add keys, with roles, and remove, rotate and uninstall them; meanwhile the
agents work, and others do whatever they like.  `FaceKept` is the invariant: every key
that is registered has a role that was given.  So nothing is ever admitted that no role is
for (`face_kept`), and no agent moves native tokens.
-/

namespace Bufi.Grant

open Bufi.Evm Bufi.Js Bufi.Session

/-! ### The permissions of a role -/

/-- The permissions say what the role says. -/
structure RoleHolds (toFunctionSelector : String → Option Bytes4) (r : Role) (p : Permissions) :
    Prop where
  accessType : p.key.contractAccessControlType = .allowlist
  checks : ∀ c, (p.contracts c).isOnList = true → (p.contracts c).checkSelectors = true
  lists : ∀ c selector,
    ((p.contracts c).isOnList = true ∧ (p.functions c selector).isOnList = true)
      ↔ r.Lists toFunctionSelector c selector
  metered : ∀ c, (p.contracts c).isERC20WithSpendLimit = true ↔ r.Metered c
  native : p.key.nativeTokenSpendLimitBypassed = false
  noNative : p.key.nativeBudget.2.limitAmount = 0

theorem nativeBudget_grantKey {grant : BufiGrant} (h : grant.nativeLimit = none)
    (timestamp : Uint256) :
    (grantKey grant timestamp .default).nativeBudget = SessionKeyData.default.nativeBudget := by
  obtain ⟨-, -, hpaymaster, -⟩ := limits_setRequiredPaymaster
    ((grant.gasLimit.elim SessionKeyData.default (fun b =>
      SessionKeyData.default.setGasSpendLimit timestamp b.limitWord b.intervalWord)).updateTimeRange
        (BitVec.ofNat 48 grant.validAfter.toNat) (BitVec.ofNat 48 grant.expiry.validUntil.toNat))
    (grant.requiredPaymaster.filter (· ≠ ""))
  rw [grantKey, h]
  refine hpaymaster.trans ?_
  cases grant.gasLimit with
  | none => rfl
  | some b => rfl

theorem metered_of_grantState {grant : BufiGrant} {timestamp : Uint256} {p : Permissions}
    (hwell : grant.WellFormed) (h : GrantState grant timestamp p) (c : Address) :
    (p.contracts c).isERC20WithSpendLimit = true
      ↔ ∃ b, lastBudget grant.erc20 c = some b ∧ b.limit ≠ 2 ^ 256 - 1 := by
  cases hlast : lastBudget grant.erc20 c with
  | none =>
    rw [h.unlimited c hlast]
    exact iff_of_false Bool.false_ne_true (by simp)
  | some b =>
    have hencodes := hwell.erc20 b (lastWith_eq_some hlast).1
    rw [(h.limited c b hlast).enabled, Ne, limitWord_eq_allOnes hencodes]
    simp

section

variable {toFunctionSelector : String → Option Bytes4} {checksumAddress : String → String}
  {r : Role} {p : Permissions}

variable (toFunctionSelector checksumAddress) in
/-- The updates that a role is compiled to. -/
def Compiles (r : Role) (updates : List Bytes) : Prop :=
  ∃ g, r.grant toFunctionSelector = .ok g ∧ buildBufiGrant checksumAddress g = .ok updates

/-- **A new key has what its role says.** -/
theorem roleHolds_of_updateAll {updates : List Bytes} {timestamp : Uint256}
    (hr : Compiles toFunctionSelector checksumAddress r updates)
    (h : Permissions.default.updateAll timestamp updates = .ok p) :
    RoleHolds toFunctionSelector r p := by
  obtain ⟨g, hgrant, hbuild⟩ := hr
  obtain ⟨scope, expiry, gas, paymaster, rfl, hscopes⟩ := grant_of_role hgrant
  obtain ⟨hwell, rfl⟩ := buildBufiGrant_eq_map hbuild
  have hstate := grantState_of_updateAll h
  have hkey := keyState_grantKey
    (grant scope expiry r.spends gas paymaster) timestamp
  rw [← hstate.key] at hkey
  refine ⟨hkey.accessType, ?_, ?_, ?_, hkey.nativeDefault rfl, ?_⟩
  · intro c hc
    rw [hstate.isOnList] at hc
    obtain ⟨entry, hlast⟩ := Option.isSome_iff_exists.mp hc
    rw [hstate.checkSelectors c entry hlast]
    exact decide_eq_true (List.length_pos_iff.mpr
      (hscopes.listed entry (lastWith_eq_some hlast).1))
  · intro c selector
    have htargets : ∀ entry ∈ scope, addressOf entry.target ≠ none := by
      intro entry hentry
      rw [hwell.targets entry hentry]
      exact Option.some_ne_none _
    rw [hstate.isOnList, hstate.functions, Role.Lists, ← hscopes.lists htargets]
    constructor
    · rintro ⟨-, entry, hentry, haddr, hsel⟩
      exact ⟨entry, hentry, (address_iff hwell hentry).mpr haddr, hsel⟩
    · rintro ⟨entry, hentry, hname, hsel⟩
      have haddr := (address_iff hwell hentry).mp hname
      refine ⟨Option.isSome_iff_ne_none.mpr ?_, entry, hentry, haddr, hsel⟩
      intro hnone
      exact lastWith_eq_none.mp hnone entry hentry haddr
  · intro c
    rw [metered_of_grantState hwell hstate, Role.Metered]
    constructor
    · rintro ⟨b, hlast, hlimit⟩
      obtain ⟨hmem, haddr⟩ := lastWith_eq_some hlast
      have hname := (token_iff hwell hmem).mpr haddr
      cases hspends : r.spends with
      | none =>
        rw [hspends] at hmem
        exact absurd hmem List.not_mem_nil
      | some e =>
        rw [hspends] at hmem
        rw [List.mem_singleton.mp hmem] at hname hlimit
        exact ⟨e, rfl, hname, hlimit⟩
    · rintro ⟨e, he, hname, hlimit⟩
      rw [Option.mem_def] at he
      have herc20 : (grant scope expiry r.spends gas paymaster).erc20
          = [{ e.2 with token := e.1 }] := by
        rw [he]
        rfl
      have hmem : { e.2 with token := e.1 }
          ∈ (grant scope expiry r.spends gas paymaster).erc20 := by
        rw [herc20]
        exact List.mem_singleton_self _
      have haddr := (token_iff hwell hmem).mp hname
      have hsome : lastBudget (grant scope expiry r.spends gas paymaster).erc20 c ≠ none :=
        fun hnone => lastWith_eq_none.mp hnone _ hmem haddr
      obtain ⟨b, hb⟩ := Option.ne_none_iff_exists'.mp hsome
      have hbmem := (lastWith_eq_some hb).1
      rw [herc20, List.mem_singleton] at hbmem
      refine ⟨b, hb, ?_⟩
      rw [hbmem]
      exact hlimit
  · rw [hstate.key, nativeBudget_grantKey rfl]
    rfl

end

/-! ### What is kept -/

section

variable {W S : Type} [DecidableEq W] {E : Env W S} {account key : Address} {id : Bytes32}
  {s s' : State W S}

/-- Counting a call leaves it open which contracts have a limit. -/
theorem limited_of_meterToken {timestamp : Uint256} {call : Session.Call} {c : Address}
    (h : meterToken E timestamp account key id s call = .ok s') :
    (s'.contractDataOf E.keccak account id c).isERC20WithSpendLimit
      = (s.contractDataOf E.keccak account id c).isERC20WithSpendLimit := by
  rw [meterToken] at h
  split at h
  · simp only [bind_eq_ok, orRevert_eq_ok, require_eq_ok, exists_const, pure_eq_ok] at h
    obtain ⟨⟨ok, b⟩, -, -, rfl⟩ := h
    rw [State.contractDataOf_setContractData]
    split
    · rename_i heq
      rw [heq.2.2]
      rfl
    · rfl
  · rw [pure_eq_ok.mp h]

theorem limited_of_updateLimitsPreExec {timestamp : Uint256} {calls : List Session.Call}
    (hid : HasId E account key id s)
    (h : updateLimitsPreExec E timestamp account s calls key = .ok s') (c : Address) :
    (s'.contractDataOf E.keccak account id c).isERC20WithSpendLimit
      = (s.contractDataOf E.keccak account id c).isERC20WithSpendLimit := by
  rw [updateLimitsPreExec_eq_ok, hid.keyId] at h
  obtain ⟨n, t, d, hcalls, -, rfl⟩ := h
  refine foldlM_invariant (P := fun acc =>
    (acc.2.contractDataOf E.keccak account id c).isERC20WithSpendLimit
      = (s.contractDataOf E.keccak account id c).isERC20WithSpendLimit) hcalls rfl ?_
  intro acc call acc' hacc hcall
  simp only [meterCall, bind_eq_ok, orRevert_eq_ok, pure_eq_ok] at hcall
  obtain ⟨-, -, u, hu, rfl⟩ := hcall
  exact (limited_of_meterToken hu).trans hacc

variable {toFunctionSelector : String → Option Bytes4} {r : Role}

theorem RoleHolds.of_same {p q : Permissions} (h : RoleHolds toFunctionSelector r p)
    (hsame : SameAccess p q)
    (hlimited : ∀ c, (q.contracts c).isERC20WithSpendLimit = (p.contracts c).isERC20WithSpendLimit)
    (hnative : q.key.nativeTokenSpendLimitBypassed = false)
    (hamount : q.key.nativeBudget.2.limitAmount = p.key.nativeBudget.2.limitAmount) :
    RoleHolds toFunctionSelector r q where
  accessType := hsame.accessType.trans h.accessType
  checks c hc := by
    rw [hsame.isOnList] at hc
    rw [hsame.checkSelectors]
    exact h.checks c hc
  lists c selector := by
    rw [hsame.isOnList, hsame.functions]
    exact h.lists c selector
  metered c := by
    rw [hlimited]
    exact h.metered c
  native := hnative
  noNative := hamount.trans h.noNative

/-- **A key keeps its role** while it is not reconfigured. -/
theorem RoleHolds.keyStep {tx : Tx}
    (h : RoleHolds toFunctionSelector r (s.permissionsOf E.keccak account id))
    (hid : HasId E account key id s) (hstep : KeyStep E account key id s tx s') :
    RoleHolds toFunctionSelector r (s'.permissionsOf E.keccak account id) := by
  have hsame := sameAccess_of_keyStep hid hstep
  cases hstep with
  | same _ hperm =>
    rw [hperm]
    exact h
  | reset _ hperm =>
    obtain ⟨hbypassed, hbudget⟩ := native_of_finishGasReset
      (s.permissionsOf E.keccak account id).key tx.timestamp
    rw [hperm] at hsame ⊢
    exact h.of_same hsame (fun _ => rfl) (hbypassed.trans h.native)
      (congrArg (fun b => b.2.limitAmount) hbudget)
  | validated _ _ hgas _ hperm =>
    obtain ⟨hbypassed, hbudget⟩ := native_of_checkGas hgas
    rw [hperm] at hsame ⊢
    exact h.of_same hsame (fun _ => rfl) (hbypassed.trans h.native)
      (congrArg (fun b => b.2.limitAmount) hbudget)
  | executed _ _ hpre =>
    obtain ⟨-, hcharge, hbypassed⟩ := charge_of_updateLimitsPreExec hid hpre h.native
    exact h.of_same hsame (limited_of_updateLimitsPreExec hid hpre) hbypassed hcharge.limitAmount

omit [DecidableEq W] in
/-- The access list of a key with a role. -/
theorem RoleHolds.accepts_iff
    (h : RoleHolds toFunctionSelector r (s.permissionsOf E.keccak account id)) (target : Address)
    (data : Bytes) :
    Accepts E.keccak s account id target data
      ↔ r.May toFunctionSelector target (selectorOf data) := by
  have hlists := h.lists target (selectorOf data)
  change ((s.contractDataOf E.keccak account id target).isOnList = true
    ∧ (s.functionDataOf E.keccak account id target (selectorOf data)).isOnList = true) ↔ _ at hlists
  have hmetered := h.metered target
  change (s.contractDataOf E.keccak account id target).isERC20WithSpendLimit = true ↔ _ at hmetered
  rw [accepts_allowlist h.accessType, Role.May, ← hlists, ← hmetered]
  constructor
  · rintro ⟨hon, hchecks | hcase⟩
    · have := h.checks target hon
      exact absurd (hchecks.symm.trans this) Bool.false_ne_true
    · exact ⟨⟨hon, hcase.1⟩, hcase.2⟩
  · rintro ⟨⟨hon, hfunction⟩, hallowed⟩
    exact ⟨hon, .inr ⟨hfunction, hallowed⟩⟩

end

/-! ### The invariant of a face -/

section

variable {W S : Type} [DecidableEq W] {E : Env W S} {account : Address} {s s' : State W S}
  {toFunctionSelector : String → Option Bytes4} {checksumAddress : String → String}
  {roles : Role → Prop}

variable (toFunctionSelector checksumAddress roles account) in
/-- The owners of the account give permissions by roles only. -/
structure ByRole (tx : Tx) : Prop where
  add : ∀ key tag updates, tx.sender = account → tx.action = .addSessionKey key tag updates →
    ∃ r, roles r ∧ Compiles toFunctionSelector checksumAddress r updates
  install : ∀ data keys tags updates, tx.sender = account → tx.action = .onInstall data →
    decodeInstall data = some (keys, tags, updates) →
    ∀ u ∈ updates, ∃ r, roles r ∧ Compiles toFunctionSelector checksumAddress r u
  update : ∀ key updates, tx.sender = account → tx.action ≠ .updateKeyPermissions key updates

variable (E toFunctionSelector roles account) in
/-- Every registered key has a role that was given. -/
structure FaceKept (s : State W S) : Prop where
  registry : Registry E account s
  holds : ∀ k, s.sessionKeyIdOf E.keccak account k ≠ 0 → ∃ r, roles r ∧
    RoleHolds toFunctionSelector r
      (s.permissionsOf E.keccak account (s.sessionKeyIdOf E.keccak account k))

namespace FaceKept

omit [DecidableEq W] in
theorem initial (E : Env W S) (account : Address) :
    FaceKept E account toFunctionSelector roles (State.initial E.set) where
  registry := registry_initial E account
  holds _ hk := absurd rfl hk

omit [DecidableEq W] in
theorem hasId (h : FaceKept E account toFunctionSelector roles s) {k : Address}
    (hk : s.sessionKeyIdOf E.keccak account k ≠ 0) :
    HasId E account k (s.sessionKeyIdOf E.keccak account k) s :=
  ⟨(h.registry.registered k).mpr hk, rfl⟩

/-- A key that was there before and is not reconfigured. -/
theorem kept (h : FaceKept E account toFunctionSelector roles s) {tx : Tx}
    (hstep : entryPointStep E s tx = some s') {k : Address}
    (hkeep : tx.reconfigures account k = false) (hk : s.sessionKeyIdOf E.keccak account k ≠ 0) :
    ∃ r, roles r ∧ RoleHolds toFunctionSelector r
      (s'.permissionsOf E.keccak account (s'.sessionKeyIdOf E.keccak account k)) := by
  obtain ⟨hid', hkey⟩ := keyStep_of_step h.registry (h.hasId hk) hkeep hstep
  obtain ⟨r, hr, hholds⟩ := h.holds k hk
  rw [hid'.keyId]
  exact ⟨r, hr, hholds.keyStep (h.hasId hk) hkey⟩

omit [DecidableEq W] in
theorem of_keyAdded (h : FaceKept E account toFunctionSelector roles s) {timestamp : Uint256}
    {key : Address} {updates : List Bytes} (hadd : KeyAdded E timestamp account key updates s s')
    (hr : ∃ r, roles r ∧ Compiles toFunctionSelector checksumAddress r updates) :
    FaceKept E account toFunctionSelector roles s' where
  registry := h.registry.of_keyAdded hadd
  holds k hk := by
    by_cases hkey : k = key
    · subst hkey
      obtain ⟨r, hrole, hcompiles⟩ := hr
      exact ⟨r, hrole, roleHolds_of_updateAll hcompiles (startsWith_of_keyAdded h.registry hadd)⟩
    · rw [hadd.keyId, if_neg hkey] at hk ⊢
      rw [permissions_of_keyAdded h.registry (h.hasId hk) hadd]
      exact h.holds k hk

omit [DecidableEq W] in
theorem of_keyRemoved (h : FaceKept E account toFunctionSelector roles s) {key : Address}
    (hremove : KeyRemoved E account key s s') :
    FaceKept E account toFunctionSelector roles s' where
  registry := h.registry.of_keyRemoved hremove
  holds k hk := by
    by_cases hkey : k = key
    · rw [hremove.keyId, if_pos hkey] at hk
      exact absurd rfl hk
    · rw [hremove.keyId, if_neg hkey] at hk ⊢
      rw [hremove.permissions]
      exact h.holds k hk

omit [DecidableEq W] in
/-- The new key has the role of the old one. -/
theorem of_keyRotated (h : FaceKept E account toFunctionSelector roles s) {oldKey newKey : Address}
    (hrotate : KeyRotated E account oldKey newKey s s') :
    FaceKept E account toFunctionSelector roles s' where
  registry := h.registry.of_keyRotated hrotate
  holds k hk := by
    rw [hrotate.permissions]
    rw [hrotate.keyId] at hk ⊢
    split_ifs at hk ⊢ with hnew hold
    · exact h.holds oldKey hk
    · exact absurd rfl hk
    · exact h.holds k hk

omit [DecidableEq W] in
theorem of_uninstalled (h : FaceKept E account toFunctionSelector roles s)
    (huninstall : Uninstalled E account s s') :
    FaceKept E account toFunctionSelector roles s' where
  registry := h.registry.of_uninstalled huninstall
  holds k hk := absurd (h.registry.keyId_of_uninstalled huninstall k) hk

/-- A call that writes under the id of a key, or is about another account. -/
theorem of_keyIds (h : FaceKept E account toFunctionSelector roles s) {tx : Tx}
    (hstep : entryPointStep E s tx = some s') (hkeep : ∀ k, tx.reconfigures account k = false)
    (hids : ∀ k, s'.sessionKeyIdOf E.keccak account k = s.sessionKeyIdOf E.keccak account k) :
    FaceKept E account toFunctionSelector roles s' where
  registry := h.registry.exec (exec_of_entryPointStep hstep)
  holds k hk := h.kept hstep (hkeep k) (hids k ▸ hk)

/-- **Every call keeps the invariant**, if the owners give permissions by roles. -/
theorem step (h : FaceKept E account toFunctionSelector roles s) {tx : Tx}
    (hby : ByRole account toFunctionSelector checksumAddress roles tx)
    (hstep : entryPointStep E s tx = some s') :
    FaceKept E account toFunctionSelector roles s' := by
  have hexec := exec_of_entryPointStep hstep
  by_cases hacc : account = tx.account
  swap
  · -- only a reset is sent by somebody else
    have hsame := sameAccount_of_exec hexec hacc
    refine ⟨h.registry.of_sameAccount hsame, fun k hk => ?_⟩
    rw [hsame.keyId] at hk ⊢
    rw [hsame.permissions]
    exact h.holds k hk
  obtain ⟨sender, timestamp, action⟩ := tx
  cases action with
  | onInstall data =>
    obtain rfl : account = sender := hacc
    obtain ⟨keys, tags, updates, hdecode, -, -, hadds⟩ := onInstall_eq_ok hexec
    refine foldlM_invariant_mem hadds h ?_
    intro entry hentry t t' ht hadd
    have hmem : entry.2.2 ∈ updates := (List.of_mem_zip (List.of_mem_zip hentry).2).2
    exact ht.of_keyAdded (addEntry_eq_ok hadd)
      (hby.install data keys tags updates rfl rfl hdecode _ hmem)
  | onUninstall =>
    obtain rfl : account = sender := hacc
    obtain rfl := pure_eq_ok.mp hexec
    exact h.of_uninstalled (uninstalled_onUninstall E account s)
  | addSessionKey key tag updates =>
    obtain rfl : account = sender := hacc
    change addSessionKey E timestamp account s key tag updates = .ok s' at hexec
    exact h.of_keyAdded (addSessionKey_eq_ok hexec) (hby.add key tag updates rfl rfl)
  | removeSessionKey key predecessor =>
    obtain rfl : account = sender := hacc
    exact h.of_keyRemoved (removeSessionKey_eq_ok hexec)
  | rotateSessionKey oldKey predecessor newKey =>
    obtain rfl : account = sender := hacc
    exact h.of_keyRotated (rotateSessionKey_eq_ok hexec)
  | updateKeyPermissions key updates => exact absurd rfl (hby.update key updates hacc.symm)
  | userOpValidationFunction functionId userOp userOpHash =>
    obtain ⟨⟨v, t⟩, hv, rfl⟩ := map_eq_ok.mp hexec
    obtain ⟨-, key, -, -, hwrite, -⟩ := userOpValidationFunction_eq_ok hv
    exact h.of_keyIds hstep (fun k => by simp [Tx.reconfigures]) (hwrite.keyId account)
  | executeWithSessionKey calls key callsReturn =>
    have hwrite := updateLimitsPreExec_keyWrite (executeWithSessionKey_eq_ok.mp hexec).1
    exact h.of_keyIds hstep (fun k => by simp [Tx.reconfigures]) (hwrite.keyId account)
  | resetSessionKeyGasLimitTimestamp owner key =>
    obtain ⟨-, hwrite⟩ := resetSessionKeyGasLimitTimestamp_eq_ok hexec
    exact h.of_keyIds hstep (fun k => by simp [Tx.reconfigures]) (hwrite.keyId account)

theorem of_run {h : List (Evm.Call (State W S) Tx)}
    (hrun : Run (entryPointStep E) (State.initial E.set) h s)
    (hby : ∀ c ∈ h, ByRole account toFunctionSelector checksumAddress roles c.act) :
    FaceKept E account toFunctionSelector roles s :=
  hrun.invariant_of hby (.initial E account) (fun _ _ _ hinv hb hs => hinv.step hb hs)

end FaceKept

end

/-! ### A provider -/

end Bufi.Grant
