import Bufi.Session.Plugin

/-!
# Writes under one key id

`KeyWrite account id s s'`: nothing was written but permissions under one key
id of one account.  Updates, validation, execution and the public reset are of
this kind, each under the id the key has at that moment.  An update does to
what is stored what it means for `Permissions`; validation and execution leave
default permissions as they are.

`SameAccount` is the frame: an account that a call is not about keeps
everything it has.
-/

namespace Bufi.Session

open Bufi.Evm

variable {W S : Type}

/-- Nothing of the account has changed. -/
structure SameAccount (K : Keccak W) (account : Address) (s s' : State W S) : Prop where
  sessionKeys : s'.sessionKeys account = s.sessionKeys account
  keyIdCounter : s'.keyIdCounter account = s.keyIdCounter account
  keyId : ∀ k, s'.sessionKeyIdOf K account k = s.sessionKeyIdOf K account k
  permissions : ∀ i, s'.permissionsOf K account i = s.permissionsOf K account i

namespace SameAccount

variable {K : Keccak W} {account : Address} {s t u : State W S}

theorem refl (K : Keccak W) (account : Address) (s : State W S) : SameAccount K account s s :=
  ⟨rfl, rfl, fun _ => rfl, fun _ => rfl⟩

theorem trans (h : SameAccount K account s t) (g : SameAccount K account t u) :
    SameAccount K account s u where
  sessionKeys := g.sessionKeys.trans h.sessionKeys
  keyIdCounter := g.keyIdCounter.trans h.keyIdCounter
  keyId k := (g.keyId k).trans (h.keyId k)
  permissions i := (g.permissions i).trans (h.permissions i)

end SameAccount

/-! ### Writes under one key id -/

/-- Only permissions under `id` of `account` were written. -/
structure KeyWrite (K : Keccak W) (account : Address) (id : Bytes32) (s s' : State W S) :
    Prop where
  sessionKeys : s'.sessionKeys = s.sessionKeys
  keyIdCounter : s'.keyIdCounter = s.keyIdCounter
  keyIds : s'.keyIds = s.keyIds
  permissions : ∀ a i, ¬ (a = account ∧ i = id) → s'.permissionsOf K a i = s.permissionsOf K a i

namespace KeyWrite

variable {K : Keccak W} {account : Address} {id : Bytes32} {s t u : State W S}

theorem refl (K : Keccak W) (account : Address) (id : Bytes32) (s : State W S) :
    KeyWrite K account id s s :=
  ⟨rfl, rfl, rfl, fun _ _ _ => rfl⟩

theorem trans (h : KeyWrite K account id s t) (g : KeyWrite K account id t u) :
    KeyWrite K account id s u where
  sessionKeys := g.sessionKeys.trans h.sessionKeys
  keyIdCounter := g.keyIdCounter.trans h.keyIdCounter
  keyIds := g.keyIds.trans h.keyIds
  permissions a i hne := (g.permissions a i hne).trans (h.permissions a i hne)

theorem keyId (h : KeyWrite K account id s t) (a k : Address) :
    t.sessionKeyIdOf K a k = s.sessionKeyIdOf K a k := by
  rw [State.sessionKeyIdOf, h.keyIds]
  rfl

theorem sameAccount (h : KeyWrite K account id s t) {a : Address} (ha : a ≠ account) :
    SameAccount K a s t where
  sessionKeys := by rw [h.sessionKeys]
  keyIdCounter := by rw [h.keyIdCounter]
  keyId := h.keyId a
  permissions i := h.permissions a i (fun hp => ha hp.1)

variable [DecidableEq W]

theorem setKeyData (K : Keccak W) (account : Address) (id : Bytes32) (s : State W S)
    (d : SessionKeyData) : KeyWrite K account id s (s.setKeyData K account id d) where
  sessionKeys := rfl
  keyIdCounter := rfl
  keyIds := rfl
  permissions a i hne := by rw [State.permissionsOf_setKeyData, if_neg hne]

theorem setContractData (K : Keccak W) (account : Address) (id : Bytes32) (s : State W S)
    (c : Address) (d : ContractData) :
    KeyWrite K account id s (s.setContractData K account id c d) where
  sessionKeys := rfl
  keyIdCounter := rfl
  keyIds := rfl
  permissions a i hne := by rw [State.permissionsOf_setContractData, if_neg hne]

theorem setFunctionData (K : Keccak W) (account : Address) (id : Bytes32) (s : State W S)
    (c : Address) (selector : Bytes4) (d : FunctionData) :
    KeyWrite K account id s (s.setFunctionData K account id c selector d) where
  sessionKeys := rfl
  keyIdCounter := rfl
  keyIds := rfl
  permissions a i hne := by rw [State.permissionsOf_setFunctionData, if_neg hne]

end KeyWrite

theorem loadSessionKeyId_eq_ok {K : Keccak W} {s : State W S} {account sessionKey : Address}
    {id : Bytes32} :
    loadSessionKeyId K s account sessionKey = .ok id ↔
      id ≠ 0 ∧ id = s.sessionKeyIdOf K account sessionKey := by
  simp only [loadSessionKeyId, bind_eq_ok, require_eq_ok, exists_const, pure_eq_ok]
  constructor
  · rintro ⟨hne, rfl⟩
    exact ⟨hne, rfl⟩
  · rintro ⟨hne, rfl⟩
    exact ⟨hne, rfl⟩

variable [DecidableEq W] {E : Env W S} {timestamp : Uint256} {account : Address} {s s' : State W S}

/-! ### Updates -/

/-- **An update does to the stored permissions what it means.** -/
theorem performUpdate_eq_ok {id : Bytes32} {u : PermissionsUpdate}
    (h : performUpdate E timestamp account id s u = .ok s') :
    KeyWrite E.keccak account id s s' ∧
      (s.permissionsOf E.keccak account id).perform timestamp u =
        .ok (s'.permissionsOf E.keccak account id) := by
  have hkey : ∀ f : SessionKeyData → SessionKeyData,
      (s.setKeyData E.keccak account id
        (f (s.sessionKeyDataOf E.keccak account id))).permissionsOf E.keccak account id =
        (s.permissionsOf E.keccak account id).mapKey f := by
    intro f
    rw [State.permissionsOf_setKeyData, if_pos ⟨rfl, rfl⟩]
    rfl
  have hcontract : ∀ (c : Address) (f : ContractData → ContractData),
      (s.setContractData E.keccak account id c
        (f (s.contractDataOf E.keccak account id c))).permissionsOf E.keccak account id =
        (s.permissionsOf E.keccak account id).mapContract c f := by
    intro c f
    rw [State.permissionsOf_setContractData, if_pos ⟨rfl, rfl⟩]
    rfl
  cases u with
  | setAccessListType t =>
    obtain rfl := pure_eq_ok.mp h
    exact ⟨.setKeyData _ _ _ _ _, congrArg Except.ok (hkey (·.setAccessListType t)).symm⟩
  | updateAccessListAddressEntry c isOnList checkSelectors =>
    obtain rfl := pure_eq_ok.mp h
    exact ⟨.setContractData _ _ _ _ _ _, congrArg Except.ok
      (hcontract c (·.updateAccessListAddressEntry isOnList checkSelectors)).symm⟩
  | updateAccessListFunctionEntry c selector isOnList =>
    obtain rfl := pure_eq_ok.mp h
    refine ⟨.setFunctionData _ _ _ _ _ _ _, ?_⟩
    rw [State.permissionsOf_setFunctionData, if_pos ⟨rfl, rfl⟩]
    rfl
  | updateTimeRange validAfter validUntil =>
    obtain rfl := pure_eq_ok.mp h
    exact ⟨.setKeyData _ _ _ _ _, congrArg Except.ok
      (hkey (·.updateTimeRange validAfter validUntil)).symm⟩
  | setNativeTokenSpendLimit spendLimit refreshInterval =>
    obtain rfl := pure_eq_ok.mp h
    exact ⟨.setKeyData _ _ _ _ _, congrArg Except.ok
      (hkey (·.setNativeTokenSpendLimit timestamp spendLimit refreshInterval)).symm⟩
  | setERC20SpendLimit token spendLimit refreshInterval =>
    simp only [performUpdate, bind_eq_ok, require_eq_ok, exists_const, pure_eq_ok] at h
    obtain ⟨htoken, rfl⟩ := h
    refine ⟨.setContractData _ _ _ _ _ _, ?_⟩
    rw [Permissions.perform, require_of htoken]
    exact congrArg Except.ok
      (hcontract token (·.setERC20SpendLimit timestamp spendLimit refreshInterval)).symm
  | setGasSpendLimit spendLimit refreshInterval =>
    obtain rfl := pure_eq_ok.mp h
    exact ⟨.setKeyData _ _ _ _ _, congrArg Except.ok
      (hkey (·.setGasSpendLimit timestamp spendLimit refreshInterval)).symm⟩
  | setRequiredPaymaster requiredPaymaster =>
    obtain rfl := pure_eq_ok.mp h
    exact ⟨.setKeyData _ _ _ _ _, congrArg Except.ok
      (hkey (·.setRequiredPaymaster requiredPaymaster)).symm⟩

/-- The loop over the updates. -/
theorem performUpdates_eq_ok {id : Bytes32} {updates : List Bytes}
    (h : updates.foldlM (performSessionKeyPermissionsUpdate E timestamp account id) s = .ok s') :
    KeyWrite E.keccak account id s s' ∧
      (s.permissionsOf E.keccak account id).updateAll timestamp updates =
        .ok (s'.permissionsOf E.keccak account id) := by
  induction updates generalizing s with
  | nil =>
    obtain rfl := foldlM_nil_eq_ok.mp h
    exact ⟨.refl _ _ _ _, rfl⟩
  | cons u updates ih =>
    rw [foldlM_cons_eq_ok] at h
    obtain ⟨t, hu, h⟩ := h
    rw [performSessionKeyPermissionsUpdate, bind_eq_ok] at hu
    obtain ⟨update, hdecode, hu⟩ := hu
    obtain ⟨hwrite, hperform⟩ := performUpdate_eq_ok hu
    obtain ⟨hwrites, hperforms⟩ := ih h
    refine ⟨hwrite.trans hwrites, ?_⟩
    rw [Permissions.updateAll, foldlM_cons_eq_ok]
    refine ⟨t.permissionsOf E.keccak account id, ?_, hperforms⟩
    rw [Permissions.update, bind_eq_ok]
    exact ⟨update, hdecode, hperform⟩

/-- An update that the permissions take is written. -/
theorem exists_performUpdate {id : Bytes32} {u : PermissionsUpdate} {p : Permissions}
    (h : (s.permissionsOf E.keccak account id).perform timestamp u = .ok p) :
    ∃ s', performUpdate E timestamp account id s u = .ok s' := by
  cases u with
  | setERC20SpendLimit token spendLimit refreshInterval =>
    simp only [Permissions.perform, bind_eq_ok, require_eq_ok, exists_const] at h
    rw [performUpdate, require_of h.1]
    exact ⟨_, rfl⟩
  | _ => exact ⟨_, rfl⟩

theorem exists_performUpdates {id : Bytes32} {updates : List Bytes} {p : Permissions}
    (h : (s.permissionsOf E.keccak account id).updateAll timestamp updates = .ok p) :
    ∃ s', updates.foldlM (performSessionKeyPermissionsUpdate E timestamp account id) s =
      .ok s' := by
  induction updates generalizing s with
  | nil => exact ⟨s, rfl⟩
  | cons u updates ih =>
    rw [Permissions.updateAll, foldlM_cons_eq_ok] at h
    obtain ⟨q, hu, h⟩ := h
    rw [Permissions.update, bind_eq_ok] at hu
    obtain ⟨update, hdecode, hu⟩ := hu
    obtain ⟨t, ht⟩ := exists_performUpdate hu
    have hq : (t.permissionsOf E.keccak account id) = q :=
      Except.ok.inj ((performUpdate_eq_ok ht).2.symm.trans hu)
    obtain ⟨s', hs'⟩ := ih (hq ▸ h)
    refine ⟨s', foldlM_cons_eq_ok.mpr ⟨t, ?_, hs'⟩⟩
    rw [performSessionKeyPermissionsUpdate, bind_eq_ok]
    exact ⟨update, hdecode, ht⟩

theorem updateKeyPermissions_eq_ok {sessionKey : Address} {updates : List Bytes}
    (h : updateKeyPermissions E timestamp account s sessionKey updates = .ok s') :
    s.sessionKeyIdOf E.keccak account sessionKey ≠ 0 ∧
      KeyWrite E.keccak account (s.sessionKeyIdOf E.keccak account sessionKey) s s' ∧
      (s.permissionsOf E.keccak account
        (s.sessionKeyIdOf E.keccak account sessionKey)).updateAll timestamp updates =
        .ok (s'.permissionsOf E.keccak account
          (s.sessionKeyIdOf E.keccak account sessionKey)) := by
  rw [updateKeyPermissions, bind_eq_ok] at h
  obtain ⟨id, hload, h⟩ := h
  rw [loadSessionKeyId_eq_ok] at hload
  obtain ⟨hne, rfl⟩ := hload
  exact ⟨hne, performUpdates_eq_ok h⟩

theorem resetSessionKeyGasLimitTimestamp_eq_ok {sessionKey : Address}
    (h : resetSessionKeyGasLimitTimestamp E timestamp account s sessionKey = .ok s') :
    s.sessionKeyIdOf E.keccak account sessionKey ≠ 0 ∧
      KeyWrite E.keccak account (s.sessionKeyIdOf E.keccak account sessionKey) s s' := by
  simp only [resetSessionKeyGasLimitTimestamp, bind_eq_ok, pure_eq_ok] at h
  obtain ⟨id, hload, rfl⟩ := h
  rw [loadSessionKeyId_eq_ok] at hload
  obtain ⟨hne, rfl⟩ := hload
  exact ⟨hne, .setKeyData _ _ _ _ _⟩

/-! ### Execution and validation -/

theorem meterToken_eq_ok {sessionKey : Address} {keyId : Bytes32} {call : Call}
    (h : meterToken E timestamp account sessionKey keyId s call = .ok s') :
    KeyWrite E.keccak account keyId s s' := by
  simp only [meterToken] at h
  split at h
  · simp only [bind_eq_ok, orRevert_eq_ok, require_eq_ok, exists_const, pure_eq_ok] at h
    obtain ⟨⟨ok, b⟩, -, -, rfl⟩ := h
    exact .setContractData _ _ _ _ _ _
  · obtain rfl := pure_eq_ok.mp h
    exact .refl _ _ _ _

theorem meterCalls_eq_ok {sessionKey : Address} {keyId : Bytes32} {calls : List Call} {n m : ℕ}
    (h : calls.foldlM (meterCall E timestamp account sessionKey keyId) (n, s) = .ok (m, s')) :
    KeyWrite E.keccak account keyId s s' := by
  refine foldlM_invariant (P := fun acc => KeyWrite E.keccak account keyId s acc.2) h
    (.refl _ _ _ _) ?_
  intro acc call acc' hacc hcall
  simp only [meterCall, bind_eq_ok, orRevert_eq_ok, pure_eq_ok] at hcall
  obtain ⟨-, -, t, ht, rfl⟩ := hcall
  exact hacc.trans (meterToken_eq_ok ht)

/-- The parts of `_updateLimitsPreExec`: the tokens of the calls, then the
native token and the gas window. -/
theorem updateLimitsPreExec_eq_ok {calls : List Call} {sessionKey : Address} :
    updateLimitsPreExec E timestamp account s calls sessionKey = .ok s' ↔
      ∃ n t d, calls.foldlM (meterCall E timestamp account sessionKey
          (s.sessionKeyIdOf E.keccak account sessionKey)) (0, s) = .ok (n, t) ∧
        meterNative timestamp account sessionKey n (t.sessionKeyDataOf E.keccak account
          (s.sessionKeyIdOf E.keccak account sessionKey)) = .ok d ∧
        s' = t.setKeyData E.keccak account (s.sessionKeyIdOf E.keccak account sessionKey)
          (d.finishGasReset timestamp) := by
  simp only [updateLimitsPreExec, bind_eq_ok, pure_eq_ok, Prod.exists, exists_and_left]

theorem updateLimitsPreExec_keyWrite {calls : List Call} {sessionKey : Address}
    (h : updateLimitsPreExec E timestamp account s calls sessionKey = .ok s') :
    KeyWrite E.keccak account (s.sessionKeyIdOf E.keccak account sessionKey) s s' := by
  rw [updateLimitsPreExec_eq_ok] at h
  obtain ⟨n, t, d, hcalls, -, rfl⟩ := h
  exact (meterCalls_eq_ok hcalls).trans (.setKeyData _ _ _ _ _)

theorem executeWithSessionKey_eq_ok {calls : List Call} {sessionKey : Address}
    {callsReturn : Bool} :
    executeWithSessionKey E timestamp account s calls sessionKey callsReturn = .ok s' ↔
      updateLimitsPreExec E timestamp account s calls sessionKey = .ok s' ∧
        callsReturn = true := by
  simp only [executeWithSessionKey, bind_eq_ok, require_eq_ok, exists_const, pure_eq_ok]
  constructor
  · rintro ⟨t, ht, hr, rfl⟩
    exact ⟨ht, hr⟩
  · rintro ⟨ht, hr⟩
    exact ⟨s', ht, hr, rfl⟩

theorem meterNative_default {key : Address} {n : ℕ} {d : SessionKeyData}
    (h : meterNative timestamp account key n .default = .ok d) : d = .default := by
  rw [meterNative, if_neg (by decide)] at h
  simp only [bind_eq_ok, orRevert_eq_ok, require_eq_ok, exists_const, pure_eq_ok] at h
  obtain ⟨⟨ok, b⟩, hb, rfl, rfl⟩ := h
  have hdefault : b = .default := (charge_of_runtimeUpdate hb).eq_default
  rw [hdefault]
  rfl

/-- Under default permissions an execution has nothing to write. -/
theorem updateLimitsPreExec_default {calls : List Call} {key : Address}
    (h : updateLimitsPreExec E timestamp account s calls key = .ok s')
    (hdefault : s.permissionsOf E.keccak account
      (s.sessionKeyIdOf E.keccak account key) = .default) :
    s'.permissionsOf E.keccak account (s.sessionKeyIdOf E.keccak account key) = .default := by
  rw [updateLimitsPreExec_eq_ok] at h
  obtain ⟨n, t, d, hcalls, hnative, rfl⟩ := h
  have ht : t.permissionsOf E.keccak account
      (s.sessionKeyIdOf E.keccak account key) = .default := by
    refine foldlM_invariant (P := fun acc => acc.2.permissionsOf E.keccak account
      (s.sessionKeyIdOf E.keccak account key) = .default) hcalls hdefault ?_
    intro acc call acc' hacc hcall
    have hdata : acc.2.contractDataOf E.keccak account
        (s.sessionKeyIdOf E.keccak account key) call.target = .default :=
      congrFun (congrArg Permissions.contracts hacc) call.target
    simp only [meterCall, bind_eq_ok, orRevert_eq_ok, pure_eq_ok] at hcall
    obtain ⟨total, -, u, hu, rfl⟩ := hcall
    rw [meterToken, hdata, if_neg (by decide), pure_eq_ok] at hu
    rw [hu]
    exact hacc
  have hkey : t.sessionKeyDataOf E.keccak account
      (s.sessionKeyIdOf E.keccak account key) = .default :=
    congrArg Permissions.key ht
  rw [hkey] at hnative
  rw [State.permissionsOf_setKeyData, if_pos ⟨rfl, rfl⟩, ht, meterNative_default hnative]
  rfl

theorem checkUserOpPermissions_eq_ok {lib : UserOperationLib} {K : Keccak W}
    {userOp : PackedUserOperation} {calls : List Call} {key : Address} {v : Uint256}
    (h : checkUserOpPermissions K lib s account userOp calls key = .ok (v, s')) :
    ∃ ok validAfter d,
      checkGas lib userOp (s.sessionKeyDataOf K account (s.sessionKeyIdOf K account key)) =
        .ok (ok, validAfter, d) ∧
      s' = s.setKeyData K account (s.sessionKeyIdOf K account key) d := by
  simp only [checkUserOpPermissions, bind_eq_ok, orRevert_eq_ok, pure_eq_ok, Prod.exists,
    Prod.mk.injEq] at h
  obtain ⟨-, -, -, -, -, ok, validAfter, d, hgas, -, hs'⟩ := h
  exact ⟨ok, validAfter, d, hgas, hs'⟩

/-- An operation that passes is of a registered key, and only the gas limit of
that key is written. -/
theorem userOpValidationFunction_eq_ok {functionId : Uint8} {userOp : PackedUserOperation}
    {userOpHash : Bytes32} {v : Uint256}
    (h : userOpValidationFunction E account s functionId userOp userOpHash = .ok (v, s')) :
    ∃ calls sessionKey, decodeExecute userOp.callData = some (calls, sessionKey) ∧
      E.set.contains (s.sessionKeys account) sessionKey = true ∧
      KeyWrite E.keccak account (s.sessionKeyIdOf E.keccak account sessionKey) s s' ∧
      (s.permissionsOf E.keccak account (s.sessionKeyIdOf E.keccak account sessionKey) = .default →
        s'.permissionsOf E.keccak account (s.sessionKeyIdOf E.keccak account sessionKey) =
          .default) := by
  rw [userOpValidationFunction] at h
  split at h
  · simp only [bind_eq_ok, orRevert_eq_ok, require_eq_ok, exists_const, pure_eq_ok,
      Prod.exists, Prod.mk.injEq] at h
    obtain ⟨calls, sessionKey, hdecode, signer, -, hmem, w, t, hcheck, -, -, rfl⟩ := h
    obtain ⟨ok, validAfter, d, hgas, rfl⟩ := checkUserOpPermissions_eq_ok hcheck
    refine ⟨calls, sessionKey, hdecode, hmem, .setKeyData _ _ _ _ _, ?_⟩
    intro hdefault
    have hkey : s.sessionKeyDataOf E.keccak account
        (s.sessionKeyIdOf E.keccak account sessionKey) = .default :=
      congrArg Permissions.key hdefault
    rw [hkey, checkGas, if_neg (by decide), pure_eq_ok, Prod.mk.injEq, Prod.mk.injEq] at hgas
    rw [State.permissionsOf_setKeyData, if_pos ⟨rfl, rfl⟩, hdefault, hgas.2.2]
    rfl
  · exact absurd h (by simp [throw, throwThe, MonadExceptOf.throw])

end Bufi.Session
