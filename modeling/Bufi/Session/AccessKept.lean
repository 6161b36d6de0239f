import Bufi.Session.SpendBudget

/-!
# Access lists along a run

A key that is not reconfigured keeps its access list: validations and executions
write its counters and nothing else (`sameAccess_of_keyStep`).  What a validation
admits is on the list (`accepts_of_validation`).
-/

namespace Bufi.Session

open Bufi.Evm

/-- The same calls are on the access list. -/
structure SameAccess (p q : Permissions) : Prop where
  accessType : q.key.contractAccessControlType = p.key.contractAccessControlType
  isOnList : ∀ c, (q.contracts c).isOnList = (p.contracts c).isOnList
  checkSelectors : ∀ c, (q.contracts c).checkSelectors = (p.contracts c).checkSelectors
  functions : q.functions = p.functions

namespace SameAccess

variable {p q r : Permissions}

theorem refl (p : Permissions) : SameAccess p p := ⟨rfl, fun _ => rfl, fun _ => rfl, rfl⟩

theorem trans (h : SameAccess p q) (g : SameAccess q r) : SameAccess p r where
  accessType := g.accessType.trans h.accessType
  isOnList c := (g.isOnList c).trans (h.isOnList c)
  checkSelectors c := (g.checkSelectors c).trans (h.checkSelectors c)
  functions := g.functions.trans h.functions

theorem mapKey {f : SessionKeyData → SessionKeyData}
    (h : (f p.key).contractAccessControlType = p.key.contractAccessControlType) :
    SameAccess p (p.mapKey f) :=
  ⟨h, fun _ => rfl, fun _ => rfl, rfl⟩

theorem mapContract {c : Address} {f : ContractData → ContractData}
    (hlist : (f (p.contracts c)).isOnList = (p.contracts c).isOnList)
    (hcheck : (f (p.contracts c)).checkSelectors = (p.contracts c).checkSelectors) :
    SameAccess p (p.mapContract c f) where
  accessType := rfl
  isOnList x := by
    rw [Permissions.contracts_mapContract]
    split
    · rename_i hx
      rw [hx, hlist]
    · rfl
  checkSelectors x := by
    rw [Permissions.contracts_mapContract]
    split
    · rename_i hx
      rw [hx, hcheck]
    · rfl
  functions := rfl

end SameAccess

theorem accessType_finishGasReset (d : SessionKeyData) (timestamp : Uint256) :
    (d.finishGasReset timestamp).contractAccessControlType = d.contractAccessControlType := by
  rw [SessionKeyData.finishGasReset]
  split
  · rfl
  · rfl

theorem accessType_of_checkGas {lib : UserOperationLib} {userOp : PackedUserOperation}
    {d d' : SessionKeyData} {validAfter : Uint48}
    (h : checkGas lib userOp d = .ok (true, validAfter, d')) :
    d'.contractAccessControlType = d.contractAccessControlType := by
  rw [checkGas] at h
  split at h
  · simp only [bind_eq_ok, orRevert_eq_ok] at h
    obtain ⟨cost, -, hcheck⟩ := h
    cases gasUse_of_check hcheck with
    | fits used _ _ hd => rw [hd]
    | restarts _ _ _ _ hd => rw [hd]
  · rw [pure_eq_ok, Prod.mk.injEq, Prod.mk.injEq] at h
    rw [h.2.2]

theorem accessType_of_meterNative {timestamp : Uint256} {account key : Address} {n : ℕ}
    {d d' : SessionKeyData} (h : meterNative timestamp account key n d = .ok d') :
    d'.contractAccessControlType = d.contractAccessControlType := by
  rw [meterNative] at h
  split at h
  · rw [pure_eq_ok.mp h]
  · simp only [bind_eq_ok, orRevert_eq_ok, require_eq_ok, exists_const, pure_eq_ok] at h
    obtain ⟨-, -, -, rfl⟩ := h
    rfl

variable {W S : Type} [DecidableEq W] {E : Env W S} {account key : Address} {id : Bytes32}
  {s s' : State W S}

theorem sameAccess_of_meterToken {timestamp : Uint256} {call : Call}
    (h : meterToken E timestamp account key id s call = .ok s') :
    SameAccess (s.permissionsOf E.keccak account id) (s'.permissionsOf E.keccak account id) := by
  rw [meterToken] at h
  split at h
  · simp only [bind_eq_ok, orRevert_eq_ok, require_eq_ok, exists_const, pure_eq_ok] at h
    obtain ⟨⟨ok, b⟩, -, -, rfl⟩ := h
    rw [State.permissionsOf_setContractData, if_pos ⟨rfl, rfl⟩]
    exact .mapContract rfl rfl
  · rw [pure_eq_ok.mp h]
    exact .refl _

theorem sameAccess_of_updateLimitsPreExec {timestamp : Uint256} {calls : List Call}
    (hid : HasId E account key id s)
    (h : updateLimitsPreExec E timestamp account s calls key = .ok s') :
    SameAccess (s.permissionsOf E.keccak account id) (s'.permissionsOf E.keccak account id) := by
  rw [updateLimitsPreExec_eq_ok, hid.keyId] at h
  obtain ⟨n, t, d, hcalls, hnative, rfl⟩ := h
  have ht : SameAccess (s.permissionsOf E.keccak account id)
      (t.permissionsOf E.keccak account id) := by
    refine foldlM_invariant (P := fun acc => SameAccess (s.permissionsOf E.keccak account id)
      (acc.2.permissionsOf E.keccak account id)) hcalls (.refl _) ?_
    intro acc call acc' hacc hcall
    simp only [meterCall, bind_eq_ok, orRevert_eq_ok, pure_eq_ok] at hcall
    obtain ⟨-, -, u, hu, rfl⟩ := hcall
    exact hacc.trans (sameAccess_of_meterToken hu)
  refine ht.trans ?_
  rw [State.permissionsOf_setKeyData, if_pos ⟨rfl, rfl⟩]
  exact .mapKey ((accessType_finishGasReset d timestamp).trans (accessType_of_meterNative hnative))

/-- **A call that leaves a key alone leaves its access list.** -/
theorem sameAccess_of_keyStep {tx : Tx} (hid : HasId E account key id s)
    (h : KeyStep E account key id s tx s') :
    SameAccess (s.permissionsOf E.keccak account id) (s'.permissionsOf E.keccak account id) := by
  cases h with
  | same _ hperm =>
    rw [hperm]
    exact .refl _
  | reset _ hperm =>
    rw [hperm]
    exact .mapKey (accessType_finishGasReset _ _)
  | validated _ _ hgas _ hperm =>
    rw [hperm]
    exact .mapKey (accessType_of_checkGas hgas)
  | executed _ _ hpre => exact sameAccess_of_updateLimitsPreExec hid hpre

/-- An admitted validation has found every call on the access list. -/
theorem accepts_of_validation {functionId : Uint8} {userOp : PackedUserOperation}
    {userOpHash : Bytes32} {timestamp : Uint256} {calls : List Call}
    (hid : HasId E account key id s)
    (h : entryPointStep E s ⟨account, timestamp, .userOpValidationFunction functionId userOp
      userOpHash⟩ = some s')
    (hdecode : decodeExecute userOp.callData = some (calls, key)) :
    ∀ call ∈ calls, Accepts E.keccak s account id call.target call.data := by
  rw [entryPointStep, Option.bind_eq_some_iff] at h
  obtain ⟨⟨v, t⟩, hv, -⟩ := h
  rw [toOption_eq_some, userOpValidationFunction] at hv
  split at hv
  · simp only [bind_eq_ok, orRevert_eq_ok, require_eq_ok, exists_const, pure_eq_ok,
      Prod.exists, Prod.mk.injEq] at hv
    obtain ⟨calls', key', hdecode', signer, -, -, w, u, hcheck, hok, -, -⟩ := hv
    rw [hdecode, Option.some.injEq, Prod.mk.injEq] at hdecode'
    obtain ⟨rfl, rfl⟩ := hdecode'
    simp only [checkUserOpPermissions, bind_eq_ok, orRevert_eq_ok, pure_eq_ok, Prod.exists,
      Prod.mk.injEq, hid.keyId] at hcheck
    obtain ⟨spend, -, spendOk, spendValidAfter, -, gasOk, validAfter, d, -, rfl, -⟩ := hcheck
    have hsuccess := success_of_packValidation hok
    simp only [Bool.and_eq_true, List.all_eq_true] at hsuccess
    exact hsuccess.1.1.1.1.2
  · exact absurd hv (by simp [throw, throwThe, MonadExceptOf.throw])

end Bufi.Session
