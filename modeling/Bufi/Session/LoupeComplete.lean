import Bufi.Session.Access
import Bufi.Session.Loupe

/-!
# The views show all that matters

Two keys about which the views say the same behave alike from then on: every update,
validation, execution and reset of theirs, in any order and at any times, succeeds or
fails alike, with the same result, and leaves the views the same (`loupe_complete`).  An
agent's permissions can thus be audited from the views alone.

The two states are related by `Twin`: the key is registered in both or in neither, and
its permissions are alike.  An operation keeps the relation (`twin_perform`), and the
views follow from it and give it back (`keyView_of_twin`, `twin_of_keyView`).
-/

namespace Bufi.Session

open Bufi.Evm

/-! ### Permissions that are alike -/

theorem contractData_ext {d e : ContractData} (hlist : d.isOnList = e.isOnList)
    (hselectors : d.checkSelectors = e.checkSelectors)
    (hflag : d.isERC20WithSpendLimit = e.isERC20WithSpendLimit) (hbudget : d.budget = e.budget) :
    d = e := by
  obtain ⟨isOnList, checkSelectors, isERC20WithSpendLimit, timeInfo, limit⟩ := d
  obtain ⟨htime, hlimit⟩ := Prod.mk.inj hbudget
  simp only at hlist hselectors hflag htime hlimit
  rw [hlist, hselectors, hflag, htime, hlimit]

structure Permissions.Alike (p q : Permissions) : Prop where
  key : p.key.Alike q.key
  contracts : p.contracts = q.contracts
  functions : p.functions = q.functions

variable {W S : Type}

/-- The permissions under a key id of one state, and under one of another. -/
def AlikeAt (K : Keccak W) (account : Address) (i j : Bytes32) (s t : State W S) : Prop :=
  (s.permissionsOf K account i).Alike (t.permissionsOf K account j)

namespace AlikeAt

variable {K : Keccak W} {account : Address} {i j : Bytes32} {s t : State W S}

theorem key (h : AlikeAt K account i j s t) :
    (s.sessionKeyDataOf K account i).Alike (t.sessionKeyDataOf K account j) :=
  Permissions.Alike.key h

theorem contract (h : AlikeAt K account i j s t) (c : Address) :
    s.contractDataOf K account i c = t.contractDataOf K account j c :=
  congrFun (Permissions.Alike.contracts h) c

theorem function (h : AlikeAt K account i j s t) (c : Address) (selector : Bytes4) :
    s.functionDataOf K account i c selector = t.functionDataOf K account j c selector :=
  congrFun (congrFun (Permissions.Alike.functions h) c) selector

variable [DecidableEq W]

theorem setKeyData (h : AlikeAt K account i j s t) {d e : SessionKeyData} (hde : d.Alike e) :
    AlikeAt K account i j (s.setKeyData K account i d) (t.setKeyData K account j e) := by
  rw [AlikeAt, State.permissionsOf_setKeyData, if_pos ⟨rfl, rfl⟩, State.permissionsOf_setKeyData,
    if_pos ⟨rfl, rfl⟩]
  exact ⟨hde, h.contracts, h.functions⟩

theorem setContractData (h : AlikeAt K account i j s t) (c : Address) {x y : ContractData}
    (hxy : x = y) :
    AlikeAt K account i j (s.setContractData K account i c x)
      (t.setContractData K account j c y) := by
  rw [AlikeAt, State.permissionsOf_setContractData, if_pos ⟨rfl, rfl⟩,
    State.permissionsOf_setContractData, if_pos ⟨rfl, rfl⟩]
  refine ⟨h.key, ?_, h.functions⟩
  simp only [Permissions.mapContract, Permissions.Alike.contracts h, hxy]

theorem setFunctionData (h : AlikeAt K account i j s t) (c : Address) (selector : Bytes4)
    (x : FunctionData) :
    AlikeAt K account i j (s.setFunctionData K account i c selector x)
      (t.setFunctionData K account j c selector x) := by
  rw [AlikeAt, State.permissionsOf_setFunctionData, if_pos ⟨rfl, rfl⟩,
    State.permissionsOf_setFunctionData, if_pos ⟨rfl, rfl⟩]
  refine ⟨h.key, h.contracts, ?_⟩
  simp only [Permissions.setFunction, Permissions.Alike.functions h]

end AlikeAt

/-! ### Operations on permissions that are alike -/

section

variable [DecidableEq W] {E : Env W S} {account key : Address} {i j : Bytes32} {s t : State W S}
  (timestamp : Uint256)

theorem agree_performUpdate (h : AlikeAt E.keccak account i j s t) (u : PermissionsUpdate) :
    Agree (AlikeAt E.keccak account i j) (performUpdate E timestamp account i s u)
      (performUpdate E timestamp account j t u) := by
  cases u with
  | setAccessListType type => exact .pure (h.setKeyData { h.key with accessType := rfl })
  | updateAccessListAddressEntry c isOnList checkSelectors =>
    exact .pure (h.setContractData c (by rw [h.contract c]))
  | updateAccessListFunctionEntry c selector isOnList =>
    exact .pure (h.setFunctionData c selector _)
  | updateTimeRange validAfter validUntil =>
    exact .pure (h.setKeyData { h.key with validAfter := rfl, validUntil := rfl })
  | setNativeTokenSpendLimit spendLimit refreshInterval =>
    exact .pure (h.setKeyData (h.key.setNativeTokenSpendLimit _ _ _))
  | setERC20SpendLimit token spendLimit refreshInterval =>
    exact .bind_same (fun _ => .pure (h.setContractData token (by rw [h.contract token])))
  | setGasSpendLimit spendLimit refreshInterval =>
    exact .pure (h.setKeyData (h.key.setGasSpendLimit _ _ _))
  | setRequiredPaymaster requiredPaymaster =>
    exact .pure (h.setKeyData (h.key.setRequiredPaymaster _))

theorem agree_performUpdates (h : AlikeAt E.keccak account i j s t) (updates : List Bytes) :
    Agree (AlikeAt E.keccak account i j)
      (updates.foldlM (performSessionKeyPermissionsUpdate E timestamp account i) s)
      (updates.foldlM (performSessionKeyPermissionsUpdate E timestamp account j) t) :=
  .foldlM h (fun _ _ _ hab => .bind_same (agree_performUpdate timestamp hab))

theorem agree_meterToken (h : AlikeAt E.keccak account i j s t) (call : Call) :
    Agree (AlikeAt E.keccak account i j) (meterToken E timestamp account key i s call)
      (meterToken E timestamp account key j t call) := by
  simp only [meterToken, h.contract call.target]
  split_ifs
  · exact .bind_same (fun r => .bind_same (fun _ => .pure (h.setContractData _ rfl)))
  · exact .pure h

theorem agree_meterCalls (h : AlikeAt E.keccak account i j s t) (calls : List Call) (n : ℕ) :
    Agree (fun a b : ℕ × State W S => a.1 = b.1 ∧ AlikeAt E.keccak account i j a.2 b.2)
      (calls.foldlM (meterCall E timestamp account key i) (n, s))
      (calls.foldlM (meterCall E timestamp account key j) (n, t)) := by
  refine .foldlM ⟨rfl, h⟩ ?_
  rintro ⟨n, a⟩ ⟨_, b⟩ call ⟨rfl, hab⟩
  exact .bind_same (fun total =>
    (agree_meterToken timestamp hab call).bind (fun _ _ h' => .pure ⟨rfl, h'⟩))

theorem agree_updateLimitsPreExec (calls : List Call)
    (h : AlikeAt E.keccak account (s.sessionKeyIdOf E.keccak account key)
      (t.sessionKeyIdOf E.keccak account key) s t) :
    Agree (AlikeAt E.keccak account (s.sessionKeyIdOf E.keccak account key)
        (t.sessionKeyIdOf E.keccak account key))
      (updateLimitsPreExec E timestamp account s calls key)
      (updateLimitsPreExec E timestamp account t calls key) := by
  refine (agree_meterCalls timestamp h calls 0).bind ?_
  rintro ⟨n, a⟩ ⟨_, b⟩ ⟨rfl, hab⟩
  exact (hab.key.meterNative timestamp account key n).bind
    (fun d e hde => .pure (hab.setKeyData (hde.finishGasReset timestamp)))

omit [DecidableEq W] in
theorem checkCallPermissions_eq (h : AlikeAt E.keccak account i j s t)
    (type : ContractAccessControlType) (target : Address) (callData : Bytes) :
    checkCallPermissions E.keccak s account type i target callData
      = checkCallPermissions E.keccak t account type j target callData := by
  simp only [checkCallPermissions, h.contract, h.function]

theorem agree_checkUserOpPermissions (userOp : PackedUserOperation) (calls : List Call)
    (h : AlikeAt E.keccak account (s.sessionKeyIdOf E.keccak account key)
      (t.sessionKeyIdOf E.keccak account key) s t) :
    Agree (fun a b : Uint256 × State W S => a.1 = b.1
        ∧ AlikeAt E.keccak account (s.sessionKeyIdOf E.keccak account key)
          (t.sessionKeyIdOf E.keccak account key) a.2 b.2)
      (checkUserOpPermissions E.keccak E.lib s account userOp calls key)
      (checkUserOpPermissions E.keccak E.lib t account userOp calls key) := by
  refine .bind_same (fun spend => ?_)
  simp only [checkCallPermissions_eq h, h.key.accessType, h.key.checkNativeSpend_eq,
    h.key.checkPaymaster_eq, h.key.validAfter, h.key.validUntil]
  refine .bind_same (fun r => (h.key.checkGas E.lib userOp).bind ?_)
  rintro ⟨ok, validAfter, d⟩ ⟨_, _, e⟩ ⟨rfl, rfl, hde⟩
  exact .pure ⟨rfl, h.setKeyData hde⟩

end

/-! ### The operations of a key -/

/-- What can happen to a key, besides that it is added, removed or rotated. -/
inductive KeyOp
  | updateKeyPermissions (updates : List Bytes)
  | userOpValidationFunction (functionId : Uint8) (userOp : PackedUserOperation)
      (userOpHash : Bytes32)
  | executeWithSessionKey (calls : List Call) (callsReturn : Bool)
  | resetSessionKeyGasLimitTimestamp

/-- A validation is of an operation of the key. -/
def KeyOp.About (key : Address) : KeyOp → Prop
  | userOpValidationFunction _ userOp _ =>
    ∀ calls k, decodeExecute userOp.callData = some (calls, k) → k = key
  | _ => True

section

variable [DecidableEq W] (E : Env W S) (account key : Address)

/-- An operation at a time: the result of a validation, and the state. -/
def KeyOp.perform (timestamp : Uint256) (s : State W S) :
    KeyOp → Except Revert (Option Uint256 × State W S)
  | updateKeyPermissions updates =>
    (Session.updateKeyPermissions E timestamp account s key updates).map (fun s' => (none, s'))
  | userOpValidationFunction functionId userOp userOpHash =>
    (Session.userOpValidationFunction E account s functionId userOp userOpHash).map
      (fun r => (some r.1, r.2))
  | executeWithSessionKey calls callsReturn =>
    (Session.executeWithSessionKey E timestamp account s calls key callsReturn).map
      (fun s' => (none, s'))
  | resetSessionKeyGasLimitTimestamp =>
    (Session.resetSessionKeyGasLimitTimestamp E timestamp account s key).map (fun s' => (none, s'))

/-- The outcomes of operations one after another, each with the views after it; one that
reverts changes nothing. -/
def observe : List (Uint256 × KeyOp) → State W S → List (Except Revert (Option Uint256) × KeyView)
  | [], _ => []
  | x :: xs, s =>
    match x.2.perform E account key x.1 s with
    | .ok r => (.ok r.1, keyView E.keccak r.2 account key) :: observe xs r.2
    | .error e => (.error e, keyView E.keccak s account key) :: observe xs s

/-! ### The key in two states -/

/-- The key is registered in both states or in neither, and its permissions are alike. -/
structure Twin (s t : State W S) : Prop where
  contains : E.set.contains (s.sessionKeys account) key = E.set.contains (t.sessionKeys account) key
  loaded : s.sessionKeyIdOf E.keccak account key = 0 ↔ t.sessionKeyIdOf E.keccak account key = 0
  alike : AlikeAt E.keccak account (s.sessionKeyIdOf E.keccak account key)
    (t.sessionKeyIdOf E.keccak account key) s t

variable {E account key} {s t : State W S}

omit [DecidableEq W] in
/-- The id is loaded in both states or in neither. -/
theorem agree_loadSessionKeyId
    (h : s.sessionKeyIdOf E.keccak account key = 0 ↔ t.sessionKeyIdOf E.keccak account key = 0) :
    Agree (fun i j => i = s.sessionKeyIdOf E.keccak account key
        ∧ j = t.sessionKeyIdOf E.keccak account key)
      (loadSessionKeyId E.keccak s account key) (loadSessionKeyId E.keccak t account key) := by
  by_cases hs : s.sessionKeyIdOf E.keccak account key = 0
  · have ht := h.mp hs
    simp only [loadSessionKeyId, hs, ht]
    exact .error _
  · have ht : t.sessionKeyIdOf E.keccak account key ≠ 0 := fun hc => hs (h.mpr hc)
    simp only [loadSessionKeyId, require_of hs, require_of ht]
    exact .ok ⟨rfl, rfl⟩

/-- Outcomes with the same result, in states where the key's permissions are alike. -/
def SameOutcome (E : Env W S) (account : Address) (i j : Bytes32)
    (a b : Option Uint256 × State W S) : Prop :=
  a.1 = b.1 ∧ AlikeAt E.keccak account i j a.2 b.2

theorem agree_perform (h : Twin E account key s t) {op : KeyOp} (hop : op.About key)
    (timestamp : Uint256) :
    Agree (SameOutcome E account (s.sessionKeyIdOf E.keccak account key)
        (t.sessionKeyIdOf E.keccak account key))
      (op.perform E account key timestamp s) (op.perform E account key timestamp t) := by
  cases op with
  | updateKeyPermissions updates =>
    refine .map ((agree_loadSessionKeyId h.loaded).bind ?_) (fun _ _ hab => ⟨rfl, hab⟩)
    rintro _ _ ⟨rfl, rfl⟩
    exact agree_performUpdates timestamp h.alike updates
  | userOpValidationFunction functionId userOp userOpHash =>
    have hvalidation : Agree (fun a b : Uint256 × State W S => a.1 = b.1
        ∧ AlikeAt E.keccak account (s.sessionKeyIdOf E.keccak account key)
          (t.sessionKeyIdOf E.keccak account key) a.2 b.2)
        (Session.userOpValidationFunction E account s functionId userOp userOpHash)
        (Session.userOpValidationFunction E account t functionId userOp userOpHash) := by
      rw [Session.userOpValidationFunction, Session.userOpValidationFunction]
      split_ifs
      · cases hdecode : decodeExecute userOp.callData with
        | none => exact .error _
        | some r =>
          obtain ⟨calls, k⟩ := r
          obtain rfl := hop calls k hdecode
          have hcalls : orRevert (some (calls, k)) Revert.badArguments = .ok (calls, k) := rfl
          simp only [hcalls, ok_bind, h.contains]
          refine .bind_same (fun signer => .bind_same (fun _ => ?_))
          refine (agree_checkUserOpPermissions userOp _ h.alike).bind ?_
          rintro ⟨v, a⟩ ⟨_, b⟩ ⟨rfl, hab⟩
          exact .bind_same (fun _ => .pure ⟨rfl, hab⟩)
      · exact .error _
    exact .map hvalidation (fun _ _ hab => ⟨congrArg some hab.1, hab.2⟩)
  | executeWithSessionKey calls callsReturn =>
    refine .map ((agree_updateLimitsPreExec timestamp calls h.alike).bind ?_)
      (fun _ _ hab => ⟨rfl, hab⟩)
    exact fun a b hab => .bind_same (fun _ => .pure hab)
  | resetSessionKeyGasLimitTimestamp =>
    refine .map ((agree_loadSessionKeyId h.loaded).bind ?_) (fun _ _ hab => ⟨rfl, hab⟩)
    rintro _ _ ⟨rfl, rfl⟩
    exact .pure (h.alike.setKeyData (h.alike.key.finishGasReset timestamp))

/-- Nothing is written but permissions of the key. -/
theorem keyWrite_of_perform {op : KeyOp} (hop : op.About key) {timestamp : Uint256}
    {r : Option Uint256 × State W S} (h : op.perform E account key timestamp s = .ok r) :
    KeyWrite E.keccak account (s.sessionKeyIdOf E.keccak account key) s r.2 := by
  cases op with
  | updateKeyPermissions updates =>
    obtain ⟨s', hs', rfl⟩ := map_eq_ok.mp h
    exact (updateKeyPermissions_eq_ok hs').2.1
  | userOpValidationFunction functionId userOp userOpHash =>
    obtain ⟨⟨v, s'⟩, hs', rfl⟩ := map_eq_ok.mp h
    obtain ⟨calls, k, hdecode, -, hwrite, -⟩ := userOpValidationFunction_eq_ok hs'
    obtain rfl := hop calls k hdecode
    exact hwrite
  | executeWithSessionKey calls callsReturn =>
    obtain ⟨s', hs', rfl⟩ := map_eq_ok.mp h
    exact updateLimitsPreExec_keyWrite (executeWithSessionKey_eq_ok.mp hs').1
  | resetSessionKeyGasLimitTimestamp =>
    obtain ⟨s', hs', rfl⟩ := map_eq_ok.mp h
    exact (resetSessionKeyGasLimitTimestamp_eq_ok hs').2

omit [DecidableEq W] in
theorem Twin.of_keyWrite {s' t' : State W S} (h : Twin E account key s t)
    (hs : KeyWrite E.keccak account (s.sessionKeyIdOf E.keccak account key) s s')
    (ht : KeyWrite E.keccak account (t.sessionKeyIdOf E.keccak account key) t t')
    (halike : AlikeAt E.keccak account (s.sessionKeyIdOf E.keccak account key)
      (t.sessionKeyIdOf E.keccak account key) s' t') : Twin E account key s' t' where
  contains := by rw [hs.sessionKeys, ht.sessionKeys, h.contains]
  loaded := by rw [hs.keyId, ht.keyId, h.loaded]
  alike := by rwa [hs.keyId, ht.keyId]

/-- **An operation of the key keeps the two states alike**, with the same result. -/
theorem twin_perform (h : Twin E account key s t) {op : KeyOp} (hop : op.About key)
    (timestamp : Uint256) :
    Agree (fun a b : Option Uint256 × State W S => a.1 = b.1 ∧ Twin E account key a.2 b.2)
      (op.perform E account key timestamp s) (op.perform E account key timestamp t) := by
  have hboth := ((agree_perform h hop timestamp).and_left
    (fun _ ha => keyWrite_of_perform hop ha)).and_right (fun _ hb => keyWrite_of_perform hop hb)
  exact hboth.mono (fun a b hab => ⟨hab.1.1.1, h.of_keyWrite hab.1.2 hab.2 hab.1.1.2⟩)

/-! ### The views of the two states -/

omit [DecidableEq W] in
theorem view_congr {α : Type} {f g : Bytes32 → α}
    (h : s.sessionKeyIdOf E.keccak account key = 0 ↔ t.sessionKeyIdOf E.keccak account key = 0)
    (hfg : f (s.sessionKeyIdOf E.keccak account key)
      = g (t.sessionKeyIdOf E.keccak account key)) :
    (loadSessionKeyId E.keccak s account key >>= fun i => Pure.pure (f i))
      = (loadSessionKeyId E.keccak t account key >>= fun j => Pure.pure (g j)) := by
  have hagree : Agree (· = ·)
      (loadSessionKeyId E.keccak s account key >>= fun i => Pure.pure (f i))
      (loadSessionKeyId E.keccak t account key >>= fun j => Pure.pure (g j)) := by
    refine (agree_loadSessionKeyId h).bind ?_
    rintro _ _ ⟨rfl, rfl⟩
    exact .pure hfg
  exact hagree.eq

omit [DecidableEq W] in
theorem keyView_of_twin (h : Twin E account key s t) :
    keyView E.keccak s account key = keyView E.keccak t account key := by
  obtain ⟨hnative, hpaymaster, hgas⟩ := h.alike.key.infos
  simp only [keyView, KeyView.mk.injEq]
  refine ⟨view_congr h.loaded h.alike.key.accessType, ?_, ?_, ?_, view_congr h.loaded hnative, ?_,
    view_congr h.loaded hpaymaster, ?_⟩
  · funext c
    exact view_congr h.loaded (by rw [h.alike.contract c])
  · funext c selector
    exact view_congr h.loaded (by rw [h.alike.function c selector])
  · exact view_congr h.loaded (by rw [h.alike.key.validAfter, h.alike.key.validUntil])
  · funext token
    exact view_congr h.loaded (by rw [h.alike.contract token])
  · exact view_congr h.loaded (by rw [hgas, h.alike.key.resets])

omit [DecidableEq W] in
/-- What a view says of a registered key. -/
theorem view_eq {α : Type} {f : Bytes32 → α} {r : State W S}
    (h : r.sessionKeyIdOf E.keccak account key ≠ 0) :
    (loadSessionKeyId E.keccak r account key >>= fun i => Pure.pure (f i))
      = .ok (f (r.sessionKeyIdOf E.keccak account key)) := by
  rw [loadSessionKeyId, require_of h]
  rfl

omit [DecidableEq W] in
theorem loaded_of_keyView
    (h : keyView E.keccak s account key = keyView E.keccak t account key)
    (hs : s.sessionKeyIdOf E.keccak account key ≠ 0) :
    t.sessionKeyIdOf E.keccak account key ≠ 0 := by
  intro ht
  have htype : getAccessControlType E.keccak s account key
      = getAccessControlType E.keccak t account key := congrArg KeyView.accessControlType h
  rw [getAccessControlType, view_eq hs, getAccessControlType, loadSessionKeyId, ht] at htype
  cases htype

omit [DecidableEq W] in
/-- **Views that are the same come from permissions that are alike.** -/
theorem alike_of_keyView
    (h : keyView E.keccak s account key = keyView E.keccak t account key)
    (hs : s.sessionKeyIdOf E.keccak account key ≠ 0)
    (hsc : ∀ i, (s.sessionKeyDataOf E.keccak account i).Cleared)
    (htc : ∀ i, (t.sessionKeyDataOf E.keccak account i).Cleared) :
    AlikeAt E.keccak account (s.sessionKeyIdOf E.keccak account key)
      (t.sessionKeyIdOf E.keccak account key) s t := by
  have ht := loaded_of_keyView h hs
  have hview : ∀ {α : Type} {f g : Bytes32 → α},
      (loadSessionKeyId E.keccak s account key >>= fun i => Pure.pure (f i))
        = (loadSessionKeyId E.keccak t account key >>= fun j => Pure.pure (g j)) →
      f (s.sessionKeyIdOf E.keccak account key) = g (t.sessionKeyIdOf E.keccak account key) := by
    intro α f g hfg
    rw [view_eq hs, view_eq ht] at hfg
    exact Except.ok.inj hfg
  have htype := hview (congrArg KeyView.accessControlType h)
  have hrange := hview (congrArg KeyView.keyTimeRange h)
  have hgas := hview (congrArg KeyView.gasSpendLimit h)
  have hnative := hview (congrArg KeyView.nativeTokenSpendLimit h)
  have hpaymaster := hview (congrArg KeyView.requiredPaymaster h)
  refine ⟨alike_of_infos (hsc _) (htc _) htype (congrArg Prod.fst hrange)
    (congrArg Prod.snd hrange) hnative hpaymaster (congrArg Prod.fst hgas)
    (congrArg Prod.snd hgas), ?_, ?_⟩
  · funext c
    have hentry := hview (congrFun (congrArg KeyView.accessControlEntry h) c)
    have hlimit := hview (congrFun (congrArg KeyView.erc20SpendLimit h) c)
    obtain ⟨hflag, hbudget⟩ := SpendLimitInfo.of_injective hlimit
    exact contractData_ext (congrArg Prod.fst hentry) (congrArg Prod.snd hentry) hflag hbudget
  · funext c selector
    have hfunction := hview (congrFun (congrFun (congrArg KeyView.selectorOnList h) c) selector)
    exact congrArg FunctionData.mk hfunction

omit [DecidableEq W] in
/-- A key that no view knows has nothing, and is in no set. -/
theorem twin_of_unregistered (hsr : Registry E account s) (htr : Registry E account t)
    (hs : s.sessionKeyIdOf E.keccak account key = 0)
    (ht : t.sessionKeyIdOf E.keccak account key = 0) : Twin E account key s t where
  contains := by
    have hsm : ¬ E.set.contains (s.sessionKeys account) key = true :=
      fun hc => (hsr.registered key).mp hc hs
    have htm : ¬ E.set.contains (t.sessionKeys account) key = true :=
      fun hc => (htr.registered key).mp hc ht
    rw [Bool.not_eq_true] at hsm htm
    rw [hsm, htm]
  loaded := ⟨fun _ => ht, fun _ => hs⟩
  alike := by
    rw [AlikeAt, hs, ht, hsr.unused 0 (.inr rfl), htr.unused 0 (.inr rfl)]
    exact ⟨.refl _, rfl, rfl⟩

omit [DecidableEq W] in
theorem twin_of_keyView (hsr : Registry E account s) (htr : Registry E account t)
    (hsc : ∀ i, (s.sessionKeyDataOf E.keccak account i).Cleared)
    (htc : ∀ i, (t.sessionKeyDataOf E.keccak account i).Cleared)
    (h : keyView E.keccak s account key = keyView E.keccak t account key) :
    Twin E account key s t := by
  by_cases hs : s.sessionKeyIdOf E.keccak account key = 0
  · by_cases ht : t.sessionKeyIdOf E.keccak account key = 0
    · exact twin_of_unregistered hsr htr hs ht
    · exact absurd hs (loaded_of_keyView h.symm ht)
  · have ht := loaded_of_keyView h hs
    refine ⟨?_, iff_of_false hs ht, alike_of_keyView h hs hsc htc⟩
    rw [(hsr.registered key).mpr hs, (htr.registered key).mpr ht]

/-! ### Every future of the key -/

theorem observe_of_twin (h : Twin E account key s t) {ops : List (Uint256 × KeyOp)}
    (hops : ∀ x ∈ ops, x.2.About key) :
    observe E account key ops s = observe E account key ops t := by
  induction ops generalizing s t with
  | nil => rfl
  | cons x ops ih =>
    obtain ⟨hx, hops⟩ := List.forall_mem_cons.mp hops
    have hstep := twin_perform h hx x.1
    simp only [observe]
    cases hs : x.2.perform E account key x.1 s with
    | error e =>
      rw [hs] at hstep
      obtain ht := hstep.eq_error
      rw [ht, keyView_of_twin h, ih h hops]
    | ok r =>
      rw [hs] at hstep
      obtain ⟨r', ht, hresult, htwin⟩ := hstep.exists_ok
      rw [ht]
      simp only [hresult, keyView_of_twin htwin, ih htwin hops]

/-- **The views of a key determine everything that it will do**: in two states that the
plugin can reach, if they say the same about a key, then the same operations of the key, at
the same times, have the same outcomes, and the views stay the same. -/
theorem loupe_complete {hist hist' : List (Evm.Call (State W S) Tx)}
    (hs : Run (step E) (State.initial E.set) hist s)
    (ht : Run (step E) (State.initial E.set) hist' t)
    (hview : keyView E.keccak s account key = keyView E.keccak t account key)
    {ops : List (Uint256 × KeyOp)} (hops : ∀ x ∈ ops, x.2.About key) :
    observe E account key ops s = observe E account key ops t :=
  observe_of_twin (twin_of_keyView (registry_of_run hs account) (registry_of_run ht account)
    (cleared_of_run hs account) (cleared_of_run ht account) hview) hops

end

/-! ### A limit that was lifted -/

def capNative : Bytes := encodeCall selSetNativeTokenSpendLimit [100, 0]

def bypassNative : Bytes := encodeCall selSetNativeTokenSpendLimit [2 ^ 256 - 1, 0]

/-- A key whose native token limit is bypassed, with an amount left over from before. -/
def bypassedKey (limitAmount : Uint256) : SessionKeyData :=
  { SessionKeyData.default with
    nativeTokenSpendLimitBypassed := true
    nativeTokenSpendLimit := ⟨limitAmount, 0⟩ }

theorem decode_capNative : decodeUpdate capNative = .ok (.setNativeTokenSpendLimit 100 0) := by
  decide +kernel

theorem decode_bypassNative :
    decodeUpdate bypassNative
      = .ok (.setNativeTokenSpendLimit (BitVec.allOnes 256) 0) := by
  decide +kernel

theorem updateAll_lifted :
    Permissions.default.updateAll 1000 [capNative, bypassNative]
      = .ok (Permissions.default.mapKey (fun _ => bypassedKey 100)) := by
  simp only [Permissions.updateAll, List.foldlM_cons, Permissions.update, decode_capNative,
    decode_bypassNative, ok_bind]
  rfl

theorem updateAll_bypassed :
    Permissions.default.updateAll 1000 [bypassNative]
      = .ok (Permissions.default.mapKey (fun _ => bypassedKey 0)) := by
  simp only [Permissions.updateAll, List.foldlM_cons, Permissions.update, decode_bypassNative,
    ok_bind]
  rfl

theorem alike_bypassedKey (x y : Uint256) : (bypassedKey x).Alike (bypassedKey y) where
  accessType := rfl
  validAfter := rfl
  validUntil := rfl
  hasPaymaster := rfl
  paymaster _ := rfl
  bypassed := rfl
  native hc := by cases hc
  nativeUsed := rfl
  hasGasLimit := rfl
  gas _ := rfl
  gasUsed := rfl
  resets := rfl

/-- The agent's key, added with updates that leave it bypassed. -/
theorem exists_added {updates : List Bytes} {d : SessionKeyData}
    (hupdates : Permissions.default.updateAll 1000 updates
      = .ok (Permissions.default.mapKey (fun _ => d)))
    (hadd : (step agentEnv (State.initial agentEnv.set)
      (walletTx (.addSessionKey agent 0 updates))).isSome = true) :
    ∃ s, step agentEnv (State.initial agentEnv.set) (walletTx (.addSessionKey agent 0 updates))
        = some s
      ∧ s.sessionKeyIdOf agentEnv.keccak wallet agent = 1
      ∧ agentEnv.set.contains (s.sessionKeys wallet) agent = true
      ∧ s.permissionsOf agentEnv.keccak wallet 1 = Permissions.default.mapKey (fun _ => d) := by
  obtain ⟨s, hs⟩ := Option.isSome_iff_exists.mp hadd
  have hexec : addSessionKey agentEnv 1000 wallet (State.initial agentEnv.set) agent 0 updates
      = .ok s := toOption_eq_some.mp hs
  have hadded := addSessionKey_eq_ok hexec
  refine ⟨s, hs, (hadded.keyId agent).trans (if_pos rfl),
    (hadded.contains agent).mpr (.inl rfl), ?_⟩
  exact Except.ok.inj (hadded.updated.symm.trans hupdates)

/-- A lifted limit is not shown and does not matter: the key behaves as one that never had
it, here when it gets a new limit and pays. -/
theorem loupe_complete_lifted :
    ∃ s t, step agentEnv (State.initial agentEnv.set)
        (walletTx (.addSessionKey agent 0 [capNative, bypassNative])) = some s
      ∧ step agentEnv (State.initial agentEnv.set)
        (walletTx (.addSessionKey agent 0 [bypassNative])) = some t
      ∧ s.sessionKeyDataOf agentEnv.keccak wallet 1 ≠ t.sessionKeyDataOf agentEnv.keccak wallet 1
      ∧ observe agentEnv wallet agent [(2000, .updateKeyPermissions [capNative]),
          (3000, .executeWithSessionKey [⟨token, 7, []⟩] true)] s
        = observe agentEnv wallet agent [(2000, .updateKeyPermissions [capNative]),
          (3000, .executeWithSessionKey [⟨token, 7, []⟩] true)] t := by
  obtain ⟨s, hs, hsid, hsmem, hsp⟩ := exists_added updateAll_lifted (by decide +kernel)
  obtain ⟨t, ht, htid, htmem, htp⟩ := exists_added updateAll_bypassed (by decide +kernel)
  have htwin : Twin agentEnv wallet agent s t := by
    refine ⟨hsmem.trans htmem.symm, ?_, ?_⟩
    · rw [hsid, htid]
    · rw [hsid, htid, AlikeAt, hsp, htp]
      exact ⟨alike_bypassedKey 100 0, rfl, rfl⟩
  refine ⟨s, t, hs, ht, ?_, ?_⟩
  · intro hc
    have hkey : bypassedKey 100 = bypassedKey 0 :=
      ((congrArg Permissions.key hsp).symm.trans hc).trans (congrArg Permissions.key htp)
    exact absurd hkey (by decide)
  · refine loupe_complete (Run.nil.snoc hs) (Run.nil.snoc ht) (keyView_of_twin htwin) ?_
    intro x hx
    simp only [List.mem_cons, List.not_mem_nil, or_false] at hx
    rcases hx with rfl | rfl
    · exact trivial
    · exact trivial

end Bufi.Session
