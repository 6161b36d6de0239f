import Bufi.Session.Effects

/-!
# Calls that move keys

`KeyAdded`, `KeyRemoved`, `KeyRotated` and `Uninstalled` say what becomes of the
set of keys of an account, of its counter, of the ids and of the permissions.

`Effect` lists what a call can do to the account it is about, and
`effect_of_exec` is the one place where the calls are told apart: the invariants
of the next modules go through the list.
-/

namespace Bufi.Session

open Bufi.Evm

variable {W S : Type} [DecidableEq W] {E : Env W S} {timestamp : Uint256} {account : Address}
  {s s' : State W S}

/-! ### Adding a key -/

theorem nextKeyId_eq_some {counter id : Uint256} :
    nextKeyId counter = some id ↔ counter.toNat + 1 < 2 ^ 256 ∧ counter + 1 = id := by
  rw [nextKeyId, Option.ite_none_right_eq_some, Option.some.injEq]

/-- A key was added under the next id. -/
structure KeyAdded (E : Env W S) (timestamp : Uint256) (account sessionKey : Address)
    (updates : List Bytes) (s s' : State W S) : Prop where
  fresh : E.set.contains (s.sessionKeys account) sessionKey = false
  counter_lt : (s.keyIdCounter account).toNat + 1 < 2 ^ 256
  keyIdCounter : s'.keyIdCounter account = s.keyIdCounter account + 1
  contains : ∀ k, E.set.contains (s'.sessionKeys account) k = true ↔
    k = sessionKey ∨ E.set.contains (s.sessionKeys account) k = true
  keyId : ∀ k, s'.sessionKeyIdOf E.keccak account k =
    if k = sessionKey then s.keyIdCounter account + 1 else s.sessionKeyIdOf E.keccak account k
  permissions : ∀ i, i ≠ s.keyIdCounter account + 1 →
    s'.permissionsOf E.keccak account i = s.permissionsOf E.keccak account i
  updated : (s.permissionsOf E.keccak account (s.keyIdCounter account + 1)).updateAll timestamp
    updates = .ok (s'.permissionsOf E.keccak account (s.keyIdCounter account + 1))
  others : ∀ a, a ≠ account → SameAccount E.keccak a s s'

/-- The key in the set and its id, before any update. -/
def State.register (E : Env W S) (s : State W S) (account sessionKey : Address) (keys : S)
    (id : Bytes32) : State W S :=
  State.updateSessionKeyId E.keccak
    { s with
      sessionKeys := Function.update s.sessionKeys account keys
      keyIdCounter := Function.update s.keyIdCounter account id } account sessionKey id

theorem keyIdOf_register (sessionKey : Address) (keys : S) (id : Bytes32) (a k : Address) :
    (s.register E account sessionKey keys id).sessionKeyIdOf E.keccak a k =
      if a = account ∧ k = sessionKey then id else s.sessionKeyIdOf E.keccak a k :=
  State.sessionKeyIdOf_update _ _ _ _ _ _ _

theorem keyAdded_register {sessionKey : Address} {keys : S}
    (hkeys : E.set.tryAdd (s.sessionKeys account) sessionKey = some keys)
    (hlt : (s.keyIdCounter account).toNat + 1 < 2 ^ 256) {updates : List Bytes}
    (hwrite : KeyWrite E.keccak account (s.keyIdCounter account + 1)
      (s.register E account sessionKey keys (s.keyIdCounter account + 1)) s')
    (hupdated : (s.permissionsOf E.keccak account (s.keyIdCounter account + 1)).updateAll timestamp
      updates = .ok (s'.permissionsOf E.keccak account (s.keyIdCounter account + 1))) :
    KeyAdded E timestamp account sessionKey updates s s' where
  fresh := (E.set.of_tryAdd hkeys).2
  counter_lt := hlt
  keyIdCounter := by
    rw [hwrite.keyIdCounter]
    exact Function.update_self _ _ _
  contains k := by
    have hset : s'.sessionKeys account = keys := by
      rw [hwrite.sessionKeys]
      exact Function.update_self _ _ _
    rw [hset]
    exact E.set.contains_tryAdd hkeys k
  keyId k := by
    rw [hwrite.keyId, keyIdOf_register]
    simp only [true_and]
  permissions i hi := hwrite.permissions account i (fun h => hi h.2)
  updated := hupdated
  others a ha := by
    refine SameAccount.trans ?_ (hwrite.sameAccount ha)
    refine ⟨Function.update_of_ne ha _ _, Function.update_of_ne ha _ _, ?_, fun _ => rfl⟩
    intro k
    rw [keyIdOf_register, if_neg (fun h => ha h.1)]

theorem addSessionKey_eq_ok {sessionKey : Address} {tag : Bytes32} {updates : List Bytes}
    (h : addSessionKey E timestamp account s sessionKey tag updates = .ok s') :
    KeyAdded E timestamp account sessionKey updates s s' := by
  rw [addSessionKey] at h
  simp only [bind_eq_ok, orRevert_eq_ok, nextKeyId_eq_some] at h
  obtain ⟨keys, hkeys, id, ⟨hlt, rfl⟩, h⟩ := h
  change (if 0 < updates.length then updateKeyPermissions E timestamp account
    (s.register E account sessionKey keys (s.keyIdCounter account + 1)) sessionKey updates
    else pure (s.register E account sessionKey keys (s.keyIdCounter account + 1))) = .ok s' at h
  split at h
  · have hid : (s.register E account sessionKey keys
        (s.keyIdCounter account + 1)).sessionKeyIdOf E.keccak account sessionKey =
        s.keyIdCounter account + 1 := by
      rw [keyIdOf_register, if_pos ⟨rfl, rfl⟩]
    have hupdate := updateKeyPermissions_eq_ok h
    rw [hid] at hupdate
    exact keyAdded_register hkeys hlt hupdate.2.1 hupdate.2.2
  · obtain rfl := pure_eq_ok.mp h
    have hnil : updates = [] := List.length_eq_zero_iff.mp (by omega)
    subst hnil
    exact keyAdded_register hkeys hlt (.refl _ _ _ _) rfl

/-! ### Removing and rotating a key -/

/-- A key and its id are gone. -/
structure KeyRemoved (E : Env W S) (account sessionKey : Address) (s s' : State W S) : Prop where
  registered : E.set.contains (s.sessionKeys account) sessionKey = true
  keyIdCounter : s'.keyIdCounter = s.keyIdCounter
  contains : ∀ k, E.set.contains (s'.sessionKeys account) k = true ↔
    k ≠ sessionKey ∧ E.set.contains (s.sessionKeys account) k = true
  keyId : ∀ k, s'.sessionKeyIdOf E.keccak account k =
    if k = sessionKey then 0 else s.sessionKeyIdOf E.keccak account k
  permissions : ∀ i, s'.permissionsOf E.keccak account i = s.permissionsOf E.keccak account i
  others : ∀ a, a ≠ account → SameAccount E.keccak a s s'

theorem removeSessionKey_eq_ok {sessionKey : Address} {predecessor : Bytes32}
    (h : removeSessionKey E account s sessionKey predecessor = .ok s') :
    KeyRemoved E account sessionKey s s' := by
  simp only [removeSessionKey, bind_eq_ok, orRevert_eq_ok, pure_eq_ok] at h
  obtain ⟨keys, hkeys, rfl⟩ := h
  refine ⟨E.set.contains_of_tryRemoveKnown hkeys, rfl, fun k => ?_, fun k => ?_, fun _ => rfl,
    fun a ha => ⟨Function.update_of_ne ha _ _, rfl, fun k => ?_, fun _ => rfl⟩⟩
  · rw [← E.set.contains_tryRemoveKnown hkeys k]
    simp [State.updateSessionKeyId]
  · rw [State.sessionKeyIdOf_update]
    simp only [true_and]
    rfl
  · rw [State.sessionKeyIdOf_update, if_neg (fun h => ha h.1)]
    rfl

/-- The id of the old key went to the new one. -/
structure KeyRotated (E : Env W S) (account oldKey newKey : Address) (s s' : State W S) :
    Prop where
  registered : E.set.contains (s.sessionKeys account) oldKey = true
  fresh : newKey = oldKey ∨ E.set.contains (s.sessionKeys account) newKey = false
  keyIdCounter : s'.keyIdCounter = s.keyIdCounter
  contains : ∀ k, E.set.contains (s'.sessionKeys account) k = true ↔
    k = newKey ∨ (k ≠ oldKey ∧ E.set.contains (s.sessionKeys account) k = true)
  keyId : ∀ k, s'.sessionKeyIdOf E.keccak account k =
    if k = newKey then s.sessionKeyIdOf E.keccak account oldKey
    else if k = oldKey then 0 else s.sessionKeyIdOf E.keccak account k
  permissions : ∀ i, s'.permissionsOf E.keccak account i = s.permissionsOf E.keccak account i
  others : ∀ a, a ≠ account → SameAccount E.keccak a s s'

theorem rotateSessionKey_eq_ok {oldKey newKey : Address} {predecessor : Bytes32}
    (h : rotateSessionKey E account s oldKey predecessor newKey = .ok s') :
    KeyRotated E account oldKey newKey s s' := by
  simp only [rotateSessionKey, bind_eq_ok, orRevert_eq_ok, pure_eq_ok] at h
  obtain ⟨rest, hrest, keys, hkeys, rfl⟩ := h
  have hfresh : newKey = oldKey ∨ E.set.contains (s.sessionKeys account) newKey = false := by
    have hnew := (E.set.of_tryAdd hkeys).2
    by_cases heq : newKey = oldKey
    · exact .inl heq
    · refine .inr (Bool.eq_false_iff.mpr ?_)
      intro hmem
      rw [(E.set.contains_tryRemoveKnown hrest newKey).mpr ⟨heq, hmem⟩] at hnew
      exact Bool.true_eq_false_eq_False hnew
  refine ⟨E.set.contains_of_tryRemoveKnown hrest, hfresh, rfl, fun k => ?_, fun k => ?_,
    fun _ => rfl, fun a ha => ⟨Function.update_of_ne ha _ _, rfl, fun k => ?_, fun _ => rfl⟩⟩
  · rw [← E.set.contains_tryRemoveKnown hrest k, ← E.set.contains_tryAdd hkeys k]
    simp [State.updateSessionKeyId]
  · rw [State.sessionKeyIdOf_update, State.sessionKeyIdOf_update]
    simp only [true_and]
    rfl
  · rw [State.sessionKeyIdOf_update, if_neg (fun h => ha h.1), State.sessionKeyIdOf_update,
      if_neg (fun h => ha h.1)]
    rfl

/-! ### Installing and uninstalling -/

/-- The loop that unsets the ids of the keys of an account. -/
theorem unsetKeyIds (E : Env W S) (account : Address) (keys : List Address) (s : State W S) :
    let t := keys.foldl (fun s k => s.updateSessionKeyId E.keccak account k 0) s
    t.sessionKeys = s.sessionKeys ∧ t.keyIdCounter = s.keyIdCounter ∧
      (∀ a i, t.permissionsOf E.keccak a i = s.permissionsOf E.keccak a i) ∧
      ∀ a k, t.sessionKeyIdOf E.keccak a k =
        if a = account ∧ k ∈ keys then 0 else s.sessionKeyIdOf E.keccak a k := by
  induction keys generalizing s with
  | nil => exact ⟨rfl, rfl, fun _ _ => rfl, fun a k => (if_neg (fun h => by simp at h)).symm⟩
  | cons x keys ih =>
    obtain ⟨hset, hcounter, hperm, hid⟩ := ih (s.updateSessionKeyId E.keccak account x 0)
    refine ⟨hset, hcounter, hperm, ?_⟩
    intro a k
    rw [List.foldl_cons, hid, State.sessionKeyIdOf_update]
    by_cases ha : a = account
    · by_cases hk : k ∈ keys
      · rw [if_pos ⟨ha, hk⟩, if_pos ⟨ha, List.mem_cons_of_mem _ hk⟩]
      · by_cases hx : k = x
        · rw [if_neg (fun h => hk h.2), if_pos ⟨ha, hx⟩, if_pos ⟨ha, List.mem_cons.mpr (.inl hx)⟩]
        · rw [if_neg (fun h => hk h.2), if_neg (fun h => hx h.2),
            if_neg (fun h => (List.mem_cons.mp h.2).elim hx hk)]
    · rw [if_neg (fun h => ha h.1), if_neg (fun h => ha h.1), if_neg (fun h => ha h.1)]

/-- All keys of an account and their ids are gone. -/
structure Uninstalled (E : Env W S) (account : Address) (s s' : State W S) : Prop where
  keyIdCounter : s'.keyIdCounter = s.keyIdCounter
  contains : ∀ k, E.set.contains (s'.sessionKeys account) k = false
  keyId : ∀ k, s'.sessionKeyIdOf E.keccak account k =
    if E.set.contains (s.sessionKeys account) k = true then 0
    else s.sessionKeyIdOf E.keccak account k
  permissions : ∀ i, s'.permissionsOf E.keccak account i = s.permissionsOf E.keccak account i
  others : ∀ a, a ≠ account → SameAccount E.keccak a s s'

theorem uninstalled_onUninstall (E : Env W S) (account : Address) (s : State W S) :
    Uninstalled E account s (onUninstall E account s) := by
  obtain ⟨hset, hcounter, hperm, hid⟩ :=
    unsetKeyIds E account (E.set.getAll (s.sessionKeys account)) s
  refine ⟨hcounter, fun k => ?_, fun k => ?_, fun i => hperm account i,
    fun a ha => ⟨?_, congrFun hcounter a, fun k => ?_, fun i => hperm a i⟩⟩
  · simp only [onUninstall, Function.update_self]
    exact E.set.contains_clear _ _
  · refine (hid account k).trans ?_
    simp only [true_and, E.set.mem_getAll]
  · simp only [onUninstall, Function.update_of_ne ha]
    exact congrFun hset a
  · exact (hid a k).trans (if_neg (fun h => ha h.1))

/-- The keys of an installation are added one after another. -/
theorem onInstall_eq_ok {data : Bytes} (h : onInstall E timestamp account s data = .ok s') :
    ∃ keys tags updates, decodeInstall data = some (keys, tags, updates) ∧
      keys.length = tags.length ∧ keys.length = updates.length ∧
      (keys.zip (tags.zip updates)).foldlM (addEntry E timestamp account) s = .ok s' := by
  simp only [onInstall, bind_eq_ok, orRevert_eq_ok, require_eq_ok, exists_const, Prod.exists,
    not_or, not_not] at h
  obtain ⟨-, keys, tags, updates, hdecode, hlen, h⟩ := h
  exact ⟨keys, tags, updates, hdecode, hlen.1, hlen.2, h⟩

/-! ### The effect of a call -/

theorem addEntry_eq_ok {entry : Address × Bytes32 × List Bytes}
    (h : addEntry E timestamp account s entry = .ok s') :
    KeyAdded E timestamp account entry.1 entry.2.2 s s' :=
  addSessionKey_eq_ok h

/-- What a call can do to the account it is about.  A write is under the id of
some key; the key may have none, and then the default permissions under zero
stay as they are. -/
inductive Effect (E : Env W S) (account : Address) (s s' : State W S) : Prop
  | added {timestamp : Uint256} {key : Address} {updates : List Bytes} :
      KeyAdded E timestamp account key updates s s' → Effect E account s s'
  | installed {timestamp : Uint256} {entries : List (Address × Bytes32 × List Bytes)} :
      entries.foldlM (addEntry E timestamp account) s = .ok s' → Effect E account s s'
  | removed {key : Address} : KeyRemoved E account key s s' → Effect E account s s'
  | rotated {oldKey newKey : Address} :
      KeyRotated E account oldKey newKey s s' → Effect E account s s'
  | uninstalled : Uninstalled E account s s' → Effect E account s s'
  | written {key : Address} :
      KeyWrite E.keccak account (s.sessionKeyIdOf E.keccak account key) s s' →
      (s.sessionKeyIdOf E.keccak account key = 0 →
        s.permissionsOf E.keccak account 0 = .default →
        s'.permissionsOf E.keccak account 0 = .default) → Effect E account s s'

theorem Effect.of_keepsDefault {key : Address}
    (hwrite : KeyWrite E.keccak account (s.sessionKeyIdOf E.keccak account key) s s')
    (hdefault : s.permissionsOf E.keccak account (s.sessionKeyIdOf E.keccak account key) =
        .default →
      s'.permissionsOf E.keccak account (s.sessionKeyIdOf E.keccak account key) = .default) :
    Effect E account s s' := by
  refine .written hwrite ?_
  intro hz
  rwa [hz] at hdefault

/-- **Every call has one of these effects.** -/
theorem effect_of_exec {tx : Tx} (h : exec E s tx = .ok s') : Effect E tx.account s s' := by
  obtain ⟨sender, timestamp, action⟩ := tx
  cases action with
  | onInstall data =>
    obtain ⟨keys, tags, updates, -, -, -, hadds⟩ := onInstall_eq_ok h
    exact .installed hadds
  | onUninstall =>
    obtain rfl := pure_eq_ok.mp h
    exact .uninstalled (uninstalled_onUninstall E sender s)
  | addSessionKey key tag updates =>
    change addSessionKey E timestamp sender s key tag updates = .ok s' at h
    exact .added (addSessionKey_eq_ok h)
  | removeSessionKey key predecessor => exact .removed (removeSessionKey_eq_ok h)
  | rotateSessionKey oldKey predecessor newKey => exact .rotated (rotateSessionKey_eq_ok h)
  | updateKeyPermissions key updates =>
    obtain ⟨hne, hwrite, -⟩ := updateKeyPermissions_eq_ok h
    exact .written hwrite (fun hz => absurd hz hne)
  | userOpValidationFunction functionId userOp userOpHash =>
    obtain ⟨⟨v, t⟩, hv, rfl⟩ := map_eq_ok.mp h
    obtain ⟨-, key, -, -, hwrite, hdefault⟩ := userOpValidationFunction_eq_ok hv
    exact .of_keepsDefault hwrite hdefault
  | executeWithSessionKey calls key callsReturn =>
    have hpre := (executeWithSessionKey_eq_ok.mp h).1
    exact .of_keepsDefault (updateLimitsPreExec_keyWrite hpre) (updateLimitsPreExec_default hpre)
  | resetSessionKeyGasLimitTimestamp account key =>
    obtain ⟨hne, hwrite⟩ := resetSessionKeyGasLimitTimestamp_eq_ok h
    exact .written hwrite (fun hz => absurd hz hne)

/-- A call leaves every account alone but the one it is about. -/
theorem sameAccount_of_exec {tx : Tx} (h : exec E s tx = .ok s') {a : Address}
    (ha : a ≠ tx.account) : SameAccount E.keccak a s s' := by
  cases effect_of_exec h with
  | added hadd => exact hadd.others a ha
  | installed hadds =>
    refine foldlM_invariant (P := fun t => SameAccount E.keccak a s t) hadds (.refl _ _ _) ?_
    intro t entry t' ht hentry
    exact ht.trans ((addEntry_eq_ok hentry).others a ha)
  | removed hremove => exact hremove.others a ha
  | rotated hrotate => exact hrotate.others a ha
  | uninstalled huninstall => exact huninstall.others a ha
  | written hwrite _ => exact hwrite.sameAccount ha

end Bufi.Session
