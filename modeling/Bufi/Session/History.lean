import Bufi.Session.Identity

/-!
# Session keys over whole histories

The ids are what makes permissions safe.  `Retired id` says that an id was
handed out and no key has it; no call undoes that, because a new key gets a
new id and a rotation moves one that is in use.  A new key starts under an id
that nothing was stored under, so it has the default permissions and its own
updates, whatever its address had before.

A rotation of a key into itself succeeds and changes nothing, so the old key
is left without an id exactly if the new one is another.
-/

namespace Bufi.Session

open Bufi.Evm

variable {W S : Type}

/-! ### Retired ids -/

/-- The id was handed out and no key has it any more. -/
structure Retired (E : Env W S) (account : Address) (id : Bytes32) (s : State W S) : Prop where
  ne_zero : id ≠ 0
  le_counter : id.toNat ≤ (s.keyIdCounter account).toNat
  unassigned : ∀ k, s.sessionKeyIdOf E.keccak account k ≠ id

variable {E : Env W S} {account : Address} {s s' : State W S}

theorem retired_of_keyRemoved (hr : Registry E account s) {key : Address}
    (h : KeyRemoved E account key s s') :
    Retired E account (s.sessionKeyIdOf E.keccak account key) s' := by
  have hne : s.sessionKeyIdOf E.keccak account key ≠ 0 := (hr.registered key).mp h.registered
  refine ⟨hne, ?_, ?_⟩
  · rw [h.keyIdCounter]
    exact hr.bounded key
  · intro k
    rw [h.keyId]
    by_cases hk : k = key
    · rw [if_pos hk]
      exact hne.symm
    · rw [if_neg hk]
      exact fun he => hk (hr.distinct key k hne he.symm).symm

theorem retired_of_uninstalled (hr : Registry E account s) (h : Uninstalled E account s s')
    {key : Address} (hkey : s.sessionKeyIdOf E.keccak account key ≠ 0) :
    Retired E account (s.sessionKeyIdOf E.keccak account key) s' := by
  refine ⟨hkey, ?_, ?_⟩
  · rw [h.keyIdCounter]
    exact hr.bounded key
  · intro k
    rw [hr.keyId_of_uninstalled h k]
    exact hkey.symm

namespace Retired

variable {id : Bytes32}

theorem of_sameAccount (hr : Retired E account id s) (h : SameAccount E.keccak account s s') :
    Retired E account id s' where
  ne_zero := hr.ne_zero
  le_counter := by rw [h.keyIdCounter]; exact hr.le_counter
  unassigned k := by rw [h.keyId]; exact hr.unassigned k

theorem of_keyWrite (hr : Retired E account id s) {i : Bytes32}
    (h : KeyWrite E.keccak account i s s') : Retired E account id s' where
  ne_zero := hr.ne_zero
  le_counter := by rw [h.keyIdCounter]; exact hr.le_counter
  unassigned k := by rw [h.keyId]; exact hr.unassigned k

theorem of_keyAdded (hr : Retired E account id s) {timestamp : Uint256} {key : Address}
    {updates : List Bytes} (h : KeyAdded E timestamp account key updates s s') :
    Retired E account id s' := by
  have hnext := toNat_next h.counter_lt
  have hle := hr.le_counter
  refine ⟨hr.ne_zero, ?_, ?_⟩
  · rw [h.keyIdCounter, hnext]
    exact Nat.le_succ_of_le hle
  · intro k
    rw [h.keyId]
    by_cases hk : k = key
    · rw [if_pos hk]
      rintro rfl
      omega
    · rw [if_neg hk]
      exact hr.unassigned k

theorem of_keyRemoved (hr : Retired E account id s) {key : Address}
    (h : KeyRemoved E account key s s') : Retired E account id s' := by
  refine ⟨hr.ne_zero, by rw [h.keyIdCounter]; exact hr.le_counter, ?_⟩
  intro k
  rw [h.keyId]
  by_cases hk : k = key
  · rw [if_pos hk]
    exact hr.ne_zero.symm
  · rw [if_neg hk]
    exact hr.unassigned k

theorem of_keyRotated (hr : Retired E account id s) {oldKey newKey : Address}
    (h : KeyRotated E account oldKey newKey s s') : Retired E account id s' := by
  refine ⟨hr.ne_zero, by rw [h.keyIdCounter]; exact hr.le_counter, ?_⟩
  intro k
  rw [h.keyId]
  by_cases hn : k = newKey
  · rw [if_pos hn]
    exact hr.unassigned oldKey
  · by_cases ho : k = oldKey
    · rw [if_neg hn, if_pos ho]
      exact hr.ne_zero.symm
    · rw [if_neg hn, if_neg ho]
      exact hr.unassigned k

theorem of_uninstalled (hr : Retired E account id s) (h : Uninstalled E account s s') :
    Retired E account id s' := by
  refine ⟨hr.ne_zero, by rw [h.keyIdCounter]; exact hr.le_counter, ?_⟩
  intro k
  rw [h.keyId]
  by_cases hk : E.set.contains (s.sessionKeys account) k = true
  · rw [if_pos hk]
    exact hr.ne_zero.symm
  · rw [if_neg hk]
    exact hr.unassigned k

variable [DecidableEq W]

theorem exec (hr : Retired E account id s) {tx : Tx} (h : exec E s tx = .ok s') :
    Retired E account id s' := by
  by_cases ha : account = tx.account
  · subst ha
    cases effect_of_exec h with
    | added hadd => exact hr.of_keyAdded hadd
    | installed hadds =>
      refine foldlM_invariant hadds hr ?_
      intro t entry t' ht hentry
      exact ht.of_keyAdded (addEntry_eq_ok hentry)
    | removed hremove => exact hr.of_keyRemoved hremove
    | rotated hrotate => exact hr.of_keyRotated hrotate
    | uninstalled huninstall => exact hr.of_uninstalled huninstall
    | written hwrite _ => exact hr.of_keyWrite hwrite
  · exact hr.of_sameAccount (sameAccount_of_exec h ha)

/-- **A retired id stays retired.** -/
theorem of_run (hr : Retired E account id s) {h : List (Evm.Call (State W S) Tx)}
    (hrun : Run (step E) s h s') : Retired E account id s' :=
  hrun.invariant hr (fun _ _ _ hinv hstep => hinv.exec (toOption_eq_some.mp hstep))

end Retired

/-! ### New keys -/

/-- The key has the default permissions and the updates, nothing else. -/
def StartsWith (E : Env W S) (timestamp : Uint256) (account key : Address) (updates : List Bytes)
    (s : State W S) : Prop :=
  Permissions.default.updateAll timestamp updates =
    .ok (s.permissionsOf E.keccak account (s.sessionKeyIdOf E.keccak account key))

variable {timestamp : Uint256}

theorem startsWith_of_keyAdded (hr : Registry E account s) {key : Address} {updates : List Bytes}
    (h : KeyAdded E timestamp account key updates s s') :
    StartsWith E timestamp account key updates s' := by
  have hunused : s.permissionsOf E.keccak account (s.keyIdCounter account + 1) = .default := by
    refine hr.unused _ (.inl ?_)
    rw [toNat_next h.counter_lt]
    exact Nat.lt_succ_self _
  rw [StartsWith, h.keyId, if_pos rfl, ← hunused]
  exact h.updated

/-- A registered key is not touched when another is added. -/
theorem startsWith_keep (hr : Registry E account s) {key key' : Address}
    {updates updates' : List Bytes} (hkey : E.set.contains (s.sessionKeys account) key = true)
    (h : KeyAdded E timestamp account key' updates' s s')
    (hstart : StartsWith E timestamp account key updates s) :
    StartsWith E timestamp account key updates s' := by
  have hhas : HasId E account key (s.sessionKeyIdOf E.keccak account key) s := ⟨hkey, rfl⟩
  have hid := hr.keyId_ne_next h.counter_lt key
  rw [StartsWith, (hhas.of_keyAdded h).keyId, h.permissions _ hid]
  exact hstart

theorem KeyRotated.left {oldKey newKey : Address} (h : KeyRotated E account oldKey newKey s s')
    (hne : newKey ≠ oldKey) :
    s'.sessionKeyIdOf E.keccak account oldKey = 0 ∧
      E.set.contains (s'.sessionKeys account) oldKey = false := by
  refine ⟨?_, Bool.eq_false_iff.mpr ?_⟩
  · rw [h.keyId, if_neg hne.symm, if_pos rfl]
  · intro hmem
    rcases (h.contains oldKey).mp hmem with he | ⟨hself, -⟩
    · exact hne he.symm
    · exact hself rfl

variable [DecidableEq W]

theorem startsWith_of_adds (hr : Registry E account s)
    {entries : List (Address × Bytes32 × List Bytes)}
    (h : entries.foldlM (addEntry E timestamp account) s = .ok s') :
    ∀ entry ∈ entries, StartsWith E timestamp account entry.1 entry.2.2 s' := by
  induction entries generalizing s with
  | nil => simp
  | cons e entries ih =>
    rw [foldlM_cons_eq_ok] at h
    obtain ⟨t, ht, h⟩ := h
    have hadd := addEntry_eq_ok ht
    have hrt := hr.of_keyAdded hadd
    intro entry hentry
    rcases List.mem_cons.mp hentry with rfl | hmem
    · have hkeep := foldlM_invariant (P := fun u => Registry E account u ∧
        E.set.contains (u.sessionKeys account) entry.1 = true ∧
        StartsWith E timestamp account entry.1 entry.2.2 u) h
        ⟨hrt, (hadd.contains _).mpr (.inl rfl), startsWith_of_keyAdded hr hadd⟩
        (fun u x u' hu hx => ⟨hu.1.of_keyAdded (addEntry_eq_ok hx),
          ((addEntry_eq_ok hx).contains _).mpr (.inr hu.2.1),
          startsWith_keep hu.1 hu.2.1 (addEntry_eq_ok hx) hu.2.2⟩)
      exact hkeep.2.2
    · exact ih hrt h entry hmem

/-! ### Histories -/

/-- What a history `h` that ends in `s` does with keys, ids and permissions. -/
structure KeysApart (E : Env W S) (h : List (Evm.Call (State W S) Tx)) (s : State W S) :
    Prop where
  registered : ∀ a k, E.set.contains (s.sessionKeys a) k = true ↔
    s.sessionKeyIdOf E.keccak a k ≠ 0
  distinct : ∀ a k k', E.set.contains (s.sessionKeys a) k = true →
    E.set.contains (s.sessionKeys a) k' = true → k ≠ k' →
    s.sessionKeyIdOf E.keccak a k ≠ s.sessionKeyIdOf E.keccak a k'
  bounded : ∀ a k, (s.sessionKeyIdOf E.keccak a k).toNat ≤ (s.keyIdCounter a).toNat
  removed : ∀ c ∈ h, ∀ key p, c.act.action = .removeSessionKey key p →
    ∀ k, s.sessionKeyIdOf E.keccak c.act.account k ≠
      c.pre.sessionKeyIdOf E.keccak c.act.account key
  uninstalled : ∀ c ∈ h, c.act.action = .onUninstall →
    ∀ key, E.set.contains (c.pre.sessionKeys c.act.account) key = true →
    ∀ k, s.sessionKeyIdOf E.keccak c.act.account k ≠
      c.pre.sessionKeyIdOf E.keccak c.act.account key
  added : ∀ c ∈ h, ∀ key tag updates, c.act.action = .addSessionKey key tag updates →
    StartsWith E c.act.timestamp c.act.account key updates c.post
  installed : ∀ c ∈ h, ∀ data, c.act.action = .onInstall data →
    ∃ keys tags updates, decodeInstall data = some (keys, tags, updates) ∧
      keys.length = tags.length ∧ keys.length = updates.length ∧
      ∀ entry ∈ keys.zip (tags.zip updates),
        StartsWith E c.act.timestamp c.act.account entry.1 entry.2.2 c.post
  rotated : ∀ c ∈ h, ∀ oldKey p newKey, c.act.action = .rotateSessionKey oldKey p newKey →
    c.post.sessionKeyIdOf E.keccak c.act.account newKey =
        c.pre.sessionKeyIdOf E.keccak c.act.account oldKey ∧
      (∀ i, c.post.permissionsOf E.keccak c.act.account i =
        c.pre.permissionsOf E.keccak c.act.account i) ∧
      (newKey ≠ oldKey → c.post.sessionKeyIdOf E.keccak c.act.account oldKey = 0 ∧
        E.set.contains (c.post.sessionKeys c.act.account) oldKey = false)
  separate : ∀ c ∈ h, ∀ a, a ≠ c.act.account → SameAccount E.keccak a c.pre c.post

/-- A call of a history, the invariant before it, and the history after it. -/
theorem call_of_mem {h : List (Evm.Call (State W S) Tx)} {c : Evm.Call (State W S) Tx}
    (hrun : Run (step E) (State.initial E.set) h s) (hc : c ∈ h) :
    (∀ a, Registry E a c.pre) ∧ exec E c.pre c.act = .ok c.post ∧
      ∃ h', Run (step E) c.post h' s := by
  obtain ⟨i, hi⟩ := List.mem_iff_getElem?.mp hc
  obtain ⟨hpre, hstep⟩ := hrun.of_getElem hi
  exact ⟨registry_of_run hpre, toOption_eq_some.mp hstep, hrun.after hi⟩

/-- **Keys, ids and permissions over whole histories**, of any calls by any
accounts. -/
theorem sessionKeys_apart {h : List (Evm.Call (State W S) Tx)}
    (hrun : Run (step E) (State.initial E.set) h s) : KeysApart E h s where
  registered a := (registry_of_run hrun a).registered
  distinct a k k' hk _ hne he :=
    hne ((registry_of_run hrun a).distinct k k' (((registry_of_run hrun a).registered k).mp hk) he)
  bounded a := (registry_of_run hrun a).bounded
  removed := by
    intro c hc key p hact
    obtain ⟨hreg, hexec, h', hafter⟩ := call_of_mem hrun hc
    obtain ⟨pre, ⟨sender, timestamp, action⟩, post⟩ := c
    obtain rfl : action = _ := hact
    exact ((retired_of_keyRemoved (hreg sender) (removeSessionKey_eq_ok hexec)).of_run
      hafter).unassigned
  uninstalled := by
    intro c hc hact key hkey
    obtain ⟨hreg, hexec, h', hafter⟩ := call_of_mem hrun hc
    obtain ⟨pre, ⟨sender, timestamp, action⟩, post⟩ := c
    obtain rfl : action = _ := hact
    obtain rfl : post = onUninstall E sender pre := pure_eq_ok.mp hexec
    exact ((retired_of_uninstalled (hreg sender) (uninstalled_onUninstall E sender pre)
      (((hreg sender).registered key).mp hkey)).of_run hafter).unassigned
  added := by
    intro c hc key tag updates hact
    obtain ⟨hreg, hexec, -⟩ := call_of_mem hrun hc
    obtain ⟨pre, ⟨sender, timestamp, action⟩, post⟩ := c
    obtain rfl : action = _ := hact
    change addSessionKey E timestamp sender pre key tag updates = .ok post at hexec
    exact startsWith_of_keyAdded (hreg sender) (addSessionKey_eq_ok hexec)
  installed := by
    intro c hc data hact
    obtain ⟨hreg, hexec, -⟩ := call_of_mem hrun hc
    obtain ⟨pre, ⟨sender, timestamp, action⟩, post⟩ := c
    obtain rfl : action = _ := hact
    obtain ⟨keys, tags, updates, hdecode, htags, hupdates, hadds⟩ := onInstall_eq_ok hexec
    exact ⟨keys, tags, updates, hdecode, htags, hupdates, startsWith_of_adds (hreg sender) hadds⟩
  rotated := by
    intro c hc oldKey p newKey hact
    obtain ⟨-, hexec, -⟩ := call_of_mem hrun hc
    obtain ⟨pre, ⟨sender, timestamp, action⟩, post⟩ := c
    obtain rfl : action = _ := hact
    have hrot := rotateSessionKey_eq_ok hexec
    refine ⟨?_, hrot.permissions, hrot.left⟩
    exact (hrot.keyId newKey).trans (if_pos rfl)
  separate := by
    intro c hc a ha
    obtain ⟨-, hexec, -⟩ := call_of_mem hrun hc
    exact sameAccount_of_exec hexec ha

/-! ### One account and its agent -/

/-- The packing of ERC-4337 v0.7. -/
def userOperationLib : UserOperationLib where
  unpackVerificationGasLimit u := u.accountGasLimits >>> 128
  unpackCallGasLimit u := u.accountGasLimits &&& 0xffffffffffffffffffffffffffffffff
  unpackMaxFeePerGas u := u.gasFees &&& 0xffffffffffffffffffffffffffffffff
  unpackPaymasterStaticFields d :=
    if 52 ≤ d.length then
      some (paymasterOf d, BitVec.ofNat 256 (beNat ((d.drop 20).take 16)),
        BitVec.ofNat 256 (beNat ((d.drop 36).take 16)))
    else none

def wallet : Address := 0x100
def agent : Address := 0x200
def nextAgent : Address := 0x300

/-- Every signature of the right length is the agent's. -/
def agentEnv : Env Term (List Address) where
  keccak := .symbolic
  set := .list
  lib := userOperationLib
  tryRecover _ signature := if signature.length = 65 then some agent else none

def walletTx (action : Action) : Tx := ⟨wallet, 1000, action⟩

/-- The agent is added and its id handed on to another key. -/
def handover : List Tx :=
  [walletTx (.addSessionKey agent 0 []),
    walletTx (.rotateSessionKey agent LinkedSet.sentinel nextAgent)]

theorem handover_runs :
    (handover.foldlM (step agentEnv) (State.initial agentEnv.set)).map
      (fun s => s.sessionKeyIdOf agentEnv.keccak wallet nextAgent) = some 1 := by
  decide +kernel

/-- A history with a rotation in it. -/
theorem sessionKeys_apart_handover :
    ∃ h s, h.map Evm.Call.act = handover ∧
      s.sessionKeyIdOf agentEnv.keccak wallet nextAgent = 1 ∧ KeysApart agentEnv h s := by
  obtain ⟨s, hs, hid⟩ := Option.map_eq_some_iff.mp handover_runs
  obtain ⟨h, hrun, hacts⟩ := Run.of_foldlM hs
  exact ⟨h, s, hacts, hid, sessionKeys_apart hrun⟩

theorem selfRotation_runs :
    ((step agentEnv (State.initial agentEnv.set) (walletTx (.addSessionKey agent 0 []))).bind
      (fun s => step agentEnv s (walletTx (.rotateSessionKey agent LinkedSet.sentinel agent)))).map
      (fun s => s.sessionKeyIdOf agentEnv.keccak wallet agent) = some 1 := by
  decide +kernel

/-- A key rotated into itself keeps its id. -/
theorem rotateSessionKey_self_keepsId :
    ¬ ∀ h s, Run (step agentEnv) (State.initial agentEnv.set) h s →
      ∀ c ∈ h, ∀ oldKey p newKey, c.act.action = .rotateSessionKey oldKey p newKey →
        c.post.sessionKeyIdOf agentEnv.keccak c.act.account oldKey = 0 := by
  intro hall
  obtain ⟨s, hs, hid⟩ := Option.map_eq_some_iff.mp selfRotation_runs
  obtain ⟨t, ht, hs⟩ := Option.bind_eq_some_iff.mp hs
  have hzero := hall _ s ((Run.nil.snoc ht).snoc hs) _
    (List.mem_append_right _ (List.mem_singleton_self _)) agent LinkedSet.sentinel agent rfl
  exact absurd (hid.symm.trans hzero) (by decide)

end Bufi.Session
