import Bufi.Session.Keys

/-!
# Key ids

`Registry account s` is the invariant of an account: a key is registered
exactly when it has an id, no two keys share one, the ids were handed out by
the counter, and nothing is stored under an id that was not, nor under zero.
Every call of every account keeps it, so it holds in every history.

`HasId` is the fact about one key that most calls keep: a registered key stays
registered under its id unless it is removed or rotated itself.

The last part of the invariant needs care in one place.  `executeWithSessionKey`
does not ask whether the key has an id, and without one it works under the id
zero; but the limits stored there are zero, admit nothing but zero, and stay as
they are.
-/

namespace Bufi.Session

open Bufi.Evm

variable {W S : Type}

/-! ### The invariant -/

structure Registry (E : Env W S) (account : Address) (s : State W S) : Prop where
  registered : ∀ k, E.set.contains (s.sessionKeys account) k = true ↔
    s.sessionKeyIdOf E.keccak account k ≠ 0
  distinct : ∀ k k', s.sessionKeyIdOf E.keccak account k ≠ 0 →
    s.sessionKeyIdOf E.keccak account k = s.sessionKeyIdOf E.keccak account k' → k = k'
  bounded : ∀ k, (s.sessionKeyIdOf E.keccak account k).toNat ≤ (s.keyIdCounter account).toNat
  unused : ∀ i, (s.keyIdCounter account).toNat < i.toNat ∨ i = 0 →
    s.permissionsOf E.keccak account i = .default

variable {E : Env W S} {account : Address} {s s' : State W S}

theorem registry_initial (E : Env W S) (account : Address) :
    Registry E account (State.initial E.set) where
  registered k := iff_of_false (by simp [State.initial, E.set.contains_empty]) (fun h => h rfl)
  distinct _ _ h := absurd rfl h
  bounded _ := Nat.zero_le _
  unused _ _ := rfl

theorem toNat_next {counter : Uint256} (h : counter.toNat + 1 < 2 ^ 256) :
    (counter + 1).toNat = counter.toNat + 1 := by
  rw [BitVec.toNat_add]
  exact Nat.mod_eq_of_lt h

namespace Registry

theorem of_sameAccount (hr : Registry E account s) (h : SameAccount E.keccak account s s') :
    Registry E account s' where
  registered k := by rw [h.sessionKeys, h.keyId]; exact hr.registered k
  distinct k k' := by rw [h.keyId, h.keyId]; exact hr.distinct k k'
  bounded k := by rw [h.keyId, h.keyIdCounter]; exact hr.bounded k
  unused i hi := by
    rw [h.keyIdCounter] at hi
    rw [h.permissions]
    exact hr.unused i hi

/-- A write under the id of a key; under zero it has to leave the default. -/
theorem of_keyWrite (hr : Registry E account s) {key : Address}
    (h : KeyWrite E.keccak account (s.sessionKeyIdOf E.keccak account key) s s')
    (hzero : s.sessionKeyIdOf E.keccak account key = 0 →
      s.permissionsOf E.keccak account 0 = .default →
      s'.permissionsOf E.keccak account 0 = .default) : Registry E account s' where
  registered k := by rw [h.sessionKeys, h.keyId]; exact hr.registered k
  distinct k k' := by rw [h.keyId, h.keyId]; exact hr.distinct k k'
  bounded k := by rw [h.keyId, h.keyIdCounter]; exact hr.bounded k
  unused i hi := by
    rw [h.keyIdCounter] at hi
    by_cases heq : i = s.sessionKeyIdOf E.keccak account key
    · rcases hi with hlt | rfl
      · have := hr.bounded key
        rw [heq] at hlt
        omega
      · exact hzero heq.symm (hr.unused 0 (.inr rfl))
    · rw [h.permissions account i (fun hp => heq hp.2)]
      exact hr.unused i hi

/-- No key has the id that is handed out next. -/
theorem keyId_ne_next (hr : Registry E account s)
    (hlt : (s.keyIdCounter account).toNat + 1 < 2 ^ 256) (k : Address) :
    s.sessionKeyIdOf E.keccak account k ≠ s.keyIdCounter account + 1 := by
  intro he
  have hb := hr.bounded k
  rw [he, toNat_next hlt] at hb
  omega

theorem of_keyAdded (hr : Registry E account s) {timestamp : Uint256} {key : Address}
    {updates : List Bytes} (h : KeyAdded E timestamp account key updates s s') :
    Registry E account s' := by
  have hnext := toNat_next h.counter_lt
  have hne : s.keyIdCounter account + 1 ≠ 0 := by
    intro he
    rw [he] at hnext
    exact absurd hnext.symm (Nat.succ_ne_zero _)
  have hold := hr.keyId_ne_next h.counter_lt
  refine ⟨?_, ?_, ?_, ?_⟩
  · intro k
    rw [h.contains, h.keyId]
    by_cases hk : k = key
    · rw [if_pos hk]
      exact iff_of_true (.inl hk) hne
    · rw [if_neg hk, ← hr.registered k]
      exact ⟨fun h => h.resolve_left hk, .inr⟩
  · intro k k'
    rw [h.keyId, h.keyId]
    by_cases hk : k = key
    · by_cases hk' : k' = key
      · exact fun _ _ => hk.trans hk'.symm
      · rw [if_pos hk, if_neg hk']
        exact fun _ he => absurd he.symm (hold k')
    · by_cases hk' : k' = key
      · rw [if_neg hk, if_pos hk']
        exact fun _ he => absurd he (hold k)
      · rw [if_neg hk, if_neg hk']
        exact hr.distinct k k'
  · intro k
    rw [h.keyId, h.keyIdCounter, hnext]
    by_cases hk : k = key
    · rw [if_pos hk, hnext]
    · rw [if_neg hk]
      exact Nat.le_succ_of_le (hr.bounded k)
  · intro i hi
    rw [h.keyIdCounter, hnext] at hi
    have hi' : i ≠ s.keyIdCounter account + 1 := by
      rintro rfl
      exact hi.elim (fun hlt => by omega) hne
    rw [h.permissions i hi']
    exact hr.unused i (hi.imp_left Nat.lt_of_succ_lt)

theorem of_keyRemoved (hr : Registry E account s) {key : Address}
    (h : KeyRemoved E account key s s') : Registry E account s' := by
  refine ⟨?_, ?_, ?_, ?_⟩
  · intro k
    rw [h.contains, h.keyId]
    by_cases hk : k = key
    · rw [if_pos hk]
      exact iff_of_false (fun hc => hc.1 hk) (fun hz => hz rfl)
    · rw [if_neg hk, ← hr.registered k]
      exact ⟨And.right, fun hc => ⟨hk, hc⟩⟩
  · intro k k'
    rw [h.keyId, h.keyId]
    by_cases hk : k = key
    · rw [if_pos hk]
      exact fun hz => absurd rfl hz
    · by_cases hk' : k' = key
      · rw [if_neg hk, if_pos hk']
        exact fun hz he => absurd he hz
      · rw [if_neg hk, if_neg hk']
        exact hr.distinct k k'
  · intro k
    rw [h.keyId, h.keyIdCounter]
    by_cases hk : k = key
    · rw [if_pos hk]
      exact Nat.zero_le _
    · rw [if_neg hk]
      exact hr.bounded k
  · intro i hi
    rw [h.keyIdCounter] at hi
    rw [h.permissions]
    exact hr.unused i hi

theorem of_keyRotated (hr : Registry E account s) {oldKey newKey : Address}
    (h : KeyRotated E account oldKey newKey s s') : Registry E account s' := by
  have hold : s.sessionKeyIdOf E.keccak account oldKey ≠ 0 := (hr.registered oldKey).mp h.registered
  refine ⟨?_, ?_, ?_, ?_⟩
  · intro k
    rw [h.contains, h.keyId]
    by_cases hn : k = newKey
    · rw [if_pos hn]
      exact iff_of_true (.inl hn) hold
    · by_cases ho : k = oldKey
      · rw [if_neg hn, if_pos ho]
        exact iff_of_false (fun hc => hc.elim hn (fun hc => hc.1 ho)) (fun hz => hz rfl)
      · rw [if_neg hn, if_neg ho, ← hr.registered k]
        exact ⟨fun hc => (hc.resolve_left hn).2, fun hc => .inr ⟨ho, hc⟩⟩
  · intro k k'
    -- only the new key can have the moved id, since the old key was the one that had it
    have hmoved : ∀ x, x ≠ newKey → x ≠ oldKey →
        s.sessionKeyIdOf E.keccak account x ≠ s.sessionKeyIdOf E.keccak account oldKey :=
      fun x _ hxo he => hxo (hr.distinct oldKey x hold he.symm).symm
    rw [h.keyId, h.keyId]
    by_cases hn : k = newKey
    · by_cases hn' : k' = newKey
      · exact fun _ _ => hn.trans hn'.symm
      · by_cases ho' : k' = oldKey
        · rw [if_pos hn, if_neg hn', if_pos ho']
          exact fun hz he => absurd he hz
        · rw [if_pos hn, if_neg hn', if_neg ho']
          exact fun _ he => absurd he.symm (hmoved k' hn' ho')
    · by_cases ho : k = oldKey
      · rw [if_neg hn, if_pos ho]
        exact fun hz => absurd rfl hz
      · rw [if_neg hn, if_neg ho]
        by_cases hn' : k' = newKey
        · rw [if_pos hn']
          exact fun _ he => absurd he (hmoved k hn ho)
        · by_cases ho' : k' = oldKey
          · rw [if_neg hn', if_pos ho']
            exact fun hz he => absurd he hz
          · rw [if_neg hn', if_neg ho']
            exact hr.distinct k k'
  · intro k
    rw [h.keyId, h.keyIdCounter]
    by_cases hn : k = newKey
    · rw [if_pos hn]
      exact hr.bounded oldKey
    · by_cases ho : k = oldKey
      · rw [if_neg hn, if_pos ho]
        exact Nat.zero_le _
      · rw [if_neg hn, if_neg ho]
        exact hr.bounded k
  · intro i hi
    rw [h.keyIdCounter] at hi
    rw [h.permissions]
    exact hr.unused i hi

theorem keyId_of_uninstalled (hr : Registry E account s) (h : Uninstalled E account s s')
    (k : Address) : s'.sessionKeyIdOf E.keccak account k = 0 := by
  rw [h.keyId]
  by_cases hk : E.set.contains (s.sessionKeys account) k = true
  · rw [if_pos hk]
  · rw [if_neg hk]
    exact not_not.mp (fun hz => hk ((hr.registered k).mpr hz))

theorem of_uninstalled (hr : Registry E account s) (h : Uninstalled E account s s') :
    Registry E account s' := by
  have hid := hr.keyId_of_uninstalled h
  refine ⟨?_, fun k k' hz => absurd (hid k) hz, ?_, ?_⟩
  · intro k
    rw [h.contains, hid]
    exact iff_of_false Bool.false_ne_true (fun hz => hz rfl)
  · intro k
    rw [hid]
    exact Nat.zero_le _
  · intro i hi
    rw [h.keyIdCounter] at hi
    rw [h.permissions]
    exact hr.unused i hi

end Registry

/-! ### The id of one key -/

/-- The key is registered under the id. -/
structure HasId (E : Env W S) (account key : Address) (id : Bytes32) (s : State W S) : Prop where
  registered : E.set.contains (s.sessionKeys account) key = true
  keyId : s.sessionKeyIdOf E.keccak account key = id

namespace HasId

variable {key : Address} {id : Bytes32}

theorem of_keyWrite (h : HasId E account key id s) {i : Bytes32}
    (hwrite : KeyWrite E.keccak account i s s') : HasId E account key id s' where
  registered := by rw [hwrite.sessionKeys]; exact h.registered
  keyId := by rw [hwrite.keyId]; exact h.keyId

theorem of_keyAdded (h : HasId E account key id s) {timestamp : Uint256} {newKey : Address}
    {updates : List Bytes} (hadd : KeyAdded E timestamp account newKey updates s s') : HasId E account key id s' := by
  have hne : key ≠ newKey := by
    intro he
    have hmem := h.registered
    rw [he, hadd.fresh] at hmem
    exact Bool.false_ne_true hmem
  refine ⟨(hadd.contains key).mpr (.inr h.registered), ?_⟩
  rw [hadd.keyId, if_neg hne]
  exact h.keyId

theorem of_keyRemoved (h : HasId E account key id s) {oldKey : Address} (hne : key ≠ oldKey)
    (hremove : KeyRemoved E account oldKey s s') : HasId E account key id s' := by
  refine ⟨(hremove.contains key).mpr ⟨hne, h.registered⟩, ?_⟩
  rw [hremove.keyId, if_neg hne]
  exact h.keyId

theorem of_keyRotated (h : HasId E account key id s) {oldKey newKey : Address} (hne : key ≠ oldKey)
    (hrotate : KeyRotated E account oldKey newKey s s') : HasId E account key id s' := by
  have hnew : key ≠ newKey := by
    intro he
    rcases hrotate.fresh with hself | hfresh
    · exact hne (he.trans hself)
    · have hmem := h.registered
      rw [he, hfresh] at hmem
      exact Bool.false_ne_true hmem
  refine ⟨(hrotate.contains key).mpr (.inr ⟨hne, h.registered⟩), ?_⟩
  rw [hrotate.keyId, if_neg hnew, if_neg hne]
  exact h.keyId

end HasId

/-! ### Every call keeps the invariant -/

variable [DecidableEq W]

theorem Registry.exec (hr : Registry E account s) {tx : Tx} (h : exec E s tx = .ok s') :
    Registry E account s' := by
  by_cases ha : account = tx.account
  · subst ha
    cases effect_of_exec h with
    | added hadd => exact hr.of_keyAdded hadd
    | installed hadds =>
      refine foldlM_invariant hadds hr ?_
      intro t entry t' ht hentry
      exact ht.of_keyAdded (addEntry_eq_ok hentry)
    | removed hremove => exact hr.of_keyRemoved hremove
    | rotated hrotate => exact hr.of_keyRotated hrotate
    | uninstalled huninstall => exact hr.of_uninstalled huninstall
    | written hwrite hzero => exact hr.of_keyWrite hwrite hzero
  · exact hr.of_sameAccount (sameAccount_of_exec h ha)

/-- **The invariant holds in every history.** -/
theorem registry_of_run {h : List (Evm.Call (State W S) Tx)}
    (hr : Run (step E) (State.initial E.set) h s) (account : Address) : Registry E account s :=
  hr.invariant (registry_initial E account)
    (fun _ _ _ hinv hstep => hinv.exec (toOption_eq_some.mp hstep))

end Bufi.Session
