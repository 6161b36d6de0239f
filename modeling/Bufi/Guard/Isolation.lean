import Bufi.Guard.Core

/-!
# Accounts do not meet, installations do not leak

A call of an account touches its own limits and epoch and the sets of its own
namespace (`OnlyTouches`), and a check reads no other (`checkIntent_congr`), so
accounts do not see each other.

The sets are never cleared.  What makes an installation fresh is that the
namespaces an account has not reached yet are empty, and so is the one it stands
in while it is not installed (`Tidy`).
-/

namespace Bufi.Guard

open Bufi.Evm Bufi.Gateway

/-- The sets of one namespace. -/
structure Sets where
  recipients : Bytes32 → Bool
  recipientCount : ℕ
  domains : Uint32 → Bool
  tokens : Address → TokenInfo
  destTokens : Bytes32 → Bool
  minters : Uint32 → Bytes32
  callers : Bytes32 → Bool

def Sets.empty : Sets where
  recipients _ := false
  recipientCount := 0
  domains _ := false
  tokens _ := ⟨[], []⟩
  destTokens _ := false
  minters _ := 0
  callers _ := false

section

variable {W : Type} {K : Keccak W}

def State.sets (s : State W) (ns : W) : Sets where
  recipients := s.recipients ns
  recipientCount := s.recipientCount ns
  domains := s.domains ns
  tokens := s.tokens ns
  destTokens := s.destTokens ns
  minters := s.minters ns
  callers := s.callers ns

theorem nsOf_inj {A B : Address} {e e' : Uint256} (h : nsOf K A e = nsOf K B e') :
    A = B ∧ e = e' := by
  have hl := K.hashWords_inj h
  simp only [List.cons.injEq, and_true] at hl
  exact ⟨K.addr_inj hl.1, K.word_inj hl.2⟩

/-! ### What a call touches -/

/-- From `s` to `s'` only what belongs to `A` has changed. -/
structure OnlyTouches (K : Keccak W) (A : Address) (s s' : State W) : Prop where
  limits : ∀ B, B ≠ A → s'.limits B = s.limits B
  epoch : ∀ B, B ≠ A → s'.epoch B = s.epoch B
  sets : ∀ ns, ns ≠ s.ns K A → s'.sets ns = s.sets ns

variable [DecidableEq W] {s s' : State W} {tx : Tx W}

/-- The state after a successful installation. -/
def State.installed (K : Keccak W) (s : State W) (account : Address) (init : GatewayGuardInit) :
    State W :=
  let ns := s.ns K account
  let r := init.recipients.foldl insertCounted (s.recipientCount ns, s.recipients ns)
  { s with
    limits := Function.update s.limits account init.limits
    recipients := Function.update s.recipients ns r.2
    recipientCount := Function.update s.recipientCount ns r.1
    domains := Function.update s.domains ns (insertAll (s.domains ns) init.destinationDomains)
    minters := Function.update s.minters ns
      (setAll (s.minters ns) (init.destinationDomains.zip init.destinationMinters))
    callers := Function.update s.callers ns (insertAll (s.callers ns) init.destinationCallers)
    tokens := Function.update s.tokens ns (setAll (s.tokens ns) init.tokenEntries)
    destTokens := Function.update s.destTokens ns
      (insertAll (s.destTokens ns) init.destinationTokens) }

theorem install_eq_ok {env : Env W} {A : Address} {init : GatewayGuardInit}
    (h : install K env s A init = .ok s') :
    (s.limits A).gatewayWallet = 0 ∧ init.gatewayWallet ≠ 0
      ∧ ¬ ((init.recipients.foldl insertCounted
          (s.recipientCount (s.ns K A), s.recipients (s.ns K A))).1 = 0 ∧ init.addressBook = 0)
      ∧ s' = s.installed K A init := by
  simp only [install, bind_eq_ok, require_eq_ok, exists_const, pure_eq_ok] at h
  obtain ⟨h1, h2, -, -, -, -, -, h3, -, -, h4⟩ := h
  exact ⟨h1, h2, h3, h4⟩

omit [DecidableEq W] in
theorem uninstall_eq_ok {A : Address} (h : uninstall s A = .ok s') :
    (s.limits A).gatewayWallet ≠ 0 ∧ (s.epoch A).toNat + 1 < 2 ^ 256
      ∧ s' = { s with
          limits := Function.update s.limits A .deleted
          epoch := Function.update s.epoch A (s.epoch A + 1) } := by
  simpa only [uninstall, bind_eq_ok, require_eq_ok, exists_const, pure_eq_ok] using h

/-- What a setter of an installed account leaves alone. -/
structure SetterFrame (K : Keccak W) (A : Address) (s s' : State W) : Prop where
  installed : (s.limits A).gatewayWallet ≠ 0
  gatewayWallet : (s'.limits A).gatewayWallet = (s.limits A).gatewayWallet
  addressBook : (s'.limits A).addressBook = (s.limits A).addressBook
  epoch : s'.epoch = s.epoch
  touches : OnlyTouches K A s s'

omit [DecidableEq W] in
/-- A setter that keeps the limits and the epoch. -/
theorem setterFrame_of_sets {A : Address} (hi : (s.limits A).gatewayWallet ≠ 0)
    (hl : s'.limits = s.limits) (he : s'.epoch = s.epoch)
    (hs : ∀ ns, ns ≠ s.ns K A → s'.sets ns = s.sets ns) : SetterFrame K A s s' where
  installed := hi
  gatewayWallet := by rw [hl]
  addressBook := by rw [hl]
  epoch := he
  touches := ⟨fun _ _ => by rw [hl], fun _ _ => by rw [he], hs⟩

theorem setGatewayRecipient_cases {A : Address} {recipient : Bytes32} {allowed : Bool}
    (h : setGatewayRecipient K s A recipient allowed = .ok s') :
    (s.limits A).gatewayWallet ≠ 0
      ∧ (s' = s
        ∨ s.recipients (s.ns K A) recipient = false ∧ s' = { s with
            recipientCount := Function.update s.recipientCount (s.ns K A)
              (s.recipientCount (s.ns K A) + 1)
            recipients := set₂ s.recipients (s.ns K A) recipient true }
        ∨ s.recipients (s.ns K A) recipient = true
          ∧ ¬ (s.recipientCount (s.ns K A) ≤ 1 ∧ (s.limits A).addressBook = 0)
          ∧ s' = { s with
            recipientCount := Function.update s.recipientCount (s.ns K A)
              (s.recipientCount (s.ns K A) - 1)
            recipients := set₂ s.recipients (s.ns K A) recipient false }) := by
  simp only [setGatewayRecipient, onlyInstalled, bind_eq_ok, require_eq_ok, exists_const] at h
  obtain ⟨hi, h⟩ := h
  refine ⟨hi, ?_⟩
  split_ifs at h with hsame hallow
  · exact Or.inl (pure_eq_ok.mp h)
  · simp only [bind_eq_ok, orRevert_eq_ok, checkedAdd_eq_some, pure_eq_ok] at h
    obtain ⟨count, ⟨-, rfl⟩, rfl⟩ := h
    subst hallow
    exact Or.inr (Or.inl ⟨by simpa using hsame, rfl⟩)
  · simp only [bind_eq_ok, require_eq_ok, exists_const, orRevert_eq_ok, pure_eq_ok] at h
    obtain ⟨hne, count, hsub, rfl⟩ := h
    have hfalse : allowed = false := by simpa using hallow
    subst hfalse
    obtain ⟨-, rfl⟩ : 1 ≤ s.recipientCount (s.ns K A) ∧ s.recipientCount (s.ns K A) - 1 = count := by
      simpa [checkedSub] using hsub
    exact Or.inr (Or.inr ⟨by simpa using hsame, hne, rfl⟩)

/-- **What a call of an account can do**: install, uninstall, or set. -/
theorem step_cases (h : step K s tx = some s') :
    (∃ init, tx.action = .onInstall init ∧ install K tx.env s tx.account init = .ok s')
      ∨ (tx.action = .onUninstall ∧ uninstall s tx.account = .ok s')
      ∨ (∃ recipient allowed, tx.action = .setGatewayRecipient recipient allowed
        ∧ setGatewayRecipient K s tx.account recipient allowed = .ok s')
      ∨ SetterFrame K tx.account s s' ∧ s'.recipients = s.recipients
        ∧ s'.recipientCount = s.recipientCount := by
  have h := toOption_eq_some.mp h
  rw [exec] at h
  cases ha : tx.action with
  | onInstall init =>
    rw [ha] at h
    exact Or.inl ⟨init, rfl, h⟩
  | onUninstall =>
    rw [ha] at h
    exact Or.inr (Or.inl ⟨rfl, h⟩)
  | setGatewayRecipient recipient allowed =>
    rw [ha] at h
    exact Or.inr (Or.inr (Or.inl ⟨_, _, rfl, h⟩))
  | setGatewayLimits perIntentCap maxFeeCap maxExpiryBlocks =>
    rw [ha] at h
    simp only [setGatewayLimits, onlyInstalled, bind_eq_ok, require_eq_ok, exists_const,
      pure_eq_ok] at h
    obtain ⟨hi, -, rfl⟩ := h
    refine Or.inr (Or.inr (Or.inr ⟨⟨hi, by simp, by simp, rfl, ?_⟩, rfl, rfl⟩))
    exact ⟨fun B hB => by simp [Function.update_of_ne hB], fun _ _ => rfl, fun _ _ => rfl⟩
  | setGatewayToken token name version allowed =>
    rw [ha] at h
    simp only [setGatewayToken, onlyInstalled, bind_eq_ok, require_eq_ok, exists_const] at h
    obtain ⟨hi, h⟩ := h
    refine Or.inr (Or.inr (Or.inr ?_))
    split_ifs at h
    · simp only [bind_eq_ok, require_eq_ok, exists_const, pure_eq_ok] at h
      rw [h.2]
      refine ⟨setterFrame_of_sets hi rfl rfl ?_, rfl, rfl⟩
      intro ns hns
      simp [State.sets, set₂, Function.update_of_ne hns]
    · rw [pure_eq_ok.mp h]
      refine ⟨setterFrame_of_sets hi rfl rfl ?_, rfl, rfl⟩
      intro ns hns
      simp [State.sets, set₂, Function.update_of_ne hns]
  | setGatewayDestinationDomain | setGatewayDestinationToken | setGatewayDestinationMinter
  | setGatewayDestinationCaller =>
    rw [ha] at h
    simp only [setGatewayDestinationDomain, setGatewayDestinationToken,
      setGatewayDestinationMinter, setGatewayDestinationCaller, onlyInstalled, bind_eq_ok,
      require_eq_ok, exists_const, pure_eq_ok] at h
    obtain ⟨hi, rfl⟩ := h
    refine Or.inr (Or.inr (Or.inr ⟨setterFrame_of_sets hi rfl rfl ?_, rfl, rfl⟩))
    intro ns hns
    simp [State.sets, set₂, Function.update_of_ne hns]

theorem setGatewayRecipient_frame {A : Address} {recipient : Bytes32} {allowed : Bool}
    (h : setGatewayRecipient K s A recipient allowed = .ok s') : SetterFrame K A s s' := by
  obtain ⟨hi, rfl | ⟨-, rfl⟩ | ⟨-, -, rfl⟩⟩ := setGatewayRecipient_cases h
  · exact setterFrame_of_sets hi rfl rfl (fun _ _ => rfl)
  all_goals
    refine setterFrame_of_sets hi rfl rfl ?_
    intro ns hns
    simp [State.sets, set₂, Function.update_of_ne hns]

/-- **A call touches only what belongs to its account.** -/
theorem onlyTouches_of_step (h : step K s tx = some s') : OnlyTouches K tx.account s s' := by
  rcases step_cases h with ⟨init, -, h⟩ | ⟨-, h⟩ | ⟨r, a, -, h⟩ | ⟨h, -, -⟩
  · obtain ⟨-, -, -, rfl⟩ := install_eq_ok h
    refine ⟨?_, fun _ _ => rfl, ?_⟩
    · intro B hB
      simp [State.installed, Function.update_of_ne hB]
    · intro ns hns
      simp [State.installed, State.sets, Function.update_of_ne hns]
  · obtain ⟨-, -, rfl⟩ := uninstall_eq_ok h
    exact ⟨fun B hB => by simp [Function.update_of_ne hB],
      fun B hB => by simp [Function.update_of_ne hB], fun _ _ => rfl⟩
  · exact (setGatewayRecipient_frame h).touches
  · exact h.touches

/-! ### What a check reads -/

/-- A check of an account reads its limits, its epoch and its namespace. -/
theorem checkIntent_congr {A : Address} (hl : s'.limits A = s.limits A)
    (he : s'.epoch A = s.epoch A) (hs : s'.sets (s.ns K A) = s.sets (s.ns K A)) (env : Env W)
    (block : Block) (caller : Address) (hash : W) (kind : Uint8) (payload : Bytes) :
    checkIntent K env block s' A caller hash kind payload
      = checkIntent K env block s A caller hash kind payload := by
  have hns : s'.ns K A = s.ns K A := by rw [State.ns, State.ns, he]
  simp only [State.sets, Sets.mk.injEq] at hs
  obtain ⟨h1, -, h3, h4, h5, h6, h7⟩ := hs
  simp only [checkIntent, checkBurnIntent, checkReceiveWithAuthorization, recipientAllowed, hns, hl,
    h1, h3, h4, h5, h6, h7]

/-! ### The invariant -/

/-- The counter of a namespace is right, and positive without an address book. -/
def Counted (s : State W) (l : Limits) (ns : W) : Prop :=
  s.recipientCount ns = countTrue (s.recipients ns)
    ∧ (l.addressBook = 0 → 1 ≤ s.recipientCount ns)

/-- Namespaces that are not in use are empty, and those in use are counted. -/
structure Tidy (K : Keccak W) (s : State W) : Prop where
  later : ∀ A e, (s.epoch A).toNat < e.toNat → s.sets (nsOf K A e) = Sets.empty
  free : ∀ A, (s.limits A).gatewayWallet = 0 → s.sets (s.ns K A) = Sets.empty
  counted : ∀ A, (s.limits A).gatewayWallet ≠ 0 → Counted s (s.limits A) (s.ns K A)

omit [DecidableEq W] in
theorem tidy_initial : Tidy K (State.initial : State W) where
  later _ _ _ := rfl
  free _ _ := rfl
  counted _ h := absurd rfl h

/-- The invariant at one account; the others follow from `OnlyTouches`. -/
structure TidyAt (K : Keccak W) (A : Address) (s : State W) : Prop where
  later : ∀ e, (s.epoch A).toNat < e.toNat → s.sets (nsOf K A e) = Sets.empty
  free : (s.limits A).gatewayWallet = 0 → s.sets (s.ns K A) = Sets.empty
  counted : (s.limits A).gatewayWallet ≠ 0 → Counted s (s.limits A) (s.ns K A)

omit [DecidableEq W] in
theorem Tidy.of_touches {A : Address} (h : Tidy K s) (ht : OnlyTouches K A s s')
    (hA : TidyAt K A s') : Tidy K s' := by
  have hsets : ∀ B e, B ≠ A → s'.sets (nsOf K B e) = s.sets (nsOf K B e) :=
    fun B e hB => ht.sets _ (fun hns => hB (nsOf_inj hns).1)
  have hns : ∀ B, B ≠ A → s'.ns K B = s.ns K B := by
    intro B hB
    rw [State.ns, State.ns, ht.epoch B hB]
  refine ⟨?_, ?_, ?_⟩
  · intro B e he
    by_cases hBA : B = A
    · subst hBA
      exact hA.later e he
    · rw [hsets B e hBA]
      exact h.later B e (by rwa [ht.epoch B hBA] at he)
  · intro B hB
    by_cases hBA : B = A
    · subst hBA
      exact hA.free hB
    · rw [hns B hBA, State.ns, hsets B _ hBA]
      exact h.free B (by rwa [ht.limits B hBA] at hB)
  · intro B hB
    by_cases hBA : B = A
    · subst hBA
      exact hA.counted hB
    · rw [ht.limits B hBA] at hB ⊢
      have hc := h.counted B hB
      have hs := hsets B (s.epoch B) hBA
      simp only [State.sets, Sets.mk.injEq] at hs
      rw [Counted, hns B hBA, State.ns, hs.1, hs.2.1]
      exact hc

omit [DecidableEq W] in
/-- The namespaces of later epochs are not the current one. -/
theorem later_of_touches {A : Address} (h : Tidy K s) (ht : OnlyTouches K A s s')
    (he : s'.epoch = s.epoch) (e : Uint256) (hlt : (s'.epoch A).toNat < e.toNat) :
    s'.sets (nsOf K A e) = Sets.empty := by
  rw [he] at hlt
  rw [ht.sets _ (fun hns => ?_)]
  · exact h.later A e hlt
  · rw [(nsOf_inj hns).2] at hlt
    exact absurd hlt (lt_irrefl _)

theorem installed_counted {A : Address} {init : GatewayGuardInit} (h : Tidy K s)
    (hfree : (s.limits A).gatewayWallet = 0)
    (hcount : ¬ ((init.recipients.foldl insertCounted
      (s.recipientCount (s.ns K A), s.recipients (s.ns K A))).1 = 0 ∧ init.addressBook = 0)) :
    Counted (s.installed K A init) init.limits (s.ns K A) := by
  have hempty := h.free A hfree
  simp only [State.sets, Sets.empty, Sets.mk.injEq] at hempty
  rw [Counted, State.installed]
  simp only [Function.update_self]
  refine ⟨foldl_insertCounted_count _ ?_, ?_⟩
  · rw [hempty.1, hempty.2.1, countTrue_empty]
  · intro hbook
    have hb : init.addressBook = 0 := hbook
    exact Nat.one_le_iff_ne_zero.mpr (fun hz => hcount ⟨hz, hb⟩)

theorem setGatewayRecipient_counted {A : Address} {recipient : Bytes32} {allowed : Bool}
    (hc : Counted s (s.limits A) (s.ns K A))
    (h : setGatewayRecipient K s A recipient allowed = .ok s') :
    Counted s' (s.limits A) (s.ns K A) := by
  obtain ⟨-, rfl | ⟨hr, rfl⟩ | ⟨hr, hne, rfl⟩⟩ := setGatewayRecipient_cases h
  · exact hc
  · rw [Counted, set₂]
    simp only [Function.update_self]
    exact ⟨by rw [countTrue_insert hr, hc.1], fun _ => by omega⟩
  · rw [Counted, set₂]
    simp only [Function.update_self]
    have herase := countTrue_erase hr
    have hcount := hc.1
    refine ⟨by omega, ?_⟩
    intro hb
    have : ¬ s.recipientCount (s.ns K A) ≤ 1 := fun hle => hne ⟨hle, hb⟩
    omega

/-- **Every call keeps the invariant.** -/
theorem tidy_step (h : Tidy K s) (hstep : step K s tx = some s') : Tidy K s' := by
  have ht := onlyTouches_of_step hstep
  refine h.of_touches ht ?_
  have setter : SetterFrame K tx.account s s' →
      Counted s' (s.limits tx.account) (s.ns K tx.account) → TidyAt K tx.account s' := by
    intro hf hc
    have hns : s'.ns K tx.account = s.ns K tx.account := by rw [State.ns, State.ns, hf.epoch]
    refine ⟨later_of_touches h ht hf.epoch, ?_, ?_⟩
    · intro hz
      rw [hf.gatewayWallet] at hz
      exact absurd hz hf.installed
    · intro _
      rw [hns, Counted, hf.addressBook]
      exact hc
  rcases step_cases hstep with ⟨init, -, hx⟩ | ⟨-, hx⟩ | ⟨r, a, -, hx⟩ | ⟨hf, hr, hn⟩
  · obtain ⟨hfree, hw, hcount, rfl⟩ := install_eq_ok hx
    have hl : (s.installed K tx.account init).limits tx.account = init.limits := by
      simp [State.installed]
    refine ⟨later_of_touches h ht rfl, ?_, ?_⟩
    · intro hz
      rw [hl] at hz
      exact absurd hz hw
    · intro _
      rw [hl]
      exact installed_counted h hfree hcount
  · obtain ⟨-, hlt, rfl⟩ := uninstall_eq_ok hx
    have he : (s.epoch tx.account + 1).toNat = (s.epoch tx.account).toNat + 1 := by
      rw [BitVec.toNat_add, Nat.mod_eq_of_lt (by simpa using hlt)]
      rfl
    refine ⟨fun e hlt' => ?_, fun _ => ?_, fun hz => absurd ?_ hz⟩
    · simp only [Function.update_self] at hlt'
      exact h.later tx.account e (by omega)
    · have := h.later tx.account (s.epoch tx.account + 1) (by omega)
      simpa [State.ns, State.sets] using this
    · simp [Limits.deleted]
  · have hf := setGatewayRecipient_frame hx
    exact setter hf (setGatewayRecipient_counted (h.counted tx.account hf.installed) hx)
  · refine setter hf ?_
    rw [Counted, hr, hn]
    exact h.counted tx.account hf.installed

/-! ### Isolation and freshness -/

/-- The lookups of an account are exactly the entries of an init; of repeated
domains and tokens the last entry counts. -/
structure FreshFrom (K : Keccak W) (s : State W) (A : Address) (init : GatewayGuardInit) : Prop where
  recipients : ∀ r, s.recipients (s.ns K A) r = decide (r ∈ init.recipients)
  domains : ∀ n, s.domains (s.ns K A) n = decide (n ∈ init.destinationDomains)
  tokens : ∀ t, s.tokens (s.ns K A) t = (lastEntry init.tokenEntries t).getD ⟨[], []⟩
  destTokens : ∀ t, s.destTokens (s.ns K A) t = decide (t ∈ init.destinationTokens)
  minters : ∀ n, s.minters (s.ns K A) n
    = (lastEntry (init.destinationDomains.zip init.destinationMinters) n).getD 0
  callers : ∀ c, s.callers (s.ns K A) c = decide (c ∈ init.destinationCallers)

theorem installed_freshFrom {A : Address} {init : GatewayGuardInit} (h : Tidy K s)
    (hfree : (s.limits A).gatewayWallet = 0) : FreshFrom K (s.installed K A init) A init := by
  have hempty := h.free A hfree
  simp only [State.sets, Sets.empty, Sets.mk.injEq] at hempty
  obtain ⟨h1, -, h3, h4, h5, h6, h7⟩ := hempty
  have hns : (s.installed K A init).ns K A = s.ns K A := rfl
  refine ⟨fun r => ?_, fun n => ?_, fun t => ?_, fun t => ?_, fun n => ?_, fun c => ?_⟩
  all_goals
    rw [hns]
    simp only [State.installed, Function.update_self]
  · rw [foldl_insertCounted_snd, insertAll_apply, h1, Bool.false_or]
  · rw [insertAll_apply, h3, Bool.false_or]
  · rw [setAll_apply, h4]
  · rw [insertAll_apply, h5, Bool.false_or]
  · rw [setAll_apply, h6]
  · rw [insertAll_apply, h7, Bool.false_or]

theorem checkIntent_of_uninstalled {A : Address} (h : (s.limits A).gatewayWallet = 0) (env : Env W)
    (block : Block) (caller : Address) (hash : W) (kind : Uint8) (payload : Bytes) :
    checkIntent K env block s A caller hash kind payload = .error (.guardNotInstalled A) := by
  have hr : require (ε := Revert W) ((s.limits A).gatewayWallet ≠ 0) (.guardNotInstalled A)
      = .error (.guardNotInstalled A) := if_neg (not_not.mpr h)
  rw [checkIntent, hr]
  rfl

/-- **Configurations are isolated and fresh**, over every run of calls by any
accounts. -/
theorem guard_isolated_fresh {h : List (Call (State W) (Tx W))}
    (hr : Run (step K) State.initial h s) :
    (∀ c ∈ h, ∀ B, B ≠ c.act.account → ∀ env block caller hash kind payload,
        checkIntent K env block c.post B caller hash kind payload
          = checkIntent K env block c.pre B caller hash kind payload)
      ∧ (∀ c ∈ h, ∀ init, c.act.action = .onInstall init →
        FreshFrom K c.post c.act.account init)
      ∧ (∀ A, (s.limits A).gatewayWallet ≠ 0 →
        s.recipientCount (s.ns K A) = countTrue (s.recipients (s.ns K A))
          ∧ ((s.limits A).addressBook = 0 → 1 ≤ s.recipientCount (s.ns K A)))
      ∧ (∀ A, (s.limits A).gatewayWallet = 0 → ∀ env block caller hash kind payload,
        ∃ e, checkIntent K env block s A caller hash kind payload = .error e) := by
  have htidy : Tidy K s := hr.invariant tidy_initial (fun _ _ _ ht hstep => tidy_step ht hstep)
  refine ⟨?_, ?_, fun A hA => htidy.counted A hA, ?_⟩
  · intro c hc B hB env block caller hash kind payload
    obtain ⟨i, hi⟩ := List.getElem?_of_mem hc
    have ht := onlyTouches_of_step (hr.of_getElem hi).2
    refine checkIntent_congr (ht.limits B hB) (ht.epoch B hB) (ht.sets _ ?_) env block
      caller hash kind payload
    intro hns
    exact hB (nsOf_inj hns).1
  · intro c hc init ha
    obtain ⟨i, hi⟩ := List.getElem?_of_mem hc
    have hpre : Tidy K c.pre :=
      hr.invariant_pre hi tidy_initial (fun _ _ _ ht hstep => tidy_step ht hstep)
    have hx := toOption_eq_some.mp (hr.of_getElem hi).2
    rw [exec, ha] at hx
    obtain ⟨hfree, -, -, hpost⟩ := install_eq_ok hx
    rw [hpost]
    exact installed_freshFrom hpre hfree
  · intro A hA env block caller hash kind payload
    exact ⟨_, checkIntent_of_uninstalled hA env block caller hash kind payload⟩

end

/-! ### A reinstallation -/

/-- A configuration with repeated entries. -/
def firstInit : GatewayGuardInit where
  gatewayWallet := 3
  perIntentCap := 100
  maxFeeCap := 10
  maxExpiryBlocks := 1000
  recipients := [9, 9]
  destinationDomains := [6, 6]
  tokens := [4]
  tokenNames := [ascii "USDC"]
  tokenVersions := [ascii "2"]
  destinationTokens := [8]
  sourceDomain := 7
  destinationMinters := [5, 12]
  destinationCallers := []
  addressBook := 0

def secondInit : GatewayGuardInit := { firstInit with recipients := [10] }

/-- No address book answers. -/
def noBook : Env Term where
  validateAddressBook _ book := .error (.invalidAddressBook book)
  getAllowedRecipients _ _ := none

def installTx (init : GatewayGuardInit) : Tx Term := ⟨1, noBook, .onInstall init⟩

def uninstallTx : Tx Term := ⟨1, noBook, .onUninstall⟩

def firstState : State Term := State.initial.installed Keccak.symbolic 1 firstInit

def betweenState : State Term :=
  { firstState with
    limits := Function.update firstState.limits 1 .deleted
    epoch := Function.update firstState.epoch 1 (firstState.epoch 1 + 1) }

def secondState : State Term := betweenState.installed Keccak.symbolic 1 secondInit

theorem firstInit_step :
    step Keccak.symbolic State.initial (installTx firstInit) = some firstState := rfl

theorem uninstall_step : step Keccak.symbolic firstState uninstallTx = some betweenState := rfl

theorem secondInit_step :
    step Keccak.symbolic betweenState (installTx secondInit) = some secondState := rfl

theorem reinstall_run : Run (step Keccak.symbolic) State.initial
    [⟨.initial, installTx firstInit, firstState⟩, ⟨firstState, uninstallTx, betweenState⟩,
      ⟨betweenState, installTx secondInit, secondState⟩] secondState :=
  ((Run.nil.snoc firstInit_step).snoc uninstall_step).snoc secondInit_step

theorem guard_isolated_fresh_reinstall : FreshFrom Keccak.symbolic secondState 1 secondInit :=
  (guard_isolated_fresh reinstall_run).2.1
    ⟨betweenState, installTx secondInit, secondState⟩ (by simp) secondInit rfl

end Bufi.Guard
