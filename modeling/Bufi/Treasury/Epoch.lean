import Bufi.Treasury.Timelock

/-!
# Signatures across epochs

`adminEpoch` is there so that a signature collected under one configuration is
dead under the next.  Of the four digests that a quorum signs, only the one of
`queueAdmin` contains the epoch.

`NoReplay a` is the promise for one action: a blob signed over the digest that
`a` checks in one reachable state is refused in every reachable state of a later
epoch.  A signature is over one digest only, which is what a `SigBook` records:
an oracle may change its mind about a signature, but it never accepts it for
another digest.  `noReplay_iff_queue` says that the promise is kept for
`queueAdmin` and for no other action.
-/

namespace Bufi.Treasury

open Bufi.Evm Bufi.Gateway

/-- The one digest that a signature is over, of a key and of a contract owner. -/
structure SigBook (W : Type) where
  ecdsa : UInt8 → Bytes32 → Bytes32 → Option W
  contract : Address → Bytes → Option W

/-- The oracle accepts every signature for its own digest at most. -/
structure SigBook.Explains {W : Type} (book : SigBook W) (O : SigOracle W) : Prop where
  ecdsa : ∀ {hash v r s a}, O.tryRecover hash v r s = some a → book.ecdsa v r s = some hash
  contract : ∀ {hash a sig gas}, isValidERC1271 O a hash sig gas = true →
    book.contract a sig = some hash

/-- The digest that slot `i` of a blob is a signature over. -/
def SigBook.slotDigest {W : Type} (book : SigBook W) (b : Bytes) (i : ℕ) : Option W :=
  if slotV b i = 0 then book.contract (toAddress (slotR b i)) (slotBody b i)
  else book.ecdsa (slotV b i) (slotR b i) (slotS b i)

/-- Every slot of the static part is a signature over `digest`. -/
def SignedOver {W : Type} (book : SigBook W) (digest : W) (b : Bytes) : Prop :=
  ∀ i, 65 * (i + 1) ≤ staticEndOf b i → book.slotDigest b i = some digest

/-- The actions that a quorum signs. -/
inductive SignedAction (W : Type)
  | queueAdmin (call : Bytes) (nonce deadline : Uint256)
  | cancelAdmin (nonce : Uint256)
  | pause (nonce : Uint256)
  | revokeIntent (digest : W)

section

variable {W : Type} [DecidableEq W] {K : Keccak W} {d : Deployment}

/-- The digest an action checks in a state. -/
def SignedAction.digest (K : Keccak W) (d : Deployment) (s : State W) : SignedAction W → W
  | .queueAdmin call nonce deadline => queueDigest K d call nonce deadline s.adminEpoch
  | .cancelAdmin nonce => cancelDigest K d nonce
  | .pause nonce => pauseDigest K d nonce
  | .revokeIntent digest => revokeDigest K d digest

/-- The call that submits a blob for an action. -/
def SignedAction.submit (ownerSigs : MemBytes) : SignedAction W → Action W
  | .queueAdmin call nonce deadline => .queueAdmin call nonce deadline ownerSigs
  | .cancelAdmin nonce => .cancelAdmin nonce ownerSigs
  | .pause nonce => .pause nonce ownerSigs
  | .revokeIntent digest => .revokeIntent digest ownerSigs

def SignedAction.IsQueue : SignedAction W → Prop
  | .queueAdmin _ _ _ => True
  | _ => False

omit [DecidableEq W] in
theorem queueDigest_epoch_inj {call : Bytes} {nonce deadline e e' : Uint256}
    (h : queueDigest K d call nonce deadline e = queueDigest K d call nonce deadline e') :
    e = e' := by
  have hl := K.hashWords_inj (K.hashTyped_inj h).2
  simp only [List.cons.injEq, and_true, true_and] at hl
  exact K.word_inj hl

/-- A submission that succeeds has a quorum over the digest of its action. -/
theorem hasQuorum_of_submit {s s' : State W} {tx : Tx W d} {a : SignedAction W}
    {ownerSigs : MemBytes} (ha : tx.action = a.submit ownerSigs) (h : step K d s tx = some s') :
    HasQuorum d tx.sigs s (a.digest K d s) ownerSigs := by
  have h := toOption_eq_some.mp h
  rw [exec, ha] at h
  cases a with
  | queueAdmin call nonce deadline => exact (queueAdmin_eq_ok.mp h).2.2.1
  | cancelAdmin nonce => exact (cancelAdmin_eq_ok.mp h).2.1
  | pause nonce => exact (pause_eq_ok.mp h).2.1
  | revokeIntent digest => exact (revokeIntent_eq_ok.mp h).1

omit [DecidableEq W] in
/-- A quorum is over the digest its blob was signed over. -/
theorem HasQuorum.digest_eq {O : SigOracle W} {s : State W} {D D' : W} {ownerSigs : MemBytes}
    {book : SigBook W} (h0 : s.weights 0 = 0) (hq : HasQuorum d O s D' ownerSigs)
    (hb : book.Explains O) (hs : SignedOver book D ownerSigs.data) : D' = D := by
  obtain ⟨k, l, hblob⟩ := (checkWeightedSigs_eq_true_iff h0).mp hq
  have hpos := hblob.pos
  have hlen : 0 < l.length := by rw [hblob.length_eq]; exact hpos
  have hslot := hblob.slots 0 l[0] (List.getElem?_eq_getElem hlen)
  have hend : 65 * (0 + 1) ≤ staticEndOf ownerSigs.data 0 := by
    have h1 := staticEndOf_antitone ownerSigs.data (Nat.zero_le k)
    have h2 := hblob.static_end
    omega
  have hD := hs 0 hend
  rw [SigBook.slotDigest] at hD
  cases hslot with
  | eoa hv _ hr =>
    rw [if_neg hv, hb.ecdsa hr] at hD
    exact Option.some.inj hD
  | contract hv _ ha _ _ _ hok =>
    rw [ha] at hok
    rw [if_pos hv, hb.contract hok] at hD
    exact Option.some.inj hD

/-- **The promise for one action.**  What was signed under a reachable state is
refused under every reachable state of a later epoch. -/
def NoReplay (K : Keccak W) (a : SignedAction W) : Prop :=
  ∀ {treasury : Address} {chainid : Uint256} {p : SignerParams} {pol : PolicyParams}
    {d : Deployment} {s₀ s₁ s₂ : State W} {h₁ h₂ : List (Call (State W) (Tx W d))},
    deploy K treasury chainid p pol = .ok (d, s₀) → Run (step K d) s₀ h₁ s₁ →
    Run (step K d) s₀ h₂ s₂ → s₁.adminEpoch.toNat < s₂.adminEpoch.toNat →
    ∀ (book : SigBook W) (ownerSigs : MemBytes),
      SignedOver book (a.digest K d s₁) ownerSigs.data →
      ∀ tx : Tx W d, book.Explains tx.sigs → tx.action = a.submit ownerSigs →
        step K d s₂ tx = none

theorem noReplay_queue (K : Keccak W) (call : Bytes) (nonce deadline : Uint256) :
    NoReplay K (.queueAdmin call nonce deadline) := by
  intro treasury chainid p pol d s₀ s₁ s₂ h₁ h₂ hd hr₁ hr₂ hlt book sigs hsigned tx hb ha
  by_contra hne
  obtain ⟨s', hstep⟩ := Option.ne_none_iff_exists'.mp hne
  have hq := hasQuorum_of_submit ha hstep
  have hctl := controlled_of_run hd hr₂
  have heq := queueDigest_epoch_inj (hq.digest_eq hctl.signers.weight_zero hb hsigned)
  rw [heq] at hlt
  exact absurd hlt (lt_irrefl _)

/-! ### The other three -/

/-- The book of the sole owner's signatures. -/
def soleBook (sign : Uint256 → Option W) : SigBook W where
  ecdsa v r s := if v = 27 ∧ s = 1 then sign r else none
  contract _ _ := none

theorem soleBook_explains (sign : Uint256 → Option W) :
    (soleBook sign).Explains (soleOwnerOracle sign) where
  ecdsa := by
    intro hash v r s a h
    obtain ⟨⟨hv, hs, hr⟩, -⟩ := Option.ite_none_right_eq_some.mp h
    exact (if_pos ⟨hv, hs⟩).trans hr
  contract := by
    intro hash a sig gas h
    have hcode : (soleOwnerOracle sign).codeLength a = 0 := rfl
    rw [isValidERC1271, if_pos hcode] at h
    exact absurd h (by simp)

omit [DecidableEq W] in
theorem soleBook_signedOver {sign : Uint256 → Option W} {r : Uint256} {D : W}
    (h : sign r = some D) : SignedOver (soleBook sign) D (soleOwnerBlob r).data := by
  intro i hi
  have hlen := staticEndOf_le_length (soleOwnerBlob r).data i
  have hl : (soleOwnerBlob r).data.length = 65 := by simp [soleOwnerBlob, soleOwnerSig]
  obtain rfl : i = 0 := by omega
  change (soleBook sign).slotDigest (soleOwnerSig r) 0 = some D
  have hv : (27 : UInt8) ≠ 0 := by decide
  rw [SigBook.slotDigest, slotV_soleOwnerSig, slotR_soleOwnerSig, slotS_soleOwnerSig, if_neg hv]
  simpa [soleBook] using h

/-- The nonce of the action, for a run that must not use it. -/
def SignedAction.nonce : SignedAction W → Uint256
  | .queueAdmin _ nonce _ | .cancelAdmin nonce | .pause nonce => nonce
  | .revokeIntent _ => 0

/-- In the later epoch the sole owner's old signature is a quorum, and the
action goes through. -/
theorem replay_step (K : Keccak W) {a : SignedAction W} (ha : ¬ a.IsQueue) {m : Uint256}
    (hm : a.nonce ≠ m) :
    ∃ s', step K soleDeployment (executedState K m)
      (soleTx K m (a.digest K soleDeployment (soleState K)) 200 (a.submit (soleOwnerBlob 2)))
        = some s' := by
  have hsign : soleSigns K m (a.digest K soleDeployment (soleState K)) 2
      = some (a.digest K soleDeployment (soleState K)) := rfl
  have hq := soleOwner_quorum hsign
  cases a with
  | queueAdmin call nonce deadline => exact absurd trivial ha
  | cancelAdmin nonce =>
    have hused : (executedState K m).usedNonces nonce = false := Function.update_of_ne hm _ _
    have hop : ((executedState K m).adminOps nonce).callHash = K.word 0 := by
      have hne : nonce ≠ m := hm
      simp [executedState, State.markExecuted, queuedState, soleState, Function.update_of_ne hne]
    have hcan : Cancellable K (executedState K m) nonce := by
      rw [Cancellable, if_pos hop]
      exact hused
    exact ⟨_, toOption_eq_some.mpr (cancelAdmin_eq_ok.mpr ⟨hcan, hq, rfl⟩)⟩
  | pause nonce =>
    have hused : (executedState K m).usedNonces nonce = false := Function.update_of_ne hm _ _
    exact ⟨_, toOption_eq_some.mpr (pause_eq_ok.mpr ⟨hused, hq, rfl⟩)⟩
  | revokeIntent digest => exact ⟨_, toOption_eq_some.mpr (revokeIntent_eq_ok.mpr ⟨hq, rfl⟩)⟩

theorem not_noReplay (K : Keccak W) {a : SignedAction W} (ha : ¬ a.IsQueue) : ¬ NoReplay K a := by
  intro hno
  obtain ⟨m, hm⟩ : ∃ m : Uint256, a.nonce ≠ m := ⟨a.nonce + 1, by bv_omega⟩
  obtain ⟨s', hstep⟩ := replay_step K ha hm
  have hsigned := soleBook_signedOver
    (show soleSigns K m (a.digest K soleDeployment (soleState K)) 2 = some _ from rfl)
  have hnone := hno (soleDeploy K) Run.nil
    (soleRun K m (a.digest K soleDeployment (soleState K))) (show 0 < 1 by decide) _ _ hsigned
    (soleTx K m (a.digest K soleDeployment (soleState K)) 200 (a.submit (soleOwnerBlob 2)))
    (soleBook_explains _) rfl
  rw [hstep] at hnone
  exact absurd hnone (by simp)

/-- **Only `queueAdmin` keeps the promise.** -/
theorem noReplay_iff_queue (K : Keccak W) (a : SignedAction W) : NoReplay K a ↔ a.IsQueue := by
  constructor
  · intro hno
    by_contra ha
    exact not_noReplay K ha hno
  · intro ha
    cases a with
    | queueAdmin call nonce deadline => exact noReplay_queue K call nonce deadline
    | cancelAdmin | pause | revokeIntent => exact absurd ha id

end

/-- A cancellation of nonce `5` signed in epoch `0` cancels it in epoch `1`. -/
theorem cancelAdmin_replayed :
    ¬ (∀ a : SignedAction Term, NoReplay Keccak.symbolic a)
      ∧ (soleState Keccak.symbolic).adminEpoch < (executedState Keccak.symbolic 1).adminEpoch
      ∧ (step Keccak.symbolic soleDeployment (executedState Keccak.symbolic 1)
          (soleTx Keccak.symbolic 1 (cancelDigest Keccak.symbolic soleDeployment 5) 200
            (.cancelAdmin 5 (soleOwnerBlob 2)))).isSome := by
  refine ⟨fun h => not_noReplay _ (a := .cancelAdmin 5) id (h _), by decide, ?_⟩
  obtain ⟨s', hstep⟩ := replay_step Keccak.symbolic (a := .cancelAdmin 5) id (m := 1) (by decide)
  exact Option.isSome_iff_exists.mpr ⟨s', hstep⟩

end Bufi.Treasury
