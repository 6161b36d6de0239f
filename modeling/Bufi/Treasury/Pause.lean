import Bufi.Treasury.Erc1271

/-!
# The emergency stop

`pause` takes effect at once and `setPaused(false)` goes through the queue, so a
stop should last for the timelock at least.  What decides is where the op that
lifts it was queued.  An op stays executable by anybody for a grace period after
its eta, and `pause` neither raises the epoch nor looks at the queue: a
`setPaused(false)` queued before the pause and still alive when it is taken
lifts it at once (`step_of_liveUnpause`, `pauseHolds_not_unpauseFirst`).

Without such an op the stop holds: `pauseHolds_of_not_live` says that a burn
signature is accepted again only after the execution of a `setPaused(false)`
that was itself queued after the pause.
-/

namespace Bufi.Treasury

open Bufi.Evm Bufi.Gateway

section

variable {W : Type} [DecidableEq W] {K : Keccak W} {d : Deployment} {s₀ s s' : State W} {tx : Tx W d}
  {h : List (Call (State W) (Tx W d))} {nonce : Uint256}

/-! ### The statement -/

/-- Some signature of kind `0` is accepted, in some block, for some caller. -/
def AcceptsBurnSignature (K : Keccak W) (d : Deployment) (s : State W) : Prop :=
  ∃ (block : Block) (O : SigOracle W) (caller : Address) (hash : W) (signature : Bytes)
    (payload ownerSigs : MemBytes), decodeSignature signature = some (0, payload, ownerSigs)
    ∧ isValidSignature K d s block O hash signature caller = some erc1271MagicValue

/-- The timestamps of the calls do not decrease. -/
def TimesInOrder (h : List (Call (State W) (Tx W d))) : Prop :=
  h.Pairwise (fun a b => a.act.timestamp.toNat ≤ b.act.timestamp.toNat)

/-- Call `k` executes a `setPaused(false)` that call `j` queued. -/
structure Unpauses (h : List (Call (State W) (Tx W d))) (j k : ℕ) (q e : Call (State W) (Tx W d)) :
    Prop where
  queued_at : h[j]? = some q
  executed_at : h[k]? = some e
  unpause : ∃ call nonce deadline ownerSigs,
    q.act.action = .queueAdmin call nonce deadline ownerSigs
      ∧ e.act.action = .executeAdmin call nonce
      ∧ decodeAdminCall call = some (.setPaused false)

/-- **The pause of call `i` holds**: whatever lifts it was queued after it, so
that with an unchanged timelock it stands for the length of the timelock; and
what was signed for it is of no use a second time. -/
structure PauseHolds (K : Keccak W) (h : List (Call (State W) (Tx W d))) (s : State W) (i : ℕ)
    (c : Call (State W) (Tx W d)) (nonce : Uint256) : Prop where
  until_unpause : AcceptsBurnSignature K d s →
    ∃ j k q e, i < j ∧ j < k ∧ Unpauses h j k q e ∧ c.act.timestamp.toNat ≤ q.act.timestamp.toNat
  only_later : ∀ (j k : ℕ) (q e : Call (State W) (Tx W d)), i < k → Unpauses h j k q e → i < j
  timelocked : ∀ now : ℕ, (∀ x ∈ h, x.act.timestamp.toNat ≤ now) →
    (∀ (l : ℕ) (x : Call (State W) (Tx W d)), i ≤ l → h[l]? = some x →
      x.pre.adminTimelock = c.pre.adminTimelock) →
    now < c.act.timestamp.toNat + c.pre.adminTimelock.toNat → ¬ AcceptsBurnSignature K d s
  no_replay : ∀ (book : SigBook W) (ownerSigs : MemBytes),
    SignedOver book (pauseDigest K d nonce) ownerSigs.data →
    ∀ (tx : Tx W d) (a : SignedAction W), book.Explains tx.sigs → tx.action = a.submit ownerSigs →
      step K d s tx = none

/-- At `timestamp` an op that lifts the pause is queued and can still be
executed, now or when its eta has come. -/
def LiveUnpause (K : Keccak W) (s : State W) (timestamp : Uint256) : Prop :=
  ∃ nonce call, decodeAdminCall call = some (.setPaused false)
    ∧ (s.adminOps nonce).callHash = K.hash call
    ∧ (s.adminOps nonce).executed = false
    ∧ (s.adminOps nonce).cancelled = false
    ∧ (s.adminOps nonce).epoch = s.adminEpoch
    ∧ timestamp.toNat ≤ (s.adminOps nonce).eta.toNat + adminOpGrace
    ∧ (s.adminOps nonce).eta.toNat + adminOpGrace < 2 ^ 256

/-! ### While the stop is up -/

theorem paused_eq_false_of_accepts (ha : AcceptsBurnSignature K d s) : s.paused = false := by
  obtain ⟨block, O, caller, hash, signature, payload, sigs, hdec, hvalid⟩ := ha
  rw [isValidSignature_eq, Option.some.injEq] at hvalid
  split_ifs at hvalid with hin
  · have hin := hin.2
    rw [validateSignatureInternal, hdec, Option.bind_eq_bind, Option.bind_some] at hin
    obtain ⟨b, hb, hin⟩ := Option.bind_eq_some_iff.mp hin
    cases b with
    | false => exact absurd hin (by simp)
    | true => exact ((passesPolicy_iff.mp hb).2 rfl).1
  · exact absurd hvalid (by decide)

omit [DecidableEq W] in
/-- No setter but `setPaused` reaches the stop. -/
theorem runAdmin_paused {c : Callees} {admin : AdminCall} (h : runAdmin d c s admin = .ok s') :
    s'.paused = s.paused ∨ ∃ b, admin = .setPaused b ∧ s'.paused = b := by
  cases admin with
  | setPaused b =>
    obtain rfl := pure_eq_ok.mp h
    exact Or.inr ⟨b, rfl, rfl⟩
  | setOwners owners weights threshold =>
    simp only [runAdmin, setOwners, bind_eq_ok, require_eq_ok, exists_const, pure_eq_ok] at h
    obtain ⟨-, -, total, -, -, epoch, -, rfl⟩ := h
    exact Or.inl rfl
  | setAdminTimelock secs =>
    simp only [runAdmin, setAdminTimelock, bind_eq_ok, pure_eq_ok] at h
    obtain ⟨epoch, -, rfl⟩ := h
    exact Or.inl rfl
  | setAllowedRecipient recipient allowed =>
    rcases setAllowedRecipient_cases h with rfl | ⟨-, rfl⟩ | ⟨-, -, rfl⟩
    all_goals exact Or.inl rfl
  | setAllowedToken token name version allowed =>
    simp only [runAdmin, setAllowedToken] at h
    split_ifs at h
    · simp only [bind_eq_ok, require_eq_ok, exists_const, pure_eq_ok] at h
      exact Or.inl (by rw [h.2])
    · exact Or.inl (by rw [pure_eq_ok.mp h])
  | setPerIntentCap | setMaxExpiryBlocks =>
    simp only [runAdmin, setPerIntentCap, setMaxExpiryBlocks, bind_eq_ok, require_eq_ok,
      exists_const, pure_eq_ok] at h
    exact Or.inl (by rw [h.2])
  | gatewayInitiateWithdrawal | gatewayWithdraw =>
    simp only [runAdmin, gatewayInitiateWithdrawal, gatewayWithdraw, bind_eq_ok, require_eq_ok,
      orRevert_eq_ok, exists_const, pure_eq_ok] at h
    obtain ⟨-, u, -, rfl⟩ := h
    exact Or.inl rfl
  | transferToRecipient token recipient amount =>
    simp only [runAdmin, transferToRecipient, bind_eq_ok, require_eq_ok, orRevert_eq_ok,
      exists_const, pure_eq_ok] at h
    obtain ⟨-, -, -, ok, -, -, rfl⟩ := h
    exact Or.inl rfl
  | setAllowedDestinationDomain | setMaxFeeCap | setAllowedDestinationToken | setDestinationMinter
  | setAllowedDestinationCaller =>
    exact Or.inl (by rw [pure_eq_ok.mp h]; rfl)

/-- **Only an executed `setPaused(false)` lifts the stop.** -/
theorem stays_paused (hp : s.paused = true) (hstep : step K d s tx = some s') :
    s'.paused = true ∨ ∃ call nonce, tx.action = .executeAdmin call nonce
      ∧ decodeAdminCall call = some (.setPaused false) := by
  cases effect_of_step hstep with
  | @executed call n admin _ ha _ hdec ran =>
    rcases runAdmin_paused ran with hsame | ⟨b, rfl, hb⟩
    · exact Or.inl (hsame.trans hp)
    · cases b with
      | true => exact Or.inl hb
      | false => exact Or.inr ⟨call, n, ha, hdec⟩
  | queued | cancelled | revoked | swept => exact Or.inl hp
  | paused => exact Or.inl rfl

/-- From a pause on, the stop is up or a later call has lifted it. -/
theorem paused_or_executed {i : ℕ} {c : Call (State W) (Tx W d)} {ownerSigs : MemBytes}
    (hr : Run (step K d) s₀ h s) (hi : h[i]? = some c) (ha : c.act.action = .pause nonce ownerSigs) :
    s.paused = true ∨ ∃ k e call n, i < k ∧ h[k]? = some e
      ∧ e.act.action = .executeAdmin call n ∧ decodeAdminCall call = some (.setPaused false) := by
  induction hr with
  | nil => simp at hi
  | @snoc h s s' tx hr hstep ih =>
    rcases Nat.lt_trichotomy i h.length with hlt | heq | hgt
    · rw [List.getElem?_append_left hlt] at hi
      rcases ih hi with hp | ⟨k, e, call, n, hik, hk, he, hdec⟩
      · rcases stays_paused hp hstep with hp' | ⟨call, n, he, hdec⟩
        · exact Or.inl hp'
        · exact Or.inr ⟨h.length, _, call, n, hlt, List.getElem?_concat_length, he, hdec⟩
      · have hkl : k < h.length := (List.getElem?_eq_some_iff.mp hk).1
        exact Or.inr ⟨k, e, call, n, hik, by rw [List.getElem?_append_left hkl]; exact hk, he, hdec⟩
    · subst heq
      rw [List.getElem?_concat_length] at hi
      obtain rfl := Option.some.inj hi
      have hx := toOption_eq_some.mp hstep
      rw [exec, ha] at hx
      obtain ⟨-, -, rfl⟩ := pause_eq_ok.mp hx
      exact Or.inl rfl
    · rw [List.getElem?_eq_none (by simp; omega)] at hi
      exact absurd hi (by simp)

/-! ### Which op lifted it -/

omit [DecidableEq W] in
theorem TimesInOrder.le {i j : ℕ} {c e : Call (State W) (Tx W d)} (ht : TimesInOrder h)
    (hi : h[i]? = some c) (hj : h[j]? = some e) (hij : i < j) :
    c.act.timestamp.toNat ≤ e.act.timestamp.toNat := by
  obtain ⟨hil, rfl⟩ := List.getElem?_eq_some_iff.mp hi
  obtain ⟨hjl, rfl⟩ := List.getElem?_eq_some_iff.mp hj
  exact List.pairwise_iff_getElem.mp ht i j hil hjl hij

omit [DecidableEq W] in
theorem OpKept.trans {a b c : State W} (h₁ : OpKept a b nonce) (h₂ : OpKept b c nonce) :
    OpKept a c nonce where
  used := h₂.used
  callHash := h₂.callHash.trans h₁.callHash
  eta := h₂.eta.trans h₁.eta
  epoch := h₂.epoch.trans h₁.epoch
  executed := fun hx => h₂.executed (h₁.executed hx)
  cancelled := fun hx => h₂.cancelled (h₁.cancelled hx)

/-- A nonce in use at one call keeps its op up to any later call. -/
theorem opKept_of_lt {i j : ℕ} {c e : Call (State W) (Tx W d)} (hr : Run (step K d) s₀ h s)
    (hi : h[i]? = some c) (hj : h[j]? = some e) (hij : i < j)
    (hu : c.pre.usedNonces nonce = true) : OpKept c.pre e.pre nonce :=
  hr.persists (P := fun s => OpKept c.pre s nonce) hi hj hij
    (opKept_of_step hu (hr.of_getElem hi).2)
    (fun _ _ _ hk hstep => hk.trans (opKept_of_step hk.used hstep))

/-- **An op that is executed after a call and was queued before it was alive at
that call**: the flags only go up, and the epoch was already the one in which
the op runs. -/
theorem alive_between {i j k : ℕ} {q c e : Call (State W) (Tx W d)} {call : Bytes}
    {deadline : Uint256} {ownerSigs : MemBytes} (hr : Run (step K d) s₀ h s) (ht : TimesInOrder h)
    (hi : h[i]? = some c) (hk : h[k]? = some e) (hji : j < i) (hik : i < k)
    (ho : Origin K h e.pre nonce j q call deadline ownerSigs)
    (hx : Executable K e.act.timestamp e.pre call nonce) :
    (c.pre.adminOps nonce).callHash = K.hash call
      ∧ (c.pre.adminOps nonce).executed = false
      ∧ (c.pre.adminOps nonce).cancelled = false
      ∧ (c.pre.adminOps nonce).epoch = c.pre.adminEpoch
      ∧ c.act.timestamp.toNat ≤ (c.pre.adminOps nonce).eta.toNat + adminOpGrace
      ∧ (c.pre.adminOps nonce).eta.toNat + adminOpGrace < 2 ^ 256 := by
  have hq : Consumes K nonce q := Or.inl ⟨_, _, _, ho.action⟩
  have hused : c.pre.usedNonces nonce = true :=
    hr.persists (P := fun s => s.usedNonces nonce = true) ho.at_index hi hji
      (hq.fresh (hr.of_getElem ho.at_index).2).2 (fun _ _ _ hu hstep => stays_used hu hstep)
  have hkept := opKept_of_lt hr hi hk hik hused
  have hepoch : (c.pre.adminOps nonce).epoch = c.pre.adminEpoch := by
    have h1 := (configStep_of_lt hr ho.at_index hi hji).1
    have h2 := (configStep_of_lt hr hi hk hik).1
    rw [← hx.current, ho.epoch] at h2
    rw [← hkept.epoch, ho.epoch]
    exact BitVec.eq_of_toNat_eq (le_antisymm h1 h2)
  refine ⟨by rw [← hkept.callHash, hx.call_eq], ?_, ?_, hepoch, ?_, ?_⟩
  · rw [Bool.eq_false_iff]
    intro hdone
    have := hkept.executed hdone
    rw [hx.not_executed] at this
    exact absurd this (by simp)
  · rw [Bool.eq_false_iff]
    intro hdone
    have := hkept.cancelled hdone
    rw [hx.not_cancelled] at this
    exact absurd this (by simp)
  · rw [← hkept.eta]
    exact le_trans (ht.le hi hk hik) hx.alive
  · rw [← hkept.eta]
    exact hx.last_lt

/-- Without a live op at the pause, what unpauses later was queued later. -/
theorem queued_after_pause {i k : ℕ} {c e : Call (State W) (Tx W d)} {ownerSigs : MemBytes}
    {call : Bytes} {n : Uint256} (hr : Run (step K d) s₀ h s) (h0 : NoOps K s₀) (ht : TimesInOrder h)
    (hi : h[i]? = some c) (ha : c.act.action = .pause nonce ownerSigs)
    (hlive : ¬ LiveUnpause K c.pre c.act.timestamp) (hk : h[k]? = some e) (hik : i < k)
    (he : e.act.action = .executeAdmin call n)
    (hdec : decodeAdminCall call = some (.setPaused false)) :
    ∃ j q deadline ownerSigs, i < j ∧ j < k ∧ Origin K h e.pre n j q call deadline ownerSigs := by
  obtain ⟨hx, -, j, q, deadline, sigs, hjk, ho⟩ := execution_origin hr h0 hk he
  refine ⟨j, q, deadline, sigs, ?_, hjk, ho⟩
  rcases Nat.lt_trichotomy i j with hij | rfl | hji
  · exact hij
  · have hq := ho.at_index
    rw [hi] at hq
    obtain rfl := Option.some.inj hq
    have hqa := ho.action
    rw [ha] at hqa
    exact absurd hqa (by simp)
  · exact absurd ⟨n, call, hdec, alive_between hr ht hi hk hji hik ho hx⟩ hlive

/-! ### Replay -/

omit [DecidableEq W] in
/-- A pause digest is the digest of that pause alone. -/
theorem eq_pause_of_digest {a : SignedAction W} (ha : a.digest K d s = pauseDigest K d nonce) :
    a = .pause nonce := by
  have hw := fun {x y : List W} {D : W}
      (he : K.hashTyped D (K.hashWords x) = K.hashTyped D (K.hashWords y)) =>
    K.hashWords_inj (K.hashTyped_inj he).2
  cases a with
  | queueAdmin call n deadline =>
    have := congrArg List.length (hw ha)
    simp at this
  | cancelAdmin n =>
    have hl := hw ha
    simp only [List.cons.injEq] at hl
    exact absurd (K.hash_inj hl.1) (by decide)
  | pause n =>
    have hl := hw ha
    simp only [List.cons.injEq, and_true, true_and] at hl
    rw [K.word_inj hl]
  | revokeIntent digest =>
    have hl := hw ha
    simp only [List.cons.injEq] at hl
    exact absurd (K.hash_inj hl.1) (by decide)

/-- A used nonce makes the signatures of its pause worthless. -/
theorem pause_not_replayed (h0 : s.weights 0 = 0) (hu : s.usedNonces nonce = true)
    {book : SigBook W} {ownerSigs : MemBytes}
    (hsigned : SignedOver book (pauseDigest K d nonce) ownerSigs.data) {a : SignedAction W}
    (hb : book.Explains tx.sigs) (ha : tx.action = a.submit ownerSigs) : step K d s tx = none := by
  by_contra hne
  obtain ⟨s', hstep⟩ := Option.ne_none_iff_exists'.mp hne
  have hdig := (hasQuorum_of_submit ha hstep).digest_eq h0 hb hsigned
  obtain rfl := eq_pause_of_digest hdig
  have hx := toOption_eq_some.mp hstep
  rw [exec, ha] at hx
  have hfresh := (pause_eq_ok.mp hx).1
  rw [hu] at hfresh
  exact absurd hfresh (by simp)

/-! ### The stop holds -/

/-- **A pause taken without a live `setPaused(false)` holds**, in every run from a
deployment. -/
theorem pauseHolds_of_not_live {treasury : Address} {chainid : Uint256} {p : SignerParams}
    {pol : PolicyParams} (hd : deploy K treasury chainid p pol = .ok (d, s₀))
    (hr : Run (step K d) s₀ h s) (ht : TimesInOrder h) {i : ℕ} {c : Call (State W) (Tx W d)}
    {ownerSigs : MemBytes} (hi : h[i]? = some c) (ha : c.act.action = .pause nonce ownerSigs)
    (hlive : ¬ LiveUnpause K c.pre c.act.timestamp) : PauseHolds K h s i c nonce := by
  have h0 := deploy_noOps hd
  have hfound : AcceptsBurnSignature K d s → ∃ j k q e call n deadline sigs, i < j ∧ j < k
      ∧ h[k]? = some e ∧ e.act.action = .executeAdmin call n
      ∧ decodeAdminCall call = some (.setPaused false)
      ∧ Origin K h e.pre n j q call deadline sigs := by
    intro hacc
    rcases paused_or_executed hr hi ha with hp | ⟨k, e, call, n, hik, hk, he, hdec⟩
    · rw [paused_eq_false_of_accepts hacc] at hp
      exact absurd hp (by simp)
    · obtain ⟨j, q, deadline, sigs, hij, hjk, ho⟩ :=
        queued_after_pause hr h0 ht hi ha hlive hk hik he hdec
      exact ⟨j, k, q, e, call, n, deadline, sigs, hij, hjk, hk, he, hdec, ho⟩
  refine ⟨?_, ?_, ?_, ?_⟩
  · intro hacc
    obtain ⟨j, k, q, e, call, n, deadline, sigs, hij, hjk, hk, he, hdec, ho⟩ := hfound hacc
    exact ⟨j, k, q, e, hij, hjk, ⟨ho.at_index, hk, call, n, deadline, sigs, ho.action, he, hdec⟩,
      ht.le hi ho.at_index hij⟩
  · intro j k q e hik hun
    obtain ⟨call, n, deadline, sigs, hq, he, hdec⟩ := hun.unpause
    obtain ⟨j', q', deadline', sigs', hij, -, ho⟩ :=
      queued_after_pause hr h0 ht hi ha hlive hun.executed_at hik he hdec
    rwa [consumes_unique hr hun.queued_at ho.at_index (Or.inl ⟨_, _, _, hq⟩)
      (Or.inl ⟨_, _, _, ho.action⟩)]
  · intro now hnow hsame hlt hacc
    obtain ⟨j, k, q, e, call, n, deadline, sigs, hij, hjk, hk, he, hdec, ho⟩ := hfound hacc
    -- the op's eta is the time it was queued and the unchanged timelock
    have hmat := (execution_origin hr h0 hk he).1.matured
    rw [ho.eta, hsame j q (Nat.le_of_lt hij) ho.at_index] at hmat
    have hqc := ht.le hi ho.at_index hij
    have hen := hnow e (List.mem_of_getElem? hk)
    omega
  · intro book sigs hsigned tx a hb hsub
    have hc : Consumes K nonce c := Or.inr (Or.inl ⟨_, ha⟩)
    obtain ⟨h', hr'⟩ := hr.after hi
    have hused : s.usedNonces nonce = true :=
      hr'.invariant
        (hc.fresh (hr.of_getElem hi).2).2 (fun _ _ _ hu hstep => stays_used hu hstep)
    exact pause_not_replayed (controlled_of_run hd hr).signers.weight_zero hused hsigned hb hsub

omit [DecidableEq W] in
/-- A call that decodes is long enough and has an allowed selector. -/
theorem allowed_of_decodeAdminCall {call : Bytes} {admin : AdminCall}
    (hdec : decodeAdminCall call = some admin) :
    4 ≤ call.length ∧ isAllowedAdminSelector (selectorOf call) = true := by
  rw [decodeAdminCall] at hdec
  by_cases hlen : call.length < 4
  · rw [if_pos hlen] at hdec
    exact absurd hdec (by simp)
  refine ⟨by omega, ?_⟩
  by_contra hsel
  simp only [isAllowedAdminSelector, Bool.or_eq_true, beq_iff_eq, not_or] at hsel
  simp only [if_neg hlen, hsel, if_false] at hdec
  exact absurd hdec (by simp)

/-- **A live op lifts the stop**: once its eta has come, anybody's execution of it
leaves the treasury unpaused. -/
theorem step_of_liveUnpause {timestamp : Uint256} (hlive : LiveUnpause K s timestamp) :
    ∃ nonce call, ∀ tx : Tx W d, tx.action = .executeAdmin call nonce →
      tx.timestamp.toNat = max timestamp.toNat (s.adminOps nonce).eta.toNat →
      ∃ s', step K d s tx = some s' ∧ s'.paused = false := by
  obtain ⟨nonce, call, hdec, hcall, hex, hcan, hep, halive, hlast⟩ := hlive
  obtain ⟨hlen, hsel⟩ := allowed_of_decodeAdminCall hdec
  refine ⟨nonce, call, ?_⟩
  intro tx ha htime
  have hx : Executable K tx.timestamp s call nonce := by
    refine ⟨?_, hex, hcan, hep, by omega, hlast, by omega, hcall.symm, hlen, hsel⟩
    rw [hcall]
    exact K.hash_ne_zero call
  have hok : exec K d s tx = .ok (setPaused (s.markExecuted nonce) false) := by
    rw [exec, ha]
    exact executeAdmin_eq_ok.mpr ⟨hx, _, hdec, rfl⟩
  exact ⟨_, toOption_eq_some.mpr hok, rfl⟩

end

/-! ### A stop that is lifted at once -/

/-- `setPaused(false)`. -/
def unpauseCall : Bytes := [0x16, 0xc3, 0x8b, 0x3c] ++ beBytes 32 0

/-- A transfer of `50` to the allowed recipient `0x9` on domain `6`. -/
def soleIntent : BurnIntent where
  maxBlockHeight := 500
  maxFee := 1
  spec := {
    version := 1
    sourceDomain := 7
    destinationDomain := 6
    sourceContract := 3
    destinationContract := 5
    sourceToken := 4
    destinationToken := 8
    sourceDepositor := 2
    destinationRecipient := 9
    sourceSigner := 2
    destinationCaller := 0
    value := 50
    salt := 1
    hookData := [] }

def soleIntentPayload : Bytes :=
  beBytes 32 32 ++ beBytes 32 500 ++ beBytes 32 1 ++ beBytes 32 96
    ++ ([1, 7, 6, 3, 5, 4, 8, 2, 9, 2, 0, 50, 1, 448, 0].map (beBytes 32)).flatten

def soleIntentHash : Term := burnIntentDigest Keccak.symbolic soleIntent

/-- `abi.encode(0, soleIntentPayload, ownerSigs)` with the sole owner's signature `3`. -/
def soleIntentSignature : Bytes :=
  beBytes 32 0 ++ beBytes 32 96 ++ beBytes 32 736 ++ beBytes 32 608 ++ soleIntentPayload
    ++ beBytes 32 65 ++ soleOwnerSig 3

/-- Signature `1` of the sole owner queues `unpauseCall` under nonce `1`, signature
`2` is for the pause with nonce `2`, signature `3` for the intent. -/
def stopSigns (r : Uint256) : Option Term :=
  if r = 1 then some (queueDigest Keccak.symbolic soleDeployment unpauseCall 1 200 0)
  else if r = 2 then some (pauseDigest Keccak.symbolic soleDeployment 2)
  else if r = 3 then some soleIntentHash
  else none

theorem stopSender_ne : (9 : Address) ≠ soleDeployment.treasury := by decide

def stopTx (timestamp : Uint256) (action : Action Term) : Tx Term soleDeployment where
  sender := 9
  sender_ne := stopSender_ne
  timestamp := timestamp
  sigs := soleOwnerOracle stopSigns
  callees := noCallees
  action := action

def stopTxAt (timestamp : Uint256) : Tx Term soleDeployment :=
  stopTx timestamp (.pause 2 (soleOwnerBlob 2))

def queueUnpauseAt (timestamp : Uint256) : Tx Term soleDeployment :=
  stopTx timestamp (.queueAdmin unpauseCall 1 200 (soleOwnerBlob 1))

def executeUnpauseAt (timestamp : Uint256) : Tx Term soleDeployment :=
  stopTx timestamp (.executeAdmin unpauseCall 1)

section

variable {s : State Term} (timestamp : Uint256)

def stopped (s : State Term) : State Term :=
  { s with usedNonces := Function.update s.usedNonces 2 true, paused := true }

def unpauseQueued (s : State Term) : State Term :=
  { s with
    usedNonces := Function.update s.usedNonces 1 true
    adminOps := Function.update s.adminOps 1
      ⟨Keccak.symbolic.hash unpauseCall,
        BitVec.ofNat 256 (timestamp.toNat + s.adminTimelock.toNat), false, false, s.adminEpoch⟩ }

def restarted (s : State Term) : State Term := setPaused (s.markExecuted 1) false

theorem stopTxAt_step (hs : s.toSigners = soleOwner) (hu : s.usedNonces 2 = false) :
    step Keccak.symbolic soleDeployment s (stopTxAt timestamp) = some (stopped s) := by
  have hq : HasQuorum soleDeployment (soleOwnerOracle stopSigns) s
      (pauseDigest Keccak.symbolic soleDeployment 2) (soleOwnerBlob 2) := by
    rw [HasQuorum, hs]
    exact soleOwner_quorum rfl
  exact toOption_eq_some.mpr (pause_eq_ok.mpr ⟨hu, hq, rfl⟩)

theorem queueUnpauseAt_step (hs : s.toSigners = soleOwner) (hu : s.usedNonces 1 = false)
    (he : s.adminEpoch = 0) (hl : s.adminTimelock = 60) (ht : timestamp ≤ 200) :
    step Keccak.symbolic soleDeployment s (queueUnpauseAt timestamp)
      = some (unpauseQueued timestamp s) := by
  have hq : HasQuorum soleDeployment (soleOwnerOracle stopSigns) s
      (queueDigest Keccak.symbolic soleDeployment unpauseCall 1 200 s.adminEpoch)
      (soleOwnerBlob 1) := by
    rw [HasQuorum, hs, he]
    exact soleOwner_quorum rfl
  have hlt : timestamp.toNat + s.adminTimelock.toNat < 2 ^ 256 := by
    have hle := BitVec.le_def.mp ht
    rw [hl]
    exact lt_of_le_of_lt (Nat.add_le_add_right hle 60) (by decide)
  exact toOption_eq_some.mpr (queueAdmin_eq_ok.mpr ⟨hu, ht, hq, hlt, rfl⟩)

theorem executeUnpauseAt_step
    (hx : Executable Keccak.symbolic timestamp s unpauseCall 1) :
    step Keccak.symbolic soleDeployment s (executeUnpauseAt timestamp) = some (restarted s) := by
  have hexec : executeAdmin Keccak.symbolic soleDeployment noCallees timestamp s unpauseCall 1
      = .ok (restarted s) := executeAdmin_eq_ok.mpr ⟨hx, .setPaused false, by decide +kernel, rfl⟩
  exact toOption_eq_some.mpr hexec

end

/-- The stop comes first, then the op that lifts it. -/
def pauseFirst : List (Call (State Term) (Tx Term soleDeployment)) :=
  [⟨soleState Keccak.symbolic, stopTxAt 100, stopped (soleState Keccak.symbolic)⟩,
    ⟨stopped (soleState Keccak.symbolic), queueUnpauseAt 150,
      unpauseQueued 150 (stopped (soleState Keccak.symbolic))⟩]

theorem pauseHolds_of_not_live_pauseFirst :
    PauseHolds Keccak.symbolic pauseFirst
      (unpauseQueued 150 (stopped (soleState Keccak.symbolic))) 0
      ⟨soleState Keccak.symbolic, stopTxAt 100, stopped (soleState Keccak.symbolic)⟩ 2 := by
  have hr : Run (step Keccak.symbolic soleDeployment) (soleState Keccak.symbolic) pauseFirst
      (unpauseQueued 150 (stopped (soleState Keccak.symbolic))) :=
    (Run.nil.snoc (stopTxAt_step 100 rfl rfl)).snoc
      (queueUnpauseAt_step 150 rfl rfl rfl rfl (by decide))
  have ht : TimesInOrder pauseFirst := by simp [TimesInOrder, pauseFirst, stopTxAt, queueUnpauseAt,
    stopTx]
  refine pauseHolds_of_not_live (soleDeploy _) hr ht rfl rfl ?_
  rintro ⟨n, call, -, hcall, -⟩
  exact Keccak.symbolic.hash_ne_zero call hcall.symm

/-- The op that lifts the stop is already there. -/
def unpauseFirst : List (Call (State Term) (Tx Term soleDeployment)) :=
  [⟨soleState Keccak.symbolic, queueUnpauseAt 100, unpauseQueued 100 (soleState Keccak.symbolic)⟩,
    ⟨unpauseQueued 100 (soleState Keccak.symbolic), stopTxAt 170,
      stopped (unpauseQueued 100 (soleState Keccak.symbolic))⟩,
    ⟨stopped (unpauseQueued 100 (soleState Keccak.symbolic)), executeUnpauseAt 170,
      restarted (stopped (unpauseQueued 100 (soleState Keccak.symbolic)))⟩]

theorem unpauseFirst_run :
    Run (step Keccak.symbolic soleDeployment) (soleState Keccak.symbolic) unpauseFirst
      (restarted (stopped (unpauseQueued 100 (soleState Keccak.symbolic)))) := by
  have hx : Executable Keccak.symbolic 170 (stopped (unpauseQueued 100 (soleState Keccak.symbolic)))
      unpauseCall 1 :=
    ⟨by decide +kernel, rfl, rfl, rfl, by decide +kernel, by decide +kernel, by decide +kernel,
      by decide +kernel, by decide, by decide +kernel⟩
  exact ((Run.nil.snoc (queueUnpauseAt_step 100 rfl rfl rfl rfl (by decide))).snoc
    (stopTxAt_step 170 rfl rfl)).snoc (executeUnpauseAt_step 170 hx)

theorem unpauseFirst_accepts : AcceptsBurnSignature Keccak.symbolic soleDeployment
    (restarted (stopped (unpauseQueued 100 (soleState Keccak.symbolic)))) := by
  refine ⟨⟨10, 1⟩, soleOwnerOracle stopSigns, 4, soleIntentHash, soleIntentSignature,
    ⟨soleIntentPayload, by decide +kernel⟩, soleOwnerBlob 3, by decide +kernel, ?_⟩
  have hdest : destinationAllowed (restarted (stopped (unpauseQueued 100 (soleState Keccak.symbolic))))
      soleIntent.spec = true := by decide +kernel
  obtain ⟨h1, ⟨h2, h3⟩, h4, h5, h6, h7, h8⟩ := destinationAllowed_iff.mp hdest
  have hallow : BurnAllowed ((restarted (stopped (unpauseQueued 100
      (soleState Keccak.symbolic)))).policy soleDeployment) 10 soleIntent :=
    ⟨((checkIntentShape_iff _ _ _ 4).mp (by decide +kernel)).1, by decide +kernel, h1, h2, h3, h4, h5,
      h6, h7, h8⟩
  rw [isValidSignature_eq, if_pos]
  exact ⟨by decide +kernel, (validateSignatureInternal_iff _ soleOwner_valid.weight_zero).mpr
    ⟨0, ⟨soleIntentPayload, by decide +kernel⟩, soleOwnerBlob 3, by decide +kernel,
      .burn rfl soleIntent (by decide +kernel) rfl hallow, fun _ => ⟨rfl, rfl⟩,
      (checkWeightedSigs_eq_true_iff soleOwner_valid.weight_zero).mp (soleOwner_quorum rfl)⟩⟩

/-- **A stop that does not hold.**  `setPaused(false)` is queued at `100`, the
treasury is paused at `170`, and in the same block the op is executed and the
sole owner's intent is accepted, with the timelock at `60` throughout. -/
theorem pauseHolds_not_unpauseFirst :
    Run (step Keccak.symbolic soleDeployment) (soleState Keccak.symbolic) unpauseFirst
        (restarted (stopped (unpauseQueued 100 (soleState Keccak.symbolic))))
      ∧ TimesInOrder unpauseFirst
      ∧ AcceptsBurnSignature Keccak.symbolic soleDeployment
        (restarted (stopped (unpauseQueued 100 (soleState Keccak.symbolic))))
      ∧ ¬ PauseHolds Keccak.symbolic unpauseFirst
        (restarted (stopped (unpauseQueued 100 (soleState Keccak.symbolic)))) 1
        ⟨unpauseQueued 100 (soleState Keccak.symbolic), stopTxAt 170,
          stopped (unpauseQueued 100 (soleState Keccak.symbolic))⟩ 2 := by
  have hlock : ∀ x ∈ unpauseFirst, x.pre.adminTimelock = 60 := by decide +kernel
  have hnow : ∀ x ∈ unpauseFirst, x.act.timestamp.toNat ≤ 170 := by decide +kernel
  have ht : TimesInOrder unpauseFirst := by
    simp [TimesInOrder, unpauseFirst, stopTxAt, queueUnpauseAt, executeUnpauseAt, stopTx]
  refine ⟨unpauseFirst_run, ht, unpauseFirst_accepts, ?_⟩
  intro hholds
  refine hholds.timelocked 170 hnow ?_ (by decide +kernel) unpauseFirst_accepts
  intro l x _ hx
  exact hlock x (List.mem_of_getElem? hx)

end Bufi.Treasury
