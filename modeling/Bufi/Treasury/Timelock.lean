import Bufi.Treasury.Owners

/-!
# The admin timelock

Five entry points share one nonce space and two maps, and an executed op may
change the owners, the threshold or the timelock under which another is queued.

Three facts about a run carry the result.  A queued op comes from the one
`queueAdmin` that wrote it (`origin`).  Once a nonce is used, executed or
cancelled it stays so (`stays_used`, `stays_executed`, `stays_cancelled`).  And
the epoch only grows, with the configuration unchanged while it stands still
(`ConfigStep`), so that an op whose epoch is the current one was queued under
the owners and the timelock now in force.
-/

namespace Bufi.Treasury

open Bufi.Evm Bufi.Gateway

section

variable {W : Type} [DecidableEq W] {K : Keccak W} {d : Deployment} {s₀ s s' : State W} {tx : Tx W d}
  {h : List (Call (State W) (Tx W d))} {nonce : Uint256}

/-! ### What stays -/

theorem stays_used (hu : s.usedNonces nonce = true) (hstep : step K d s tx = some s') :
    s'.usedNonces nonce = true := by
  cases effect_of_step hstep with
  | executed _ _ _ ran =>
    rw [(runAdmin_frame ran).usedNonces]
    exact hu
  | queued | cancelled | paused =>
    simp only [Function.update_apply, hu, ite_self]
  | revoked | swept => exact hu

/-- A used nonce keeps its op, but for the two flags, which only go up. -/
structure OpKept (s s' : State W) (nonce : Uint256) : Prop where
  used : s'.usedNonces nonce = true
  callHash : (s'.adminOps nonce).callHash = (s.adminOps nonce).callHash
  eta : (s'.adminOps nonce).eta = (s.adminOps nonce).eta
  epoch : (s'.adminOps nonce).epoch = (s.adminOps nonce).epoch
  executed : (s.adminOps nonce).executed = true → (s'.adminOps nonce).executed = true
  cancelled : (s.adminOps nonce).cancelled = true → (s'.adminOps nonce).cancelled = true

theorem opKept_of_step (hu : s.usedNonces nonce = true) (hstep : step K d s tx = some s') :
    OpKept s s' nonce := by
  have hu' := stays_used hu hstep
  cases effect_of_step hstep with
  | @queued call n _ _ _ fresh =>
    have hne : nonce ≠ n := by
      rintro rfl
      rw [hu] at fresh
      exact absurd fresh (by simp)
    refine ⟨hu', ?_, ?_, ?_, ?_, ?_⟩
    all_goals simp [Function.update_of_ne hne]
  | @executed call n _ _ _ _ _ ran =>
    have hops := (runAdmin_frame ran).adminOps
    by_cases hn : nonce = n
    · subst hn
      refine ⟨hu', ?_, ?_, ?_, ?_, ?_⟩
      all_goals simp [hops, State.markExecuted]
    · refine ⟨hu', ?_, ?_, ?_, ?_, ?_⟩
      all_goals simp [hops, State.markExecuted, Function.update_of_ne hn]
  | @cancelled n =>
    by_cases hn : nonce = n
    · subst hn
      refine ⟨hu', ?_, ?_, ?_, ?_, ?_⟩
      all_goals simp
    · refine ⟨hu', ?_, ?_, ?_, ?_, ?_⟩
      all_goals simp [Function.update_of_ne hn]
  | revoked | paused | swept => exact ⟨hu', rfl, rfl, rfl, id, id⟩

/-- A nonce in use whose op has been executed. -/
def Executed (nonce : Uint256) (s : State W) : Prop :=
  s.usedNonces nonce = true ∧ (s.adminOps nonce).executed = true

/-- A nonce in use whose op has been cancelled. -/
def Cancelled (nonce : Uint256) (s : State W) : Prop :=
  s.usedNonces nonce = true ∧ (s.adminOps nonce).cancelled = true

theorem stays_executed (hx : Executed nonce s) (hstep : step K d s tx = some s') :
    Executed nonce s' :=
  ⟨stays_used hx.1 hstep, (opKept_of_step hx.1 hstep).executed hx.2⟩

theorem stays_cancelled (hx : Cancelled nonce s) (hstep : step K d s tx = some s') :
    Cancelled nonce s' :=
  ⟨stays_used hx.1 hstep, (opKept_of_step hx.1 hstep).cancelled hx.2⟩

/-! ### Nonces -/

/-- The call takes a nonce out of the nonce space: it queues, it pauses, or it
burns a nonce that was never queued. -/
def Consumes (K : Keccak W) (nonce : Uint256) (c : Call (State W) (Tx W d)) : Prop :=
  (∃ call deadline ownerSigs, c.act.action = .queueAdmin call nonce deadline ownerSigs)
    ∨ (∃ ownerSigs, c.act.action = .pause nonce ownerSigs)
    ∨ (∃ ownerSigs, c.act.action = .cancelAdmin nonce ownerSigs
        ∧ (c.pre.adminOps nonce).callHash = K.word 0)

theorem Consumes.fresh {c : Call (State W) (Tx W d)} (hc : Consumes K nonce c)
    (hstep : step K d c.pre c.act = some c.post) :
    c.pre.usedNonces nonce = false ∧ c.post.usedNonces nonce = true := by
  obtain ⟨pre, act, post⟩ := c
  rcases hc with ⟨call, deadline, sigs, ha⟩ | ⟨sigs, ha⟩ | ⟨sigs, ha, hz⟩
  all_goals
    simp only at ha hstep ⊢
    have hstep := toOption_eq_some.mp hstep
    rw [exec, ha] at hstep
  · obtain ⟨hf, -, -, -, rfl⟩ := queueAdmin_eq_ok.mp hstep
    exact ⟨hf, by simp⟩
  · obtain ⟨hf, -, rfl⟩ := pause_eq_ok.mp hstep
    exact ⟨hf, by simp⟩
  · obtain ⟨hf, -, rfl⟩ := cancelAdmin_eq_ok.mp hstep
    rw [Cancellable, if_pos hz] at hf
    exact ⟨hf, by simp⟩

theorem consumes_lt {i j : ℕ} {c e : Call (State W) (Tx W d)} (hr : Run (step K d) s₀ h s)
    (hi : h[i]? = some c) (hj : h[j]? = some e) (hc : Consumes K nonce c)
    (he : Consumes K nonce e) : ¬ i < j := by
  intro hij
  have hused : e.pre.usedNonces nonce = true :=
    hr.persists (P := fun s => s.usedNonces nonce = true) hi hj hij
      (hc.fresh (hr.of_getElem hi).2).2 (fun _ _ _ hu hstep => stays_used hu hstep)
  rw [(he.fresh (hr.of_getElem hj).2).1] at hused
  exact absurd hused (by simp)

/-- **A nonce is consumed once.** -/
theorem consumes_unique {i j : ℕ} {c e : Call (State W) (Tx W d)} (hr : Run (step K d) s₀ h s)
    (hi : h[i]? = some c) (hj : h[j]? = some e) (hc : Consumes K nonce c)
    (he : Consumes K nonce e) : i = j := by
  have h1 := consumes_lt hr hi hj hc he
  have h2 := consumes_lt hr hj hi he hc
  omega

/-! ### Where an op comes from -/

/-- The op under `nonce` is the one that call `i` queued. -/
structure Origin (K : Keccak W) (h : List (Call (State W) (Tx W d))) (s : State W)
    (nonce : Uint256) (i : ℕ) (q : Call (State W) (Tx W d)) (call : Bytes) (deadline : Uint256)
    (ownerSigs : MemBytes) : Prop where
  at_index : h[i]? = some q
  action : q.act.action = .queueAdmin call nonce deadline ownerSigs
  used : s.usedNonces nonce = true
  callHash : (s.adminOps nonce).callHash = K.hash call
  eta : (s.adminOps nonce).eta.toNat = q.act.timestamp.toNat + q.pre.adminTimelock.toNat
  epoch : (s.adminOps nonce).epoch = q.pre.adminEpoch

theorem Origin.step {i : ℕ} {q : Call (State W) (Tx W d)} {call : Bytes} {deadline : Uint256}
    {ownerSigs : MemBytes} (ho : Origin K h s nonce i q call deadline ownerSigs)
    (hstep : step K d s tx = some s') :
    Origin K (h ++ [⟨s, tx, s'⟩]) s' nonce i q call deadline ownerSigs := by
  have hk := opKept_of_step ho.used hstep
  have hi : i < h.length := (List.getElem?_eq_some_iff.mp ho.at_index).1
  refine ⟨?_, ho.action, hk.used, hk.callHash.trans ho.callHash, ?_, hk.epoch.trans ho.epoch⟩
  · rw [List.getElem?_append_left hi]
    exact ho.at_index
  · rw [hk.eta]
    exact ho.eta

/-- The state in which no op exists. -/
def NoOps (K : Keccak W) (s : State W) : Prop := ∀ n, (s.adminOps n).callHash = K.word 0

/-- A call hash that a step writes under a nonce without one was queued by it. -/
theorem queued_of_new (hz : (s.adminOps nonce).callHash = K.word 0)
    (hnz : (s'.adminOps nonce).callHash ≠ K.word 0) (hstep : step K d s tx = some s') :
    ∃ call deadline ownerSigs, Origin K (h ++ [⟨s, tx, s'⟩]) s' nonce h.length ⟨s, tx, s'⟩ call
      deadline ownerSigs := by
  cases effect_of_step hstep with
  | @queued call n deadline sigs ha _ _ _ hlt =>
    have hn : nonce = n := by
      by_contra hne
      exact hnz (by simpa [Function.update_of_ne hne] using hz)
    subst hn
    refine ⟨call, deadline, sigs, List.getElem?_concat_length, ha, by simp, by simp, ?_, by simp⟩
    simp only [Function.update_self, BitVec.toNat_ofNat]
    exact Nat.mod_eq_of_lt hlt
  | @executed call n _ _ _ _ _ ran =>
    refine absurd ?_ hnz
    rw [(runAdmin_frame ran).adminOps, State.markExecuted]
    by_cases hn : nonce = n
    · subst hn
      simpa using hz
    · simpa [Function.update_of_ne hn] using hz
  | @cancelled n =>
    refine absurd ?_ hnz
    by_cases hn : nonce = n
    · subst hn
      simpa using hz
    · simpa [Function.update_of_ne hn] using hz
  | revoked | paused | swept => exact absurd hz hnz

/-- **Every op was queued**, by a call of the run. -/
theorem origin (hr : Run (step K d) s₀ h s) (h0 : NoOps K s₀)
    (hnz : (s.adminOps nonce).callHash ≠ K.word 0) :
    ∃ i q call deadline ownerSigs, Origin K h s nonce i q call deadline ownerSigs := by
  induction hr with
  | nil => exact absurd (h0 nonce) hnz
  | @snoc h s s' tx hr hstep ih =>
    by_cases hz : (s.adminOps nonce).callHash = K.word 0
    · obtain ⟨call, deadline, sigs, ho⟩ := queued_of_new (h := h) hz hnz hstep
      exact ⟨_, _, _, _, _, ho⟩
    · obtain ⟨i, q, call, deadline, sigs, ho⟩ := ih hz
      exact ⟨_, _, _, _, _, ho.step hstep⟩

/-! ### The configuration -/

/-- The epoch does not fall, and while it stands still so does the configuration. -/
def ConfigStep (s s' : State W) : Prop :=
  s.adminEpoch.toNat ≤ s'.adminEpoch.toNat
    ∧ (s'.adminEpoch = s.adminEpoch →
        s'.toSigners = s.toSigners ∧ s'.adminTimelock = s.adminTimelock)

omit [DecidableEq W] in
theorem ConfigStep.trans {a b c : State W} (h₁ : ConfigStep a b) (h₂ : ConfigStep b c) :
    ConfigStep a c := by
  refine ⟨le_trans h₁.1 h₂.1, ?_⟩
  intro he
  have hba : b.adminEpoch = a.adminEpoch := by
    have hle := h₂.1
    rw [he] at hle
    exact BitVec.eq_of_toNat_eq (le_antisymm hle h₁.1)
  obtain ⟨s1, t1⟩ := h₁.2 hba
  obtain ⟨s2, t2⟩ := h₂.2 (he.trans hba.symm)
  exact ⟨s2.trans s1, t2.trans t1⟩

theorem configStep_of_step (hstep : step K d s tx = some s') : ConfigStep s s' := by
  cases effect_of_step hstep with
  | @executed call n _ _ _ _ _ ran =>
    rcases (runAdmin_frame ran).epoch with ⟨hs, ht, he⟩ | he
    · exact ⟨le_of_eq (congrArg BitVec.toNat he.symm), fun _ => ⟨hs, ht⟩⟩
    · have he : s'.adminEpoch.toNat = s.adminEpoch.toNat + 1 := he
      refine ⟨by omega, ?_⟩
      intro heq
      rw [heq] at he
      omega
  | queued | cancelled | revoked | paused | swept => exact ⟨le_rfl, fun _ => ⟨rfl, rfl⟩⟩

theorem configStep_of_lt {i j : ℕ} {c e : Call (State W) (Tx W d)} (hr : Run (step K d) s₀ h s)
    (hi : h[i]? = some c) (hj : h[j]? = some e) (hij : i < j) : ConfigStep c.pre e.pre :=
  hr.persists (P := ConfigStep c.pre) hi hj hij (configStep_of_step (hr.of_getElem hi).2)
    (fun _ _ _ hc hstep => hc.trans (configStep_of_step hstep))

/-! ### Executions -/

omit [DecidableEq W] in
theorem deploy_noOps {treasury : Address} {chainid : Uint256} {p : SignerParams}
    {pol : PolicyParams} (hd : deploy K treasury chainid p pol = .ok (d, s₀)) : NoOps K s₀ := by
  simp only [deploy, bind_eq_ok, require_eq_ok, exists_const, pure_eq_ok, Prod.mk.injEq] at hd
  obtain ⟨-, -, -, -, -, S, -, -, -, -, -, rfl⟩ := hd
  exact fun _ => rfl

/-- An execution in a run from a deployment: the checks it made and the call
that queued it. -/
theorem execution_origin {j : ℕ} {e : Call (State W) (Tx W d)} {call : Bytes}
    (hr : Run (step K d) s₀ h s) (h0 : NoOps K s₀) (hj : h[j]? = some e)
    (ha : e.act.action = .executeAdmin call nonce) :
    Executable K e.act.timestamp e.pre call nonce
      ∧ Executed nonce e.post
      ∧ ∃ i q deadline ownerSigs, i < j ∧ Origin K h e.pre nonce i q call deadline ownerSigs := by
  obtain ⟨hpre, hstep⟩ := hr.of_getElem hj
  have hx := toOption_eq_some.mp hstep
  rw [exec, ha] at hx
  obtain ⟨hok, admin, -, ran⟩ := executeAdmin_eq_ok.mp hx
  obtain ⟨i, q, call', deadline, sigs, ho⟩ := origin hpre h0 hok.found
  have hcall : call' = call := K.hash_inj (ho.callHash.symm.trans hok.call_eq.symm)
  subst hcall
  have hi : i < j := by
    have := (List.getElem?_eq_some_iff.mp ho.at_index).1
    rw [List.length_take] at this
    omega
  refine ⟨hok, ⟨stays_used ho.used hstep, ?_⟩, i, q, deadline, sigs, hi, ?_⟩
  · rw [(runAdmin_frame ran).adminOps, State.markExecuted]
    simp
  · have hat := ho.at_index
    rw [List.getElem?_take_of_lt hi] at hat
    exact ⟨hat, ho.action, ho.used, ho.callHash, ho.eta, ho.epoch⟩

theorem executed_once_lt {i j : ℕ} {c e : Call (State W) (Tx W d)} {call call' : Bytes}
    (hr : Run (step K d) s₀ h s) (h0 : NoOps K s₀) (hi : h[i]? = some c) (hj : h[j]? = some e)
    (hc : c.act.action = .executeAdmin call nonce) (he : e.act.action = .executeAdmin call' nonce) :
    ¬ i < j := by
  intro hij
  have hdone : Executed nonce e.pre :=
    hr.persists hi hj hij (execution_origin hr h0 hi hc).2.1
      (fun _ _ _ hx hstep => stays_executed hx hstep)
  have := (execution_origin hr h0 hj he).1.not_executed
  rw [hdone.2] at this
  exact absurd this (by simp)

theorem not_cancelled {i j : ℕ} {c e : Call (State W) (Tx W d)} {call : Bytes}
    {ownerSigs : MemBytes} (hr : Run (step K d) s₀ h s) (h0 : NoOps K s₀) (hi : h[i]? = some c)
    (hj : h[j]? = some e) (he : e.act.action = .executeAdmin call nonce) :
    c.act.action ≠ .cancelAdmin nonce ownerSigs := by
  intro hc
  obtain ⟨hok, hdone, -⟩ := execution_origin hr h0 hj he
  obtain ⟨-, hstep⟩ := hr.of_getElem hi
  have hx := toOption_eq_some.mp hstep
  rw [exec, hc] at hx
  obtain ⟨hcan, -, hpost⟩ := cancelAdmin_eq_ok.mp hx
  rcases Nat.lt_trichotomy i j with hlt | heq | hgt
  · -- cancelled before: the flag is still up at the execution
    have hflag : Cancelled nonce e.pre :=
      hr.persists hi hj hlt (by rw [hpost]; simp [Cancelled])
        (fun _ _ _ hx hstep => stays_cancelled hx hstep)
    have hdown := hok.not_cancelled
    rw [hflag.2] at hdown
    exact absurd hdown (by simp)
  · subst heq
    rw [hi] at hj
    obtain rfl := Option.some.inj hj
    rw [he] at hc
    exact absurd hc (by simp)
  · -- cancelled after: an executed op is not cancellable
    have hex : Executed nonce c.pre :=
      hr.persists hj hi hgt hdone (fun _ _ _ hx hstep => stays_executed hx hstep)
    rw [Cancellable] at hcan
    split_ifs at hcan
    · rw [hex.1] at hcan
      exact absurd hcan (by simp)
    · rw [hex.2] at hcan
      exact absurd hcan.1 (by simp)

/-- What every execution of a run satisfies: it was queued once, by a quorum of
the owners still in force, it runs inside its window, once, and was never
cancelled. -/
structure ExecutionSound (K : Keccak W) (h : List (Call (State W) (Tx W d))) (j : ℕ)
    (e : Call (State W) (Tx W d)) (call : Bytes) (nonce : Uint256) : Prop where
  queued : ∃ (i : ℕ) (q : Call (State W) (Tx W d)) (deadline : Uint256) (ownerSigs : MemBytes),
    i < j ∧ h[i]? = some q
    ∧ q.act.action = .queueAdmin call nonce deadline ownerSigs
    ∧ HasQuorum d q.act.sigs q.pre (queueDigest K d call nonce deadline q.pre.adminEpoch) ownerSigs
    ∧ q.pre.adminEpoch = e.pre.adminEpoch ∧ q.pre.toSigners = e.pre.toSigners
    ∧ q.pre.adminTimelock = e.pre.adminTimelock
    ∧ q.act.timestamp.toNat + e.pre.adminTimelock.toNat ≤ e.act.timestamp.toNat
    ∧ e.act.timestamp.toNat
      ≤ q.act.timestamp.toNat + e.pre.adminTimelock.toNat + adminOpGrace
    ∧ ∀ (i' : ℕ) (q' : Call (State W) (Tx W d)) (call' : Bytes) (deadline' : Uint256)
      (ownerSigs' : MemBytes), h[i']? = some q' →
      q'.act.action = .queueAdmin call' nonce deadline' ownerSigs' → i' = i
  once : ∀ (j' : ℕ) (e' : Call (State W) (Tx W d)) (call' : Bytes), h[j']? = some e' →
    e'.act.action = .executeAdmin call' nonce → j' = j
  never_cancelled : ∀ (i : ℕ) (c : Call (State W) (Tx W d)) (ownerSigs : MemBytes),
    h[i]? = some c → c.act.action ≠ .cancelAdmin nonce ownerSigs

/-- **The admin timelock is safe**, and a nonce is consumed at most once across
queueing, burning and pausing. -/
theorem adminTimelock_safe {treasury : Address} {chainid : Uint256} {p : SignerParams}
    {pol : PolicyParams} (hd : deploy K treasury chainid p pol = .ok (d, s₀))
    (hr : Run (step K d) s₀ h s) :
    (∀ (j : ℕ) (e : Call (State W) (Tx W d)) (call : Bytes) (nonce : Uint256), h[j]? = some e →
        e.act.action = .executeAdmin call nonce → ExecutionSound K h j e call nonce)
      ∧ ∀ (nonce : Uint256) (i j : ℕ) (c e : Call (State W) (Tx W d)), h[i]? = some c →
        h[j]? = some e → Consumes K nonce c → Consumes K nonce e → i = j := by
  have h0 := deploy_noOps hd
  refine ⟨fun j e call nonce hj he => ⟨?_, ?_, ?_⟩,
    fun nonce i j c e hi hj hc he => consumes_unique hr hi hj hc he⟩
  · obtain ⟨hok, -, i, q, deadline, sigs, hij, ho⟩ := execution_origin hr h0 hj he
    have hq := toOption_eq_some.mp (hr.of_getElem ho.at_index).2
    rw [exec, ho.action] at hq
    obtain ⟨-, -, hquorum, -, -⟩ := queueAdmin_eq_ok.mp hq
    have hepoch : e.pre.adminEpoch = q.pre.adminEpoch := hok.current.symm.trans ho.epoch
    obtain ⟨hsame, htime⟩ := (configStep_of_lt hr ho.at_index hj hij).2 hepoch
    have hmat := hok.matured
    have halive := hok.alive
    rw [ho.eta, ← htime] at hmat halive
    refine ⟨i, q, deadline, sigs, hij, ho.at_index, ho.action, hquorum, hepoch.symm, hsame.symm,
      htime.symm, hmat, halive, ?_⟩
    intro i' q' call' deadline' sigs' hi' ha'
    exact consumes_unique hr hi' ho.at_index (Or.inl ⟨_, _, _, ha'⟩) (Or.inl ⟨_, _, _, ho.action⟩)
  · intro j' e' call' hj' he'
    have h1 := executed_once_lt hr h0 hj hj' he he'
    have h2 := executed_once_lt hr h0 hj' hj he' he
    omega
  · intro i c sigs hi
    exact not_cancelled hr h0 hi hj he

end

theorem adminTimelock_safe_soleRun :
    ExecutionSound Keccak.symbolic
      [⟨soleState Keccak.symbolic, queueTx Keccak.symbolic 1 (Term.word 0),
          queuedState Keccak.symbolic 1⟩,
        ⟨queuedState Keccak.symbolic 1, executeTx Keccak.symbolic 1 (Term.word 0),
          executedState Keccak.symbolic 1⟩] 1
      ⟨queuedState Keccak.symbolic 1, executeTx Keccak.symbolic 1 (Term.word 0),
        executedState Keccak.symbolic 1⟩ timelockCall 1 :=
  (adminTimelock_safe (soleDeploy _) (soleRun _ 1 (Term.word 0))).1 1 _ _ _ rfl rfl

end Bufi.Treasury
