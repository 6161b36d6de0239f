import Bufi.Subgraph.Settlement

/-!
# Completion and payment in either order

A job is completed and paid by two events, and either may come first.  Between them the
job differs in its status, in what it has been paid and in whether it is settled, and in
nothing else (`Aligned`): no handler looks at these to link a job or to bind a wallet.
After both events the two stores have the same jobs (`core_exchange`), and the counters,
which are sums over the jobs, are the same (`balanced_of_conserving`).
-/

namespace Bufi.Subgraph

open Bufi.Evm Bufi.Index

variable {W : Type} (D : Deployment W)

/-! ### The core, read again -/

variable {D} {c c' : Core W} {e : Event}

theorem link_congr (hagents : c'.agents = c.agents) (hbindings : c'.bindings = c.bindings)
    (job : Job W) : c'.link D job = c.link D job := by
  have hparty : c'.party = c.party := by
    funext linked wallet
    unfold Core.party Core.resolve
    rw [hagents, hbindings]
  rw [Core.link, Core.link, hparty]

theorem onFace_congr {agentId : ℕ} {f f' : Id → Face → Core W} (hagents : c'.agents = c.agents)
    (hbindings : c'.bindings = c.bindings)
    (h : ∀ id face, (f' id face).agents = (f id face).agents ∧
      (f' id face).bindings = (f id face).bindings) :
    (c'.onFace D agentId f').agents = (c.onFace D agentId f).agents ∧
      (c'.onFace D agentId f').bindings = (c.onFace D agentId f).bindings := by
  unfold Core.onFace
  rw [hagents]
  cases c.agents (agentEntityId D agentId) with
  | none => exact ⟨hagents, hbindings⟩
  | some face => exact h _ face

theorem onJob_bindings (c : Core W) (jobId : ℕ) (f : Job W → Job W) :
    (c.onJob D jobId f).bindings = c.bindings := by
  unfold Core.onJob
  cases c.jobs (jobEntityId D jobId) with
  | none => rfl
  | some job => rfl

/-- Agents and bindings are not changed by what jobs there are. -/
theorem coreStep_congr (hagents : c'.agents = c.agents) (hbindings : c'.bindings = c.bindings)
    (e : Event) : (coreStep D c' e).agents = (coreStep D c e).agents ∧
      (coreStep D c' e).bindings = (coreStep D c e).bindings := by
  have hunbind : ∀ id w, (c'.unbind id w).bindings = (c.unbind id w).bindings := by
    intro id w
    simp only [Core.unbind, hbindings]
  cases e with
  | registered agentId _ _ =>
    exact ⟨congrArg (fun a => Function.update a _ _) hagents, hbindings⟩
  | metadataSet agentId key value =>
    refine onFace_congr hagents hbindings ?_
    intro id face
    by_cases hkey : key = "agentWallet"
    · rw [if_pos hkey, if_pos hkey]
      refine ⟨congrArg (fun a => Function.update a _ _) hagents, ?_⟩
      show (((c'.unbind _ _).bind _ _)).bindings = ((c.unbind _ _).bind _ _).bindings
      unfold Core.bind
      rw [hunbind]
    · rw [if_neg hkey, if_neg hkey]
      exact ⟨hagents, hbindings⟩
  | transfer sender receiver tokenId =>
    rw [coreStep, coreStep]
    by_cases hsender : sender = 0
    · rw [if_pos hsender, if_pos hsender]
      exact ⟨hagents, hbindings⟩
    · rw [if_neg hsender, if_neg hsender]
      refine onFace_congr hagents hbindings ?_
      intro id face
      exact ⟨congrArg (fun a => Function.update a _ _) hagents, hunbind _ _⟩
  | providerSet jobId _ | budgetSet jobId _ | jobFunded jobId _ | jobSubmitted jobId
  | jobCompleted jobId | jobRejected jobId | jobExpired jobId | paymentReleased jobId _
  | evaluatorFeePaid jobId _ | refunded jobId _ =>
    rw [coreStep, coreStep, onJob_agents, onJob_agents, onJob_bindings, onJob_bindings]
    exact ⟨hagents, hbindings⟩
  | jobCreated _ _ _ _ | uriUpdated _ _ | hookWhitelistUpdated | upgraded _ | newFeedback _
  | feedbackRevoked _ _ _ | responseAppended _ _ _ => exact ⟨hagents, hbindings⟩

/-! ### Payments -/

/-- What is paid is not negative, and a settled job has been paid. -/
def PaidJobs (jobs : Id → Option (Job W)) : Prop :=
  ∀ id job, jobs id = some job →
    0 ≤ job.providerPayment ∧ (job.settled = true → 0 < job.providerPayment)

theorem markSettled_paid (job : Job W) (hpay : 0 ≤ job.providerPayment)
    (hset : job.settled = true → 0 < job.providerPayment) :
    0 ≤ (markSettled job).providerPayment ∧
      ((markSettled job).settled = true → 0 < (markSettled job).providerPayment) := by
  unfold markSettled
  by_cases hs : settles job
  · rw [if_pos hs]
    exact ⟨hpay, fun _ => lt_of_le_of_ne hpay (Ne.symm hs.2.2)⟩
  · rw [if_neg hs]
    exact ⟨hpay, hset⟩

theorem jobUpdate_paid {jobId : ℕ} {f : Job W → Job W} (h : jobUpdate e = some (jobId, f))
    {job : Job W} (hpay : 0 ≤ job.providerPayment)
    (hset : job.settled = true → 0 < job.providerPayment) :
    0 ≤ (f job).providerPayment ∧ ((f job).settled = true → 0 < (f job).providerPayment) := by
  cases e with
  | budgetSet _ _ | jobFunded _ _ | jobSubmitted _ | jobRejected _ | jobExpired _
  | evaluatorFeePaid _ _ | refunded _ _ =>
    obtain ⟨-, rfl⟩ := Prod.mk.inj (Option.some.inj h)
    exact ⟨hpay, hset⟩
  | jobCompleted _ =>
    obtain ⟨-, rfl⟩ := Prod.mk.inj (Option.some.inj h)
    exact markSettled_paid (setStatus .completed job) hpay hset
  | paymentReleased _ amount =>
    obtain ⟨-, rfl⟩ := Prod.mk.inj (Option.some.inj h)
    refine markSettled_paid (addPayment amount job) ?_ ?_
    · exact add_nonneg hpay (Int.natCast_nonneg amount)
    · exact fun hs => add_pos_of_pos_of_nonneg (hset hs) (Int.natCast_nonneg amount)
  | _ => cases h

variable [DecidableEq W] {s s' : Store W}

theorem PaidJobs.step (h : PaidJobs s.jobs.load) (e : Event) :
    PaidJobs (handle D s e).jobs.load := by
  intro id job hjob
  rw [jobs_handle] at hjob
  rcases jobs_cases D s e with ⟨jobId, client, provider, budget, -, hload⟩ |
    ⟨jobId, provider, -, hload⟩ | ⟨jobId, f, hupdate, hload⟩ | ⟨-, -, -, hload⟩
  · rw [hload, Table.load_save] at hjob
    by_cases hid : id = jobEntityId D jobId
    · rw [if_pos hid] at hjob
      obtain rfl := Option.some.inj hjob
      exact ⟨le_refl (0 : ℤ), fun hs => by cases hs⟩
    · rw [if_neg hid] at hjob
      exact h id job hjob
  · rw [hload, Table.load_modify] at hjob
    by_cases hid : id = jobEntityId D jobId
    · rw [if_pos hid] at hjob
      obtain ⟨old, hold, rfl⟩ := Option.map_eq_some_iff.mp hjob
      exact h id old hold
    · rw [if_neg hid] at hjob
      exact h id job hjob
  · rw [hload, Table.load_modify] at hjob
    by_cases hid : id = jobEntityId D jobId
    · rw [if_pos hid] at hjob
      obtain ⟨old, hold, rfl⟩ := Option.map_eq_some_iff.mp hjob
      exact jobUpdate_paid hupdate (h id old hold).1 (h id old hold).2
    · rw [if_neg hid] at hjob
      exact h id job hjob
  · rw [hload] at hjob
    exact h id job hjob

/-! ### Between the two events -/

/-- The job with another status, payment and settlement. -/
def patch (status : JobStatus) (paid : ℤ) (settled : Bool) (job : Job W) : Job W :=
  { job with status := status, providerPayment := paid, settled := settled }

omit [DecidableEq W] in
theorem markSettled_eq (job : Job W) :
    markSettled job = patch job.status job.providerPayment
      (job.settled || decide (job.status = .completed ∧ job.providerPayment ≠ 0)) job := by
  unfold markSettled
  by_cases hs : settles job
  · rw [if_pos hs, hs.1, decide_eq_true hs.2]
    rfl
  · have hsame : (job.settled ||
        decide (job.status = .completed ∧ job.providerPayment ≠ 0)) = job.settled := by
      cases hset : job.settled with
      | true => rfl
      | false => exact decide_eq_false (fun hrest => hs ⟨hset, hrest⟩)
    rw [if_neg hs, hsame]
    rfl

/-- The events that set the status of a job, completion apart, or create it. -/
def Disturbs (jobId : ℕ) : Event → Prop
  | .jobCreated id _ _ _ | .jobFunded id _ | .jobSubmitted id | .jobRejected id
  | .jobExpired id => id = jobId
  | _ => False

/-- The job is completed here, and has been paid the amount there. -/
structure Aligned (id : Id) (amount : ℤ) (s s' : Store W) : Prop where
  agents : s'.core.agents = s.core.agents
  bindings : s'.core.bindings = s.core.bindings
  others : ∀ id', id' ≠ id → s'.jobs.load id' = s.jobs.load id'
  job : ∃ job status settled, s.jobs.load id = some job ∧ job.status = .completed ∧
    s'.jobs.load id = some (patch status (job.providerPayment + amount) settled job)

omit [DecidableEq W] in
/-- An update of both jobs. -/
theorem jobUpdate_patch {jobId : ℕ} {f : Job W → Job W} (h : jobUpdate e = some (jobId, f))
    (he : ¬ Disturbs jobId e) {job : Job W} (hjob : job.status = .completed) (amount : ℤ)
    (status : JobStatus) (settled : Bool) :
    (f job).status = .completed ∧ ∃ status' settled',
      f (patch status (job.providerPayment + amount) settled job) =
        patch status' ((f job).providerPayment + amount) settled' (f job) := by
  cases e with
  | budgetSet _ _ | evaluatorFeePaid _ _ | refunded _ _ =>
    obtain ⟨-, rfl⟩ := Prod.mk.inj (Option.some.inj h)
    exact ⟨hjob, status, settled, rfl⟩
  | jobFunded _ _ | jobSubmitted _ | jobRejected _ | jobExpired _ =>
    obtain ⟨rfl, -⟩ := Prod.mk.inj (Option.some.inj h)
    exact absurd rfl he
  | jobCompleted _ =>
    obtain ⟨-, rfl⟩ := Prod.mk.inj (Option.some.inj h)
    simp only [markSettled_eq]
    exact ⟨rfl, .completed, _, rfl⟩
  | paymentReleased _ amount' =>
    obtain ⟨-, rfl⟩ := Prod.mk.inj (Option.some.inj h)
    simp only [markSettled_eq]
    refine ⟨hjob, status, settled || decide (status = .completed ∧
      job.providerPayment + amount + amount' ≠ 0), ?_⟩
    show patch status (job.providerPayment + amount + amount') _ job =
      patch status (job.providerPayment + amount' + amount) _ job
    rw [add_right_comm job.providerPayment amount']
    rfl
  | _ => cases h

/-- **An event keeps the two stores aligned** unless it disturbs the job. -/
theorem Aligned.step {jobId : ℕ} {amount : ℤ} (h : Aligned (jobEntityId D jobId) amount s s')
    (he : ¬ Disturbs jobId e) :
    Aligned (jobEntityId D jobId) amount (handle D s e) (handle D s' e) := by
  obtain ⟨hagents, hbindings⟩ := coreStep_congr (D := D) h.agents h.bindings e
  have hlink := fun job => link_congr (D := D) h.agents h.bindings job
  obtain ⟨job, status, settled, hjob, hcompleted, hjob'⟩ := h.job
  refine ⟨by rw [core_handle, core_handle, hagents], by rw [core_handle, core_handle, hbindings],
    ?_, ?_⟩
  · intro id hid
    rw [jobs_handle, jobs_handle]
    rcases jobs_cases D s e with ⟨id', client, provider, budget, rfl, hload⟩ |
      ⟨id', provider, rfl, hload⟩ | ⟨id', f, hupdate, hload⟩ | ⟨hcreated, hset, hnone, hload⟩
    · show (s'.jobs.save _ (s'.core.link D _)).load id = (s.jobs.save _ _).load id
      rw [hlink, Table.load_save, Table.load_save, h.others id hid]
    · rw [hload]
      have hload' := core_onJob_jobs (D := D) (s := s') id'
        (fun job => s'.core.link D (setProvider provider job))
      rw [coreStep, hload', Table.load_modify, Table.load_modify, h.others id hid]
      simp only [hlink]
    · rw [hload, core_jobs_of_update hupdate, Table.load_modify, Table.load_modify, h.others id hid]
    · rcases jobs_cases D s' e with ⟨_, _, _, _, heq, -⟩ | ⟨_, _, heq, -⟩ | ⟨_, _, heq, -⟩ |
        ⟨-, -, -, hload'⟩
      · exact absurd heq (hcreated _ _ _ _)
      · exact absurd heq (hset _ _)
      · rw [hnone] at heq
        cases heq
      · rw [hload, hload', h.others id hid]
  · rw [jobs_handle, jobs_handle]
    rcases jobs_cases D s e with ⟨id', client, provider, budget, rfl, hload⟩ |
      ⟨id', provider, rfl, hload⟩ | ⟨id', f, hupdate, hload⟩ | ⟨hcreated, hset, hnone, hload⟩
    · have hne : jobEntityId D jobId ≠ jobEntityId D id' :=
        fun heq => he (jobEntityId_inj heq).symm
      refine ⟨job, status, settled, ?_, hcompleted, ?_⟩
      · rw [hload, Table.load_save_of_ne hne, hjob]
      · show (s'.jobs.save _ _).load _ = _
        rw [Table.load_save_of_ne hne, hjob']
    · have hload' := core_onJob_jobs (D := D) (s := s') id'
        (fun job => s'.core.link D (setProvider provider job))
      rw [hload, coreStep, hload']
      by_cases hid : jobEntityId D jobId = jobEntityId D id'
      · refine ⟨s.core.link D (setProvider provider job), status, settled, ?_, hcompleted, ?_⟩
        · rw [Table.load_modify, if_pos hid, hjob]
          rfl
        · rw [Table.load_modify, if_pos hid, hjob', Option.map_some, hlink]
          rfl
      · refine ⟨job, status, settled, ?_, hcompleted, ?_⟩
        · rw [Table.load_modify, if_neg hid, hjob]
        · rw [Table.load_modify, if_neg hid, hjob']
    · rw [hload, core_jobs_of_update hupdate]
      by_cases hid : jobEntityId D jobId = jobEntityId D id'
      · obtain rfl := jobEntityId_inj hid
        obtain ⟨hstatus, status', settled', heq⟩ :=
          jobUpdate_patch hupdate he hcompleted amount status settled
        refine ⟨f job, status', settled', ?_, hstatus, ?_⟩
        · rw [Table.load_modify, if_pos rfl, hjob]
          rfl
        · rw [Table.load_modify, if_pos rfl, hjob', Option.map_some, heq]
      · refine ⟨job, status, settled, ?_, hcompleted, ?_⟩
        · rw [Table.load_modify, if_neg hid, hjob]
        · rw [Table.load_modify, if_neg hid, hjob']
    · rcases jobs_cases D s' e with ⟨_, _, _, _, heq, -⟩ | ⟨_, _, heq, -⟩ | ⟨_, _, heq, -⟩ |
        ⟨-, -, -, hload'⟩
      · exact absurd heq (hcreated _ _ _ _)
      · exact absurd heq (hset _ _)
      · rw [hnone] at heq
        cases heq
      · rw [hload, hload']
        exact ⟨job, status, settled, hjob, hcompleted, hjob'⟩

/-! ### Before and after -/

/-- Only one job changes. -/
theorem core_of_update {jobId : ℕ} {f : Job W → Job W} {old : Job W}
    (h : jobUpdate e = some (jobId, f)) (hold : s.jobs.load (jobEntityId D jobId) = some old) :
    (handle D s e).core.agents = s.core.agents ∧ (handle D s e).core.bindings = s.core.bindings ∧
      (∀ id, id ≠ jobEntityId D jobId → (handle D s e).jobs.load id = s.jobs.load id) ∧
      (handle D s e).jobs.load (jobEntityId D jobId) = some (f old) := by
  have hjobs := jobs_load_update h hold
  refine ⟨?_, ?_, ?_, ?_⟩
  · rw [core_handle]
    cases e with
    | budgetSet _ _ | jobFunded _ _ | jobSubmitted _ | jobRejected _ | jobExpired _
    | evaluatorFeePaid _ _ | refunded _ _ | jobCompleted _ | paymentReleased _ _ =>
      rw [coreStep, onJob_agents]
    | _ => cases h
  · rw [core_handle]
    cases e with
    | budgetSet _ _ | jobFunded _ _ | jobSubmitted _ | jobRejected _ | jobExpired _
    | evaluatorFeePaid _ _ | refunded _ _ | jobCompleted _ | paymentReleased _ _ =>
      rw [coreStep, onJob_bindings]
    | _ => cases h
  · intro id hid
    rw [hjobs, Table.load_save_of_ne hid]
  · rw [hjobs, Table.load_save_self]

/-- The two events make the stores aligned. -/
theorem aligned_start {jobId : ℕ} (amount : ℕ) {old : Job W}
    (hold : s.jobs.load (jobEntityId D jobId) = some old) :
    Aligned (jobEntityId D jobId) amount (handle D s (.jobCompleted jobId))
      (handle D s (.paymentReleased jobId amount)) := by
  obtain ⟨ha, hb, hothers, hjob⟩ := core_of_update (D := D) (e := .jobCompleted jobId) rfl hold
  obtain ⟨ha', hb', hothers', hjob'⟩ :=
    core_of_update (D := D) (e := .paymentReleased jobId amount) rfl hold
  refine ⟨ha'.trans ha.symm, hb'.trans hb.symm,
    fun id hid => (hothers' id hid).trans (hothers id hid).symm, ?_⟩
  rw [hjob, hjob', markSettled_eq (setStatus .completed old), markSettled_eq (addPayment amount old)]
  exact ⟨_, old.status, _, rfl, rfl, rfl⟩

/-- **The two events make the stores agree again**, in all but the counters. -/
theorem core_exchange {jobId amount : ℕ} (h : Aligned (jobEntityId D jobId) amount s s')
    (hpaid : PaidJobs s.jobs.load) (hpaid' : PaidJobs s'.jobs.load) :
    (handle D s (.paymentReleased jobId amount)).core =
      (handle D s' (.jobCompleted jobId)).core := by
  obtain ⟨job, status, settled, hjob, hcompleted, hjob'⟩ := h.job
  obtain ⟨ha, hb, hothers, hload⟩ :=
    core_of_update (D := D) (e := .paymentReleased jobId amount) rfl hjob
  obtain ⟨ha', hb', hothers', hload'⟩ :=
    core_of_update (D := D) (e := .jobCompleted jobId) rfl hjob'
  refine Core.ext (ha.trans (h.agents.symm.trans ha'.symm))
    (hb.trans (h.bindings.symm.trans hb'.symm)) (funext fun id => ?_)
  show (handle D s _).jobs.load id = (handle D s' _).jobs.load id
  by_cases hid : id = jobEntityId D jobId
  · rw [hid, hload, hload', markSettled_eq, markSettled_eq]
    obtain ⟨hpay, hset⟩ := hpaid _ job hjob
    have hset' : settled = true → 0 < job.providerPayment + amount := (hpaid' _ _ hjob').2
    refine congrArg some ?_
    -- both are settled exactly if something has been paid
    have hflag : (job.settled || decide (job.status = .completed ∧
        job.providerPayment + (amount : ℤ) ≠ 0)) =
        (settled || decide (JobStatus.completed = .completed ∧
          job.providerPayment + (amount : ℤ) ≠ 0)) := by
      by_cases hzero : job.providerPayment + (amount : ℤ) = 0
      · have hnot : job.settled = false := by
          cases hs : job.settled with
          | false => rfl
          | true => have := hset hs; omega
        have hnot' : settled = false := by
          cases settled with
          | false => rfl
          | true => have := hset' rfl; omega
        rw [hnot, hnot']
        simp [hzero]
      · simp [hzero, hcompleted]
    show patch job.status (job.providerPayment + (amount : ℤ)) (job.settled ||
        decide (job.status = .completed ∧ job.providerPayment + (amount : ℤ) ≠ 0)) job =
      patch .completed (job.providerPayment + (amount : ℤ)) (settled ||
        decide (JobStatus.completed = .completed ∧ job.providerPayment + (amount : ℤ) ≠ 0)) job
    rw [hflag, hcompleted]
  · rw [hothers id hid, hothers' id hid, h.others id hid]

/-! ### Runs -/

theorem run_eq_foldl {history : List (Call (Store W) Event)} {s₀ : Store W}
    (hr : Run (indexStep D) s₀ history s) : s = (history.map Call.act).foldl (handle D) s₀ := by
  induction hr with
  | nil => rfl
  | @snoc history s s' e hr hs ih =>
    obtain rfl := Option.some.inj hs
    rw [List.map_append, List.foldl_append, ← ih]
    rfl

theorem paid_foldl (es : List Event) (h : PaidJobs s.jobs.load) :
    PaidJobs (es.foldl (handle D) s).jobs.load := by
  induction es generalizing s with
  | nil => exact h
  | cons e es ih => exact ih (h.step e)

theorem aligned_foldl {jobId : ℕ} {amount : ℤ} (es : List Event)
    (h : Aligned (jobEntityId D jobId) amount s s') (hes : ∀ e ∈ es, ¬ Disturbs jobId e) :
    Aligned (jobEntityId D jobId) amount (es.foldl (handle D) s) (es.foldl (handle D) s') := by
  induction es generalizing s s' with
  | nil => exact h
  | cons e es ih =>
    exact ih (h.step (hes e List.mem_cons_self))
      (fun e' he' => hes e' (List.mem_cons_of_mem e he'))

theorem core_foldl (es : List Event) (h : s.core = s'.core) :
    (es.foldl (handle D) s).core = (es.foldl (handle D) s').core := by
  induction es generalizing s s' with
  | nil => exact h
  | cons e es ih =>
    refine ih ?_
    rw [core_handle, core_handle, h]

/-- A job that is known stays known. -/
theorem job_kept {id : Id} (h : (s.jobs.load id).isSome) (e : Event) :
    ((handle D s e).jobs.load id).isSome := by
  rw [jobs_handle]
  rcases jobs_cases D s e with ⟨_, _, _, _, -, hload⟩ | ⟨_, _, -, hload⟩ | ⟨_, _, -, hload⟩ |
    ⟨-, -, -, hload⟩
  · rw [hload]
    exact Table.isSome_load_save h
  · rw [hload, Table.isSome_load_modify]
    exact h
  · rw [hload, Table.isSome_load_modify]
    exact h
  · rw [hload]
    exact h

theorem job_known {jobId : ℕ} (es : List Event)
    (h : (s.jobs.load (jobEntityId D jobId)).isSome ∨
      ∃ client provider budget, Event.jobCreated jobId client provider budget ∈ es) :
    ((es.foldl (handle D) s).jobs.load (jobEntityId D jobId)).isSome := by
  induction es generalizing s with
  | nil =>
    rcases h with h | ⟨_, _, _, hmem⟩
    · exact h
    · cases hmem
  | cons e es ih =>
    refine ih ?_
    rcases h with h | ⟨client, provider, budget, hmem⟩
    · exact .inl (job_kept h e)
    · rcases List.mem_cons.mp hmem with rfl | hmem
      · refine .inl ?_
        rw [jobs_handle]
        show ((s.jobs.save _ _).load _).isSome = true
        rw [Table.load_save_self]
        rfl
      · exact .inr ⟨client, provider, budget, hmem⟩

/-- **Exchanged events lead to the same jobs.** -/
theorem core_foldl_exchange {jobId amount : ℕ} {before between after : List Event}
    (hcreated : ∃ client provider budget, Event.jobCreated jobId client provider budget ∈ before)
    (hclean : ∀ e ∈ between, ¬ Disturbs jobId e) :
    ((before ++ .jobCompleted jobId :: (between ++ .paymentReleased jobId amount :: after)).foldl
        (handle D) Store.empty).core =
      ((before ++ .paymentReleased jobId amount :: (between ++ .jobCompleted jobId :: after)).foldl
        (handle D) Store.empty).core := by
  have hempty : PaidJobs (Store.empty : Store W).jobs.load := fun id job h => by cases h
  obtain ⟨old, hold⟩ := Option.isSome_iff_exists.mp
    (job_known (D := D) (s := Store.empty) before (.inr hcreated))
  have hpaid := paid_foldl (D := D) before hempty
  have haligned := aligned_foldl between (aligned_start (D := D) amount hold) hclean
  have hexchange := core_exchange haligned (paid_foldl between (hpaid.step _))
    (paid_foldl between (hpaid.step _))
  rw [List.foldl_append, List.foldl_append, List.foldl_cons, List.foldl_cons, List.foldl_append,
    List.foldl_append, List.foldl_cons, List.foldl_cons]
  exact core_foldl after hexchange

/-! ### The counters -/

theorem settleInv_of_conserving {history : List (Call (Store W) Event)}
    (hr : Run (indexStep D) Store.empty history s)
    (hc : ∀ c ∈ history, Conserving D c.pre c.act) : SettleInv D s := by
  induction hr with
  | nil => exact SettleInv.init
  | @snoc history s s' e hr hstep ih =>
    have hprev := ih (fun c hc' => hc c (List.mem_append_left _ hc'))
    have hconserving : Conserving D s e := hc ⟨s, e, s'⟩ (by simp)
    obtain rfl := Option.some.inj hstep
    exact hprev.step hconserving

/-- The completion and a payment of a job are exchanged.  The job is created before both,
and no other event between them sets its status. -/
def Exchanged (jobId amount : ℕ) (es es' : List Event) : Prop :=
  ∃ before between after,
    (∃ client provider budget, Event.jobCreated jobId client provider budget ∈ before) ∧
    (∀ e ∈ between, ¬ Disturbs jobId e) ∧
    es = before ++ .jobCompleted jobId :: (between ++ .paymentReleased jobId amount :: after) ∧
    es' = before ++ .paymentReleased jobId amount :: (between ++ .jobCompleted jobId :: after)

/-- **Settlement volumes are conserved** after every run of conserving events, and they do
not depend on the order of completion and payment. -/
theorem balanced_of_conserving (D : Deployment W) :
    (∀ history s, Run (indexStep D) Store.empty history s →
      (∀ c ∈ history, Conserving D c.pre c.act) → Balanced D s) ∧
    ∀ history history' s s' jobId amount,
      Run (indexStep D) Store.empty history s → Run (indexStep D) Store.empty history' s' →
      (∀ c ∈ history, Conserving D c.pre c.act) → (∀ c ∈ history', Conserving D c.pre c.act) →
      Exchanged jobId amount (history.map Call.act) (history'.map Call.act) →
      s.totals = s'.totals := by
  constructor
  · intro history s hr hc
    exact (settleInv_of_conserving hr hc).balanced
  · intro history history' s s' jobId amount hr hr' hc hc' hexchanged
    obtain ⟨before, between, after, hcreated, hclean, hes, hes'⟩ := hexchanged
    have hcore : s.core = s'.core := by
      rw [run_eq_foldl hr, run_eq_foldl hr', hes, hes']
      exact core_foldl_exchange hcreated hclean
    exact totals_eq (settleInv_of_conserving hr hc) (settleInv_of_conserving hr' hc')
      (congrArg Core.jobs hcore).symm

/-! ### Late payments -/

/-- A job is paid, completed and paid again. -/
def lateEvents : List Event :=
  [.jobCreated 5 1 2 none, .paymentReleased 5 10, .jobCompleted 5, .paymentReleased 5 5]

/-- The volume is `10`, and the job has been paid `15`. -/
theorem not_balanced_late :
    ∃ history s, Run (indexStep arcTestnet) Store.empty history s ∧
      history.map Call.act = lateEvents ∧ ¬ Balanced arcTestnet s := by
  have hr := Run.of_attempts (indexStep arcTestnet) Store.empty lateEvents
  have hfacts : (attempts (indexStep arcTestnet) Store.empty lateEvents).map Call.act =
        lateEvents ∧
      ((afterAttempts (indexStep arcTestnet) Store.empty lateEvents).agenticCommerces.load
        (agenticCommerceEntityId arcTestnet)).map AgenticCommerce.settledVolume = some 10 ∧
      (afterAttempts (indexStep arcTestnet) Store.empty lateEvents).jobs.sumOver
        (fun _ job => job.settled) payment = 15 := by
    decide +kernel
  obtain ⟨hacts, hvolume, hsum⟩ := hfacts
  refine ⟨_, _, hr, hacts, ?_⟩
  intro h
  obtain ⟨x, hx, hten⟩ := Option.map_eq_some_iff.mp hvolume
  have heq := (h.commerce x hx).2
  rw [hten, hsum] at heq
  cases heq

/-- Two agents with a job. -/
def hiredEvents : List Event :=
  [.registered 1 "" 10, .registered 2 "" 20, .metadataSet 1 "agentWallet" (walletBytes 1),
    .metadataSet 2 "agentWallet" (walletBytes 2), .jobCreated 5 1 2 none, .jobFunded 5 10]

theorem balanced_of_conserving_hired :
    ∃ history history' s s', Run (indexStep arcTestnet) Store.empty history s ∧
      Run (indexStep arcTestnet) Store.empty history' s' ∧
      history.map Call.act = hiredEvents ++ [.jobCompleted 5, .paymentReleased 5 10] ∧
      history'.map Call.act = hiredEvents ++ [.paymentReleased 5 10, .jobCompleted 5] ∧
      (s.agents.load (agentEntityId arcTestnet 2)).map Agent.settledVolumeAsProvider = some 10 ∧
      Balanced arcTestnet s ∧ s.totals = s'.totals := by
  have hr := Run.of_attempts (indexStep arcTestnet) Store.empty
    (hiredEvents ++ [.jobCompleted 5, .paymentReleased 5 10])
  have hr' := Run.of_attempts (indexStep arcTestnet) Store.empty
    (hiredEvents ++ [.paymentReleased 5 10, .jobCompleted 5])
  have hfacts : ((attempts (indexStep arcTestnet) Store.empty
        (hiredEvents ++ [.jobCompleted 5, .paymentReleased 5 10])).map Call.act =
        hiredEvents ++ [.jobCompleted 5, .paymentReleased 5 10] ∧
      (attempts (indexStep arcTestnet) Store.empty
        (hiredEvents ++ [.paymentReleased 5 10, .jobCompleted 5])).map Call.act =
        hiredEvents ++ [.paymentReleased 5 10, .jobCompleted 5]) ∧
      (∀ c ∈ attempts (indexStep arcTestnet) Store.empty
        (hiredEvents ++ [.jobCompleted 5, .paymentReleased 5 10]),
        Conserving arcTestnet c.pre c.act) ∧
      (∀ c ∈ attempts (indexStep arcTestnet) Store.empty
        (hiredEvents ++ [.paymentReleased 5 10, .jobCompleted 5]),
        Conserving arcTestnet c.pre c.act) ∧
      ((afterAttempts (indexStep arcTestnet) Store.empty
        (hiredEvents ++ [.jobCompleted 5, .paymentReleased 5 10])).agents.load
          (agentEntityId arcTestnet 2)).map Agent.settledVolumeAsProvider = some 10 := by
    decide +kernel
  obtain ⟨⟨hacts, hacts'⟩, hc, hc', hvolume⟩ := hfacts
  refine ⟨_, _, _, _, hr, hr', hacts, hacts', hvolume,
    (balanced_of_conserving arcTestnet).1 _ _ hr hc,
    (balanced_of_conserving arcTestnet).2 _ _ _ _ 5 10 hr hr' hc hc' ?_⟩
  rw [hacts, hacts']
  refine ⟨hiredEvents, [], [], ⟨1, 2, none, by simp [hiredEvents]⟩, ?_, rfl, rfl⟩
  intro e he
  cases he

end Bufi.Subgraph
