import Bufi.Subgraph.Core

/-!
# What the events leave alone

Every counter of an agent, an engagement or the escrow belongs to one kind of events.
`AgentFrame get e` is that the handler of `e` does not write what `get` reads, whatever it
writes; then no value of `get` changes (`agents_value`), and likewise for engagements
(`engagements_value`) and the escrow (`commerces_value`).  What happens to the jobs is
read off the core (`jobs_cases`), and no agent, engagement or escrow that is known is ever
forgotten (`agents_kept`, `engagements_kept`, `commerces_kept`).
-/

namespace Bufi.Subgraph

open Bufi.Evm Bufi.Index

variable {W : Type} (D : Deployment W)

/-- An agent is registered once. -/
def FreshAgent (s : Store W) : Event → Prop
  | .registered agentId _ _ => s.agents.load (agentEntityId D agentId) = none
  | _ => True

/-- An agent is registered, and a job created, once. -/
def Fresh (s : Store W) : Event → Prop
  | .registered agentId _ _ => s.agents.load (agentEntityId D agentId) = none
  | .jobCreated jobId _ _ _ => s.jobs.load (jobEntityId D jobId) = none
  | _ => True

variable {D} in
theorem Fresh.agent {s : Store W} {e : Event} (h : Fresh D s e) : FreshAgent D s e := by
  cases e with
  | registered agentId agentURI owner => exact h
  | _ => trivial

/-! ### Jobs -/

/-- What an event does to a job that is known, its links apart. -/
def jobUpdate : Event → Option (ℕ × (Job W → Job W))
  | .budgetSet jobId amount => some (jobId, fun job => { job with budget := amount })
  | .jobFunded jobId _ => some (jobId, setStatus .funded)
  | .jobSubmitted jobId => some (jobId, setStatus .submitted)
  | .jobRejected jobId => some (jobId, setStatus .rejected)
  | .jobExpired jobId => some (jobId, setStatus .expired)
  | .evaluatorFeePaid jobId amount =>
    some (jobId, fun job => { job with evaluatorFeePaid := job.evaluatorFeePaid + amount })
  | .jobCompleted jobId => some (jobId, fun job => markSettled (setStatus .completed job))
  | .paymentReleased jobId amount => some (jobId, fun job => markSettled (addPayment amount job))
  | .refunded jobId amount => some (jobId, addRefund amount)
  | _ => none

/-- The parties of a job and what they are linked to. -/
def Job.links (job : Job W) : Id × Option Id × Option Id × Option W :=
  (job.agenticCommerce, job.clientAgent, job.providerAgent, job.engagement)

theorem links_markSettled (job : Job W) : (markSettled job).links = job.links := by
  unfold markSettled
  by_cases h : settles job
  · rw [if_pos h]
    rfl
  · rw [if_neg h]

/-- An update leaves the links. -/
theorem links_jobUpdate {e : Event} {jobId : ℕ} {f : Job W → Job W}
    (h : jobUpdate e = some (jobId, f)) (job : Job W) : (f job).links = job.links := by
  cases e with
  | budgetSet _ _ | jobFunded _ _ | jobSubmitted _ | jobRejected _ | jobExpired _
  | evaluatorFeePaid _ _ | refunded _ _ =>
    obtain ⟨-, rfl⟩ := Prod.mk.inj (Option.some.inj h)
    rfl
  | jobCompleted _ | paymentReleased _ _ =>
    obtain ⟨-, rfl⟩ := Prod.mk.inj (Option.some.inj h)
    exact links_markSettled _
  | _ => cases h

variable {D} {s : Store W} {e : Event}

theorem core_onJob_jobs (jobId : ℕ) (f : Job W → Job W) :
    (s.core.onJob D jobId f).jobs = (s.jobs.modify (jobEntityId D jobId) f).load := by
  have hjobs : s.core.jobs (jobEntityId D jobId) = s.jobs.load (jobEntityId D jobId) := rfl
  rw [Core.onJob, hjobs, Table.modify]
  cases s.jobs.load (jobEntityId D jobId) with
  | none => rfl
  | some job => rfl

theorem core_jobs_of_update {jobId : ℕ} {f : Job W → Job W} (h : jobUpdate e = some (jobId, f)) :
    (coreStep D s.core e).jobs = (s.jobs.modify (jobEntityId D jobId) f).load := by
  cases e with
  | budgetSet _ _ | jobFunded _ _ | jobSubmitted _ | jobRejected _ | jobExpired _
  | evaluatorFeePaid _ _ | refunded _ _ | jobCompleted _ | paymentReleased _ _ =>
    obtain ⟨rfl, rfl⟩ := Prod.mk.inj (Option.some.inj h)
    exact core_onJob_jobs _ _
  | _ => cases h

theorem onFace_jobs {c : Core W} {agentId : ℕ} {f : Id → Face → Core W}
    (h : ∀ id face, (f id face).jobs = c.jobs) : (c.onFace D agentId f).jobs = c.jobs := by
  unfold Core.onFace
  cases c.agents (agentEntityId D agentId) with
  | none => rfl
  | some face => exact h _ face

/-- **What an event does to the jobs**: it creates one, gives one a provider, updates one or
leaves them alone. -/
theorem jobs_cases (D : Deployment W) (s : Store W) (e : Event) :
    (∃ jobId client provider budget, e = .jobCreated jobId client provider budget ∧
      (coreStep D s.core e).jobs = (s.jobs.save (jobEntityId D jobId)
        (s.core.link D (newJob D client provider budget))).load) ∨
    (∃ jobId provider, e = .providerSet jobId provider ∧
      (coreStep D s.core e).jobs = (s.jobs.modify (jobEntityId D jobId)
        (fun job => s.core.link D (setProvider provider job))).load) ∨
    (∃ jobId f, jobUpdate e = some (jobId, f) ∧
      (coreStep D s.core e).jobs = (s.jobs.modify (jobEntityId D jobId) f).load) ∨
    ((∀ jobId client provider budget, e ≠ .jobCreated jobId client provider budget) ∧
      (∀ jobId provider, e ≠ .providerSet jobId provider) ∧ jobUpdate (W := W) e = none ∧
      (coreStep D s.core e).jobs = s.jobs.load) := by
  cases e with
  | jobCreated jobId client provider budget =>
    exact .inl ⟨jobId, client, provider, budget, rfl, rfl⟩
  | providerSet jobId provider =>
    exact .inr (.inl ⟨jobId, provider, rfl, core_onJob_jobs _ _⟩)
  | budgetSet _ _ | jobFunded _ _ | jobSubmitted _ | jobRejected _ | jobExpired _
  | evaluatorFeePaid _ _ | refunded _ _ | jobCompleted _ | paymentReleased _ _ =>
    exact .inr (.inr (.inl ⟨_, _, rfl, core_jobs_of_update rfl⟩))
  | registered _ _ _ | uriUpdated _ _ | hookWhitelistUpdated | upgraded _ | newFeedback _
  | feedbackRevoked _ _ _ | responseAppended _ _ _ =>
    refine .inr (.inr (.inr ⟨?_, ?_, rfl, rfl⟩))
    · exact fun _ _ _ _ heq => by cases heq
    · exact fun _ _ heq => by cases heq
  | metadataSet agentId key value =>
    refine .inr (.inr (.inr ⟨?_, ?_, rfl, onFace_jobs ?_⟩))
    · exact fun _ _ _ _ heq => by cases heq
    · exact fun _ _ heq => by cases heq
    · intro id face
      by_cases hkey : key = "agentWallet"
      · rw [if_pos hkey]
        rfl
      · rw [if_neg hkey]
  | transfer sender receiver tokenId =>
    refine .inr (.inr (.inr ⟨?_, ?_, rfl, ?_⟩))
    · exact fun _ _ _ _ heq => by cases heq
    · exact fun _ _ heq => by cases heq
    · rw [coreStep]
      by_cases hsender : sender = 0
      · rw [if_pos hsender]
        rfl
      · rw [if_neg hsender]
        exact onFace_jobs (fun _ _ => rfl)

variable [DecidableEq W]

theorem jobs_handle (D : Deployment W) (s : Store W) (e : Event) :
    (handle D s e).jobs.load = (coreStep D s.core e).jobs :=
  congrArg Core.jobs (core_handle D s e)

/-! ### What a handler writes -/

section Shapes

omit [DecidableEq W] in
theorem onJob_cases (D : Deployment W) (jobId : ℕ) (s : Store W) (f : Id → Job W → Store W) :
    onJob D jobId s f = s ∨ ∃ job, s.jobs.load (jobEntityId D jobId) = some job ∧
      onJob D jobId s f = f (jobEntityId D jobId) job := by
  unfold onJob
  cases hjob : s.jobs.load (jobEntityId D jobId) with
  | none => exact .inl rfl
  | some job => exact .inr ⟨job, rfl, rfl⟩

omit [DecidableEq W] in
/-- A plain update writes the job and its record. -/
theorem updateJob_eq (jobId : ℕ) (kind : JobEventKind) (amount : Option ℤ) (f : Job W → Job W) :
    ∃ jobs events, updateJob D jobId kind amount f s =
      { s with jobs := jobs, jobEvents := events } := by
  rcases onJob_cases D jobId s (fun id job => recordJobEvent id kind amount (saveJob id (f job) s))
    with heq | ⟨job, -, heq⟩
  · exact ⟨_, _, heq⟩
  · exact ⟨_, _, heq⟩

omit [DecidableEq W] in
theorem handleMetadataSet_eq (agentId : ℕ) (key : String) (value : Bytes) :
    ∃ bindings, handleMetadataSet D agentId key value s = { s with
      walletBindings := bindings
      agents := s.agents.modify (agentEntityId D agentId) (fun a => { a with
        agentWallet := if key = "agentWallet" then agentWalletFromMetadataValue value
          else a.agentWallet }) } := by
  unfold handleMetadataSet Table.modify
  cases ha : s.agents.load (agentEntityId D agentId) with
  | none => exact ⟨_, by simp only [ha]; rfl⟩
  | some a =>
    by_cases hkey : key = "agentWallet"
    · obtain ⟨t, ht, -⟩ := unbindWallet_eq (s := s) (agentEntityId D agentId) a.agentWallet
      simp only [ha, hkey, if_true, ht]
      cases agentWalletFromMetadataValue value with
      | none => exact ⟨_, rfl⟩
      | some w => exact ⟨_, rfl⟩
    · exact ⟨_, by simp only [ha, hkey, if_false]; rfl⟩

omit [DecidableEq W] in
theorem handleTransfer_eq (sender receiver : Address) (tokenId : ℕ) :
    ∃ registries bindings, handleTransfer D sender receiver tokenId s = { s with
      identityRegistries := registries
      walletBindings := bindings
      agents := if sender = 0 then s.agents
        else s.agents.modify (agentEntityId D tokenId) (fun a => { a with
          owner := if receiver = 0 then none else some receiver
          agentWallet := none
          isBurned := decide (receiver = 0) }) } := by
  unfold handleTransfer Table.modify
  by_cases hsender : sender = 0
  · exact ⟨_, _, by rw [if_pos hsender, if_pos hsender]⟩
  rw [if_neg hsender, if_neg hsender]
  cases ha : s.agents.load (agentEntityId D tokenId) with
  | none => exact ⟨_, _, by simp only [ha]; rfl⟩
  | some a =>
    obtain ⟨t, ht, -⟩ := unbindWallet_eq (s := s) (agentEntityId D tokenId) a.agentWallet
    by_cases hburn : receiver = 0
    · exact ⟨_, _, by simp only [ha, hburn, decide_true, if_true, ht]; rfl⟩
    · exact ⟨_, _, by
        simp only [ha, hburn, decide_false, Bool.false_eq_true, if_false, ht]; rfl⟩

omit [DecidableEq W] in
theorem onAgent_eq (linked : Option Id) (kind : MetricKind) (amount : ℤ) (f : Agent → Agent)
    (s : Store W) :
    ∃ points, onAgent linked kind amount f s = { s with
      agentMetricPoints := points
      agents := s.agents.modifyAt linked f } := by
  unfold onAgent Table.modifyAt
  cases linked with
  | none => exact ⟨_, rfl⟩
  | some id =>
    unfold Table.modify
    cases ha : s.agents.load id with
    | none => exact ⟨_, by simp only [ha]; rfl⟩
    | some a => exact ⟨_, by simp only [ha]; rfl⟩

theorem onEngagement_eq (linked : Option W) (f : Engagement → Engagement) (s : Store W) :
    onEngagement linked f s = { s with engagements := s.engagements.modifyAt linked f } := by
  cases linked with
  | none => rfl
  | some id => rfl

theorem countSettlement_eq (id : Id) (job : Job W) (s : Store W) :
    ∃ points, countSettlement id job s = { s with
      agentMetricPoints := points
      agenticCommerces := s.agenticCommerces.modify job.agenticCommerce
        (AgenticCommerce.addSettled job.providerPayment)
      agents := (s.agents.modifyAt job.providerAgent
        (Agent.addSettledAsProvider job.providerPayment)).modifyAt job.clientAgent
          (Agent.addSettledAsClient job.providerPayment)
      engagements := s.engagements.modifyAt job.engagement
        (Engagement.addSettled id job.providerPayment) } := by
  simp only [countSettlement]
  obtain ⟨_, hp⟩ := onAgent_eq job.providerAgent .settledAsProvider job.providerPayment
    (Agent.addSettledAsProvider job.providerPayment)
    (onCommerce job.agenticCommerce (AgenticCommerce.addSettled job.providerPayment) s)
  rw [hp]
  obtain ⟨_, hc⟩ := onAgent_eq job.clientAgent .settledAsClient job.providerPayment
    (Agent.addSettledAsClient job.providerPayment) _
  rw [hc, onEngagement_eq]
  exact ⟨_, rfl⟩

theorem recordRefund_eq (job : Job W) (amount : ℤ) (s : Store W) :
    ∃ points, recordRefund job amount s = { s with
      agentMetricPoints := points
      agenticCommerces := s.agenticCommerces.modify job.agenticCommerce
        (AgenticCommerce.addRefunded amount)
      agents := s.agents.modifyAt job.clientAgent (Agent.addRefundedAsClient amount)
      engagements := s.engagements.modifyAt job.engagement (Engagement.addRefunded amount) } := by
  simp only [recordRefund]
  obtain ⟨_, hc⟩ := onAgent_eq job.clientAgent .refundedAsClient amount
    (Agent.addRefundedAsClient amount)
    (onCommerce job.agenticCommerce (AgenticCommerce.addRefunded amount) s)
  rw [hc, onEngagement_eq]
  exact ⟨_, rfl⟩

omit [DecidableEq W] in
theorem getOrCreateAgenticCommerce_eq (D : Deployment W) (s : Store W) :
    ∃ t, (getOrCreateAgenticCommerce D s).2 = { s with agenticCommerces := t } := by
  unfold getOrCreateAgenticCommerce
  cases s.agenticCommerces.load (agenticCommerceEntityId D) with
  | none => exact ⟨_, rfl⟩
  | some c => exact ⟨_, rfl⟩

/-- The engagement with a feedback more or less. -/
def Engagement.addFeedback (n verified : ℤ) (x : Engagement) : Engagement :=
  { x with
    feedbackCount := x.feedbackCount + n
    verifiedFeedbackCount := x.verifiedFeedbackCount + verified }

/-- The feedback that a `NewFeedback` event creates. -/
def feedbackOf (D : Deployment W) (s : Store W) (p : NewFeedback) : Feedback :=
  let rater := resolveAgentByWallet s p.client
  newFeedback D p (rater.map Prod.fst)
    (rater.map (fun c => getOrCreateEngagement D s c.1 (agentEntityId D p.agentId)))

/-- The engagements after it, counted in that of the rater. -/
def ratedEngagements (D : Deployment W) (s : Store W) (p : NewFeedback) : Table W Engagement :=
  match resolveAgentByWallet s p.client with
  | none => s.engagements
  | some c => s.engagements.save (engagementId D c.1 (agentEntityId D p.agentId))
      (Engagement.addFeedback 1 (oneIf (feedbackOf D s p).verified)
        ((s.engagements.load (engagementId D c.1 (agentEntityId D p.agentId))).getD
          (newEngagement c.1 (agentEntityId D p.agentId))))

/-- A feedback about an agent that is not known changes nothing. -/
theorem handleNewFeedback_of_none {p : NewFeedback}
    (ha : s.agents.load (agentEntityId D p.agentId) = none) : handleNewFeedback D p s = s := by
  unfold handleNewFeedback
  simp only [ha]

theorem handleNewFeedback_of_some {p : NewFeedback} {a : Agent}
    (ha : s.agents.load (agentEntityId D p.agentId) = some a) :
    handleNewFeedback D p s = { s with
      feedbacks := s.feedbacks.save (feedbackEntityId D p.agentId p.client p.feedbackIndex)
        (feedbackOf D s p)
      agents := s.agents.save (agentEntityId D p.agentId) { a with
        feedbackCount := a.feedbackCount + 1
        activeFeedbackCount := a.activeFeedbackCount + 1
        verifiedFeedbackCount := a.verifiedFeedbackCount + oneIf (feedbackOf D s p).verified }
      engagements := ratedEngagements D s p
      reputationRegistries := s.reputationRegistries.save (reputationRegistryId D)
        { getOrCreateReputationRegistry D s with
          feedbackCount := (getOrCreateReputationRegistry D s).feedbackCount + 1
          activeFeedbackCount := (getOrCreateReputationRegistry D s).activeFeedbackCount + 1 }
      feedbackMetricPoints := s.feedbackMetricPoints ++ [⟨reputationRegistryId D,
        agentEntityId D p.agentId, p.tag1, p.tag2, 1, (feedbackOf D s p).normalizedValue⟩] } := by
  unfold handleNewFeedback ratedEngagements feedbackOf
  cases hr : resolveAgentByWallet s p.client with
  | none =>
    simp only [ha]
    rfl
  | some c =>
    simp only [ha]
    rfl

/-- The engagements after a feedback is revoked. -/
def revokedEngagements (D : Deployment W) (s : Store W) (f : Feedback) (agent : Id) :
    Table W Engagement :=
  s.engagements.modifyAt ((f.clientAgent.filter (fun id => (s.agents.load id).isSome)).map
      (fun rater => engagementId D rater agent))
    (fun x => { x with
      feedbackCount := x.feedbackCount - 1
      verifiedFeedbackCount := x.verifiedFeedbackCount - oneIf f.verified })

theorem handleFeedbackRevoked_of_none {agentId : ℕ} {client : Address} {index : ℕ}
    (h : knownFeedback D agentId client index s = none) :
    handleFeedbackRevoked D agentId client index s = s := by
  simp only [handleFeedbackRevoked, h]

theorem handleFeedbackRevoked_of_known {agentId : ℕ} {client : Address} {index : ℕ}
    {r : ReputationRegistry} {a : Agent} {f : Feedback}
    (h : knownFeedback D agentId client index s = some (r, a, f)) :
    handleFeedbackRevoked D agentId client index s = { s with
      feedbacks := s.feedbacks.save (feedbackEntityId D agentId client index)
        { f with isRevoked := true }
      agents := s.agents.save (agentEntityId D agentId) { a with
        activeFeedbackCount := a.activeFeedbackCount - 1
        verifiedFeedbackCount := a.verifiedFeedbackCount - oneIf f.verified }
      engagements := revokedEngagements D s f (agentEntityId D agentId)
      reputationRegistries := s.reputationRegistries.save (reputationRegistryId D) { r with
        activeFeedbackCount := r.activeFeedbackCount - 1 }
      feedbackMetricPoints := s.feedbackMetricPoints ++ [⟨reputationRegistryId D,
        agentEntityId D agentId, f.tag1, f.tag2, -1, -f.normalizedValue⟩] } := by
  unfold handleFeedbackRevoked revokeInEngagement revokedEngagements
  simp only [h]
  cases hrater : f.clientAgent with
  | none => rfl
  | some rater =>
    by_cases hr : (s.agents.load rater).isSome = true
    · simp only [hr, if_true, Option.filter]
      rfl
    · simp only [hr, Option.filter]
      rfl

omit [DecidableEq W] in
theorem handleResponseAppended_of_none {agentId : ℕ} {client : Address} {index : ℕ}
    (h : knownFeedback D agentId client index s = none) :
    handleResponseAppended D agentId client index s = s := by
  simp only [handleResponseAppended, h]

omit [DecidableEq W] in
theorem handleResponseAppended_of_known {agentId : ℕ} {client : Address} {index : ℕ}
    {r : ReputationRegistry} {a : Agent} {f : Feedback}
    (h : knownFeedback D agentId client index s = some (r, a, f)) :
    handleResponseAppended D agentId client index s = { s with
      feedbackResponses := s.feedbackResponses ++ [⟨feedbackEntityId D agentId client index⟩]
      feedbacks := s.feedbacks.save (feedbackEntityId D agentId client index)
        { f with responseCount := f.responseCount + 1 }
      agents := s.agents.save (agentEntityId D agentId) { a with
        responseCount := a.responseCount + 1 }
      reputationRegistries := s.reputationRegistries.save (reputationRegistryId D) { r with
        responseCount := r.responseCount + 1 } } := by
  simp only [handleResponseAppended, h]

end Shapes

/-! ### Values -/

section Values

variable {M : Type} [AddCommGroup M]

/-- The handler of the event does not write what `get` reads of an agent. -/
def AgentFrame (get : Agent → M) : Event → Prop
  | .registered _ _ _ => ∀ owner agentURI, get (newAgent owner agentURI) = 0
  | .metadataSet _ _ _ | .transfer _ _ _ => ∀ a owner wallet burned,
      get { a with owner := owner, agentWallet := wallet, isBurned := burned } = get a
  | .uriUpdated _ _ => ∀ a uri n, get { a with agentURI := uri, uriRevision := n } = get a
  | .jobCreated _ _ _ _ | .providerSet _ _ => ∀ a m n,
      get { a with jobsAsClient := m, jobsAsProvider := n } = get a
  | .jobCompleted _ | .paymentReleased _ _ => ∀ a j k m n,
      get { a with
        settledAsClient := j, settledAsProvider := k
        settledVolumeAsClient := m, settledVolumeAsProvider := n } = get a
  | .refunded _ _ => ∀ a n, get { a with refundedVolumeAsClient := n } = get a
  | .newFeedback _ | .feedbackRevoked _ _ _ | .responseAppended _ _ _ => ∀ a j k m n,
      get { a with
        feedbackCount := j, activeFeedbackCount := k
        verifiedFeedbackCount := m, responseCount := n } = get a
  | _ => True

/-- The handler does not write what `get` reads of an engagement. -/
def EngagementFrame (get : Engagement → M) : Event → Prop
  | .jobCreated _ _ _ _ | .providerSet _ _ =>
    (∀ c p, get (newEngagement c p) = 0) ∧ ∀ x n, get { x with jobCount := n } = get x
  | .jobCompleted _ | .paymentReleased _ _ => ∀ x m n job,
      get { x with settledJobCount := m, settledVolume := n, lastSettledJob := job } = get x
  | .refunded _ _ => ∀ x n, get { x with refundedVolume := n } = get x
  | .newFeedback _ | .feedbackRevoked _ _ _ => (∀ c p, get (newEngagement c p) = 0) ∧
      ∀ x m n, get { x with feedbackCount := m, verifiedFeedbackCount := n } = get x
  | _ => True

/-- The handler does not write what `get` reads of the escrow. -/
def CommerceFrame (get : AgenticCommerce → M) : Event → Prop
  | .jobCreated _ _ _ _ =>
    get newAgenticCommerce = 0 ∧ ∀ x n, get { x with jobCount := n } = get x
  | .hookWhitelistUpdated => get newAgenticCommerce = 0
  | .upgraded _ =>
    get newAgenticCommerce = 0 ∧ ∀ x impl, get { x with implementation := impl } = get x
  | .jobCompleted _ | .paymentReleased _ _ => ∀ x m n,
      get { x with settledJobCount := m, settledVolume := n } = get x
  | .refunded _ _ => ∀ x n, get { x with refundedVolume := n } = get x
  | _ => True

/-! #### Agents -/

section Agents

variable {get : Agent → M}

theorem agents_linkWorkspaces (h : ∀ a m n, get { a with
      jobsAsClient := m, jobsAsProvider := n } = get a) (job : Job W) (g : Id) :
    (linkWorkspaces D job s).2.agents.value (fun _ => get) g = s.agents.value (fun _ => get) g := by
  obtain ⟨-, ⟨c, p, ca, pa, hc, hp, -, -, hs⟩ | ⟨hs, -⟩⟩ := linkWorkspaces_cases D (s := s) job
  · rw [hs]
    have hca := load_of_partyAgent hc
    have hpa := load_of_provider hp
    show ((s.agents.save c _).save p _).value _ g = _
    rw [Table.value_save]
    by_cases hg : g = p
    · rw [if_pos hg, hg, Table.value_of_load hpa]
      exact h pa pa.jobsAsClient _
    · rw [if_neg hg]
      exact Table.value_save_same hca (h ca _ ca.jobsAsProvider)
  · rw [hs]

theorem agents_markSettledIfPaid (h : ∀ a j k m n, get { a with
      settledAsClient := j, settledAsProvider := k
      settledVolumeAsClient := m, settledVolumeAsProvider := n } = get a)
    (id : Id) (job : Job W) (g : Id) :
    (markSettledIfPaid id job s).2.agents.value (fun _ => get) g =
      s.agents.value (fun _ => get) g := by
  unfold markSettledIfPaid
  by_cases hs : settles job
  · obtain ⟨points, heq⟩ := countSettlement_eq id job s
    rw [if_pos hs, heq]
    refine (Table.value_modifyAt_same ?_ _).trans (Table.value_modifyAt_same ?_ _)
    · exact fun a => h a _ a.settledAsProvider _ a.settledVolumeAsProvider
    · exact fun a => h a a.settledAsClient _ a.settledVolumeAsClient _
  · rw [if_neg hs]

omit [DecidableEq W] in
theorem agents_updateJob (jobId : ℕ) (kind : JobEventKind) (amount : Option ℤ)
    (f : Job W → Job W) : (updateJob D jobId kind amount f s).agents = s.agents := by
  obtain ⟨jobs, events, heq⟩ := updateJob_eq (D := D) (s := s) jobId kind amount f
  rw [heq]

/-- **No value of an agent changes** that the handler does not write. -/
theorem agents_value (hfresh : FreshAgent D s e) (h : AgentFrame get e) (g : Id) :
    (handle D s e).agents.value (fun _ => get) g = s.agents.value (fun _ => get) g := by
  cases e with
  | registered agentId agentURI owner =>
    show (s.agents.save _ _).value _ g = _
    rw [Table.value_save]
    by_cases hg : g = agentEntityId D agentId
    · rw [if_pos hg, hg, Table.value_of_none hfresh]
      exact h owner agentURI
    · rw [if_neg hg]
  | metadataSet agentId key value =>
    obtain ⟨bindings, heq⟩ := handleMetadataSet_eq (D := D) (s := s) agentId key value
    rw [handle, heq]
    exact Table.value_modify_same (fun a => h a a.owner _ a.isBurned)
  | uriUpdated agentId newURI => exact Table.value_modify_same (fun a => h a _ _)
  | transfer sender receiver tokenId =>
    obtain ⟨registries, bindings, heq⟩ := handleTransfer_eq (D := D) (s := s) sender receiver tokenId
    rw [handle, heq]
    by_cases hsender : sender = 0
    · simp only [if_pos hsender]
    · simp only [if_neg hsender]
      exact Table.value_modify_same (fun a => h a _ _ _)
  | jobCreated jobId client provider budget =>
    show (linkWorkspaces D _ (getOrCreateAgenticCommerce D s).2).2.agents.value _ g = _
    obtain ⟨t, ht⟩ := getOrCreateAgenticCommerce_eq D s
    rw [agents_linkWorkspaces h, ht]
  | providerSet jobId provider =>
    rcases onJob_cases D jobId s _ with heq | ⟨job, -, heq⟩
    · rw [handle, handleProviderSet, heq]
    · rw [handle, handleProviderSet, heq]
      exact agents_linkWorkspaces h _ g
  | jobCompleted jobId =>
    rcases onJob_cases D jobId s _ with heq | ⟨job, -, heq⟩
    · rw [handle, handleJobCompleted, heq]
    · rw [handle, handleJobCompleted, heq]
      exact agents_markSettledIfPaid h _ _ g
  | paymentReleased jobId amount =>
    rcases onJob_cases D jobId s _ with heq | ⟨job, -, heq⟩
    · rw [handle, handlePaymentReleased, heq]
    · rw [handle, handlePaymentReleased, heq]
      exact agents_markSettledIfPaid h _ _ g
  | refunded jobId amount =>
    rcases onJob_cases D jobId s _ with heq | ⟨job, -, heq⟩
    · rw [handle, handleRefunded, heq]
    · rw [handle, handleRefunded, heq]
      obtain ⟨points, hrefund⟩ := recordRefund_eq (addRefund amount job) amount
        (saveJob (jobEntityId D jobId) (addRefund amount job) s)
      simp only [hrefund]
      exact Table.value_modifyAt_same (fun a => h a _) _
  | budgetSet jobId _ | jobFunded jobId _ | jobSubmitted jobId | jobRejected jobId
  | jobExpired jobId | evaluatorFeePaid jobId _ =>
    show (updateJob D jobId _ _ _ s).agents.value _ g = _
    rw [agents_updateJob]
  | hookWhitelistUpdated | upgraded _ =>
    obtain ⟨t, ht⟩ := getOrCreateAgenticCommerce_eq D s
    show (getOrCreateAgenticCommerce D s).2.agents.value _ g = _
    rw [ht]
  | newFeedback p =>
    cases ha : s.agents.load (agentEntityId D p.agentId) with
    | none => rw [handle, handleNewFeedback_of_none ha]
    | some a =>
      rw [handle, handleNewFeedback_of_some ha]
      exact Table.value_save_same ha (h a _ _ _ a.responseCount)
  | feedbackRevoked agentId client index =>
    cases hknown : knownFeedback D agentId client index s with
    | none => rw [handle, handleFeedbackRevoked_of_none hknown]
    | some x =>
      obtain ⟨r, a, f⟩ := x
      rw [handle, handleFeedbackRevoked_of_known hknown]
      exact Table.value_save_same (load_of_knownFeedback D hknown).2.1
        (h a a.feedbackCount _ _ a.responseCount)
  | responseAppended agentId client index =>
    cases hknown : knownFeedback D agentId client index s with
    | none => rw [handle, handleResponseAppended_of_none hknown]
    | some x =>
      obtain ⟨r, a, f⟩ := x
      rw [handle, handleResponseAppended_of_known hknown]
      exact Table.value_save_same (load_of_knownFeedback D hknown).2.1
        (h a a.feedbackCount a.activeFeedbackCount a.verifiedFeedbackCount _)

end Agents

/-! #### Engagements -/

section Engagements

variable {get : Engagement → M}

theorem engagements_linkWorkspaces (hnew : ∀ c p, get (newEngagement c p) = 0)
    (h : ∀ x n, get { x with jobCount := n } = get x) (job : Job W) (g : W) :
    (linkWorkspaces D job s).2.engagements.value (fun _ => get) g =
      s.engagements.value (fun _ => get) g := by
  obtain ⟨-, ⟨c, p, ca, pa, -, -, -, -, hs⟩ | ⟨hs, -⟩⟩ := linkWorkspaces_cases D (s := s) job
  · rw [hs]
    show (s.engagements.save _ _).value _ g = _
    unfold getOrCreateEngagement
    rw [Table.value_save_getD (δ := 0) (φ := fun x => { x with jobCount := x.jobCount + 1 })
      (hnew c p) (fun x => by rw [add_zero]; exact h x _), ite_self, add_zero]
  · rw [hs]

theorem engagements_markSettledIfPaid (h : ∀ x m n job, get { x with
      settledJobCount := m, settledVolume := n, lastSettledJob := job } = get x)
    (id : Id) (job : Job W) (g : W) :
    (markSettledIfPaid id job s).2.engagements.value (fun _ => get) g =
      s.engagements.value (fun _ => get) g := by
  unfold markSettledIfPaid
  by_cases hs : settles job
  · obtain ⟨points, heq⟩ := countSettlement_eq id job s
    rw [if_pos hs, heq]
    exact Table.value_modifyAt_same (fun x => h x _ _ _) _
  · rw [if_neg hs]

omit [DecidableEq W] in
theorem engagements_updateJob (jobId : ℕ) (kind : JobEventKind) (amount : Option ℤ)
    (f : Job W → Job W) : (updateJob D jobId kind amount f s).engagements = s.engagements := by
  obtain ⟨jobs, events, heq⟩ := updateJob_eq (D := D) (s := s) jobId kind amount f
  rw [heq]

theorem engagements_ratedEngagements (hnew : ∀ c p, get (newEngagement c p) = 0)
    (h : ∀ x m n, get { x with feedbackCount := m, verifiedFeedbackCount := n } = get x)
    (p : NewFeedback) (g : W) :
    (ratedEngagements D s p).value (fun _ => get) g = s.engagements.value (fun _ => get) g := by
  unfold ratedEngagements
  cases resolveAgentByWallet s p.client with
  | none => rfl
  | some c =>
    show (s.engagements.save _ _).value _ g = _
    rw [Table.value_save_getD (δ := 0) (hnew _ _) (fun x => by rw [add_zero]; exact h x _ _),
      ite_self, add_zero]

/-- **No value of an engagement changes** that the handler does not write. -/
theorem engagements_value (h : EngagementFrame get e) (g : W) :
    (handle D s e).engagements.value (fun _ => get) g = s.engagements.value (fun _ => get) g := by
  cases e with
  | registered _ _ _ | uriUpdated _ _ => rfl
  | metadataSet agentId key value =>
    obtain ⟨bindings, heq⟩ := handleMetadataSet_eq (D := D) (s := s) agentId key value
    rw [handle, heq]
  | transfer sender receiver tokenId =>
    obtain ⟨registries, bindings, heq⟩ := handleTransfer_eq (D := D) (s := s) sender receiver tokenId
    rw [handle, heq]
  | jobCreated jobId client provider budget =>
    show (linkWorkspaces D _ (getOrCreateAgenticCommerce D s).2).2.engagements.value _ g = _
    obtain ⟨t, ht⟩ := getOrCreateAgenticCommerce_eq D s
    rw [engagements_linkWorkspaces h.1 h.2, ht]
  | providerSet jobId provider =>
    rcases onJob_cases D jobId s _ with heq | ⟨job, -, heq⟩
    · rw [handle, handleProviderSet, heq]
    · rw [handle, handleProviderSet, heq]
      exact engagements_linkWorkspaces h.1 h.2 _ g
  | jobCompleted jobId =>
    rcases onJob_cases D jobId s _ with heq | ⟨job, -, heq⟩
    · rw [handle, handleJobCompleted, heq]
    · rw [handle, handleJobCompleted, heq]
      exact engagements_markSettledIfPaid h _ _ g
  | paymentReleased jobId amount =>
    rcases onJob_cases D jobId s _ with heq | ⟨job, -, heq⟩
    · rw [handle, handlePaymentReleased, heq]
    · rw [handle, handlePaymentReleased, heq]
      exact engagements_markSettledIfPaid h _ _ g
  | refunded jobId amount =>
    rcases onJob_cases D jobId s _ with heq | ⟨job, -, heq⟩
    · rw [handle, handleRefunded, heq]
    · rw [handle, handleRefunded, heq]
      obtain ⟨points, hrefund⟩ := recordRefund_eq (addRefund amount job) amount
        (saveJob (jobEntityId D jobId) (addRefund amount job) s)
      simp only [hrefund]
      exact Table.value_modifyAt_same (fun x => h x _) _
  | budgetSet jobId _ | jobFunded jobId _ | jobSubmitted jobId | jobRejected jobId
  | jobExpired jobId | evaluatorFeePaid jobId _ =>
    show (updateJob D jobId _ _ _ s).engagements.value _ g = _
    rw [engagements_updateJob]
  | hookWhitelistUpdated | upgraded _ =>
    obtain ⟨t, ht⟩ := getOrCreateAgenticCommerce_eq D s
    show (getOrCreateAgenticCommerce D s).2.engagements.value _ g = _
    rw [ht]
  | newFeedback p =>
    cases ha : s.agents.load (agentEntityId D p.agentId) with
    | none => rw [handle, handleNewFeedback_of_none ha]
    | some a =>
      rw [handle, handleNewFeedback_of_some ha]
      exact engagements_ratedEngagements h.1 h.2 p g
  | feedbackRevoked agentId client index =>
    cases hknown : knownFeedback D agentId client index s with
    | none => rw [handle, handleFeedbackRevoked_of_none hknown]
    | some x =>
      obtain ⟨r, a, f⟩ := x
      rw [handle, handleFeedbackRevoked_of_known hknown]
      exact Table.value_modifyAt_same (fun x => h.2 x _ _) _
  | responseAppended agentId client index =>
    cases hknown : knownFeedback D agentId client index s with
    | none => rw [handle, handleResponseAppended_of_none hknown]
    | some x => rw [handle, handleResponseAppended_of_known hknown]

end Engagements

/-! #### The escrow -/

section Escrow

variable {get : AgenticCommerce → M}

theorem commerces_markSettledIfPaid (h : ∀ x m n, get { x with
      settledJobCount := m, settledVolume := n } = get x) (id : Id) (job : Job W) (g : Id) :
    (markSettledIfPaid id job s).2.agenticCommerces.value (fun _ => get) g =
      s.agenticCommerces.value (fun _ => get) g := by
  unfold markSettledIfPaid
  by_cases hs : settles job
  · obtain ⟨points, heq⟩ := countSettlement_eq id job s
    rw [if_pos hs, heq]
    exact Table.value_modify_same (fun x => h x _ _)
  · rw [if_neg hs]

omit [DecidableEq W] in
theorem commerces_updateJob (jobId : ℕ) (kind : JobEventKind) (amount : Option ℤ)
    (f : Job W → Job W) :
    (updateJob D jobId kind amount f s).agenticCommerces = s.agenticCommerces := by
  obtain ⟨jobs, events, heq⟩ := updateJob_eq (D := D) (s := s) jobId kind amount f
  rw [heq]

theorem commerces_linkWorkspaces (job : Job W) :
    (linkWorkspaces D job s).2.agenticCommerces = s.agenticCommerces := by
  obtain ⟨-, ⟨c, p, ca, pa, -, -, -, -, hs⟩ | ⟨hs, -⟩⟩ := linkWorkspaces_cases D (s := s) job
  · rw [hs]
  · rw [hs]

omit [DecidableEq W] in
/-- The escrow is known after it has been asked for, with its counters. -/
theorem getOrCreateAgenticCommerce_spec (hnew : get newAgenticCommerce = 0) (g : Id) :
    (getOrCreateAgenticCommerce D s).2.agenticCommerces.load (agenticCommerceEntityId D) =
        some (getOrCreateAgenticCommerce D s).1 ∧
      (getOrCreateAgenticCommerce D s).2.agenticCommerces.value (fun _ => get) g =
        s.agenticCommerces.value (fun _ => get) g := by
  unfold getOrCreateAgenticCommerce
  cases hc : s.agenticCommerces.load (agenticCommerceEntityId D) with
  | none =>
    refine ⟨Table.load_save_self, ?_⟩
    show (s.agenticCommerces.save _ _).value _ g = _
    rw [Table.value_save]
    by_cases hg : g = agenticCommerceEntityId D
    · rw [if_pos hg, hnew, hg, Table.value_of_none hc]
    · rw [if_neg hg]
  | some x => exact ⟨hc, rfl⟩

theorem commerces_handleJobCreated (jobId : ℕ) (client provider : Address) (budget : Option ℕ) :
    (handleJobCreated D jobId client provider budget s).agenticCommerces =
      (getOrCreateAgenticCommerce D s).2.agenticCommerces.save (agenticCommerceEntityId D)
        { (getOrCreateAgenticCommerce D s).1 with
          jobCount := (getOrCreateAgenticCommerce D s).1.jobCount + 1 } := by
  show (linkWorkspaces D _ _).2.agenticCommerces.save _ _ = _
  rw [commerces_linkWorkspaces]
  rfl

/-- **No value of the escrow changes** that the handler does not write. -/
theorem commerces_value (h : CommerceFrame get e) (g : Id) :
    (handle D s e).agenticCommerces.value (fun _ => get) g =
      s.agenticCommerces.value (fun _ => get) g := by
  cases e with
  | registered _ _ _ | uriUpdated _ _ => rfl
  | metadataSet agentId key value =>
    obtain ⟨bindings, heq⟩ := handleMetadataSet_eq (D := D) (s := s) agentId key value
    rw [handle, heq]
  | transfer sender receiver tokenId =>
    obtain ⟨registries, bindings, heq⟩ := handleTransfer_eq (D := D) (s := s) sender receiver tokenId
    rw [handle, heq]
  | jobCreated jobId client provider budget =>
    obtain ⟨hload, hvalue⟩ := getOrCreateAgenticCommerce_spec (D := D) (s := s) h.1 g
    show (handleJobCreated D jobId client provider budget s).agenticCommerces.value _ g = _
    rw [commerces_handleJobCreated, ← hvalue]
    exact Table.value_save_same hload (h.2 _ _)
  | providerSet jobId provider =>
    rcases onJob_cases D jobId s _ with heq | ⟨job, -, heq⟩
    · rw [handle, handleProviderSet, heq]
    · rw [handle, handleProviderSet, heq]
      show (linkWorkspaces D _ s).2.agenticCommerces.value _ g = _
      rw [commerces_linkWorkspaces]
  | jobCompleted jobId =>
    rcases onJob_cases D jobId s _ with heq | ⟨job, -, heq⟩
    · rw [handle, handleJobCompleted, heq]
    · rw [handle, handleJobCompleted, heq]
      exact commerces_markSettledIfPaid h _ _ g
  | paymentReleased jobId amount =>
    rcases onJob_cases D jobId s _ with heq | ⟨job, -, heq⟩
    · rw [handle, handlePaymentReleased, heq]
    · rw [handle, handlePaymentReleased, heq]
      exact commerces_markSettledIfPaid h _ _ g
  | refunded jobId amount =>
    rcases onJob_cases D jobId s _ with heq | ⟨job, -, heq⟩
    · rw [handle, handleRefunded, heq]
    · rw [handle, handleRefunded, heq]
      obtain ⟨points, hrefund⟩ := recordRefund_eq (addRefund amount job) amount
        (saveJob (jobEntityId D jobId) (addRefund amount job) s)
      simp only [hrefund]
      exact Table.value_modify_same (fun x => h x _)
  | budgetSet jobId _ | jobFunded jobId _ | jobSubmitted jobId | jobRejected jobId
  | jobExpired jobId | evaluatorFeePaid jobId _ =>
    show (updateJob D jobId _ _ _ s).agenticCommerces.value _ g = _
    rw [commerces_updateJob]
  | hookWhitelistUpdated =>
    obtain ⟨hload, hvalue⟩ := getOrCreateAgenticCommerce_spec (D := D) (s := s) h g
    rw [← hvalue]
    exact Table.value_save_same hload rfl
  | upgraded implementation =>
    obtain ⟨hload, hvalue⟩ := getOrCreateAgenticCommerce_spec (D := D) (s := s) h.1 g
    rw [← hvalue]
    exact Table.value_save_same hload (h.2 _ _)
  | newFeedback p =>
    cases ha : s.agents.load (agentEntityId D p.agentId) with
    | none => rw [handle, handleNewFeedback_of_none ha]
    | some a => rw [handle, handleNewFeedback_of_some ha]
  | feedbackRevoked agentId client index =>
    cases hknown : knownFeedback D agentId client index s with
    | none => rw [handle, handleFeedbackRevoked_of_none hknown]
    | some x =>
      obtain ⟨r, a, f⟩ := x
      rw [handle, handleFeedbackRevoked_of_known hknown]
  | responseAppended agentId client index =>
    cases hknown : knownFeedback D agentId client index s with
    | none => rw [handle, handleResponseAppended_of_none hknown]
    | some x => rw [handle, handleResponseAppended_of_known hknown]

end Escrow

end Values

/-! ### Nothing that is known is forgotten -/

section Known

/-- The two agents of an engagement. -/
def Engagement.ends (x : Engagement) : Id × Id := (x.client, x.provider)

/-- An engagement is saved, for the first time or again. -/
theorem map_ends_save {c p : Id} {g : W} {f : Engagement → Engagement}
    (hf : ∀ x, (f x).ends = x.ends) :
    ((s.engagements.save (engagementId D c p) (f ((s.engagements.load (engagementId D c p)).getD
        (newEngagement c p)))).load g).map Engagement.ends =
        (s.engagements.load g).map Engagement.ends ∨
      s.engagements.load g = none ∧ g = engagementId D c p ∧
        ((s.engagements.save (engagementId D c p) (f ((s.engagements.load
          (engagementId D c p)).getD (newEngagement c p)))).load g).map Engagement.ends =
          some (c, p) := by
  rw [Table.load_save]
  by_cases hg : g = engagementId D c p
  · rw [if_pos hg, hg]
    cases hload : s.engagements.load (engagementId D c p) with
    | none => exact .inr ⟨rfl, rfl, congrArg some (hf _)⟩
    | some x => exact .inl (congrArg some (hf x))
  · exact .inl (by rw [if_neg hg])

/-- The agents of an engagement stay; a new engagement is one of two agents that are
known. -/
theorem engagements_ends (D : Deployment W) (s : Store W) (e : Event) (g : W) :
    ((handle D s e).engagements.load g).map Engagement.ends =
        (s.engagements.load g).map Engagement.ends ∨
      s.engagements.load g = none ∧ ∃ c p, g = engagementId D c p ∧
        (s.agents.load c).isSome ∧ (s.agents.load p).isSome ∧
        ((handle D s e).engagements.load g).map Engagement.ends = some (c, p) := by
  have hlink : ∀ (t : Store W) (job : Job W), t.engagements = s.engagements →
      t.agents = s.agents →
      ((linkWorkspaces D job t).2.engagements.load g).map Engagement.ends =
          (s.engagements.load g).map Engagement.ends ∨
        s.engagements.load g = none ∧ ∃ c p, g = engagementId D c p ∧
          (s.agents.load c).isSome ∧ (s.agents.load p).isSome ∧
          ((linkWorkspaces D job t).2.engagements.load g).map Engagement.ends = some (c, p) := by
    intro t job hte hta
    rw [← hte, ← hta]
    obtain ⟨-, ⟨c, p, ca, pa, hc, hp, -, -, hs⟩ | ⟨hs, -⟩⟩ := linkWorkspaces_cases D (s := t) job
    · rw [hs]
      rcases map_ends_save (D := D) (s := t) (c := c) (p := p) (g := g)
        (f := fun x => { x with jobCount := x.jobCount + 1 }) (fun _ => rfl) with h | ⟨hg, hid, h⟩
      · exact .inl h
      · exact .inr ⟨hg, c, p, hid, by rw [load_of_partyAgent hc]; rfl,
          by rw [load_of_provider hp]; rfl, h⟩
    · rw [hs]
      exact .inl rfl
  have hsettle : ∀ (id : Id) (job : Job W),
      ((markSettledIfPaid id job s).2.engagements.load g).map Engagement.ends =
        (s.engagements.load g).map Engagement.ends := by
    intro id job
    unfold markSettledIfPaid
    by_cases hs : settles job
    · obtain ⟨points, heq⟩ := countSettlement_eq id job s
      rw [if_pos hs, heq]
      apply Table.map_load_modifyAt
      exact fun _ => rfl
    · rw [if_neg hs]
  cases e with
  | registered _ _ _ | uriUpdated _ _ => exact .inl rfl
  | metadataSet agentId key value =>
    obtain ⟨bindings, heq⟩ := handleMetadataSet_eq (D := D) (s := s) agentId key value
    rw [handle, heq]
    exact .inl rfl
  | transfer sender receiver tokenId =>
    obtain ⟨registries, bindings, heq⟩ := handleTransfer_eq (D := D) (s := s) sender receiver tokenId
    rw [handle, heq]
    exact .inl rfl
  | jobCreated jobId client provider budget =>
    obtain ⟨t, ht⟩ := getOrCreateAgenticCommerce_eq D s
    exact hlink (getOrCreateAgenticCommerce D s).2 _ (by rw [ht]) (by rw [ht])
  | providerSet jobId provider =>
    rcases onJob_cases D jobId s _ with heq | ⟨job, -, heq⟩
    · rw [handle, handleProviderSet, heq]
      exact .inl rfl
    · rw [handle, handleProviderSet, heq]
      exact hlink s _ rfl rfl
  | jobCompleted jobId =>
    rcases onJob_cases D jobId s _ with heq | ⟨job, -, heq⟩
    · rw [handle, handleJobCompleted, heq]
      exact .inl rfl
    · rw [handle, handleJobCompleted, heq]
      exact .inl (hsettle _ _)
  | paymentReleased jobId amount =>
    rcases onJob_cases D jobId s _ with heq | ⟨job, -, heq⟩
    · rw [handle, handlePaymentReleased, heq]
      exact .inl rfl
    · rw [handle, handlePaymentReleased, heq]
      exact .inl (hsettle _ _)
  | refunded jobId amount =>
    rcases onJob_cases D jobId s _ with heq | ⟨job, -, heq⟩
    · rw [handle, handleRefunded, heq]
      exact .inl rfl
    · rw [handle, handleRefunded, heq]
      obtain ⟨points, hrefund⟩ := recordRefund_eq (addRefund amount job) amount
        (saveJob (jobEntityId D jobId) (addRefund amount job) s)
      simp only [hrefund]
      refine .inl ?_
      apply Table.map_load_modifyAt
      exact fun _ => rfl
  | budgetSet jobId _ | jobFunded jobId _ | jobSubmitted jobId | jobRejected jobId
  | jobExpired jobId | evaluatorFeePaid jobId _ =>
    refine .inl ?_
    show ((updateJob D jobId _ _ _ s).engagements.load g).map _ = _
    rw [engagements_updateJob]
  | hookWhitelistUpdated | upgraded _ =>
    obtain ⟨t, ht⟩ := getOrCreateAgenticCommerce_eq D s
    refine .inl ?_
    show ((getOrCreateAgenticCommerce D s).2.engagements.load g).map _ = _
    rw [ht]
  | newFeedback p =>
    cases ha : s.agents.load (agentEntityId D p.agentId) with
    | none =>
      rw [handle, handleNewFeedback_of_none ha]
      exact .inl rfl
    | some a =>
      rw [handle, handleNewFeedback_of_some ha]
      show ((ratedEngagements D s p).load g).map _ = _ ∨ _ ∧ ∃ c' p', _ ∧ _ ∧ _ ∧
        ((ratedEngagements D s p).load g).map _ = _
      unfold ratedEngagements
      cases hr : resolveAgentByWallet s p.client with
      | none => exact .inl rfl
      | some c =>
        obtain ⟨c, ca⟩ := c
        rcases map_ends_save (D := D) (s := s) (c := c) (p := agentEntityId D p.agentId) (g := g)
          (f := Engagement.addFeedback 1 (oneIf (feedbackOf D s p).verified)) (fun _ => rfl)
          with h | ⟨hg, hid, h⟩
        · exact .inl h
        · have hca := load_of_partyAgent (show partyAgent s none p.client = some (c, ca) from hr)
          exact .inr ⟨hg, c, agentEntityId D p.agentId, hid, by rw [hca]; rfl, by rw [ha]; rfl, h⟩
  | feedbackRevoked agentId client index =>
    cases hknown : knownFeedback D agentId client index s with
    | none =>
      rw [handle, handleFeedbackRevoked_of_none hknown]
      exact .inl rfl
    | some x =>
      obtain ⟨r, a, f⟩ := x
      rw [handle, handleFeedbackRevoked_of_known hknown]
      refine .inl ?_
      apply Table.map_load_modifyAt
      exact fun _ => rfl
  | responseAppended agentId client index =>
    cases hknown : knownFeedback D agentId client index s with
    | none =>
      rw [handle, handleResponseAppended_of_none hknown]
      exact .inl rfl
    | some x =>
      rw [handle, handleResponseAppended_of_known hknown]
      exact .inl rfl

omit [DecidableEq W] in
theorem onJob_agents (c : Core W) (jobId : ℕ) (f : Job W → Job W) :
    (c.onJob D jobId f).agents = c.agents := by
  unfold Core.onJob
  cases c.jobs (jobEntityId D jobId) with
  | none => rfl
  | some job => rfl

omit [DecidableEq W] in
/-- A face is changed of an agent that is known. -/
theorem isSome_onFace {c : Core W} {agentId : ℕ} {f : Id → Face → Core W} {id : Id}
    (h : ∀ face, c.agents (agentEntityId D agentId) = some face →
      ((f (agentEntityId D agentId) face).agents id).isSome = (c.agents id).isSome) :
    ((c.onFace D agentId f).agents id).isSome = (c.agents id).isSome := by
  cases hface : c.agents (agentEntityId D agentId) with
  | none => rw [onFace_of_none D hface]
  | some face => rw [onFace_of_some D hface, h face hface]

omit [DecidableEq W] in
theorem isSome_setFace {c c' : Core W} {id id' : Id} {face face' : Face}
    (hc : c'.agents = c.agents) (h : c.agents id = some face) :
    ((c'.setFace id face').agents id').isSome = (c.agents id').isSome := by
  show (Function.update c'.agents id (some face') id').isSome = _
  rw [hc]
  by_cases hid : id' = id
  · rw [hid, Function.update_self, h]
    rfl
  · rw [Function.update_of_ne hid]

omit [DecidableEq W] in
/-- The agents are those that were registered. -/
theorem coreStep_agents (c : Core W) (e : Event) (id : Id) :
    ((coreStep D c e).agents id).isSome ↔ (c.agents id).isSome ∨
      ∃ agentId agentURI owner, e = .registered agentId agentURI owner ∧
        id = agentEntityId D agentId := by
  cases e with
  | registered agentId agentURI owner =>
    show (Function.update c.agents _ _ id).isSome ↔ _
    by_cases hid : id = agentEntityId D agentId
    · rw [hid, Function.update_self]
      exact iff_of_true rfl (.inr ⟨agentId, agentURI, owner, rfl, rfl⟩)
    · rw [Function.update_of_ne hid]
      refine ⟨.inl, ?_⟩
      intro h
      rcases h with h | ⟨agentId', _, _, heq, hid'⟩
      · exact h
      · injection heq with hagent
        rw [← hagent] at hid'
        exact absurd hid' hid
  | metadataSet agentId key value =>
    have hsame : ((coreStep D c (.metadataSet agentId key value)).agents id).isSome =
        (c.agents id).isSome := by
      refine isSome_onFace ?_
      intro face hface
      by_cases hkey : key = "agentWallet"
      · rw [if_pos hkey]
        exact isSome_setFace rfl hface
      · rw [if_neg hkey]
    rw [hsame]
    refine ⟨.inl, fun h => h.resolve_right ?_⟩
    rintro ⟨_, _, _, heq, _⟩
    cases heq
  | transfer sender receiver tokenId =>
    have hsame : ((coreStep D c (.transfer sender receiver tokenId)).agents id).isSome =
        (c.agents id).isSome := by
      rw [coreStep]
      by_cases hsender : sender = 0
      · rw [if_pos hsender]
      · rw [if_neg hsender]
        exact isSome_onFace (fun face hface => isSome_setFace rfl hface)
    rw [hsame]
    refine ⟨.inl, fun h => h.resolve_right ?_⟩
    rintro ⟨_, _, _, heq, _⟩
    cases heq
  | providerSet jobId _ | budgetSet jobId _ | jobFunded jobId _ | jobSubmitted jobId
  | jobCompleted jobId | jobRejected jobId | jobExpired jobId | paymentReleased jobId _
  | evaluatorFeePaid jobId _ | refunded jobId _ =>
    rw [coreStep, onJob_agents]
    refine ⟨.inl, fun h => h.resolve_right ?_⟩
    rintro ⟨_, _, _, heq, _⟩
    cases heq
  | jobCreated _ _ _ _ | uriUpdated _ _ | hookWhitelistUpdated | upgraded _ | newFeedback _
  | feedbackRevoked _ _ _ | responseAppended _ _ _ =>
    refine ⟨.inl, fun h => h.resolve_right ?_⟩
    rintro ⟨_, _, _, heq, _⟩
    cases heq

omit [DecidableEq W] in
theorem isSome_core_agents (id : Id) : (s.core.agents id).isSome = (s.agents.load id).isSome :=
  Option.isSome_map

theorem agents_isSome (D : Deployment W) (s : Store W) (e : Event) (id : Id) :
    ((handle D s e).agents.load id).isSome ↔ (s.agents.load id).isSome ∨
      ∃ agentId agentURI owner, e = .registered agentId agentURI owner ∧
        id = agentEntityId D agentId := by
  rw [← isSome_core_agents, core_handle, coreStep_agents, isSome_core_agents]

omit [DecidableEq W] in
theorem isSome_getOrCreate (g : Id) (h : (s.agenticCommerces.load g).isSome) :
    ((getOrCreateAgenticCommerce D s).2.agenticCommerces.load g).isSome := by
  unfold getOrCreateAgenticCommerce
  cases s.agenticCommerces.load (agenticCommerceEntityId D) with
  | none => exact Table.isSome_load_save h
  | some c => exact h

theorem isSome_markSettledIfPaid (id : Id) (job : Job W) (g : Id) :
    ((markSettledIfPaid id job s).2.agenticCommerces.load g).isSome =
      (s.agenticCommerces.load g).isSome := by
  unfold markSettledIfPaid
  by_cases hs : settles job
  · obtain ⟨points, heq⟩ := countSettlement_eq id job s
    rw [if_pos hs, heq]
    exact Table.isSome_load_modify _
  · rw [if_neg hs]

/-- An escrow that is known stays known. -/
theorem commerces_kept (g : Id) (h : (s.agenticCommerces.load g).isSome) :
    ((handle D s e).agenticCommerces.load g).isSome := by
  cases e with
  | registered _ _ _ | uriUpdated _ _ => exact h
  | metadataSet agentId key value =>
    obtain ⟨bindings, heq⟩ := handleMetadataSet_eq (D := D) (s := s) agentId key value
    rw [handle, heq]
    exact h
  | transfer sender receiver tokenId =>
    obtain ⟨registries, bindings, heq⟩ := handleTransfer_eq (D := D) (s := s) sender receiver tokenId
    rw [handle, heq]
    exact h
  | jobCreated jobId client provider budget =>
    show ((handleJobCreated D jobId client provider budget s).agenticCommerces.load g).isSome = true
    rw [commerces_handleJobCreated]
    exact Table.isSome_load_save (isSome_getOrCreate g h)
  | providerSet jobId provider =>
    rcases onJob_cases D jobId s _ with heq | ⟨job, -, heq⟩
    · rw [handle, handleProviderSet, heq]
      exact h
    · rw [handle, handleProviderSet, heq]
      show ((linkWorkspaces D _ s).2.agenticCommerces.load g).isSome = true
      rw [commerces_linkWorkspaces]
      exact h
  | jobCompleted jobId =>
    rcases onJob_cases D jobId s _ with heq | ⟨job, -, heq⟩
    · rw [handle, handleJobCompleted, heq]
      exact h
    · rw [handle, handleJobCompleted, heq]
      exact (isSome_markSettledIfPaid _ _ g).trans h
  | paymentReleased jobId amount =>
    rcases onJob_cases D jobId s _ with heq | ⟨job, -, heq⟩
    · rw [handle, handlePaymentReleased, heq]
      exact h
    · rw [handle, handlePaymentReleased, heq]
      exact (isSome_markSettledIfPaid _ _ g).trans h
  | refunded jobId amount =>
    rcases onJob_cases D jobId s _ with heq | ⟨job, -, heq⟩
    · rw [handle, handleRefunded, heq]
      exact h
    · rw [handle, handleRefunded, heq]
      obtain ⟨points, hrefund⟩ := recordRefund_eq (addRefund amount job) amount
        (saveJob (jobEntityId D jobId) (addRefund amount job) s)
      simp only [hrefund]
      exact (Table.isSome_load_modify _).trans h
  | budgetSet jobId _ | jobFunded jobId _ | jobSubmitted jobId | jobRejected jobId
  | jobExpired jobId | evaluatorFeePaid jobId _ =>
    show ((updateJob D jobId _ _ _ s).agenticCommerces.load g).isSome = true
    rw [commerces_updateJob]
    exact h
  | hookWhitelistUpdated | upgraded _ => exact Table.isSome_load_save (isSome_getOrCreate g h)
  | newFeedback p =>
    cases ha : s.agents.load (agentEntityId D p.agentId) with
    | none =>
      rw [handle, handleNewFeedback_of_none ha]
      exact h
    | some a =>
      rw [handle, handleNewFeedback_of_some ha]
      exact h
  | feedbackRevoked agentId client index =>
    cases hknown : knownFeedback D agentId client index s with
    | none =>
      rw [handle, handleFeedbackRevoked_of_none hknown]
      exact h
    | some x =>
      obtain ⟨r, a, f⟩ := x
      rw [handle, handleFeedbackRevoked_of_known hknown]
      exact h
  | responseAppended agentId client index =>
    cases hknown : knownFeedback D agentId client index s with
    | none =>
      rw [handle, handleResponseAppended_of_none hknown]
      exact h
    | some x =>
      rw [handle, handleResponseAppended_of_known hknown]
      exact h

theorem agents_kept (id : Id) (h : (s.agents.load id).isSome) :
    ((handle D s e).agents.load id).isSome := (agents_isSome D s e id).mpr (.inl h)

theorem engagements_kept (g : W) (h : (s.engagements.load g).isSome) :
    ((handle D s e).engagements.load g).isSome := by
  rcases engagements_ends D s e g with heq | ⟨hnone, -⟩
  · rw [← Option.isSome_map (f := Engagement.ends), heq, Option.isSome_map]
    exact h
  · rw [hnone] at h
    cases h

end Known

end Bufi.Subgraph
