import Bufi.Subgraph.Handlers

/-!
# The index without its counters

What the handlers decide by is small: the wallet of an agent and whether it is burned,
which agent a wallet is bound to, and the jobs.  `Core` is that part of a store, and
`coreStep` what an event does to it.  No counter is read to change it, so the handlers
refine this smaller machine (`core_handle`), and what a run does to links, statuses and
bindings can be read off `coreStep`, whatever the counters are.
-/

namespace Bufi.Subgraph

open Bufi.Evm Bufi.Index

/-- What is read of an agent. -/
structure Face where
  agentWallet : Option Address
  isBurned : Bool
  deriving DecidableEq

def Agent.face (a : Agent) : Face := ⟨a.agentWallet, a.isBurned⟩

@[ext]
structure Core (W : Type) where
  agents : Id → Option Face
  bindings : Address → Option Id
  jobs : Id → Option (Job W)

variable {W : Type}

def Store.core (s : Store W) : Core W where
  agents id := (s.agents.load id).map Agent.face
  bindings w := (s.walletBindings.load w).map WalletBinding.agent
  jobs := s.jobs.load

variable (D : Deployment W)

/-! ### Steps -/

section Steps

/-- The binding of a wallet is dropped if it is that of the agent. -/
def Core.unbind (c : Core W) (agent : Id) (wallet : Option Address) : Core W :=
  { c with bindings := fun w =>
      if wallet = some w ∧ c.bindings w = some agent then none else c.bindings w }

def Core.bind (c : Core W) (agent : Id) (wallet : Option Address) : Core W :=
  { c with bindings := fun w => if wallet = some w then some agent else c.bindings w }

def Core.setFace (c : Core W) (agent : Id) (face : Face) : Core W :=
  { c with agents := Function.update c.agents agent (some face) }

def Core.setJob (c : Core W) (id : Id) (job : Job W) : Core W :=
  { c with jobs := Function.update c.jobs id (some job) }

/-- The agent behind a wallet, where it is known. -/
def Core.resolve (c : Core W) (address : Address) : Option Id :=
  (c.bindings address).filter (fun id => (c.agents id).isSome)

def Core.party (c : Core W) (linked : Option Id) (wallet : Address) : Option Id :=
  match linked with
  | none => c.resolve wallet
  | some id => if (c.agents id).isSome then some id else none

/-- The links of a job. -/
def Core.link (c : Core W) (job : Job W) : Job W :=
  let client := c.party job.clientAgent job.client
  let provider := job.provider.bind (c.party job.providerAgent)
  { job with
    clientAgent := client.or job.clientAgent
    providerAgent := provider.or job.providerAgent
    engagement := match job.engagement, client, provider with
      | none, some a, some b => some (engagementId D a b)
      | engagement, _, _ => engagement }

def markSettled (job : Job W) : Job W :=
  if settles job then { job with settled := true } else job

/-- A job that is known is changed. -/
def Core.onJob (c : Core W) (jobId : ℕ) (f : Job W → Job W) : Core W :=
  match c.jobs (jobEntityId D jobId) with
  | none => c
  | some job => c.setJob (jobEntityId D jobId) (f job)

/-- The agent that an event of the identity registry is about. -/
def Core.onFace (c : Core W) (agentId : ℕ) (f : Id → Face → Core W) : Core W :=
  match c.agents (agentEntityId D agentId) with
  | none => c
  | some face => f (agentEntityId D agentId) face

def coreStep (c : Core W) : Event → Core W
  | .registered agentId _ _ => c.setFace (agentEntityId D agentId) ⟨none, false⟩
  | .metadataSet agentId key value =>
    c.onFace D agentId (fun id face =>
      if key = "agentWallet" then
        let wallet := agentWalletFromMetadataValue value
        ((c.unbind id face.agentWallet).bind id wallet).setFace id ⟨wallet, face.isBurned⟩
      else c)
  | .transfer sender receiver tokenId =>
    if sender = 0 then c
    else c.onFace D tokenId (fun id face =>
      (c.unbind id face.agentWallet).setFace id ⟨none, decide (receiver = 0)⟩)
  | .jobCreated jobId client provider budget =>
    c.setJob (jobEntityId D jobId) (c.link D (newJob D client provider budget))
  | .providerSet jobId provider =>
    c.onJob D jobId (fun job => c.link D (setProvider provider job))
  | .budgetSet jobId amount => c.onJob D jobId (fun job => { job with budget := amount })
  | .jobFunded jobId _ => c.onJob D jobId (setStatus .funded)
  | .jobSubmitted jobId => c.onJob D jobId (setStatus .submitted)
  | .jobRejected jobId => c.onJob D jobId (setStatus .rejected)
  | .jobExpired jobId => c.onJob D jobId (setStatus .expired)
  | .evaluatorFeePaid jobId amount =>
    c.onJob D jobId (fun job => { job with evaluatorFeePaid := job.evaluatorFeePaid + amount })
  | .jobCompleted jobId => c.onJob D jobId (fun job => markSettled (setStatus .completed job))
  | .paymentReleased jobId amount =>
    c.onJob D jobId (fun job => markSettled (addPayment amount job))
  | .refunded jobId amount => c.onJob D jobId (addRefund amount)
  | .uriUpdated _ _ | .hookWhitelistUpdated | .upgraded _ | .newFeedback _
  | .feedbackRevoked _ _ _ | .responseAppended _ _ _ => c

end Steps

/-! ### What the handlers leave alone -/

/-- The same core, and the same jobs. -/
theorem core_eq {s s' : Store W} (hagents : ∀ id, (s'.agents.load id).map Agent.face =
      (s.agents.load id).map Agent.face)
    (hbindings : s'.walletBindings = s.walletBindings) (hjobs : s'.jobs = s.jobs) :
    s'.core = s.core := by
  rw [Store.core, Store.core, hbindings, hjobs]
  simp only [hagents]

/-- A copy with the same face is saved. -/
theorem map_load_save {t : Table Id Agent} {id : Id} {a a' : Agent} (h : t.load id = some a)
    (hface : a'.face = a.face) (id' : Id) :
    ((t.save id a').load id').map Agent.face = (t.load id').map Agent.face := by
  rw [Table.load_save]
  by_cases hid : id' = id
  · rw [if_pos hid, hid, h, Option.map_some, Option.map_some, hface]
  · rw [if_neg hid]

variable {s : Store W}

theorem core_onAgent (linked : Option Id) (kind : MetricKind) (amount : ℤ) {f : Agent → Agent}
    (hf : ∀ a, (f a).face = a.face) : (onAgent linked kind amount f s).core = s.core := by
  unfold onAgent
  cases linked with
  | none => rfl
  | some id =>
    cases h : s.agents.load id with
    | none => simp only [h]
    | some a =>
      simp only [h]
      exact core_eq (map_load_save h (hf a)) rfl rfl

theorem core_getOrCreateAgenticCommerce :
    (getOrCreateAgenticCommerce D s).2.core = s.core := by
  unfold getOrCreateAgenticCommerce
  cases h : s.agenticCommerces.load (agenticCommerceEntityId D) with
  | none => rfl
  | some c => rfl

variable [DecidableEq W]

theorem core_onEngagement (linked : Option W) (f : Engagement → Engagement) :
    (onEngagement linked f s).core = s.core := by
  cases linked with
  | none => rfl
  | some id => rfl

theorem core_countSettlement (id : Id) (job : Job W) : (countSettlement id job s).core = s.core := by
  unfold countSettlement
  rw [core_onEngagement, core_onAgent (f := Agent.addSettledAsClient _) _ _ _ (fun _ => rfl),
    core_onAgent (f := Agent.addSettledAsProvider _) _ _ _ (fun _ => rfl)]
  rfl

theorem core_recordRefund (job : Job W) (amount : ℤ) : (recordRefund job amount s).core = s.core := by
  unfold recordRefund
  rw [core_onEngagement, core_onAgent (f := Agent.addRefundedAsClient _) _ _ _ (fun _ => rfl)]
  rfl

theorem core_markSettledIfPaid (id : Id) (job : Job W) :
    (markSettledIfPaid id job s).1 = markSettled job ∧
      (markSettledIfPaid id job s).2.core = s.core := by
  unfold markSettledIfPaid markSettled
  by_cases h : settles job
  · rw [if_pos h, if_pos h]
    exact ⟨rfl, core_countSettlement id job⟩
  · rw [if_neg h, if_neg h]
    exact ⟨rfl, rfl⟩

/-! ### Links -/

omit [DecidableEq W] in
theorem map_fst_resolve (address : Address) :
    (resolveAgentByWallet s address).map Prod.fst = s.core.resolve address := by
  unfold resolveAgentByWallet Core.resolve Store.core
  cases hb : s.walletBindings.load address with
  | none => simp [hb]
  | some b =>
    cases ha : s.agents.load b.agent with
    | none => simp [hb, ha, Option.filter]
    | some a => simp [hb, ha, Option.filter]

omit [DecidableEq W] in
theorem map_fst_partyAgent (linked : Option Id) (wallet : Address) :
    (partyAgent s linked wallet).map Prod.fst = s.core.party linked wallet := by
  cases linked with
  | none => exact map_fst_resolve wallet
  | some id =>
    unfold partyAgent Core.party Store.core
    cases ha : s.agents.load id with
    | none => simp [ha]
    | some a => simp [ha]

omit [DecidableEq W] in
/-- The copy of a party is that of its agent. -/
theorem load_of_partyAgent {linked : Option Id} {wallet : Address} {id : Id} {a : Agent}
    (h : partyAgent s linked wallet = some (id, a)) : s.agents.load id = some a := by
  cases linked with
  | none =>
    obtain ⟨b, -, hb⟩ := Option.bind_eq_some_iff.mp h
    obtain ⟨a', ha', heq⟩ := Option.map_eq_some_iff.mp hb
    obtain ⟨rfl, rfl⟩ := Prod.mk.inj heq
    exact ha'
  | some id' =>
    obtain ⟨a', ha', heq⟩ := Option.map_eq_some_iff.mp h
    obtain ⟨rfl, rfl⟩ := Prod.mk.inj heq
    exact ha'

omit [DecidableEq W] in
/-- The copy of the provider of a job. -/
theorem load_of_provider {job : Job W} {id : Id} {a : Agent}
    (h : job.provider.bind (partyAgent s job.providerAgent) = some (id, a)) :
    s.agents.load id = some a := by
  obtain ⟨w, -, hw⟩ := Option.bind_eq_some_iff.mp h
  exact load_of_partyAgent hw

/-- What `linkWorkspaces` does: it counts a job with a new engagement, or changes no entity
but the job. -/
theorem linkWorkspaces_cases (job : Job W) :
    (linkWorkspaces D job s).1 = s.core.link D job ∧
      ((∃ c p ca pa, partyAgent s job.clientAgent job.client = some (c, ca) ∧
          job.provider.bind (partyAgent s job.providerAgent) = some (p, pa) ∧
          job.engagement = none ∧ (s.core.link D job).engagement = some (engagementId D c p) ∧
          (linkWorkspaces D job s).2 = { s with
            engagements := s.engagements.save (engagementId D c p)
              { getOrCreateEngagement D s c p with
                jobCount := (getOrCreateEngagement D s c p).jobCount + 1 }
            agents := (s.agents.save c { ca with jobsAsClient := ca.jobsAsClient + 1 }).save p
              { pa with jobsAsProvider := pa.jobsAsProvider + 1 } }) ∨
        ((linkWorkspaces D job s).2 = s ∧
          (s.core.link D job).engagement = job.engagement)) := by
  have hclient := map_fst_partyAgent (s := s) job.clientAgent job.client
  have hprovider : (job.provider.bind (partyAgent s job.providerAgent)).map Prod.fst =
      job.provider.bind (s.core.party job.providerAgent) := by
    cases job.provider with
    | none => rfl
    | some w => exact map_fst_partyAgent job.providerAgent w
  unfold linkWorkspaces Core.link
  rw [← hclient, ← hprovider]
  cases hc : partyAgent s job.clientAgent job.client with
  | none => exact ⟨by simp, .inr ⟨by simp, by simp⟩⟩
  | some x =>
    obtain ⟨c, ca⟩ := x
    cases hp : job.provider.bind (partyAgent s job.providerAgent) with
    | none => exact ⟨by simp, .inr ⟨by simp, by simp⟩⟩
    | some y =>
      obtain ⟨p, pa⟩ := y
      cases he : job.engagement with
      | some e => exact ⟨by simp, .inr ⟨by simp, by simp⟩⟩
      | none => exact ⟨by simp, .inl ⟨c, p, ca, pa, rfl, rfl, rfl, rfl, rfl⟩⟩

theorem core_linkWorkspaces (job : Job W) :
    (linkWorkspaces D job s).1 = s.core.link D job ∧ (linkWorkspaces D job s).2.core = s.core := by
  obtain ⟨hjob, ⟨c, p, ca, pa, hc, hp, -, -, hs⟩ | ⟨hs, -⟩⟩ := linkWorkspaces_cases D (s := s) job
  · refine ⟨hjob, ?_⟩
    rw [hs]
    have hca := load_of_partyAgent hc
    have hpa := load_of_provider hp
    refine core_eq ?_ rfl rfl
    intro id
    rw [Table.load_save]
    by_cases hid : id = p
    · rw [if_pos hid, hid, hpa]
      rfl
    · rw [if_neg hid]
      refine map_load_save hca ?_ id
      rfl
  · exact ⟨hjob, by rw [hs]⟩

/-! ### Wallets -/

omit [DecidableEq W] in
/-- Only the bindings change. -/
theorem unbindWallet_eq (agent : Id) (wallet : Option Address) :
    ∃ t, unbindWallet agent wallet s = { s with walletBindings := t } ∧
      ∀ w, (t.load w).map WalletBinding.agent = (s.core.unbind agent wallet).bindings w := by
  have hbindings : ∀ w, s.core.bindings w = (s.walletBindings.load w).map WalletBinding.agent :=
    fun _ => rfl
  cases wallet with
  | none => exact ⟨s.walletBindings, rfl, fun w => by simp [Core.unbind, hbindings]⟩
  | some w₀ =>
    cases hb : s.walletBindings.load w₀ with
    | none =>
      refine ⟨s.walletBindings, by simp only [unbindWallet, hb], ?_⟩
      intro w
      by_cases hw : w₀ = w
      · simp [Core.unbind, hbindings, ← hw, hb]
      · simp [Core.unbind, hbindings, hw]
    | some b =>
      by_cases hagent : b.agent = agent
      · refine ⟨s.walletBindings.remove w₀, by simp [unbindWallet, hb, hagent], ?_⟩
        intro w
        by_cases hw : w = w₀
        · simp [Core.unbind, hbindings, hw, hb, hagent]
        · simp [Core.unbind, hbindings, Table.load_remove_of_ne hw, Ne.symm hw]
      · refine ⟨s.walletBindings, by simp [unbindWallet, hb, hagent], ?_⟩
        intro w
        by_cases hw : w₀ = w
        · simp [Core.unbind, hbindings, ← hw, hb, hagent]
        · simp [Core.unbind, hbindings, hw]

omit [DecidableEq W] in
theorem core_unbindWallet (agent : Id) (wallet : Option Address) :
    (unbindWallet agent wallet s).core = s.core.unbind agent wallet := by
  obtain ⟨t, ht, hload⟩ := unbindWallet_eq (s := s) agent wallet
  rw [ht]
  exact Core.ext rfl (funext hload) rfl

omit [DecidableEq W] in
theorem core_bindWalletIfSet (agent : Id) (wallet : Option Address) :
    (bindWalletIfSet agent wallet s).core = s.core.bind agent wallet := by
  cases wallet with
  | none => simp [bindWalletIfSet, Core.bind]
  | some w₀ =>
    refine Core.ext rfl (funext fun w => ?_) rfl
    show ((s.walletBindings.save w₀ ⟨agent⟩).load w).map WalletBinding.agent = _
    rw [Table.load_save]
    by_cases hw : w = w₀
    · simp [Core.bind, hw]
    · rw [if_neg hw]
      exact (if_neg (fun h => hw (Option.some.inj h).symm)).symm

omit [DecidableEq W] in
theorem core_saveAgent (id : Id) (a : Agent) :
    { s with agents := s.agents.save id a }.core = s.core.setFace id a.face := by
  refine Core.ext (funext fun id' => ?_) rfl rfl
  show ((s.agents.save id a).load id').map Agent.face = _
  rw [Table.load_save]
  by_cases hid : id' = id
  · simp [Core.setFace, hid]
  · simp [Core.setFace, hid, Store.core]

/-! ### The refinement -/

section Known

variable {c : Core W}

omit [DecidableEq W] in
theorem onFace_of_none {agentId : ℕ} {f : Id → Face → Core W}
    (h : c.agents (agentEntityId D agentId) = none) : c.onFace D agentId f = c := by
  rw [Core.onFace, h]

omit [DecidableEq W] in
theorem onFace_of_some {agentId : ℕ} {f : Id → Face → Core W} {face : Face}
    (h : c.agents (agentEntityId D agentId) = some face) :
    c.onFace D agentId f = f (agentEntityId D agentId) face := by
  rw [Core.onFace, h]

end Known

omit [DecidableEq W] in
theorem core_agents_of_load {id : Id} {a : Agent} (h : s.agents.load id = some a) :
    s.core.agents id = some a.face := by
  simp [Store.core, h]

omit [DecidableEq W] in
theorem core_agents_of_none {id : Id} (h : s.agents.load id = none) : s.core.agents id = none := by
  simp [Store.core, h]

omit [DecidableEq W] in
theorem core_handleMetadataSet (agentId : ℕ) (key : String) (value : Bytes) :
    (handleMetadataSet D agentId key value s).core =
      coreStep D s.core (.metadataSet agentId key value) := by
  rw [coreStep]
  cases ha : s.agents.load (agentEntityId D agentId) with
  | none =>
    rw [onFace_of_none D (core_agents_of_none ha)]
    simp only [handleMetadataSet, ha]
  | some a =>
    rw [onFace_of_some D (core_agents_of_load ha)]
    by_cases hkey : key = "agentWallet"
    · simp only [handleMetadataSet, ha, hkey, if_true]
      rw [core_saveAgent, core_bindWalletIfSet, core_unbindWallet]
      rfl
    · simp only [handleMetadataSet, ha, hkey, if_false]
      exact core_eq (map_load_save ha rfl) rfl rfl

omit [DecidableEq W] in
theorem core_handleTransfer (sender receiver : Address) (tokenId : ℕ) :
    (handleTransfer D sender receiver tokenId s).core =
      coreStep D s.core (.transfer sender receiver tokenId) := by
  rw [coreStep, handleTransfer]
  by_cases hsender : sender = 0
  · rw [if_pos hsender, if_pos hsender]
  rw [if_neg hsender, if_neg hsender]
  cases ha : s.agents.load (agentEntityId D tokenId) with
  | none =>
    rw [onFace_of_none D (core_agents_of_none ha)]
    simp only [ha]
  | some a =>
    rw [onFace_of_some D (core_agents_of_load ha)]
    simp only [ha, Agent.face]
    rw [← core_unbindWallet]
    by_cases hburn : receiver = 0
    · simp only [hburn, decide_true, if_true]
      exact core_saveAgent _ _
    · simp only [hburn, decide_false, Bool.false_eq_true, if_false]
      exact core_saveAgent _ _

omit [DecidableEq W] in
/-- An event of a job that is known, whose handler saves the job and nothing else of the
core. -/
theorem core_onJob {jobId : ℕ} {f : Id → Job W → Store W} {g : Job W → Job W}
    (h : ∀ job, s.jobs.load (jobEntityId D jobId) = some job →
      (f (jobEntityId D jobId) job).core = s.core.setJob (jobEntityId D jobId) (g job)) :
    (onJob D jobId s f).core = s.core.onJob D jobId g := by
  have hjobs : s.core.jobs (jobEntityId D jobId) = s.jobs.load (jobEntityId D jobId) := rfl
  rw [onJob, Core.onJob, hjobs]
  cases hjob : s.jobs.load (jobEntityId D jobId) with
  | none => rfl
  | some job => exact h job hjob

omit [DecidableEq W] in
/-- The job is saved in a store with the same core. -/
theorem core_record {t : Store W} (ht : t.core = s.core) (id : Id) (job : Job W)
    (kind : JobEventKind) (amount : Option ℤ) :
    (recordJobEvent id kind amount (saveJob id job t)).core = s.core.setJob id job := by
  rw [← ht]
  rfl

omit [DecidableEq W] in
theorem core_updateJob (jobId : ℕ) (kind : JobEventKind) (amount : Option ℤ) (f : Job W → Job W) :
    (updateJob D jobId kind amount f s).core = s.core.onJob D jobId f :=
  core_onJob D (fun _ _ => core_record rfl _ _ _ _)

theorem core_handleJobCreated (jobId : ℕ) (client provider : Address) (budget : Option ℕ) :
    (handleJobCreated D jobId client provider budget s).core =
      coreStep D s.core (.jobCreated jobId client provider budget) := by
  have hcommerce := core_getOrCreateAgenticCommerce D (s := s)
  obtain ⟨hjob, hcore⟩ := core_linkWorkspaces D (s := (getOrCreateAgenticCommerce D s).2)
    (newJob D client provider budget)
  rw [hcommerce] at hjob hcore
  rw [coreStep, ← hjob]
  exact core_record hcore _ _ .created none

theorem core_handleNewFeedback (p : NewFeedback) : (handleNewFeedback D p s).core = s.core := by
  unfold handleNewFeedback
  cases ha : s.agents.load (agentEntityId D p.agentId) with
  | none => simp only [ha]
  | some a =>
    simp only [ha]
    refine core_eq (map_load_save ha ?_) rfl rfl
    rfl

omit [DecidableEq W] in
/-- The agent of an event about a feedback that is known. -/
theorem load_of_knownFeedback {agentId : ℕ} {client : Address} {index : ℕ}
    {r : ReputationRegistry} {a : Agent} {f : Feedback}
    (h : knownFeedback D agentId client index s = some (r, a, f)) :
    s.reputationRegistries.load (reputationRegistryId D) = some r ∧
      s.agents.load (agentEntityId D agentId) = some a ∧
      s.feedbacks.load (feedbackEntityId D agentId client index) = some f := by
  obtain ⟨r', hr, h⟩ := Option.bind_eq_some_iff.mp h
  obtain ⟨a', ha, h⟩ := Option.bind_eq_some_iff.mp h
  obtain ⟨f', hf, h⟩ := Option.bind_eq_some_iff.mp h
  obtain ⟨rfl, rfl, rfl⟩ : r' = r ∧ a' = a ∧ f' = f := by simpa using h
  exact ⟨hr, ha, hf⟩

/-- Revoking changes one engagement at most. -/
theorem revokeInEngagement_eq (f : Feedback) (agent : Id) :
    ∃ t, revokeInEngagement D f agent s = { s with engagements := t } := by
  unfold revokeInEngagement
  cases f.clientAgent with
  | none => exact ⟨_, rfl⟩
  | some rater =>
    by_cases h : (s.agents.load rater).isSome = true
    · exact ⟨_, by simp only [h, if_true]; rfl⟩
    · exact ⟨_, by simp only [h]; rfl⟩

theorem core_handleFeedbackRevoked (agentId : ℕ) (client : Address) (index : ℕ) :
    (handleFeedbackRevoked D agentId client index s).core = s.core := by
  unfold handleFeedbackRevoked
  cases h : knownFeedback D agentId client index s with
  | none => rfl
  | some x =>
    obtain ⟨r, a, f⟩ := x
    obtain ⟨-, ha, -⟩ := load_of_knownFeedback D h
    obtain ⟨t, ht⟩ := revokeInEngagement_eq D (s := { s with
      feedbacks := s.feedbacks.save (feedbackEntityId D agentId client index)
        { f with isRevoked := true } }) f (agentEntityId D agentId)
    simp only [ht]
    refine core_eq (map_load_save ha ?_) rfl rfl
    rfl

omit [DecidableEq W] in
theorem core_handleResponseAppended (agentId : ℕ) (client : Address) (index : ℕ) :
    (handleResponseAppended D agentId client index s).core = s.core := by
  unfold handleResponseAppended
  cases h : knownFeedback D agentId client index s with
  | none => rfl
  | some x =>
    obtain ⟨r, a, f⟩ := x
    obtain ⟨-, ha, -⟩ := load_of_knownFeedback D h
    refine core_eq (map_load_save ha ?_) rfl rfl
    rfl

/-- **The handlers refine `coreStep`.** -/
theorem core_handle (s : Store W) (e : Event) : (handle D s e).core = coreStep D s.core e := by
  cases e with
  | registered agentId agentURI owner => exact core_saveAgent _ (newAgent owner agentURI)
  | metadataSet agentId key value => exact core_handleMetadataSet D agentId key value
  | uriUpdated agentId newURI =>
    refine core_eq ?_ rfl rfl
    intro id
    refine Table.map_load_modify ?_
    exact fun _ => rfl
  | transfer sender receiver tokenId => exact core_handleTransfer D sender receiver tokenId
  | jobCreated jobId client provider budget =>
    exact core_handleJobCreated D jobId client provider budget
  | providerSet jobId provider =>
    refine core_onJob D ?_
    intro job _
    obtain ⟨hjob, hcore⟩ := core_linkWorkspaces D (s := s) (setProvider provider job)
    rw [← hjob]
    exact core_record hcore _ _ _ _
  | budgetSet jobId amount => exact core_updateJob D _ _ _ _
  | jobFunded jobId amount => exact core_updateJob D _ _ _ _
  | jobSubmitted jobId => exact core_updateJob D _ _ _ _
  | jobRejected jobId => exact core_updateJob D _ _ _ _
  | jobExpired jobId => exact core_updateJob D _ _ _ _
  | evaluatorFeePaid jobId amount => exact core_updateJob D _ _ _ _
  | jobCompleted jobId =>
    refine core_onJob D ?_
    intro job _
    obtain ⟨hjob, hcore⟩ := core_markSettledIfPaid (s := s) (jobEntityId D jobId)
      (setStatus .completed job)
    rw [← hjob]
    exact core_record hcore _ _ _ _
  | paymentReleased jobId amount =>
    refine core_onJob D ?_
    intro job _
    obtain ⟨hjob, hcore⟩ := core_markSettledIfPaid (s := s) (jobEntityId D jobId)
      (addPayment amount job)
    rw [← hjob]
    exact core_record hcore _ _ _ _
  | refunded jobId amount =>
    refine core_onJob D ?_
    intro job _
    show (recordRefund _ _ _).core = _
    rw [core_recordRefund]
    rfl
  | hookWhitelistUpdated => exact core_getOrCreateAgenticCommerce D
  | upgraded implementation => exact core_getOrCreateAgenticCommerce D
  | newFeedback p => exact core_handleNewFeedback D p
  | feedbackRevoked agentId client index => exact core_handleFeedbackRevoked D agentId client index
  | responseAppended agentId client index =>
    exact core_handleResponseAppended D agentId client index

end Bufi.Subgraph
