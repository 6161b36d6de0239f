import Bufi.Subgraph.Store
import Bufi.Evm.Run

/-!
# The handlers of the subgraph

One function for each event that the manifest maps, under the name of the handler.  An
entity that a handler has loaded is a value: where two copies of one entity are saved, the
second replaces the first.  Loading a row, changing it and saving it with nothing in
between is `Table.modify`.
-/

namespace Bufi.Subgraph

open Bufi.Evm Bufi.Index

variable {W : Type} [DecidableEq W] (D : Deployment W)

/-! ### Wallets -/

def bindWallet (agent : Id) (wallet : Address) (s : Store W) : Store W :=
  { s with walletBindings := s.walletBindings.save wallet ⟨agent⟩ }

/-- `if (wallet) bindWallet(agent, wallet)` -/
def bindWalletIfSet (agent : Id) (wallet : Option Address) (s : Store W) : Store W :=
  match wallet with
  | none => s
  | some wallet => bindWallet agent wallet s

/-- The binding is dropped if it still points at the agent. -/
def unbindWallet (agent : Id) (wallet : Option Address) (s : Store W) : Store W :=
  match wallet with
  | none => s
  | some wallet =>
    match s.walletBindings.load wallet with
    | none => s
    | some binding =>
      if binding.agent ≠ agent then s
      else { s with walletBindings := s.walletBindings.remove wallet }

/-- The id and a copy of the agent behind an address. -/
def resolveAgentByWallet (s : Store W) (address : Address) : Option (Id × Agent) :=
  (s.walletBindings.load address).bind (fun binding =>
    (s.agents.load binding.agent).map (fun agent => (binding.agent, agent)))

/-- The last twenty bytes of the value. -/
def agentWalletFromMetadataValue (value : Bytes) : Option Address :=
  if value.length < 20 then none
  else
    let address : Address := .ofNat 160 (beNat (value.drop (value.length - 20)))
    if address = 0 then none else some address

/-! ### Identities -/

def newAgent (owner : Address) (agentURI : String) : Agent :=
  { owner := some owner, isBurned := false, agentWallet := none, agentURI := agentURI
    uriRevision := 0, feedbackCount := 0, activeFeedbackCount := 0, responseCount := 0
    verifiedFeedbackCount := 0, jobsAsClient := 0, jobsAsProvider := 0, settledAsClient := 0
    settledAsProvider := 0, settledVolumeAsClient := 0, settledVolumeAsProvider := 0
    refundedVolumeAsClient := 0 }

def getOrCreateIdentityRegistry (s : Store W) : IdentityRegistry :=
  (s.identityRegistries.load (registryEntityId D.chainId D.identityRegistry)).getD ⟨0, 0⟩

/-- A registration creates the agent anew. -/
def handleRegistered (agentId : ℕ) (agentURI : String) (owner : Address) (s : Store W) :
    Store W :=
  let registry := getOrCreateIdentityRegistry D s
  { s with
    identityRegistries := s.identityRegistries.save
      (registryEntityId D.chainId D.identityRegistry)
      ⟨registry.agentCount + 1, registry.unburnedAgentCount + 1⟩
    agents := s.agents.save (agentEntityId D agentId) (newAgent owner agentURI) }

/-- The score of a workspace, under another key, is kept in fields of its own. -/
def handleMetadataSet (agentId : ℕ) (metadataKey : String) (metadataValue : Bytes)
    (s : Store W) : Store W :=
  let id := agentEntityId D agentId
  match s.agents.load id with
  | none => s
  | some agent =>
    if metadataKey = "agentWallet" then
      let s := unbindWallet id agent.agentWallet s
      let wallet := agentWalletFromMetadataValue metadataValue
      let s := bindWalletIfSet id wallet s
      { s with agents := s.agents.save id { agent with agentWallet := wallet } }
    else { s with agents := s.agents.save id agent }

def handleURIUpdated (agentId : ℕ) (newURI : String) (s : Store W) : Store W :=
  { s with
    agents := s.agents.modify (agentEntityId D agentId) (fun agent => { agent with
      agentURI := newURI, uriRevision := agent.uriRevision + 1 }) }

/-- Approvals and the wallet do not go to the new owner. -/
def handleTransfer (sender receiver : Address) (tokenId : ℕ) (s : Store W) : Store W :=
  if sender = 0 then s
  else
    let id := agentEntityId D tokenId
    match s.agents.load id with
    | none => s
    | some agent =>
      let isBurn := decide (receiver = 0)
      let s := unbindWallet id agent.agentWallet s
      let agent := { agent with
        owner := if isBurn then none else some receiver
        agentWallet := none
        isBurned := isBurn }
      let s := { s with agents := s.agents.save id agent }
      if isBurn then
        { s with
          identityRegistries := s.identityRegistries.modify
            (registryEntityId D.chainId D.identityRegistry)
            (fun r => { r with unburnedAgentCount := r.unburnedAgentCount - 1 }) }
      else s

/-! ### Engagements -/

def newEngagement (client provider : Id) : Engagement :=
  { client := client, provider := provider, jobCount := 0, settledJobCount := 0
    settledVolume := 0, refundedVolume := 0, feedbackCount := 0, verifiedFeedbackCount := 0
    lastSettledJob := none }

/-- A copy of the engagement, which is not saved yet where it is new. -/
def getOrCreateEngagement (s : Store W) (client provider : Id) : Engagement :=
  (s.engagements.load (engagementId D client provider)).getD (newEngagement client provider)

/-! ### Jobs -/

def newAgenticCommerce : AgenticCommerce :=
  { implementation := none, jobCount := 0, settledJobCount := 0, settledVolume := 0
    refundedVolume := 0 }

/-- The escrow, which is saved at once where it is new. -/
def getOrCreateAgenticCommerce (s : Store W) : AgenticCommerce × Store W :=
  match s.agenticCommerces.load (agenticCommerceEntityId D) with
  | some commerce => (commerce, s)
  | none => (newAgenticCommerce, { s with
      agenticCommerces := s.agenticCommerces.save (agenticCommerceEntityId D)
        newAgenticCommerce })

/-- The agent of a party: the one that is linked, or the one behind its wallet. -/
def partyAgent (s : Store W) (linked : Option Id) (wallet : Address) : Option (Id × Agent) :=
  match linked with
  | none => resolveAgentByWallet s wallet
  | some id => (s.agents.load id).map (fun agent => (id, agent))

/-- The job is linked to the agents of its parties, and to their engagement where both are
known for the first time. -/
def linkWorkspaces (job : Job W) (s : Store W) : Job W × Store W :=
  let client := partyAgent s job.clientAgent job.client
  let provider := job.provider.bind (partyAgent s job.providerAgent)
  let job := { job with
    clientAgent := (client.map Prod.fst).or job.clientAgent
    providerAgent := (provider.map Prod.fst).or job.providerAgent }
  match job.engagement, client, provider with
  | none, some (c, clientAgent), some (p, providerAgent) =>
    let e := engagementId D c p
    let engagement := getOrCreateEngagement D s c p
    let engagement := { engagement with jobCount := engagement.jobCount + 1 }
    let s := { s with engagements := s.engagements.save e engagement }
    let clientAgent := { clientAgent with jobsAsClient := clientAgent.jobsAsClient + 1 }
    let s := { s with agents := s.agents.save c clientAgent }
    let providerAgent :=
      { providerAgent with jobsAsProvider := providerAgent.jobsAsProvider + 1 }
    let s := { s with agents := s.agents.save p providerAgent }
    ({ job with engagement := some e }, s)
  | _, _, _ => (job, s)

def recordJobEvent (job : Id) (kind : JobEventKind) (amount : Option ℤ) (s : Store W) : Store W :=
  { s with jobEvents := s.jobEvents ++ [⟨job, kind, amount⟩] }

def saveJob (id : Id) (job : Job W) (s : Store W) : Store W :=
  { s with jobs := s.jobs.save id job }

/-- A new job, before it is linked; `budget` is what `getJob` returns, if it does. -/
def newJob (client provider : Address) (budget : Option ℕ) : Job W :=
  { agenticCommerce := agenticCommerceEntityId D, status := .opened, client := client
    provider := if provider = 0 then none else some provider, clientAgent := none
    providerAgent := none, engagement := none, budget := (budget.getD 0 : ℕ)
    providerPayment := 0, evaluatorFeePaid := 0, refundedAmount := 0, settled := false }

def handleJobCreated (jobId : ℕ) (client provider : Address) (budget : Option ℕ)
    (s : Store W) : Store W :=
  let (commerce, s) := getOrCreateAgenticCommerce D s
  let id := jobEntityId D jobId
  let (job, s) := linkWorkspaces D (newJob D client provider budget) s
  let s := saveJob id job s
  let commerce := { commerce with jobCount := commerce.jobCount + 1 }
  recordJobEvent id .created none { s with
    agenticCommerces := s.agenticCommerces.save (agenticCommerceEntityId D) commerce }

/-- An event of a job that is known. -/
def onJob (jobId : ℕ) (s : Store W) (f : Id → Job W → Store W) : Store W :=
  match s.jobs.load (jobEntityId D jobId) with
  | none => s
  | some job => f (jobEntityId D jobId) job

/-- The job with a new provider, whose agent is not known yet. -/
def setProvider (provider : Address) (job : Job W) : Job W :=
  { job with provider := some provider, providerAgent := none }

def handleProviderSet (jobId : ℕ) (provider : Address) (s : Store W) : Store W :=
  onJob D jobId s (fun id job =>
    let (job, s) := linkWorkspaces D (setProvider provider job) s
    recordJobEvent id .providerSet none (saveJob id job s))

/-- An event that only changes fields of the job itself. -/
def updateJob (jobId : ℕ) (kind : JobEventKind) (amount : Option ℤ) (f : Job W → Job W)
    (s : Store W) : Store W :=
  onJob D jobId s (fun id job => recordJobEvent id kind amount (saveJob id (f job) s))

def setStatus (status : JobStatus) (job : Job W) : Job W := { job with status := status }

def handleBudgetSet (jobId amount : ℕ) (s : Store W) : Store W :=
  updateJob D jobId .budgetSet (some amount) (fun job => { job with budget := amount }) s

def handleJobFunded (jobId amount : ℕ) (s : Store W) : Store W :=
  updateJob D jobId .funded (some amount) (setStatus .funded) s

def handleJobSubmitted (jobId : ℕ) (s : Store W) : Store W :=
  updateJob D jobId .submitted none (setStatus .submitted) s

def handleJobRejected (jobId : ℕ) (s : Store W) : Store W :=
  updateJob D jobId .rejected none (setStatus .rejected) s

def handleJobExpired (jobId : ℕ) (s : Store W) : Store W :=
  updateJob D jobId .expired none (setStatus .expired) s

def handleEvaluatorFeePaid (jobId amount : ℕ) (s : Store W) : Store W :=
  updateJob D jobId .evaluatorFeePaid (some amount)
    (fun job => { job with evaluatorFeePaid := job.evaluatorFeePaid + amount }) s

/-! ### Settlement -/

def recordAgentMetric (agent : Id) (kind : MetricKind) (amount : ℤ) (s : Store W) : Store W :=
  { s with agentMetricPoints := s.agentMetricPoints ++ [⟨agent, kind, amount⟩] }

/-- A change of the agent that is linked, with a point for it. -/
def onAgent (linked : Option Id) (kind : MetricKind) (amount : ℤ) (f : Agent → Agent)
    (s : Store W) : Store W :=
  match linked with
  | none => s
  | some id =>
    match s.agents.load id with
    | none => s
    | some agent =>
      recordAgentMetric id kind amount { s with agents := s.agents.save id (f agent) }

/-- A change of the engagement that is linked. -/
def onEngagement (linked : Option W) (f : Engagement → Engagement) (s : Store W) : Store W :=
  match linked with
  | none => s
  | some id => { s with engagements := s.engagements.modify id f }

def onCommerce (id : Id) (f : AgenticCommerce → AgenticCommerce) (s : Store W) : Store W :=
  { s with agenticCommerces := s.agenticCommerces.modify id f }

/-- The job is a settlement from now on. -/
def settles (job : Job W) : Prop :=
  job.settled = false ∧ job.status = .completed ∧ job.providerPayment ≠ 0

instance (job : Job W) : Decidable (settles job) := inferInstanceAs (Decidable (_ ∧ _ ∧ _))

def AgenticCommerce.addSettled (amount : ℤ) (c : AgenticCommerce) : AgenticCommerce :=
  { c with
    settledJobCount := c.settledJobCount + 1
    settledVolume := c.settledVolume + amount }

def Agent.addSettledAsProvider (amount : ℤ) (a : Agent) : Agent :=
  { a with
    settledAsProvider := a.settledAsProvider + 1
    settledVolumeAsProvider := a.settledVolumeAsProvider + amount }

def Agent.addSettledAsClient (amount : ℤ) (a : Agent) : Agent :=
  { a with
    settledAsClient := a.settledAsClient + 1
    settledVolumeAsClient := a.settledVolumeAsClient + amount }

def Engagement.addSettled (job : Id) (amount : ℤ) (e : Engagement) : Engagement :=
  { e with
    settledJobCount := e.settledJobCount + 1
    settledVolume := e.settledVolume + amount
    lastSettledJob := some job }

/-- The counters of a settlement. -/
def countSettlement (id : Id) (job : Job W) (s : Store W) : Store W :=
  let amount := job.providerPayment
  let s := onCommerce job.agenticCommerce (AgenticCommerce.addSettled amount) s
  let s := onAgent job.providerAgent .settledAsProvider amount
    (Agent.addSettledAsProvider amount) s
  let s := onAgent job.clientAgent .settledAsClient amount (Agent.addSettledAsClient amount) s
  onEngagement job.engagement (Engagement.addSettled id amount) s

def markSettledIfPaid (id : Id) (job : Job W) (s : Store W) : Job W × Store W :=
  if settles job then ({ job with settled := true }, countSettlement id job s) else (job, s)

def handleJobCompleted (jobId : ℕ) (s : Store W) : Store W :=
  onJob D jobId s (fun id job =>
    let (job, s) := markSettledIfPaid id (setStatus .completed job) s
    recordJobEvent id .completed none (saveJob id job s))

def addPayment (amount : ℕ) (job : Job W) : Job W :=
  { job with providerPayment := job.providerPayment + amount }

def handlePaymentReleased (jobId amount : ℕ) (s : Store W) : Store W :=
  onJob D jobId s (fun id job =>
    let (job, s) := markSettledIfPaid id (addPayment amount job) s
    recordJobEvent id .paymentReleased (some amount) (saveJob id job s))

def AgenticCommerce.addRefunded (amount : ℤ) (c : AgenticCommerce) : AgenticCommerce :=
  { c with refundedVolume := c.refundedVolume + amount }

def Agent.addRefundedAsClient (amount : ℤ) (a : Agent) : Agent :=
  { a with refundedVolumeAsClient := a.refundedVolumeAsClient + amount }

def Engagement.addRefunded (amount : ℤ) (e : Engagement) : Engagement :=
  { e with refundedVolume := e.refundedVolume + amount }

def recordRefund (job : Job W) (amount : ℤ) (s : Store W) : Store W :=
  let s := onCommerce job.agenticCommerce (AgenticCommerce.addRefunded amount) s
  let s := onAgent job.clientAgent .refundedAsClient amount (Agent.addRefundedAsClient amount) s
  onEngagement job.engagement (Engagement.addRefunded amount) s

def addRefund (amount : ℕ) (job : Job W) : Job W :=
  { job with refundedAmount := job.refundedAmount + amount }

def handleRefunded (jobId amount : ℕ) (s : Store W) : Store W :=
  onJob D jobId s (fun id job =>
    let job := addRefund amount job
    recordJobEvent id .refunded (some amount) (recordRefund job amount (saveJob id job s)))

/-! ### The escrow itself -/

def handleHookWhitelistUpdated (s : Store W) : Store W :=
  let (commerce, s) := getOrCreateAgenticCommerce D s
  { s with agenticCommerces := s.agenticCommerces.save (agenticCommerceEntityId D) commerce }

def handleUpgraded (implementation : Address) (s : Store W) : Store W :=
  let (commerce, s) := getOrCreateAgenticCommerce D s
  let commerce := { commerce with implementation := some implementation }
  { s with agenticCommerces := s.agenticCommerces.save (agenticCommerceEntityId D) commerce }

/-! ### Feedback -/

def reputationRegistryId : Id := registryEntityId D.chainId D.reputationRegistry

def getOrCreateReputationRegistry (s : Store W) : ReputationRegistry :=
  (s.reputationRegistries.load (reputationRegistryId D)).getD ⟨0, 0, 0⟩

/-- The parameters of `NewFeedback` that are indexed here. -/
structure NewFeedback where
  agentId : ℕ
  client : Address
  feedbackIndex : ℕ
  value : ℤ
  valueDecimals : ℕ
  tag1 : String
  tag2 : String
  deriving DecidableEq

/-- The feedback with what is known of its rater. -/
def newFeedback (p : NewFeedback) (clientAgent : Option Id) (engagement : Option Engagement) :
    Feedback :=
  let verified := engagement.any (fun e => 0 < e.settledJobCount)
  { registry := reputationRegistryId D, agent := agentEntityId D p.agentId, client := p.client
    feedbackIndex := p.feedbackIndex
    normalizedValue := D.divDecimal p.value p.valueDecimals, tag1 := p.tag1, tag2 := p.tag2
    clientAgent := clientAgent, verified := verified
    evidence := if verified then engagement.bind Engagement.lastSettledJob else none
    isRevoked := false, responseCount := 0 }

def createFeedbackMetricPoint (registry agent : Id) (tag1 tag2 : String) (countDelta : ℤ)
    (valueDelta : ℚ) (s : Store W) : Store W :=
  { s with feedbackMetricPoints :=
    s.feedbackMetricPoints ++ [⟨registry, agent, tag1, tag2, countDelta, valueDelta⟩] }

/-- One, if it is so. -/
def oneIf (b : Bool) : ℤ := if b then 1 else 0

def handleNewFeedback (p : NewFeedback) (s : Store W) : Store W :=
  let registry := getOrCreateReputationRegistry D s
  let id := agentEntityId D p.agentId
  match s.agents.load id with
  | none => s
  | some agent =>
    let rater := resolveAgentByWallet s p.client
    let engagement := rater.map (fun c => getOrCreateEngagement D s c.1 id)
    let feedback := newFeedback D p (rater.map Prod.fst) engagement
    let agent := { agent with
      feedbackCount := agent.feedbackCount + 1
      activeFeedbackCount := agent.activeFeedbackCount + 1
      verifiedFeedbackCount := agent.verifiedFeedbackCount + oneIf feedback.verified }
    let engagements := match rater, engagement with
      | some c, some e => s.engagements.save (engagementId D c.1 id) { e with
          feedbackCount := e.feedbackCount + 1
          verifiedFeedbackCount := e.verifiedFeedbackCount + oneIf feedback.verified }
      | _, _ => s.engagements
    let registry := { registry with
      feedbackCount := registry.feedbackCount + 1
      activeFeedbackCount := registry.activeFeedbackCount + 1 }
    createFeedbackMetricPoint feedback.registry id p.tag1 p.tag2 1 feedback.normalizedValue { s with
      feedbacks := s.feedbacks.save (feedbackEntityId D p.agentId p.client p.feedbackIndex) feedback
      agents := s.agents.save id agent
      engagements := engagements
      reputationRegistries := s.reputationRegistries.save (reputationRegistryId D) registry }

/-- A revoked feedback is taken from the engagement of the rater that is stored with it. -/
def revokeInEngagement (feedback : Feedback) (agent : Id) (s : Store W) : Store W :=
  match feedback.clientAgent with
  | none => s
  | some rater =>
    if (s.agents.load rater).isSome then
      { s with
        engagements := s.engagements.modify (engagementId D rater agent) (fun e => { e with
          feedbackCount := e.feedbackCount - 1
          verifiedFeedbackCount := e.verifiedFeedbackCount - oneIf feedback.verified }) }
    else s

/-- The registry, the agent and the feedback that an event is about, if all are known. -/
def knownFeedback (agentId : ℕ) (client : Address) (feedbackIndex : ℕ) (s : Store W) :
    Option (ReputationRegistry × Agent × Feedback) := do
  let registry ← s.reputationRegistries.load (reputationRegistryId D)
  let agent ← s.agents.load (agentEntityId D agentId)
  let feedback ← s.feedbacks.load (feedbackEntityId D agentId client feedbackIndex)
  pure (registry, agent, feedback)

def handleFeedbackRevoked (agentId : ℕ) (client : Address) (feedbackIndex : ℕ) (s : Store W) :
    Store W :=
  match knownFeedback D agentId client feedbackIndex s with
  | none => s
  | some (registry, agent, feedback) =>
    let id := agentEntityId D agentId
    let s := { s with
      feedbacks := s.feedbacks.save (feedbackEntityId D agentId client feedbackIndex)
        { feedback with isRevoked := true } }
    let s := revokeInEngagement D feedback id s
    let agent := { agent with
      activeFeedbackCount := agent.activeFeedbackCount - 1
      verifiedFeedbackCount := agent.verifiedFeedbackCount - oneIf feedback.verified }
    let registry := { registry with activeFeedbackCount := registry.activeFeedbackCount - 1 }
    createFeedbackMetricPoint (reputationRegistryId D) id feedback.tag1 feedback.tag2 (-1)
      (-feedback.normalizedValue) { s with
        agents := s.agents.save id agent
        reputationRegistries := s.reputationRegistries.save (reputationRegistryId D) registry }

def handleResponseAppended (agentId : ℕ) (client : Address) (feedbackIndex : ℕ) (s : Store W) :
    Store W :=
  match knownFeedback D agentId client feedbackIndex s with
  | none => s
  | some (registry, agent, feedback) =>
    let id := feedbackEntityId D agentId client feedbackIndex
    { s with
      feedbackResponses := s.feedbackResponses ++ [⟨id⟩]
      feedbacks := s.feedbacks.save id { feedback with
        responseCount := feedback.responseCount + 1 }
      agents := s.agents.save (agentEntityId D agentId) { agent with
        responseCount := agent.responseCount + 1 }
      reputationRegistries := s.reputationRegistries.save (reputationRegistryId D) { registry with
        responseCount := registry.responseCount + 1 } }

/-! ### Events -/

inductive Event
  | registered (agentId : ℕ) (agentURI : String) (owner : Address)
  | metadataSet (agentId : ℕ) (metadataKey : String) (metadataValue : Bytes)
  | uriUpdated (agentId : ℕ) (newURI : String)
  | transfer (sender receiver : Address) (tokenId : ℕ)
  | jobCreated (jobId : ℕ) (client provider : Address) (budget : Option ℕ)
  | providerSet (jobId : ℕ) (provider : Address)
  | budgetSet (jobId amount : ℕ)
  | jobFunded (jobId amount : ℕ)
  | jobSubmitted (jobId : ℕ)
  | jobCompleted (jobId : ℕ)
  | jobRejected (jobId : ℕ)
  | jobExpired (jobId : ℕ)
  | paymentReleased (jobId amount : ℕ)
  | evaluatorFeePaid (jobId amount : ℕ)
  | refunded (jobId amount : ℕ)
  | hookWhitelistUpdated
  | upgraded (implementation : Address)
  | newFeedback (p : NewFeedback)
  | feedbackRevoked (agentId : ℕ) (client : Address) (feedbackIndex : ℕ)
  | responseAppended (agentId : ℕ) (client : Address) (feedbackIndex : ℕ)
  deriving DecidableEq

/-- The handler of an event. -/
def handle (s : Store W) : Event → Store W
  | .registered agentId agentURI owner => handleRegistered D agentId agentURI owner s
  | .metadataSet agentId key value => handleMetadataSet D agentId key value s
  | .uriUpdated agentId newURI => handleURIUpdated D agentId newURI s
  | .transfer sender receiver tokenId => handleTransfer D sender receiver tokenId s
  | .jobCreated jobId client provider budget => handleJobCreated D jobId client provider budget s
  | .providerSet jobId provider => handleProviderSet D jobId provider s
  | .budgetSet jobId amount => handleBudgetSet D jobId amount s
  | .jobFunded jobId amount => handleJobFunded D jobId amount s
  | .jobSubmitted jobId => handleJobSubmitted D jobId s
  | .jobCompleted jobId => handleJobCompleted D jobId s
  | .jobRejected jobId => handleJobRejected D jobId s
  | .jobExpired jobId => handleJobExpired D jobId s
  | .paymentReleased jobId amount => handlePaymentReleased D jobId amount s
  | .evaluatorFeePaid jobId amount => handleEvaluatorFeePaid D jobId amount s
  | .refunded jobId amount => handleRefunded D jobId amount s
  | .hookWhitelistUpdated => handleHookWhitelistUpdated D s
  | .upgraded implementation => handleUpgraded D implementation s
  | .newFeedback p => handleNewFeedback D p s
  | .feedbackRevoked agentId client index => handleFeedbackRevoked D agentId client index s
  | .responseAppended agentId client index => handleResponseAppended D agentId client index s

/-- Every event has a next state. -/
def indexStep (s : Store W) (e : Event) : Option (Store W) := some (handle D s e)

end Bufi.Subgraph
