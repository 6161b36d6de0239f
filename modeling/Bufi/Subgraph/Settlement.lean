import Bufi.Subgraph.Links

/-!
# Settlements

A job is settled at the first event after which it is completed and has been paid.  At
that moment its payment is added to the volumes of the escrow, of its two agents and of
their engagement.  `Balanced` is that these counters are the numbers and the sums of the
jobs that are settled.

The volumes are not changed again.  A payment that is released after the settlement, and a
provider that is set after it, change what the job adds to the sums but not the counters.
`Conserving` excludes both, and then an event keeps the tallies (`SettleInv.step`).
-/

namespace Bufi.Subgraph

open Bufi.Evm Bufi.Index

variable {W : Type} [DecidableEq W] (D : Deployment W)

/-! ### The property -/

/-- The settled jobs with a link. -/
def isSettled {γ : Type} [DecidableEq γ] (link : Job W → Option γ) (g : γ) (_ : Id) (job : Job W) :
    Bool :=
  job.settled && decide (link job = some g)

def payment (_ : Id) (job : Job W) : ℤ := job.providerPayment

/-- The counters are the number and the volume of the settled jobs. -/
structure Balanced (s : Store W) : Prop where
  commerce : ∀ x, s.agenticCommerces.load (agenticCommerceEntityId D) = some x →
    x.settledJobCount = s.jobs.count (fun _ job => job.settled) ∧
    x.settledVolume = s.jobs.sumOver (fun _ job => job.settled) payment
  provider : ∀ id a, s.agents.load id = some a →
    a.settledAsProvider = s.jobs.count (isSettled Job.providerAgent id) ∧
    a.settledVolumeAsProvider = s.jobs.sumOver (isSettled Job.providerAgent id) payment
  client : ∀ id a, s.agents.load id = some a →
    a.settledAsClient = s.jobs.count (isSettled Job.clientAgent id) ∧
    a.settledVolumeAsClient = s.jobs.sumOver (isSettled Job.clientAgent id) payment
  engagement : ∀ e x, s.engagements.load e = some x →
    x.settledJobCount = s.jobs.count (isSettled Job.engagement e) ∧
    x.settledVolume = s.jobs.sumOver (isSettled Job.engagement e) payment

/-- A new provider leaves the links of the job as they are. -/
def KeepsLinks (s : Store W) (job : Job W) (provider : Address) : Prop :=
  (resolveAgentByWallet s provider).map Prod.fst = job.providerAgent ∧
    (job.clientAgent = none → resolveAgentByWallet s job.client = none) ∧
    (job.engagement = none → job.clientAgent = none ∨ job.providerAgent = none)

/-- The events that conserve the volumes: ids are new, and a settled job is paid nothing
more and keeps its links. -/
def Conserving (s : Store W) : Event → Prop
  | .registered agentId _ _ => s.agents.load (agentEntityId D agentId) = none
  | .jobCreated jobId _ _ _ => s.jobs.load (jobEntityId D jobId) = none
  | .paymentReleased jobId amount => ∀ job ∈ s.jobs.load (jobEntityId D jobId),
      job.settled = true → amount = 0
  | .providerSet jobId provider => ∀ job ∈ s.jobs.load (jobEntityId D jobId),
      job.settled = true → KeepsLinks s job provider
  | _ => True

instance (s : Store W) (job : Job W) (provider : Address) : Decidable (KeepsLinks s job provider) :=
  inferInstanceAs (Decidable ((resolveAgentByWallet s provider).map Prod.fst = job.providerAgent ∧
    (job.clientAgent = none → resolveAgentByWallet s job.client = none) ∧
    (job.engagement = none → job.clientAgent = none ∨ job.providerAgent = none)))

instance (s : Store W) : DecidablePred (Conserving D s)
  | .registered _ _ _ => inferInstanceAs (Decidable (s.agents.load _ = none))
  | .jobCreated _ _ _ _ => inferInstanceAs (Decidable (s.jobs.load _ = none))
  | .paymentReleased jobId amount =>
    inferInstanceAs (Decidable (∀ job ∈ s.jobs.load (jobEntityId D jobId),
      job.settled = true → amount = 0))
  | .providerSet jobId provider =>
    inferInstanceAs (Decidable (∀ job ∈ s.jobs.load (jobEntityId D jobId),
      job.settled = true → KeepsLinks s job provider))
  | .metadataSet _ _ _ | .transfer _ _ _ | .uriUpdated _ _ | .budgetSet _ _ | .jobFunded _ _
  | .jobSubmitted _ | .jobCompleted _ | .jobRejected _ | .jobExpired _
  | .evaluatorFeePaid _ _ | .refunded _ _ | .hookWhitelistUpdated | .upgraded _ | .newFeedback _
  | .feedbackRevoked _ _ _ | .responseAppended _ _ _ => .isTrue trivial

/-! ### The tallies -/

/-- A job counts for its link once it is settled. -/
def settledKey {γ : Type} (link : Job W → Option γ) (_ : Id) (job : Job W) : Option γ :=
  if job.settled then link job else none

/-- The counters are tallies of the settled jobs; `volume` is what a job adds to the
volumes. -/
structure SettleTallies (volume : Id → Job W → ℤ) (commerces : Table Id AgenticCommerce)
    (agents : Table Id Agent) (engagements : Table W Engagement) (jobs : Table Id (Job W)) :
    Prop where
  commerceCount : Tally commerces AgenticCommerce.settledJobCount jobs
    (settledKey (fun job => some job.agenticCommerce)) (fun _ _ => 1)
  commerceVolume : Tally commerces AgenticCommerce.settledVolume jobs
    (settledKey (fun job => some job.agenticCommerce)) volume
  providerCount : Tally agents Agent.settledAsProvider jobs (settledKey Job.providerAgent)
    (fun _ _ => 1)
  providerVolume : Tally agents Agent.settledVolumeAsProvider jobs (settledKey Job.providerAgent)
    volume
  clientCount : Tally agents Agent.settledAsClient jobs (settledKey Job.clientAgent) (fun _ _ => 1)
  clientVolume : Tally agents Agent.settledVolumeAsClient jobs (settledKey Job.clientAgent) volume
  engagementCount : Tally engagements Engagement.settledJobCount jobs (settledKey Job.engagement)
    (fun _ _ => 1)
  engagementVolume : Tally engagements Engagement.settledVolume jobs (settledKey Job.engagement)
    volume

variable {D} {s : Store W} {e : Event} {volume : Id → Job W → ℤ}

omit [DecidableEq W] in
theorem fresh_of_conserving (h : Conserving D s e) : Fresh D s e := by
  cases e with
  | registered agentId agentURI owner => exact h
  | jobCreated jobId client provider budget => exact h
  | _ => trivial

/-- The counters of settlements are those of `JobCompleted` and `PaymentReleased` alone. -/
theorem SettleTallies.counters
    (h : SettleTallies volume s.agenticCommerces s.agents s.engagements s.jobs)
    (hfresh : Fresh D s e)
    (hcompleted : ∀ jobId, e ≠ .jobCompleted jobId)
    (hpaid : ∀ jobId amount, e ≠ .paymentReleased jobId amount) :
    SettleTallies volume (handle D s e).agenticCommerces (handle D s e).agents
      (handle D s e).engagements s.jobs := by
  have hagent : ∀ get ∈ [Agent.settledAsProvider, Agent.settledVolumeAsProvider,
      Agent.settledAsClient, Agent.settledVolumeAsClient], AgentFrame get e := by
    cases e with
    | jobCompleted jobId => exact absurd rfl (hcompleted _)
    | paymentReleased jobId amount => exact absurd rfl (hpaid _ _)
    | _ => simp [AgentFrame, newAgent]
  have hengagement : ∀ get ∈ [Engagement.settledJobCount, Engagement.settledVolume],
      EngagementFrame get e := by
    cases e with
    | jobCompleted jobId => exact absurd rfl (hcompleted _)
    | paymentReleased jobId amount => exact absurd rfl (hpaid _ _)
    | _ => simp [EngagementFrame, newEngagement]
  have hcommerce : ∀ get ∈ [AgenticCommerce.settledJobCount, AgenticCommerce.settledVolume],
      CommerceFrame get e := by
    cases e with
    | jobCompleted jobId => exact absurd rfl (hcompleted _)
    | paymentReleased jobId amount => exact absurd rfl (hpaid _ _)
    | _ => simp [CommerceFrame, newAgenticCommerce]
  exact ⟨h.commerceCount.of_value_eq (commerces_value (hcommerce _ (by simp))),
    h.commerceVolume.of_value_eq (commerces_value (hcommerce _ (by simp))),
    h.providerCount.of_value_eq (agents_value hfresh.agent (hagent _ (by simp))),
    h.providerVolume.of_value_eq (agents_value hfresh.agent (hagent _ (by simp))),
    h.clientCount.of_value_eq (agents_value hfresh.agent (hagent _ (by simp))),
    h.clientVolume.of_value_eq (agents_value hfresh.agent (hagent _ (by simp))),
    h.engagementCount.of_value_eq (engagements_value (hengagement _ (by simp))),
    h.engagementVolume.of_value_eq (engagements_value (hengagement _ (by simp)))⟩

/-! ### What a job refers to -/

variable (D) in
/-- The entities that a job refers to are known. -/
structure Referred (s : Store W) : Prop where
  commerce : ∀ id job, s.jobs.load id = some job →
    job.agenticCommerce = agenticCommerceEntityId D ∧
      (s.agenticCommerces.load (agenticCommerceEntityId D)).isSome
  client : ∀ id job c, s.jobs.load id = some job → job.clientAgent = some c →
    (s.agents.load c).isSome
  provider : ∀ id job p, s.jobs.load id = some job → job.providerAgent = some p →
    (s.agents.load p).isSome
  engagement : ∀ id job x, s.jobs.load id = some job → job.engagement = some x →
    (s.engagements.load x).isSome

omit [DecidableEq W] in
theorem party_known {linked : Option Id} {wallet : Address} {id : Id}
    (h : s.core.party linked wallet = some id) : (s.agents.load id).isSome := by
  rw [← map_fst_partyAgent] at h
  obtain ⟨x, hx, rfl⟩ := Option.map_eq_some_iff.mp h
  rw [load_of_partyAgent (show partyAgent s linked wallet = some (x.1, x.2) from hx)]
  rfl

omit [DecidableEq W] in
/-- The agents of a job that is linked are known, or they were its agents before. -/
theorem link_known {job : Job W} :
    (∀ c, (s.core.link D job).clientAgent = some c →
      (s.agents.load c).isSome ∨ job.clientAgent = some c) ∧
    ∀ p, (s.core.link D job).providerAgent = some p →
      (s.agents.load p).isSome ∨ job.providerAgent = some p := by
  constructor
  · intro c hc
    have hor : (s.core.party job.clientAgent job.client).or job.clientAgent = some c := hc
    cases hparty : s.core.party job.clientAgent job.client with
    | none =>
      rw [hparty] at hor
      exact .inr hor
    | some c' =>
      rw [hparty] at hor
      obtain rfl := Option.some.inj hor
      exact .inl (party_known hparty)
  · intro p hp
    have hor : (job.provider.bind (s.core.party job.providerAgent)).or job.providerAgent =
        some p := hp
    cases hparty : job.provider.bind (s.core.party job.providerAgent) with
    | none =>
      rw [hparty] at hor
      exact .inr hor
    | some p' =>
      rw [hparty] at hor
      obtain rfl := Option.some.inj hor
      obtain ⟨w, -, hw⟩ := Option.bind_eq_some_iff.mp hparty
      exact .inl (party_known hw)

omit [DecidableEq W] in
theorem Referred.init : Referred D (Store.empty : Store W) where
  commerce id job h := by cases h
  client id job c h := by cases h
  provider id job p h := by cases h
  engagement id job x h := by cases h

/-- The row of a job after an event: as it was, or created, given a provider or updated. -/
theorem row_cases {id : Id} {job : Job W} (h : (handle D s e).jobs.load id = some job) :
    (s.jobs.load id = some job ∧
      ∀ jobId f, jobUpdate (W := W) e = some (jobId, f) → id ≠ jobEntityId D jobId) ∨
    (∃ jobId client provider budget, e = .jobCreated jobId client provider budget ∧
      id = jobEntityId D jobId ∧ job = s.core.link D (newJob D client provider budget)) ∨
    (∃ jobId provider old, e = .providerSet jobId provider ∧ id = jobEntityId D jobId ∧
      s.jobs.load id = some old ∧ job = s.core.link D (setProvider provider old)) ∨
    ∃ jobId f old, jobUpdate e = some (jobId, f) ∧ id = jobEntityId D jobId ∧
      s.jobs.load id = some old ∧ job = f old := by
  rw [jobs_handle] at h
  rcases jobs_cases D s e with ⟨jobId, client, provider, budget, he, hload⟩ |
    ⟨jobId, provider, he, hload⟩ | ⟨jobId, f, hupdate, hload⟩ | ⟨-, -, hnone, hload⟩
  · rw [hload, Table.load_save] at h
    by_cases hid : id = jobEntityId D jobId
    · rw [if_pos hid] at h
      exact .inr (.inl ⟨jobId, client, provider, budget, he, hid, (Option.some.inj h).symm⟩)
    · rw [if_neg hid] at h
      exact .inl ⟨h, fun _ _ hf => by rw [he] at hf; cases hf⟩
  · rw [hload, Table.load_modify] at h
    by_cases hid : id = jobEntityId D jobId
    · rw [if_pos hid] at h
      obtain ⟨old, hold, rfl⟩ := Option.map_eq_some_iff.mp h
      exact .inr (.inr (.inl ⟨jobId, provider, old, he, hid, hold, rfl⟩))
    · rw [if_neg hid] at h
      exact .inl ⟨h, fun _ _ hf => by rw [he] at hf; cases hf⟩
  · rw [hload, Table.load_modify] at h
    by_cases hid : id = jobEntityId D jobId
    · rw [if_pos hid] at h
      obtain ⟨old, hold, rfl⟩ := Option.map_eq_some_iff.mp h
      exact .inr (.inr (.inr ⟨jobId, f, old, hupdate, hid, hold, rfl⟩))
    · rw [if_neg hid] at h
      refine .inl ⟨h, fun jobId' f' hf => ?_⟩
      obtain ⟨rfl, -⟩ := Prod.mk.inj (Option.some.inj (hupdate.symm.trans hf))
      exact hid
  · rw [hload] at h
    exact .inl ⟨h, fun _ _ hf => by rw [hnone] at hf; cases hf⟩

/-- Its links: those of an old one, or those of the one that has been linked. -/
theorem job_cases {id : Id} {job : Job W} (h : (handle D s e).jobs.load id = some job) :
    (∃ old, s.jobs.load id = some old ∧ job.links = old.links) ∨
    (∃ jobId client provider budget, e = .jobCreated jobId client provider budget ∧
      id = jobEntityId D jobId ∧ job = s.core.link D (newJob D client provider budget)) ∨
    ∃ jobId provider old, e = .providerSet jobId provider ∧ id = jobEntityId D jobId ∧
      s.jobs.load id = some old ∧ job = s.core.link D (setProvider provider old) := by
  rcases row_cases h with ⟨hsame, -⟩ | hcreated | hset | ⟨jobId, f, old, hupdate, -, hold, rfl⟩
  · exact .inl ⟨job, hsame, rfl⟩
  · exact .inr (.inl hcreated)
  · exact .inr (.inr hset)
  · exact .inl ⟨old, hold, links_jobUpdate hupdate old⟩

/-- **References stay known**, whatever the event. -/
theorem Referred.step (h : Referred D s) : Referred D (handle D s e) := by
  have hcreated : ∀ jobId client provider budget, e = .jobCreated jobId client provider budget →
      ((handle D s e).agenticCommerces.load (agenticCommerceEntityId D)).isSome := by
    intro jobId client provider budget he
    rw [he]
    show ((handleJobCreated D jobId client provider budget s).agenticCommerces.load _).isSome = true
    rw [commerces_handleJobCreated, Table.load_save_self]
    rfl
  constructor
  · intro id job hjob
    rcases job_cases hjob with ⟨old, hold, hlinks⟩ | ⟨jobId, client, provider, budget, he, -, rfl⟩ |
      ⟨jobId, provider, old, -, -, hold, rfl⟩
    · obtain ⟨hid, hknown⟩ := h.commerce id old hold
      exact ⟨(congrArg Prod.fst hlinks).trans hid, commerces_kept _ hknown⟩
    · exact ⟨rfl, hcreated jobId client provider budget he⟩
    · obtain ⟨hid, hknown⟩ := h.commerce id old hold
      exact ⟨hid, commerces_kept _ hknown⟩
  · intro id job c hjob hc
    refine agents_kept c ?_
    rcases job_cases hjob with ⟨old, hold, hlinks⟩ | ⟨jobId, client, provider, budget, -, -, rfl⟩ |
      ⟨jobId, provider, old, -, -, hold, rfl⟩
    · simp only [Job.links, Prod.mk.injEq] at hlinks
      exact h.client id old c hold (hlinks.2.1 ▸ hc)
    · exact (link_known.1 c hc).resolve_right (fun hnone => by cases hnone)
    · rcases link_known.1 c hc with hknown | hsame
      · exact hknown
      · exact h.client id old c hold hsame
  · intro id job p hjob hp
    refine agents_kept p ?_
    rcases job_cases hjob with ⟨old, hold, hlinks⟩ | ⟨jobId, client, provider, budget, -, -, rfl⟩ |
      ⟨jobId, provider, old, -, -, hold, rfl⟩
    · simp only [Job.links, Prod.mk.injEq] at hlinks
      exact h.provider id old p hold (hlinks.2.2.1 ▸ hp)
    · exact (link_known.2 p hp).resolve_right (fun hnone => by cases hnone)
    · exact (link_known.2 p hp).resolve_right (fun hnone => by cases hnone)
  · intro id job x hjob hx
    rcases job_cases hjob with ⟨old, hold, hlinks⟩ | ⟨jobId, client, provider, budget, he, -, rfl⟩ |
      ⟨jobId, provider, old, he, hid, hold, rfl⟩
    · simp only [Job.links, Prod.mk.injEq] at hlinks
      exact engagements_kept x (h.engagement id old x hold (hlinks.2.2.2 ▸ hx))
    · rw [← core_getOrCreateAgenticCommerce D] at hx
      rw [he]
      rcases link_engagement hx with hnone | ⟨c, p, -, -, -, -, -, hknown⟩
      · cases hnone
      · exact hknown
    · rcases link_engagement hx with hsame | ⟨c, p, -, -, -, -, -, hknown⟩
      · exact engagements_kept x (h.engagement id old x hold hsame)
      · rw [he, handle, handleProviderSet, onJob, ← hid, hold]
        exact hknown

/-! ### One settlement -/

section Settle

variable {γ χ : Type} [DecidableEq γ] {counters : Table γ χ} {get : χ → ℤ} {jobs : Table Id (Job W)}
  {link : Job W → Option γ} {f : Id → Job W → ℤ} {id : Id} {old job : Job W}

omit [DecidableEq W] [DecidableEq γ] in
theorem settledKey_of_not (h : job.settled = false) : settledKey link id job = none := by
  rw [settledKey, h]
  rfl

omit [DecidableEq W] in
theorem share_of_not (h : job.settled = false) (g : γ) : share (settledKey link) f g id job = 0 := by
  rw [share, settledKey_of_not h, if_neg (Option.some_ne_none _).symm]

omit [DecidableEq W] in
/-- The job becomes a settlement, and the counter of its link changes by what it adds. -/
theorem Tally.settle (h : Tally counters get jobs (settledKey link) f) {φ : χ → χ} {δ : ℤ}
    (hφ : ∀ x, get (φ x) = get x + δ) (hold : jobs.load id = some old)
    (hnot : old.settled = false) (hlink : link { job with settled := true } = link job)
    (hf : f id { job with settled := true } = δ)
    (hknown : ∀ g, link job = some g → (counters.load g).isSome) :
    Tally (counters.modifyAt (link job) φ) get (jobs.save id { job with settled := true })
      (settledKey link) f := by
  refine h.save ?_
  intro g
  rw [Table.value_modifyAt hφ, Table.value_of_load hold, share_of_not hnot, sub_zero, share,
    settledKey, if_pos rfl, hlink, hf]
  by_cases hg : link job = some g
  · rw [if_pos hg, if_pos ⟨hg, hknown g hg⟩]
  · rw [if_neg hg, if_neg (fun hand => hg hand.1)]

omit [DecidableEq W] in
/-- The job is saved with the same links, and what it adds has not changed. -/
theorem Tally.unsettled (h : Tally counters get jobs (settledKey link) f)
    (hold : jobs.load id = some old) (hsettled : job.settled = old.settled)
    (hsame : old.settled = true → link job = link old ∧ f id job = f id old) :
    Tally counters get (jobs.save id job) (settledKey link) f := by
  cases hs : old.settled with
  | false =>
    refine h.save ?_
    intro g
    rw [Table.value_of_load hold, share_of_not hs, share_of_not (hsettled.trans hs), sub_zero,
      add_zero]
  | true =>
    obtain ⟨hlink, hf⟩ := hsame hs
    refine h.save_same hold ?_ hf
    rw [settledKey, settledKey, hsettled, hlink]

end Settle

/-- **A settlement is counted** once for every entity that the job refers to. -/
theorem SettleTallies.settle
    (h : SettleTallies volume s.agenticCommerces s.agents s.engagements s.jobs)
    (href : Referred D s) {id : Id} {old job : Job W} (hold : s.jobs.load id = some old)
    (hlinks : job.links = old.links) (hnot : old.settled = false)
    (hvolume : volume id { job with settled := true } = job.providerPayment) :
    SettleTallies volume (countSettlement id job s).agenticCommerces
      (countSettlement id job s).agents (countSettlement id job s).engagements
      (s.jobs.save id { job with settled := true }) := by
  obtain ⟨points, heq⟩ := countSettlement_eq id job s
  simp only [Job.links, Prod.mk.injEq] at hlinks
  obtain ⟨hcommerce, hclient, hprovider, hengagement⟩ := hlinks
  have hknownCommerce : ∀ g, some job.agenticCommerce = some g →
      (s.agenticCommerces.load g).isSome := by
    intro g hg
    obtain ⟨hid, hknown⟩ := href.commerce id old hold
    rw [← Option.some.inj hg, hcommerce, hid]
    exact hknown
  have hknownProvider : ∀ g, job.providerAgent = some g → (s.agents.load g).isSome :=
    fun g hg => href.provider id old g hold (hprovider ▸ hg)
  have hknownClient : ∀ g, job.clientAgent = some g → (s.agents.load g).isSome :=
    fun g hg => href.client id old g hold (hclient ▸ hg)
  have hknownEngagement : ∀ g, job.engagement = some g → (s.engagements.load g).isSome :=
    fun g hg => href.engagement id old g hold (hengagement ▸ hg)
  have hkeptClient : ∀ g, job.clientAgent = some g → ((s.agents.modifyAt job.providerAgent
      (Agent.addSettledAsProvider job.providerPayment)).load g).isSome :=
    fun g hg => (Table.isSome_load_modifyAt _ _).trans (hknownClient g hg)
  rw [heq]
  constructor
  · exact Tally.settle (φ := AgenticCommerce.addSettled job.providerPayment) h.commerceCount
      (fun _ => rfl) hold hnot rfl rfl hknownCommerce
  · exact Tally.settle (φ := AgenticCommerce.addSettled job.providerPayment) h.commerceVolume
      (fun _ => rfl) hold hnot rfl hvolume hknownCommerce
  · refine Tally.of_value_eq (Tally.settle (φ := Agent.addSettledAsProvider job.providerPayment)
      h.providerCount (fun _ => rfl) hold hnot rfl rfl hknownProvider) ?_
    exact fun g => Table.value_modifyAt_same (φ := Agent.addSettledAsClient job.providerPayment)
      (fun _ => rfl) _
  · refine Tally.of_value_eq (Tally.settle (φ := Agent.addSettledAsProvider job.providerPayment)
      h.providerVolume (fun _ => rfl) hold hnot rfl hvolume hknownProvider) ?_
    exact fun g => Table.value_modifyAt_same (φ := Agent.addSettledAsClient job.providerPayment)
      (fun _ => rfl) _
  · exact Tally.settle (φ := Agent.addSettledAsClient job.providerPayment)
      (h.clientCount.of_value_eq fun g => Table.value_modifyAt_same
        (φ := Agent.addSettledAsProvider job.providerPayment) (fun _ => rfl) _)
      (fun _ => rfl) hold hnot rfl rfl hkeptClient
  · exact Tally.settle (φ := Agent.addSettledAsClient job.providerPayment)
      (h.clientVolume.of_value_eq fun g => Table.value_modifyAt_same
        (φ := Agent.addSettledAsProvider job.providerPayment) (fun _ => rfl) _)
      (fun _ => rfl) hold hnot rfl hvolume hkeptClient
  · exact Tally.settle (φ := Engagement.addSettled id job.providerPayment) h.engagementCount
      (fun _ => rfl) hold hnot rfl rfl hknownEngagement
  · exact Tally.settle (φ := Engagement.addSettled id job.providerPayment) h.engagementVolume
      (fun _ => rfl) hold hnot rfl hvolume hknownEngagement

section Same

variable {commerces : Table Id AgenticCommerce} {agents : Table Id Agent}
  {engagements : Table W Engagement} {jobs : Table Id (Job W)}

/-- A job is saved that adds what it did, links and payment, if it is settled. -/
theorem SettleTallies.unsettled (h : SettleTallies volume commerces agents engagements jobs) {id : Id}
    {old job : Job W} (hold : jobs.load id = some old) (hsettled : job.settled = old.settled)
    (hsame : old.settled = true → job.links = old.links ∧ volume id job = volume id old) :
    SettleTallies volume commerces agents engagements (jobs.save id job) := by
  have hlinks : old.settled = true → some job.agenticCommerce = some old.agenticCommerce ∧
      job.clientAgent = old.clientAgent ∧ job.providerAgent = old.providerAgent ∧
      job.engagement = old.engagement ∧ volume id job = volume id old := by
    intro hs
    obtain ⟨hl, hp⟩ := hsame hs
    simp only [Job.links, Prod.mk.injEq] at hl
    exact ⟨congrArg some hl.1, hl.2.1, hl.2.2.1, hl.2.2.2, hp⟩
  constructor
  · exact Tally.unsettled h.commerceCount hold hsettled (fun hs => ⟨(hlinks hs).1, rfl⟩)
  · exact Tally.unsettled h.commerceVolume hold hsettled
      (fun hs => ⟨(hlinks hs).1, (hlinks hs).2.2.2.2⟩)
  · exact Tally.unsettled h.providerCount hold hsettled (fun hs => ⟨(hlinks hs).2.2.1, rfl⟩)
  · exact Tally.unsettled h.providerVolume hold hsettled
      (fun hs => ⟨(hlinks hs).2.2.1, (hlinks hs).2.2.2.2⟩)
  · exact Tally.unsettled h.clientCount hold hsettled (fun hs => ⟨(hlinks hs).2.1, rfl⟩)
  · exact Tally.unsettled h.clientVolume hold hsettled
      (fun hs => ⟨(hlinks hs).2.1, (hlinks hs).2.2.2.2⟩)
  · exact Tally.unsettled h.engagementCount hold hsettled (fun hs => ⟨(hlinks hs).2.2.2.1, rfl⟩)
  · exact Tally.unsettled h.engagementVolume hold hsettled
      (fun hs => ⟨(hlinks hs).2.2.2.1, (hlinks hs).2.2.2.2⟩)

/-- A job that is new is not settled. -/
theorem SettleTallies.save_new (h : SettleTallies volume commerces agents engagements jobs) {id : Id}
    {job : Job W} (hnew : jobs.load id = none) (hnot : job.settled = false) :
    SettleTallies volume commerces agents engagements (jobs.save id job) :=
  ⟨h.commerceCount.save_none hnew (settledKey_of_not hnot),
    h.commerceVolume.save_none hnew (settledKey_of_not hnot),
    h.providerCount.save_none hnew (settledKey_of_not hnot),
    h.providerVolume.save_none hnew (settledKey_of_not hnot),
    h.clientCount.save_none hnew (settledKey_of_not hnot),
    h.clientVolume.save_none hnew (settledKey_of_not hnot),
    h.engagementCount.save_none hnew (settledKey_of_not hnot),
    h.engagementVolume.save_none hnew (settledKey_of_not hnot)⟩

theorem SettleTallies.of_load_eq {jobs' : Table Id (Job W)}
    (h : SettleTallies volume commerces agents engagements jobs) (hjobs : jobs'.load = jobs.load) :
    SettleTallies volume commerces agents engagements jobs' :=
  ⟨h.commerceCount.of_load_eq hjobs, h.commerceVolume.of_load_eq hjobs,
    h.providerCount.of_load_eq hjobs, h.providerVolume.of_load_eq hjobs,
    h.clientCount.of_load_eq hjobs, h.clientVolume.of_load_eq hjobs,
    h.engagementCount.of_load_eq hjobs, h.engagementVolume.of_load_eq hjobs⟩

end Same

/-! ### Steps -/

/-- A job with the same links is saved, and becomes a settlement if it is one. -/
theorem SettleTallies.mark
    (h : SettleTallies volume s.agenticCommerces s.agents s.engagements s.jobs)
    (href : Referred D s) {id : Id} {old job : Job W} (hold : s.jobs.load id = some old)
    (hlinks : job.links = old.links) (hsettled : job.settled = old.settled)
    (hnew : settles job → volume id { job with settled := true } = job.providerPayment)
    (hsame : old.settled = true → volume id job = volume id old) :
    SettleTallies volume (markSettledIfPaid id job s).2.agenticCommerces
      (markSettledIfPaid id job s).2.agents (markSettledIfPaid id job s).2.engagements
      (s.jobs.save id (markSettled job)) := by
  unfold markSettledIfPaid markSettled
  by_cases hs : settles job
  · rw [if_pos hs, if_pos hs]
    exact h.settle href hold hlinks (hsettled ▸ hs.1) (hnew hs)
  · rw [if_neg hs, if_neg hs]
    exact h.unsettled hold hsettled (fun hyes => ⟨hlinks, hsame hyes⟩)

variable (D) in
/-- What is carried along a run. -/
structure SettleInv (s : Store W) : Prop where
  referred : Referred D s
  tallies : SettleTallies payment s.agenticCommerces s.agents s.engagements s.jobs

theorem SettleInv.init : SettleInv D (Store.empty : Store W) where
  referred := Referred.init
  tallies := ⟨tally_empty, tally_empty, tally_empty, tally_empty, tally_empty, tally_empty,
    tally_empty, tally_empty⟩

omit [DecidableEq W] in
/-- The links of a settled job, after a provider that keeps them is set. -/
theorem links_of_keepsLinks (href : Referred D s) {id : Id} {job : Job W}
    (hjob : s.jobs.load id = some job) {provider : Address} (h : KeepsLinks s job provider) :
    (s.core.link D (setProvider provider job)).links = job.links := by
  obtain ⟨hprovider, hclient, hengagement⟩ := h
  rw [map_fst_resolve] at hprovider
  have hparty : s.core.party job.clientAgent job.client = job.clientAgent := by
    cases hc : job.clientAgent with
    | none =>
      show s.core.resolve job.client = none
      rw [← map_fst_resolve, hclient hc]
      rfl
    | some c =>
      have hknown := href.client id job c hjob hc
      simp only [Core.party, isSome_core_agents, hknown, if_true]
  have hnew : (setProvider provider job).provider.bind
      (s.core.party (setProvider provider job).providerAgent) = job.providerAgent := hprovider
  simp only [Job.links, Core.link, hnew]
  have hclient' : (setProvider provider job).clientAgent = job.clientAgent := rfl
  have haddress : (setProvider provider job).client = job.client := rfl
  have hengaged : (setProvider provider job).engagement = job.engagement := rfl
  rw [hclient', haddress, hengaged, hparty]
  refine congrArg (Prod.mk job.agenticCommerce) ?_
  cases hc : job.clientAgent with
  | none =>
    cases hp : job.providerAgent with
    | none => cases he : job.engagement <;> rfl
    | some p => cases he : job.engagement <;> rfl
  | some c =>
    cases hp : job.providerAgent with
    | none => cases he : job.engagement <;> rfl
    | some p =>
      cases he : job.engagement with
      | none =>
        rcases hengagement he with hnone | hnone
        · rw [hc] at hnone
          cases hnone
        · rw [hp] at hnone
          cases hnone
      | some x => rfl

omit [DecidableEq W] in
/-- An update that is no completion and no payment. -/
theorem settled_jobUpdate {jobId : ℕ} {f : Job W → Job W} (h : jobUpdate e = some (jobId, f))
    (hcompleted : ∀ jobId, e ≠ .jobCompleted jobId)
    (hpaid : ∀ jobId amount, e ≠ .paymentReleased jobId amount) (job : Job W) :
    (f job).settled = job.settled ∧ (f job).providerPayment = job.providerPayment := by
  cases e with
  | jobCompleted jobId => exact absurd rfl (hcompleted _)
  | paymentReleased jobId amount => exact absurd rfl (hpaid _ _)
  | budgetSet _ _ | jobFunded _ _ | jobSubmitted _ | jobRejected _ | jobExpired _
  | evaluatorFeePaid _ _ | refunded _ _ =>
    obtain ⟨-, rfl⟩ := Prod.mk.inj (Option.some.inj h)
    exact ⟨rfl, rfl⟩
  | _ => cases h

/-- The jobs after an update of one that is known. -/
theorem jobs_load_update {jobId : ℕ} {f : Job W → Job W} {old : Job W}
    (h : jobUpdate e = some (jobId, f)) (hold : s.jobs.load (jobEntityId D jobId) = some old) :
    (handle D s e).jobs.load = (s.jobs.save (jobEntityId D jobId) (f old)).load := by
  rw [jobs_handle, core_jobs_of_update h, Table.modify, hold]

omit [DecidableEq W] in
theorem payment_markSettled (job : Job W) :
    (markSettled job).providerPayment = job.providerPayment := by
  unfold markSettled
  by_cases hs : settles job
  · rw [if_pos hs]
  · rw [if_neg hs]

omit [DecidableEq W] in
/-- What a job adds that may become a settlement now. -/
theorem volume_of_markSettled {id : Id} {old job : Job W} (hsettled : job.settled = old.settled)
    (h : (markSettled job).settled = true → volume id (markSettled job) =
      if old.settled then volume id old else (markSettled job).providerPayment) :
    (settles job → volume id { job with settled := true } = job.providerPayment) ∧
      (old.settled = true → volume id job = volume id old) := by
  unfold markSettled at h
  constructor
  · intro hs
    have hnot : old.settled = false := hsettled.symm.trans hs.1
    rw [if_pos hs, hnot] at h
    exact h rfl
  · intro hold
    have hnot : ¬ settles job := fun hs => by
      have hfalse := hsettled.symm.trans hs.1
      rw [hold] at hfalse
      cases hfalse
    rw [if_neg hnot, if_pos hold] at h
    exact h (hsettled.trans hold)

/-- **An event keeps the tallies**: ids are new, a settled job keeps its links when a provider
is set, and what a job adds is what it has been paid when it becomes a settlement. -/
theorem SettleTallies.step
    (h : SettleTallies volume s.agenticCommerces s.agents s.engagements s.jobs)
    (href : Referred D s) (hfresh : Fresh D s e)
    (hpay : ∀ id job job', job'.providerPayment = job.providerPayment →
      volume id job' = volume id job)
    (hset : ∀ jobId provider, e = .providerSet jobId provider →
      ∀ job ∈ s.jobs.load (jobEntityId D jobId), job.settled = true → KeepsLinks s job provider)
    (hvolume : ∀ jobId f old, jobUpdate e = some (jobId, f) →
      s.jobs.load (jobEntityId D jobId) = some old → (f old).settled = true →
      volume (jobEntityId D jobId) (f old) =
        if old.settled then volume (jobEntityId D jobId) old else (f old).providerPayment) :
    SettleTallies volume (handle D s e).agenticCommerces (handle D s e).agents
      (handle D s e).engagements (handle D s e).jobs := by
  by_cases hcompleted : ∃ jobId, e = .jobCompleted jobId
  · obtain ⟨jobId, rfl⟩ := hcompleted
    rcases onJob_cases D jobId s _ with heq | ⟨old, hold, heq⟩
    · rw [handle, handleJobCompleted, heq]
      exact h
    · have hsettled : (setStatus .completed old).settled = old.settled := rfl
      obtain ⟨hnew, hsame⟩ := volume_of_markSettled hsettled (hvolume jobId _ old rfl hold)
      have hmark := h.mark href hold (show (setStatus .completed old).links = _ from rfl) rfl
        hnew hsame
      refine SettleTallies.of_load_eq ?_ (jobs_load_update (e := .jobCompleted jobId) rfl hold)
      rw [handle, handleJobCompleted, heq]
      exact hmark
  by_cases hpaid : ∃ jobId amount, e = .paymentReleased jobId amount
  · obtain ⟨jobId, amount, rfl⟩ := hpaid
    rcases onJob_cases D jobId s _ with heq | ⟨old, hold, heq⟩
    · rw [handle, handlePaymentReleased, heq]
      exact h
    · have hsettled : (addPayment amount old).settled = old.settled := rfl
      obtain ⟨hnew, hsame⟩ := volume_of_markSettled hsettled (hvolume jobId _ old rfl hold)
      have hmark := h.mark href hold (show (addPayment amount old).links = _ from rfl) rfl
        hnew hsame
      refine SettleTallies.of_load_eq ?_
        (jobs_load_update (e := .paymentReleased jobId amount) rfl hold)
      rw [handle, handlePaymentReleased, heq]
      exact hmark
  have hnotCompleted : ∀ jobId, e ≠ .jobCompleted jobId := fun jobId he => hcompleted ⟨jobId, he⟩
  have hnotPaid : ∀ jobId amount, e ≠ .paymentReleased jobId amount :=
    fun jobId amount he => hpaid ⟨jobId, amount, he⟩
  have hcounters := h.counters hfresh hnotCompleted hnotPaid
  rcases jobs_cases D s e with ⟨jobId, client, provider, budget, rfl, hload⟩ |
    ⟨jobId, provider, rfl, hload⟩ | ⟨jobId, f, hupdate, hload⟩ | ⟨-, -, -, hload⟩
  · have hnot : (s.core.link D (newJob D client provider budget)).settled = false := rfl
    exact (hcounters.save_new hfresh hnot).of_load_eq ((jobs_handle D s _).trans hload)
  · cases hold : s.jobs.load (jobEntityId D jobId) with
    | none =>
      rw [Table.modify, hold] at hload
      exact hcounters.of_load_eq ((jobs_handle D s _).trans hload)
    | some old =>
      rw [Table.modify, hold] at hload
      have hsettled : (s.core.link D (setProvider provider old)).settled = old.settled := rfl
      have hsaved := hcounters.unsettled hold hsettled (fun hs =>
        ⟨links_of_keepsLinks href hold (hset jobId provider rfl old hold hs), hpay _ _ _ rfl⟩)
      exact hsaved.of_load_eq ((jobs_handle D s _).trans hload)
  · cases hold : s.jobs.load (jobEntityId D jobId) with
    | none =>
      rw [Table.modify, hold] at hload
      exact hcounters.of_load_eq ((jobs_handle D s _).trans hload)
    | some old =>
      obtain ⟨hsettled, hpayment⟩ := settled_jobUpdate hupdate hnotCompleted hnotPaid old
      exact (hcounters.unsettled hold hsettled
        (fun _ => ⟨links_jobUpdate hupdate old, hpay _ _ _ hpayment⟩)).of_load_eq
          (jobs_load_update hupdate hold)
  · exact hcounters.of_load_eq ((jobs_handle D s e).trans hload)

omit [DecidableEq W] in
/-- A settled job is paid nothing by a conserving event. -/
theorem payment_of_conserving (hc : Conserving D s e) {jobId : ℕ} {f : Job W → Job W} {old : Job W}
    (h : jobUpdate e = some (jobId, f)) (hold : s.jobs.load (jobEntityId D jobId) = some old)
    (hsettled : old.settled = true) : (f old).providerPayment = old.providerPayment := by
  cases e with
  | budgetSet _ _ | jobFunded _ _ | jobSubmitted _ | jobRejected _ | jobExpired _
  | evaluatorFeePaid _ _ | refunded _ _ =>
    obtain ⟨-, rfl⟩ := Prod.mk.inj (Option.some.inj h)
    rfl
  | jobCompleted _ =>
    obtain ⟨-, rfl⟩ := Prod.mk.inj (Option.some.inj h)
    exact payment_markSettled _
  | paymentReleased _ amount =>
    obtain ⟨rfl, rfl⟩ := Prod.mk.inj (Option.some.inj h)
    rw [payment_markSettled]
    show old.providerPayment + (amount : ℤ) = old.providerPayment
    rw [hc old hold hsettled]
    exact add_zero _
  | _ => cases h

/-- **A conserving event keeps the tallies.** -/
theorem SettleInv.step (h : SettleInv D s) (hc : Conserving D s e) : SettleInv D (handle D s e) := by
  refine ⟨h.referred.step, h.tallies.step h.referred (fresh_of_conserving hc) ?_ ?_ ?_⟩
  · exact fun _ _ _ hpay => hpay
  · intro jobId provider he job hjob hsettled
    subst he
    exact hc job hjob hsettled
  · intro jobId f old hupdate hold _
    show (f old).providerPayment = if old.settled then old.providerPayment else _
    cases hs : old.settled with
    | false => rfl
    | true => exact payment_of_conserving hc hupdate hold hs

/-! ### What the tallies say -/

omit [DecidableEq W] in
theorem decide_settledKey {γ : Type} [DecidableEq γ] (link : Job W → Option γ) (g : γ) (id : Id)
    (job : Job W) : decide (settledKey link id job = some g) = isSettled link g id job := by
  unfold settledKey isSettled
  cases job.settled with
  | false => rfl
  | true => rfl

theorem SettleInv.balanced (h : SettleInv D s) : Balanced D s := by
  have hall : ∀ id job, s.jobs.load id = some job → decide (settledKey
      (fun job => some job.agenticCommerce) id job = some (agenticCommerceEntityId D)) =
      job.settled := by
    intro id job hjob
    rw [decide_settledKey, isSettled, (h.referred.commerce id job hjob).1, decide_eq_true rfl,
      Bool.and_true]
  constructor
  · intro x hx
    rw [h.tallies.commerceCount.eq_count hx, h.tallies.commerceVolume.eq_sumOver hx]
    exact ⟨Table.count_congr hall, Table.sumOver_congr hall⟩
  · intro id a ha
    rw [h.tallies.providerCount.eq_count ha, h.tallies.providerVolume.eq_sumOver ha]
    exact ⟨Table.count_congr (fun k v _ => decide_settledKey _ _ k v),
      Table.sumOver_congr (fun k v _ => decide_settledKey _ _ k v)⟩
  · intro id a ha
    rw [h.tallies.clientCount.eq_count ha, h.tallies.clientVolume.eq_sumOver ha]
    exact ⟨Table.count_congr (fun k v _ => decide_settledKey _ _ k v),
      Table.sumOver_congr (fun k v _ => decide_settledKey _ _ k v)⟩
  · intro id x hx
    rw [h.tallies.engagementCount.eq_count hx, h.tallies.engagementVolume.eq_sumOver hx]
    exact ⟨Table.count_congr (fun k v _ => decide_settledKey _ _ k v),
      Table.sumOver_congr (fun k v _ => decide_settledKey _ _ k v)⟩

/-- The counters of settlements, by id; zero where there is no entity. -/
def Store.totals (s : Store W) : (Id → ℤ × ℤ) × (Id → (ℤ × ℤ) × ℤ × ℤ) × (W → ℤ × ℤ) :=
  (fun g => (s.agenticCommerces.value (fun _ => AgenticCommerce.settledJobCount) g,
      s.agenticCommerces.value (fun _ => AgenticCommerce.settledVolume) g),
    fun g => ((s.agents.value (fun _ => Agent.settledAsProvider) g,
        s.agents.value (fun _ => Agent.settledVolumeAsProvider) g),
      s.agents.value (fun _ => Agent.settledAsClient) g,
      s.agents.value (fun _ => Agent.settledVolumeAsClient) g),
    fun g => (s.engagements.value (fun _ => Engagement.settledJobCount) g,
      s.engagements.value (fun _ => Engagement.settledVolume) g))

omit [DecidableEq W] in
/-- Two tallies over the same rows. -/
theorem tally_value_eq {γ χ : Type} [DecidableEq γ] {counters counters' : Table γ χ} {get : χ → ℤ}
    {jobs jobs' : Table Id (Job W)} {key : Id → Job W → Option γ} {f : Id → Job W → ℤ}
    (h : Tally counters get jobs key f) (h' : Tally counters' get jobs' key f)
    (hjobs : jobs'.load = jobs.load) (g : γ) :
    counters.value (fun _ => get) g = counters'.value (fun _ => get) g :=
  (h g).trans (h'.of_load_eq hjobs.symm g).symm

/-- **The same jobs have the same totals.** -/
theorem totals_eq {s' : Store W} (h : SettleInv D s) (h' : SettleInv D s')
    (hjobs : s'.jobs.load = s.jobs.load) : s.totals = s'.totals := by
  have hcommerce := tally_value_eq h.tallies.commerceCount h'.tallies.commerceCount hjobs
  have hvolume := tally_value_eq h.tallies.commerceVolume h'.tallies.commerceVolume hjobs
  have hprovider := tally_value_eq h.tallies.providerCount h'.tallies.providerCount hjobs
  have hproviderVolume := tally_value_eq h.tallies.providerVolume h'.tallies.providerVolume hjobs
  have hclient := tally_value_eq h.tallies.clientCount h'.tallies.clientCount hjobs
  have hclientVolume := tally_value_eq h.tallies.clientVolume h'.tallies.clientVolume hjobs
  have hengagement := tally_value_eq h.tallies.engagementCount h'.tallies.engagementCount hjobs
  have hengaged := tally_value_eq h.tallies.engagementVolume h'.tallies.engagementVolume hjobs
  simp only [Store.totals, hcommerce, hvolume, hprovider, hproviderVolume, hclient, hclientVolume,
    hengagement, hengaged]

end Bufi.Subgraph
