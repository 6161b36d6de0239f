import Bufi.Subgraph.Frames
import Bufi.Subgraph.Ids

/-!
# The links of the jobs

A job is linked to the agents behind its two wallets, and to their engagement at the first
event at which both are known.  `Linked` is that the links agree: the engagement of a job
is that of its agents, and the counters of engagements and agents are numbers of jobs.

Two things break it (`not_linked_again`).  A provider that is set again changes the agent
of a job that has its engagement already, and nothing else; and where client and provider
are one agent, two copies of it are saved, so that the second takes back what the first
has counted.  `Steady` excludes both, and an agent that is registered or a job that is
created twice; then the links agree after every run (`linked_of_steady`).
-/

namespace Bufi.Subgraph

open Bufi.Evm Bufi.Index

variable {W : Type} [DecidableEq W] (D : Deployment W)

/-! ### The property -/

/-- The links of the jobs agree with each other and with the counters. -/
structure Linked (s : Store W) : Prop where
  engagement : ∀ id job e, s.jobs.load id = some job → job.engagement = some e →
    ∃ c p x, job.clientAgent = some c ∧ job.providerAgent = some p ∧ e = engagementId D c p ∧
      s.engagements.load e = some x ∧ x.client = c ∧ x.provider = p
  jobCount : ∀ e x, s.engagements.load e = some x →
    x.jobCount = s.jobs.count (fun _ job => decide (job.engagement = some e))
  asClient : ∀ id a, s.agents.load id = some a →
    a.jobsAsClient =
      s.jobs.count (fun _ job => job.engagement.isSome && decide (job.clientAgent = some id))
  asProvider : ∀ id a, s.agents.load id = some a →
    a.jobsAsProvider =
      s.jobs.count (fun _ job => job.engagement.isSome && decide (job.providerAgent = some id))

/-- The agents that `linkWorkspaces` finds are two. -/
def Apart (s : Store W) (job : Job W) : Prop :=
  ∀ c ∈ partyAgent s job.clientAgent job.client,
    ∀ p ∈ job.provider.bind (partyAgent s job.providerAgent), c.1 ≠ p.1

/-- The events that keep the links: ids are new, a job is not linked to one agent twice,
and the provider of a job with an engagement changes for another wallet of its agent
only. -/
def Steady (s : Store W) : Event → Prop
  | .registered agentId _ _ => s.agents.load (agentEntityId D agentId) = none
  | .jobCreated jobId client provider budget =>
    s.jobs.load (jobEntityId D jobId) = none ∧ Apart s (newJob D client provider budget)
  | .providerSet jobId provider => ∀ job ∈ s.jobs.load (jobEntityId D jobId),
      if job.engagement = none then Apart s (setProvider provider job)
      else (resolveAgentByWallet s provider).map Prod.fst = job.providerAgent
  | _ => True

instance (s : Store W) (job : Job W) : Decidable (Apart s job) :=
  inferInstanceAs (Decidable (∀ c ∈ partyAgent s job.clientAgent job.client,
    ∀ p ∈ job.provider.bind (partyAgent s job.providerAgent), c.1 ≠ p.1))

instance (s : Store W) : DecidablePred (Steady D s)
  | .registered _ _ _ => inferInstanceAs (Decidable (s.agents.load _ = none))
  | .jobCreated _ _ _ _ => inferInstanceAs (Decidable (s.jobs.load _ = none ∧ Apart s _))
  | .providerSet jobId provider =>
    inferInstanceAs (Decidable (∀ job ∈ s.jobs.load (jobEntityId D jobId),
      if job.engagement = none then Apart s (setProvider provider job)
      else (resolveAgentByWallet s provider).map Prod.fst = job.providerAgent))
  | .metadataSet _ _ _ | .transfer _ _ _ | .uriUpdated _ _ | .budgetSet _ _ | .jobFunded _ _
  | .jobSubmitted _ | .jobCompleted _ | .jobRejected _ | .jobExpired _ | .paymentReleased _ _
  | .evaluatorFeePaid _ _ | .refunded _ _ | .hookWhitelistUpdated | .upgraded _ | .newFeedback _
  | .feedbackRevoked _ _ _ | .responseAppended _ _ _ => .isTrue trivial

/-! ### The tallies -/

/-- The agent that a job with an engagement is counted for. -/
def clientKey (_ : Id) (job : Job W) : Option Id :=
  if job.engagement.isSome then job.clientAgent else none

def providerKey (_ : Id) (job : Job W) : Option Id :=
  if job.engagement.isSome then job.providerAgent else none

def engagementKey (_ : Id) (job : Job W) : Option W := job.engagement

/-- The three counters are tallies of the jobs. -/
structure LinkTallies (agents : Table Id Agent) (engagements : Table W Engagement)
    (jobs : Table Id (Job W)) : Prop where
  jobCount : Tally engagements Engagement.jobCount jobs engagementKey (fun _ _ => 1)
  asClient : Tally agents Agent.jobsAsClient jobs clientKey (fun _ _ => 1)
  asProvider : Tally agents Agent.jobsAsProvider jobs providerKey (fun _ _ => 1)

variable {D} {s : Store W} {e : Event}

omit [DecidableEq W] in
theorem keys_of_links {id : Id} {job job' : Job W} (h : job'.links = job.links) :
    clientKey id job' = clientKey id job ∧ providerKey id job' = providerKey id job ∧
      engagementKey id job' = engagementKey id job := by
  simp only [Job.links, Prod.mk.injEq] at h
  obtain ⟨-, hc, hp, he⟩ := h
  simp only [clientKey, providerKey, engagementKey, hc, hp, he, and_self]

/-- The counters of the links are those of link events alone. -/
theorem LinkTallies.counters (h : LinkTallies s.agents s.engagements s.jobs) (hfresh : Fresh D s e)
    (hcreated : ∀ jobId client provider budget, e ≠ .jobCreated jobId client provider budget)
    (hset : ∀ jobId provider, e ≠ .providerSet jobId provider) :
    LinkTallies (handle D s e).agents (handle D s e).engagements s.jobs := by
  have hclient : AgentFrame Agent.jobsAsClient e := by
    cases e with
    | jobCreated jobId client provider budget => exact absurd rfl (hcreated _ _ _ _)
    | providerSet jobId provider => exact absurd rfl (hset _ _)
    | _ => simp [AgentFrame, newAgent]
  have hprovider : AgentFrame Agent.jobsAsProvider e := by
    cases e with
    | jobCreated jobId client provider budget => exact absurd rfl (hcreated _ _ _ _)
    | providerSet jobId provider => exact absurd rfl (hset _ _)
    | _ => simp [AgentFrame, newAgent]
  have hengagement : EngagementFrame Engagement.jobCount e := by
    cases e with
    | jobCreated jobId client provider budget => exact absurd rfl (hcreated _ _ _ _)
    | providerSet jobId provider => exact absurd rfl (hset _ _)
    | _ => simp [EngagementFrame, newEngagement]
  exact ⟨h.jobCount.of_value_eq (engagements_value hengagement),
    h.asClient.of_value_eq (agents_value hfresh.agent hclient),
    h.asProvider.of_value_eq (agents_value hfresh.agent hprovider)⟩

omit [DecidableEq W] in
theorem fresh_of_steady (h : Steady D s e) : Fresh D s e := by
  cases e with
  | registered agentId agentURI owner => exact h
  | jobCreated jobId client provider budget => exact h.1
  | _ => trivial

theorem LinkTallies.of_load_eq {agents : Table Id Agent} {engagements : Table W Engagement}
    {jobs jobs' : Table Id (Job W)} (h : LinkTallies agents engagements jobs)
    (hjobs : jobs'.load = jobs.load) : LinkTallies agents engagements jobs' :=
  ⟨h.jobCount.of_load_eq hjobs, h.asClient.of_load_eq hjobs, h.asProvider.of_load_eq hjobs⟩

theorem LinkTallies.modify {agents : Table Id Agent} {engagements : Table W Engagement}
    {jobs : Table Id (Job W)} (h : LinkTallies agents engagements jobs) {id : Id}
    {f : Job W → Job W} (hf : ∀ job, (f job).links = job.links) :
    LinkTallies agents engagements (jobs.modify id f) :=
  ⟨h.jobCount.modify_same (fun job => (keys_of_links (hf job)).2.2) (fun _ => rfl),
    h.asClient.modify_same (fun job => (keys_of_links (hf job)).1) (fun _ => rfl),
    h.asProvider.modify_same (fun job => (keys_of_links (hf job)).2.1) (fun _ => rfl)⟩

/-! ### Linking -/

omit [DecidableEq W] in
/-- A job without an engagement is in no tally. -/
theorem value_share_of_none {γ : Type} [DecidableEq γ] {jobs : Table Id (Job W)} {id : Id}
    {key : Id → Job W → Option γ} (hkey : ∀ job, job.engagement = none → key id job = none)
    (h : ∀ old, jobs.load id = some old → old.engagement = none) (g : γ) :
    jobs.value (share key (fun _ _ => (1 : ℤ)) g) id = 0 := by
  cases hold : jobs.load id with
  | none => exact Table.value_of_none hold
  | some old =>
    rw [Table.value_of_load hold, share, hkey old (h old hold),
      if_neg (Option.some_ne_none _).symm]

omit [DecidableEq W] in
theorem clientKey_of_none {id : Id} {job : Job W} (h : job.engagement = none) :
    clientKey id job = none := by
  rw [clientKey, h]
  rfl

omit [DecidableEq W] in
theorem providerKey_of_none {id : Id} {job : Job W} (h : job.engagement = none) :
    providerKey id job = none := by
  rw [providerKey, h]
  rfl

omit [DecidableEq W] in
/-- The agents of a job after it is linked. -/
theorem link_agents {job : Job W} {c p : Id × Agent}
    (hc : partyAgent s job.clientAgent job.client = some c)
    (hp : job.provider.bind (partyAgent s job.providerAgent) = some p) :
    (s.core.link D job).clientAgent = some c.1 ∧ (s.core.link D job).providerAgent = some p.1 := by
  have hclient : s.core.party job.clientAgent job.client = some c.1 := by
    rw [← map_fst_partyAgent, hc]
    rfl
  have hprovider : job.provider.bind (s.core.party job.providerAgent) = some p.1 := by
    obtain ⟨w, hw, hparty⟩ := Option.bind_eq_some_iff.mp hp
    rw [hw, Option.bind_some, ← map_fst_partyAgent, hparty]
    rfl
  simp only [Core.link, hclient, hprovider, Option.or]
  exact ⟨trivial, trivial⟩

/-- **A job is linked.**  It had no engagement, and gets the one of two agents, or it keeps
the engagement and the agents it had. -/
theorem LinkTallies.link (h : LinkTallies s.agents s.engagements s.jobs) (id : Id) (job : Job W)
    (hapart : job.engagement = none → Apart s job)
    (hold : ∀ old, s.jobs.load id = some old → old.engagement = job.engagement ∧
      (job.engagement ≠ none → (s.core.link D job).clientAgent = old.clientAgent ∧
        (s.core.link D job).providerAgent = old.providerAgent))
    (hnew : s.jobs.load id = none → job.engagement = none) :
    LinkTallies (linkWorkspaces D job s).2.agents (linkWorkspaces D job s).2.engagements
      (s.jobs.save id (s.core.link D job)) := by
  obtain ⟨-, ⟨c, p, ca, pa, hc, hp, hnone, hengagement, hs⟩ | ⟨hs, hengagement⟩⟩ :=
    linkWorkspaces_cases D (s := s) job
  · have hca := load_of_partyAgent hc
    have hpa := load_of_provider hp
    obtain ⟨hclient, hprovider⟩ := link_agents (D := D) hc hp
    have hne : c ≠ p := hapart hnone (c, ca) hc (p, pa) hp
    have hrow : ∀ old, s.jobs.load id = some old → old.engagement = none :=
      fun old hload => (hold old hload).1.trans hnone
    rw [hs]
    constructor
    · refine h.jobCount.save ?_
      intro g
      rw [value_share_of_none (fun job hjob => hjob) hrow, sub_zero, share, engagementKey,
        hengagement]
      have hadd : ∀ x : Engagement, ({ x with jobCount := x.jobCount + 1 } : Engagement).jobCount =
          x.jobCount + 1 := fun _ => rfl
      have hempty : (newEngagement c p).jobCount = 0 := rfl
      refine (Table.value_save_getD hempty hadd).trans ?_
      by_cases hg : g = engagementId D c p
      · rw [if_pos hg, if_pos (by rw [hg])]
      · rw [if_neg hg, if_neg (fun heq => hg (Option.some.inj heq).symm)]
    · refine h.asClient.save ?_
      intro g
      rw [value_share_of_none (fun job hjob => clientKey_of_none hjob) hrow, sub_zero, share,
        clientKey, hengagement, hclient, if_pos (show (some (engagementId D c p)).isSome = true from rfl)]
      show ((s.agents.save c _).save p _).value _ g = _
      rw [Table.value_save, Table.value_save]
      by_cases hgp : g = p
      · rw [if_pos hgp, hgp, Table.value_of_load hpa,
          if_neg (fun heq => hne (Option.some.inj heq)), add_zero]
      · rw [if_neg hgp]
        by_cases hgc : g = c
        · rw [if_pos hgc, hgc, Table.value_of_load hca, if_pos rfl]
        · rw [if_neg hgc, if_neg (fun heq => hgc (Option.some.inj heq).symm), add_zero]
    · refine h.asProvider.save ?_
      intro g
      rw [value_share_of_none (fun job hjob => providerKey_of_none hjob) hrow, sub_zero, share,
        providerKey, hengagement, hprovider,
        if_pos (show (some (engagementId D c p)).isSome = true from rfl)]
      show ((s.agents.save c _).save p _).value _ g = _
      rw [Table.value_save, Table.value_save]
      by_cases hgp : g = p
      · rw [if_pos hgp, hgp, Table.value_of_load hpa, if_pos rfl]
      · rw [if_neg hgp, if_neg (fun heq => hgp (Option.some.inj heq).symm), add_zero]
        by_cases hgc : g = c
        · rw [if_pos hgc, hgc, Table.value_of_load hca]
        · rw [if_neg hgc]
  · rw [hs]
    cases hload : s.jobs.load id with
    | none =>
      have hnone := hengagement.trans (hnew hload)
      exact ⟨h.jobCount.save_none hload hnone,
        h.asClient.save_none hload (clientKey_of_none hnone),
        h.asProvider.save_none hload (providerKey_of_none hnone)⟩
    | some old =>
      obtain ⟨heq, hagents⟩ := hold old hload
      have hkeep : (s.core.link D job).engagement = old.engagement := hengagement.trans heq.symm
      by_cases hnone : job.engagement = none
      · have hlinked := hengagement.trans hnone
        have hbefore := heq.trans hnone
        exact ⟨h.jobCount.save_same hload hkeep rfl,
          h.asClient.save_same hload
            ((clientKey_of_none hlinked).trans (clientKey_of_none hbefore).symm) rfl,
          h.asProvider.save_same hload
            ((providerKey_of_none hlinked).trans (providerKey_of_none hbefore).symm) rfl⟩
      · obtain ⟨hclient, hprovider⟩ := hagents hnone
        refine ⟨h.jobCount.save_same hload hkeep rfl, h.asClient.save_same hload ?_ rfl,
          h.asProvider.save_same hload ?_ rfl⟩
        · rw [clientKey, clientKey, hkeep, hclient]
        · rw [providerKey, providerKey, hkeep, hprovider]

/-! ### The invariant -/

variable (D) in
/-- What is carried along a run. -/
structure LinkInv (s : Store W) : Prop where
  agents : ∀ id, (s.agents.load id).isSome → ∃ n, id = agentEntityId D n
  ends : ∀ g x, s.engagements.load g = some x → (s.agents.load x.client).isSome ∧
    (s.agents.load x.provider).isSome ∧ g = engagementId D x.client x.provider
  engagement : ∀ id job e, s.jobs.load id = some job → job.engagement = some e →
    ∃ c p, job.clientAgent = some c ∧ job.providerAgent = some p ∧ e = engagementId D c p ∧
      (s.agents.load c).isSome ∧ (s.agents.load p).isSome ∧ (s.engagements.load e).isSome
  tallies : LinkTallies s.agents s.engagements s.jobs

theorem LinkInv.init : LinkInv D (Store.empty : Store W) where
  agents id h := by cases h
  ends g x h := by cases h
  engagement id job e h := by cases h
  tallies := ⟨tally_empty, tally_empty, tally_empty⟩

theorem agents_ids (h : ∀ id, (s.agents.load id).isSome → ∃ n, id = agentEntityId D n) (id : Id)
    (hid : ((handle D s e).agents.load id).isSome) : ∃ n, id = agentEntityId D n := by
  rcases (agents_isSome D s e id).mp hid with hold | ⟨agentId, _, _, _, heq⟩
  · exact h id hold
  · exact ⟨agentId, heq⟩

/-- An engagement stays that of its two agents. -/
theorem engagements_known (h : ∀ g x, s.engagements.load g = some x →
      (s.agents.load x.client).isSome ∧ (s.agents.load x.provider).isSome ∧
      g = engagementId D x.client x.provider) (g : W) (x : Engagement)
    (hx : (handle D s e).engagements.load g = some x) :
    ((handle D s e).agents.load x.client).isSome ∧
      ((handle D s e).agents.load x.provider).isSome ∧
      g = engagementId D x.client x.provider := by
  have hends : ((handle D s e).engagements.load g).map Engagement.ends = some x.ends := by rw [hx]; rfl
  rcases engagements_ends D s e g with heq | ⟨-, c, p, hg, hc, hp, heq⟩
  · rw [hends] at heq
    obtain ⟨y, hy, hyx⟩ := Option.map_eq_some_iff.mp heq.symm
    obtain ⟨hclient, hprovider⟩ := Prod.mk.inj hyx
    obtain ⟨hyc, hyp, hyg⟩ := h g y hy
    rw [← hclient, ← hprovider]
    exact ⟨agents_kept _ hyc, agents_kept _ hyp, hyg⟩
  · rw [hends] at heq
    obtain ⟨hclient, hprovider⟩ := Prod.mk.inj (Option.some.inj heq)
    rw [hclient, hprovider]
    exact ⟨agents_kept _ hc, agents_kept _ hp, hg⟩

/-- The engagement of a job, after any event that leaves the job its links. -/
theorem LinkInv.engagement_kept (h : LinkInv D s) {id : Id} {old job : Job W} {x : W}
    (hold : s.jobs.load id = some old) (hclient : job.clientAgent = old.clientAgent)
    (hprovider : job.providerAgent = old.providerAgent)
    (hengagement : job.engagement = old.engagement) (hx : job.engagement = some x) :
    ∃ c p, job.clientAgent = some c ∧ job.providerAgent = some p ∧ x = engagementId D c p ∧
      ((handle D s e).agents.load c).isSome ∧ ((handle D s e).agents.load p).isSome ∧
      ((handle D s e).engagements.load x).isSome := by
  obtain ⟨c, p, hc, hp, heq, hca, hpa, hxs⟩ := h.engagement id old x hold (hengagement ▸ hx)
  exact ⟨c, p, hclient.trans hc, hprovider.trans hp, heq, agents_kept c hca, agents_kept p hpa,
    engagements_kept x hxs⟩

/-- The engagement of a job that has just been linked. -/
theorem link_engagement {job : Job W} {x : W} (hx : (s.core.link D job).engagement = some x) :
    job.engagement = some x ∨ ∃ c p, (s.core.link D job).clientAgent = some c ∧
      (s.core.link D job).providerAgent = some p ∧ x = engagementId D c p ∧
      (s.agents.load c).isSome ∧ (s.agents.load p).isSome ∧
      ((linkWorkspaces D job s).2.engagements.load x).isSome := by
  obtain ⟨-, ⟨c, p, ca, pa, hc, hp, -, hengagement, hs⟩ | ⟨-, hengagement⟩⟩ :=
    linkWorkspaces_cases D (s := s) job
  · rw [hengagement] at hx
    obtain rfl := Option.some.inj hx
    obtain ⟨hclient, hprovider⟩ := link_agents (D := D) hc hp
    refine .inr ⟨c, p, hclient, hprovider, rfl, ?_, ?_, ?_⟩
    · rw [load_of_partyAgent hc]
      rfl
    · rw [load_of_provider hp]
      rfl
    · rw [hs]
      show ((s.engagements.save _ _).load _).isSome = true
      rw [Table.load_save_self]
      rfl
  · exact .inl (hengagement.symm.trans hx)

/-- A job that is created. -/
theorem LinkInv.created (h : LinkInv D s) {jobId : ℕ} {client provider : Address}
    {budget : Option ℕ} (hs : Steady D s (.jobCreated jobId client provider budget)) :
    LinkInv D (handle D s (.jobCreated jobId client provider budget)) := by
  obtain ⟨hfresh, hapart⟩ := hs
  obtain ⟨t, ht⟩ := getOrCreateAgenticCommerce_eq D s
  have hcore : (getOrCreateAgenticCommerce D s).2.core = s.core :=
    core_getOrCreateAgenticCommerce D
  have hagents : (getOrCreateAgenticCommerce D s).2.agents = s.agents := by rw [ht]
  have hengagements : (getOrCreateAgenticCommerce D s).2.engagements = s.engagements := by rw [ht]
  have hstored : (getOrCreateAgenticCommerce D s).2.jobs = s.jobs := by rw [ht]
  have hjobs := jobs_handle D s (.jobCreated jobId client provider budget)
  have hload : (coreStep D s.core (.jobCreated jobId client provider budget)).jobs =
      (s.jobs.save (jobEntityId D jobId) (s.core.link D (newJob D client provider budget))).load := rfl
  rw [hload] at hjobs
  refine ⟨agents_ids h.agents, engagements_known h.ends, ?_, ?_⟩
  · intro id job x hjob hx
    rw [hjobs, Table.load_save] at hjob
    by_cases hid : id = jobEntityId D jobId
    · rw [if_pos hid] at hjob
      obtain rfl := Option.some.inj hjob
      rw [← hcore] at hx
      rcases link_engagement hx with hnone | ⟨c, p, hc, hp, heq, hca, hpa, hxs⟩
      · cases hnone
      · rw [hcore] at hc hp
        rw [hagents] at hca hpa
        exact ⟨c, p, hc, hp, heq, agents_kept c hca, agents_kept p hpa, hxs⟩
    · rw [if_neg hid] at hjob
      exact h.engagement_kept hjob rfl rfl rfl hx
  · refine LinkTallies.of_load_eq ?_ hjobs
    have htallies : LinkTallies (getOrCreateAgenticCommerce D s).2.agents
        (getOrCreateAgenticCommerce D s).2.engagements (getOrCreateAgenticCommerce D s).2.jobs := by
      rw [hagents, hengagements, hstored]
      exact h.tallies
    have hlinked := htallies.link (D := D) (jobEntityId D jobId)
      (newJob D client provider budget) ?_ ?_ ?_
    · rw [hcore, hstored] at hlinked
      exact hlinked
    · intro _
      rw [ht]
      exact hapart
    · intro old hold
      rw [hstored, hfresh] at hold
      cases hold
    · exact fun _ => rfl

/-- A provider that is set. -/
theorem LinkInv.provided (h : LinkInv D s) {jobId : ℕ} {provider : Address}
    (hs : Steady D s (.providerSet jobId provider)) :
    LinkInv D (handle D s (.providerSet jobId provider)) := by
  rcases onJob_cases D jobId s (fun id job =>
    recordJobEvent id .providerSet none (saveJob id (linkWorkspaces D (setProvider provider job) s).1
      (linkWorkspaces D (setProvider provider job) s).2)) with heq | ⟨old, hold, heq⟩
  · have hsame : handle D s (.providerSet jobId provider) = s := heq
    rw [hsame]
    exact h
  have hcond := hs old hold
  have hhandle : handle D s (.providerSet jobId provider) = _ := heq
  have hjobs : (handle D s (.providerSet jobId provider)).jobs.load =
      (s.jobs.save (jobEntityId D jobId) (s.core.link D (setProvider provider old))).load := by
    rw [jobs_handle]
    show (s.core.onJob D jobId _).jobs = _
    rw [core_onJob_jobs, Table.modify, hold]
  have hkeep : old.engagement ≠ none →
      (s.core.link D (setProvider provider old)).clientAgent = old.clientAgent ∧
        (s.core.link D (setProvider provider old)).providerAgent = old.providerAgent := by
    intro hne
    rw [if_neg hne] at hcond
    obtain ⟨x, hx⟩ := Option.ne_none_iff_exists'.mp hne
    obtain ⟨c, p, hc, hp, -, hca, -, -⟩ := h.engagement _ old x hold hx
    constructor
    · simp only [Core.link, setProvider, hc, Core.party, isSome_core_agents, hca, if_true]
      rfl
    · rw [← hcond, map_fst_resolve]
      simp [Core.link, setProvider, Core.party]
  refine ⟨agents_ids h.agents, engagements_known h.ends, ?_, ?_⟩
  · intro id job x hjob hx
    rw [hjobs, Table.load_save] at hjob
    by_cases hid : id = jobEntityId D jobId
    · rw [if_pos hid] at hjob
      obtain rfl := Option.some.inj hjob
      rcases link_engagement hx with hsome | ⟨c, p, hc, hp, heq', hca, hpa, hxs⟩
      · have hne : old.engagement ≠ none := fun hnone => by
          rw [show (setProvider provider old).engagement = old.engagement from rfl, hnone] at hsome
          cases hsome
        obtain ⟨hclient, hprovider⟩ := hkeep hne
        exact h.engagement_kept hold hclient hprovider (hx.trans hsome.symm) hx
      · refine ⟨c, p, hc, hp, heq', agents_kept c hca, agents_kept p hpa, ?_⟩
        rw [hhandle]
        exact hxs
    · rw [if_neg hid] at hjob
      exact h.engagement_kept hjob rfl rfl rfl hx
  · refine LinkTallies.of_load_eq ?_ hjobs
    have hlinked := h.tallies.link (D := D) (jobEntityId D jobId) (setProvider provider old) ?_ ?_ ?_
    · rw [hhandle]
      exact hlinked
    · intro hnone
      rw [if_pos (show old.engagement = none from hnone)] at hcond
      exact hcond
    · intro old' hold'
      rw [hold] at hold'
      obtain rfl := Option.some.inj hold'
      exact ⟨rfl, hkeep⟩
    · intro hnone
      rw [hold] at hnone
      cases hnone

/-- **A steady event keeps the links.** -/
theorem LinkInv.step (h : LinkInv D s) (hs : Steady D s e) : LinkInv D (handle D s e) := by
  have hjobs := jobs_handle D s e
  have hfresh := fresh_of_steady hs
  rcases jobs_cases D s e with ⟨jobId, client, provider, budget, rfl, -⟩ |
    ⟨jobId, provider, rfl, -⟩ | ⟨jobId, f, hupdate, hload⟩ | ⟨hcreated, hset, -, hload⟩
  · exact h.created hs
  · exact h.provided hs
  · have hlinks := links_jobUpdate hupdate
    have hcounters := h.tallies.counters hfresh
      (fun _ _ _ _ heq => by rw [heq] at hupdate; cases hupdate)
      (fun _ _ heq => by rw [heq] at hupdate; cases hupdate)
    rw [hload] at hjobs
    refine ⟨agents_ids h.agents, engagements_known h.ends, ?_, (hcounters.modify hlinks).of_load_eq hjobs⟩
    intro id job x hjob hx
    rw [hjobs, Table.load_modify] at hjob
    by_cases hid : id = jobEntityId D jobId
    · rw [if_pos hid] at hjob
      obtain ⟨old, hold, rfl⟩ := Option.map_eq_some_iff.mp hjob
      have hsame := hlinks old
      simp only [Job.links, Prod.mk.injEq] at hsame
      exact h.engagement_kept hold hsame.2.1 hsame.2.2.1 hsame.2.2.2 hx
    · rw [if_neg hid] at hjob
      exact h.engagement_kept hjob rfl rfl rfl hx
  · rw [hload] at hjobs
    refine ⟨agents_ids h.agents, engagements_known h.ends, ?_,
      (h.tallies.counters hfresh hcreated hset).of_load_eq hjobs⟩
    intro id job x hjob hx
    rw [hjobs] at hjob
    exact h.engagement_kept hjob rfl rfl rfl hx

/-- What the invariant says of the links. -/
theorem LinkInv.linked (h : LinkInv D s) : Linked D s := by
  constructor
  · intro id job e hjob he
    obtain ⟨c, p, hc, hp, heq, hca, hpa, hes⟩ := h.engagement id job e hjob he
    obtain ⟨x, hx⟩ := Option.isSome_iff_exists.mp hes
    obtain ⟨hxc, hxp, hxe⟩ := h.ends e x hx
    obtain ⟨m, hm⟩ := h.agents c hca
    obtain ⟨n, hn⟩ := h.agents p hpa
    obtain ⟨m', hm'⟩ := h.agents x.client hxc
    obtain ⟨n', hn'⟩ := h.agents x.provider hxp
    have hinj := heq.symm.trans hxe
    rw [hm, hn, hm', hn'] at hinj
    obtain ⟨rfl, rfl⟩ := engagementId_inj hinj
    exact ⟨c, p, x, hc, hp, heq, hx, hm'.trans hm.symm, hn'.trans hn.symm⟩
  · exact fun e x hx => h.tallies.jobCount.eq_count hx
  · intro id a ha
    rw [h.tallies.asClient.eq_count ha]
    refine congrArg s.jobs.count (funext fun k => funext fun job => ?_)
    unfold clientKey
    cases job.engagement with
    | none => rfl
    | some e => rfl
  · intro id a ha
    rw [h.tallies.asProvider.eq_count ha]
    refine congrArg s.jobs.count (funext fun k => funext fun job => ?_)
    unfold providerKey
    cases job.engagement with
    | none => rfl
    | some e => rfl

/-- **The links agree** after every run of steady events. -/
theorem linked_of_steady {history : List (Call (Store W) Event)}
    (hr : Run (indexStep D) Store.empty history s)
    (hs : ∀ c ∈ history, Steady D c.pre c.act) : Linked D s := by
  suffices h : LinkInv D s from h.linked
  induction hr with
  | nil => exact LinkInv.init
  | @snoc history s s' e hr hstep ih =>
    have hprev := ih (fun c hc => hs c (List.mem_append_left _ hc))
    have hsteady : Steady D s e := hs ⟨s, e, s'⟩ (by simp)
    obtain rfl := Option.some.inj hstep
    exact hprev.step hsteady

/-! ### Where the links come apart -/

/-- A wallet as a metadata value. -/
def walletBytes (n : UInt8) : Bytes := List.replicate 19 0 ++ [n]

/-- Three agents with a wallet each. -/
def threeAgents : List Event :=
  [.registered 1 "" 10, .registered 2 "" 20, .registered 3 "" 30,
    .metadataSet 1 "agentWallet" (walletBytes 1), .metadataSet 2 "agentWallet" (walletBytes 2),
    .metadataSet 3 "agentWallet" (walletBytes 3)]

/-- The provider of a linked job is set again. -/
def againEvents : List Event := threeAgents ++ [.jobCreated 5 1 2 none, .providerSet 5 3]

/-- An agent is its own provider. -/
def selfEvents : List Event :=
  [.registered 1 "" 10, .metadataSet 1 "agentWallet" (walletBytes 1), .jobCreated 5 1 1 none]

/-- The job has the agents `1` and `3` and the engagement of `1` and `2`; and an agent that
hires itself has no job as client. -/
theorem not_linked_again :
    (∃ history s, Run (indexStep arcTestnet) Store.empty history s ∧
      history.map Call.act = againEvents ∧ ¬ Linked arcTestnet s) ∧
    ∃ history s, Run (indexStep arcTestnet) Store.empty history s ∧
      history.map Call.act = selfEvents ∧ ¬ Linked arcTestnet s := by
  have hfacts :
      ((attempts (indexStep arcTestnet) Store.empty againEvents).map Call.act = againEvents ∧
        ((afterAttempts (indexStep arcTestnet) Store.empty againEvents).jobs.load
          (jobEntityId arcTestnet 5)).map (fun job => (job.providerAgent, job.engagement)) =
          some (some (agentEntityId arcTestnet 3), some (engagementId arcTestnet
            (agentEntityId arcTestnet 1) (agentEntityId arcTestnet 2))) ∧
        ((afterAttempts (indexStep arcTestnet) Store.empty againEvents).engagements.load
          (engagementId arcTestnet (agentEntityId arcTestnet 1) (agentEntityId arcTestnet 2))).map
          Engagement.provider = some (agentEntityId arcTestnet 2)) ∧
      (attempts (indexStep arcTestnet) Store.empty selfEvents).map Call.act = selfEvents ∧
      ((afterAttempts (indexStep arcTestnet) Store.empty selfEvents).agents.load
        (agentEntityId arcTestnet 1)).map Agent.jobsAsClient = some 0 ∧
      (afterAttempts (indexStep arcTestnet) Store.empty selfEvents).jobs.count (fun _ job =>
        job.engagement.isSome &&
          decide (job.clientAgent = some (agentEntityId arcTestnet 1))) = 1 := by
    decide +kernel
  obtain ⟨⟨hacts, hjob, hends⟩, hacts', hagent, hcount⟩ := hfacts
  refine ⟨⟨_, _, Run.of_attempts _ _ _, hacts, ?_⟩, ⟨_, _, Run.of_attempts _ _ _, hacts', ?_⟩⟩
  · intro h
    obtain ⟨job, hload, heq⟩ := Option.map_eq_some_iff.mp hjob
    obtain ⟨hprovider, hengagement⟩ := Prod.mk.inj heq
    obtain ⟨c, p, x, -, hp, -, hx, -, hxp⟩ := h.engagement _ job _ hload hengagement
    rw [hprovider] at hp
    rw [hx, Option.map_some, hxp, ← hp] at hends
    have hagents := agentEntityId_inj (Option.some.inj hends)
    omega
  · intro h
    obtain ⟨a, ha, hzero⟩ := Option.map_eq_some_iff.mp hagent
    have hone := h.asClient _ a ha
    rw [hcount, hzero] at hone
    cases hone

/-- The provider of a job is set while its agent has no wallet yet, and then again. -/
def steadyEvents : List Event :=
  [.registered 1 "" 10, .registered 2 "" 20, .metadataSet 1 "agentWallet" (walletBytes 1),
    .jobCreated 5 1 2 none, .metadataSet 2 "agentWallet" (walletBytes 2), .providerSet 5 2]

theorem linked_of_steady_late :
    ∃ history s, Run (indexStep arcTestnet) Store.empty history s ∧
      history.map Call.act = steadyEvents ∧
      ((s.jobs.load (jobEntityId arcTestnet 5)).bind Job.engagement).isSome ∧
      Linked arcTestnet s := by
  have hr := Run.of_attempts (indexStep arcTestnet) Store.empty steadyEvents
  have hfacts : (attempts (indexStep arcTestnet) Store.empty steadyEvents).map Call.act =
        steadyEvents ∧
      (∀ c ∈ attempts (indexStep arcTestnet) Store.empty steadyEvents,
        Steady arcTestnet c.pre c.act) ∧
      (((afterAttempts (indexStep arcTestnet) Store.empty steadyEvents).jobs.load
        (jobEntityId arcTestnet 5)).bind Job.engagement).isSome := by
    decide +kernel
  obtain ⟨hacts, hsteady, hlinked⟩ := hfacts
  exact ⟨_, _, hr, hacts, hlinked, linked_of_steady hr hsteady⟩

end Bufi.Subgraph
