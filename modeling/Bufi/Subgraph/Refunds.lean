import Bufi.Subgraph.Exchange

/-!
# Refunds

A refund is recorded apart from settlements: every `Refunded` event leaves a record, adds
to the amount of its job and to the volumes of the escrow, of the client and of the
engagement.  Here is what an event does to the records (`refundsOf_handle`), and that the
volumes are sums over the jobs as long as a job with a refund keeps its client and its
engagement (`RefundTallies.step`).
-/

namespace Bufi.Subgraph

open Bufi.Evm Bufi.Index

variable {W : Type}

/-! ### The records -/

/-- The amounts of the refunds of a job. -/
def refundsOf (s : Store W) (id : Id) : List ℤ :=
  s.jobEvents.filterMap (fun ev => if ev.job = id ∧ ev.kind = .refunded then ev.amount else none)

variable {D : Deployment W} {s s' : Store W} {e : Event}

theorem refundsOf_of_eq (h : s'.jobEvents = s.jobEvents) (id : Id) :
    refundsOf s' id = refundsOf s id := by
  rw [refundsOf, refundsOf, h]

/-- A record of another kind. -/
theorem refundsOf_record (job : Id) (kind : JobEventKind) (amount : Option ℤ)
    (h : s'.jobEvents = s.jobEvents ++ [⟨job, kind, amount⟩]) (hkind : kind ≠ .refunded) (id : Id) :
    refundsOf s' id = refundsOf s id := by
  rw [refundsOf, refundsOf, h, List.filterMap_append]
  simp [hkind]

/-- What an event adds to the refunds of a job. -/
def refundBy (D : Deployment W) (s : Store W) (id : Id) : Event → List ℤ
  | .refunded jobId amount =>
    if id = jobEntityId D jobId ∧ (s.jobs.load id).isSome then [(amount : ℤ)] else []
  | _ => []

variable [DecidableEq W]

theorem jobEvents_linkWorkspaces (job : Job W) :
    (linkWorkspaces D job s).2.jobEvents = s.jobEvents := by
  obtain ⟨-, ⟨c, p, ca, pa, -, -, -, -, hs⟩ | ⟨hs, -⟩⟩ := linkWorkspaces_cases D (s := s) job
  · rw [hs]
  · rw [hs]

theorem jobEvents_markSettledIfPaid (id : Id) (job : Job W) :
    (markSettledIfPaid id job s).2.jobEvents = s.jobEvents := by
  unfold markSettledIfPaid
  by_cases hs : settles job
  · obtain ⟨points, heq⟩ := countSettlement_eq id job s
    rw [if_pos hs, heq]
  · rw [if_neg hs]

omit [DecidableEq W] in
theorem refundsOf_updateJob (jobId : ℕ) {kind : JobEventKind} (hkind : kind ≠ .refunded)
    (amount : Option ℤ) (f : Job W → Job W) (id : Id) :
    refundsOf (updateJob D jobId kind amount f s) id = refundsOf s id := by
  rcases onJob_cases D jobId s (fun id job => recordJobEvent id kind amount (saveJob id (f job) s))
    with heq | ⟨job, -, heq⟩
  · exact refundsOf_of_eq (congrArg Store.jobEvents heq) id
  · exact refundsOf_record _ _ _ (congrArg Store.jobEvents heq) hkind id

theorem refundsOf_refunded (jobId amount : ℕ) (id : Id) :
    refundsOf (handle D s (.refunded jobId amount)) id =
      refundsOf s id ++ refundBy D s id (.refunded jobId amount) := by
  rw [handle, handleRefunded, onJob]
  cases hjob : s.jobs.load (jobEntityId D jobId) with
  | none =>
    rw [refundBy]
    by_cases hid : id = jobEntityId D jobId
    · rw [if_neg (fun hand => by rw [hid, hjob] at hand; cases hand.2), List.append_nil]
    · rw [if_neg (fun hand => hid hand.1), List.append_nil]
  | some job =>
    obtain ⟨points, hrefund⟩ := recordRefund_eq (addRefund amount job) amount
      (saveJob (jobEntityId D jobId) (addRefund amount job) s)
    simp only [hrefund]
    show (s.jobEvents ++ [_]).filterMap _ = _
    rw [List.filterMap_append, refundBy]
    refine congrArg (fun l => refundsOf s id ++ l) ?_
    by_cases hid : id = jobEntityId D jobId
    · rw [hid, hjob]
      simp
    · rw [if_neg (fun hand => hid hand.1)]
      simp [Ne.symm hid]

theorem refundsOf_other (he : ∀ jobId amount, e ≠ .refunded jobId amount) (id : Id) :
    refundsOf (handle D s e) id = refundsOf s id := by
  cases e with
  | refunded jobId amount => exact absurd rfl (he _ _)
  | jobCreated jobId client provider budget =>
    refine refundsOf_record (jobEntityId D jobId) .created none ?_ (by decide) id
    obtain ⟨t, ht⟩ := getOrCreateAgenticCommerce_eq D s
    have hevents : (getOrCreateAgenticCommerce D s).2.jobEvents = s.jobEvents := by rw [ht]
    exact congrArg (· ++ _) ((jobEvents_linkWorkspaces _).trans hevents)
  | providerSet jobId provider =>
    rcases onJob_cases D jobId s _ with heq | ⟨job, -, heq⟩
    · rw [handle, handleProviderSet, heq]
    · rw [handle, handleProviderSet, heq]
      refine refundsOf_record (jobEntityId D jobId) .providerSet none ?_ (by decide) id
      exact congrArg (· ++ _) (jobEvents_linkWorkspaces _)
  | jobCompleted jobId =>
    rcases onJob_cases D jobId s _ with heq | ⟨job, -, heq⟩
    · rw [handle, handleJobCompleted, heq]
    · rw [handle, handleJobCompleted, heq]
      refine refundsOf_record (jobEntityId D jobId) .completed none ?_ (by decide) id
      exact congrArg (· ++ _) (jobEvents_markSettledIfPaid _ _)
  | paymentReleased jobId amount =>
    rcases onJob_cases D jobId s _ with heq | ⟨job, -, heq⟩
    · rw [handle, handlePaymentReleased, heq]
    · rw [handle, handlePaymentReleased, heq]
      refine refundsOf_record (jobEntityId D jobId) .paymentReleased (some amount) ?_
        (by decide) id
      exact congrArg (· ++ _) (jobEvents_markSettledIfPaid _ _)
  | budgetSet jobId _ | jobFunded jobId _ | jobSubmitted jobId | jobRejected jobId
  | jobExpired jobId | evaluatorFeePaid jobId _ =>
    exact refundsOf_updateJob jobId (by decide) _ _ id
  | registered _ _ _ | uriUpdated _ _ => rfl
  | metadataSet agentId key value =>
    obtain ⟨bindings, heq⟩ := handleMetadataSet_eq (D := D) (s := s) agentId key value
    rw [handle, heq]
    rfl
  | transfer sender receiver tokenId =>
    obtain ⟨registries, bindings, heq⟩ := handleTransfer_eq (D := D) (s := s) sender receiver tokenId
    rw [handle, heq]
    rfl
  | hookWhitelistUpdated | upgraded _ =>
    obtain ⟨t, ht⟩ := getOrCreateAgenticCommerce_eq D s
    refine refundsOf_of_eq ?_ id
    show (getOrCreateAgenticCommerce D s).2.jobEvents = _
    rw [ht]
  | newFeedback p =>
    cases ha : s.agents.load (agentEntityId D p.agentId) with
    | none => rw [handle, handleNewFeedback_of_none ha]
    | some a =>
      rw [handle, handleNewFeedback_of_some ha]
      rfl
  | feedbackRevoked agentId client index =>
    cases hknown : knownFeedback D agentId client index s with
    | none => rw [handle, handleFeedbackRevoked_of_none hknown]
    | some x =>
      obtain ⟨r, a, f⟩ := x
      rw [handle, handleFeedbackRevoked_of_known hknown]
      rfl
  | responseAppended agentId client index =>
    cases hknown : knownFeedback D agentId client index s with
    | none => rw [handle, handleResponseAppended_of_none hknown]
    | some x =>
      rw [handle, handleResponseAppended_of_known hknown]
      rfl

/-- **The refunds of a job** after an event. -/
theorem refundsOf_handle (id : Id) :
    refundsOf (handle D s e) id = refundsOf s id ++ refundBy D s id e := by
  by_cases he : ∃ jobId amount, e = .refunded jobId amount
  · obtain ⟨jobId, amount, rfl⟩ := he
    exact refundsOf_refunded jobId amount id
  · have hby : refundBy D s id e = [] := by
      cases e with
      | refunded jobId amount => exact absurd ⟨jobId, amount, rfl⟩ he
      | _ => rfl
    rw [hby, List.append_nil, refundsOf_other (fun jobId amount heq => he ⟨jobId, amount, heq⟩)]

/-! ### The volumes -/

def refund (_ : Id) (job : Job W) : ℤ := job.refundedAmount

/-- The volumes are tallies of what has been refunded. -/
structure RefundTallies (commerces : Table Id AgenticCommerce) (agents : Table Id Agent)
    (engagements : Table W Engagement) (jobs : Table Id (Job W)) : Prop where
  commerce : Tally commerces AgenticCommerce.refundedVolume jobs
    (fun _ job => some job.agenticCommerce) refund
  client : Tally agents Agent.refundedVolumeAsClient jobs (fun _ job => job.clientAgent) refund
  engagement : Tally engagements Engagement.refundedVolume jobs (fun _ job => job.engagement) refund

/-- The volumes of refunds are those of `Refunded` alone. -/
theorem RefundTallies.counters
    (h : RefundTallies s.agenticCommerces s.agents s.engagements s.jobs) (hfresh : Fresh D s e)
    (he : ∀ jobId amount, e ≠ .refunded jobId amount) :
    RefundTallies (handle D s e).agenticCommerces (handle D s e).agents (handle D s e).engagements
      s.jobs := by
  have hagent : AgentFrame Agent.refundedVolumeAsClient e := by
    cases e with
    | refunded jobId amount => exact absurd rfl (he _ _)
    | _ => simp [AgentFrame, newAgent]
  have hengagement : EngagementFrame Engagement.refundedVolume e := by
    cases e with
    | refunded jobId amount => exact absurd rfl (he _ _)
    | _ => simp [EngagementFrame, newEngagement]
  have hcommerce : CommerceFrame AgenticCommerce.refundedVolume e := by
    cases e with
    | refunded jobId amount => exact absurd rfl (he _ _)
    | _ => simp [CommerceFrame, newAgenticCommerce]
  exact ⟨h.commerce.of_value_eq (commerces_value hcommerce),
    h.client.of_value_eq (agents_value hfresh.agent hagent),
    h.engagement.of_value_eq (engagements_value hengagement)⟩

section Save

variable {γ χ : Type} [DecidableEq γ] {counters : Table γ χ} {get : χ → ℤ} {jobs : Table Id (Job W)}
  {link : Job W → Option γ} {id : Id} {old job : Job W}

omit [DecidableEq W] in
/-- The job is refunded, and the counter of its link changes by as much. -/
theorem Tally.refund (h : Tally counters get jobs (fun _ => link) Subgraph.refund) {φ : χ → χ}
    {δ : ℤ} (hφ : ∀ x, get (φ x) = get x + δ) (hold : jobs.load id = some old)
    (hlink : link job = link old) (hamount : job.refundedAmount = old.refundedAmount + δ)
    (hknown : ∀ g, link old = some g → (counters.load g).isSome) :
    Tally (counters.modifyAt (link job) φ) get (jobs.save id job) (fun _ => link)
      Subgraph.refund := by
  refine h.save ?_
  intro g
  rw [Table.value_modifyAt hφ, Table.value_of_load hold, share, share, hlink]
  by_cases hg : link old = some g
  · rw [if_pos hg, if_pos hg, if_pos ⟨hg, hknown g hg⟩, Subgraph.refund, Subgraph.refund, hamount]
    ring
  · rw [if_neg hg, if_neg hg, if_neg (fun hand => hg hand.1), sub_zero]

omit [DecidableEq W] in
/-- The job is saved with the amount it had, and with its link if that is not zero. -/
theorem Tally.unrefunded (h : Tally counters get jobs (fun _ => link) Subgraph.refund)
    (hold : jobs.load id = some old) (hamount : job.refundedAmount = old.refundedAmount)
    (hlink : old.refundedAmount ≠ 0 → link job = link old) :
    Tally counters get (jobs.save id job) (fun _ => link) Subgraph.refund := by
  by_cases hzero : old.refundedAmount = 0
  · refine h.save ?_
    intro g
    rw [Table.value_of_load hold, share, share, Subgraph.refund, Subgraph.refund, hamount, hzero,
      ite_self, ite_self, sub_zero, add_zero]
  · exact h.save_same hold (hlink hzero) hamount

omit [DecidableEq W] in
/-- A job that is new has no refund. -/
theorem Tally.unrefunded_new (h : Tally counters get jobs (fun _ => link) Subgraph.refund)
    (hnew : jobs.load id = none) (hamount : job.refundedAmount = 0) :
    Tally counters get (jobs.save id job) (fun _ => link) Subgraph.refund := by
  refine h.save ?_
  intro g
  rw [Table.value_of_none hnew, share, Subgraph.refund, hamount, ite_self, sub_zero, add_zero]

end Save

theorem RefundTallies.of_load_eq {commerces : Table Id AgenticCommerce} {agents : Table Id Agent}
    {engagements : Table W Engagement} {jobs jobs' : Table Id (Job W)}
    (h : RefundTallies commerces agents engagements jobs) (hjobs : jobs'.load = jobs.load) :
    RefundTallies commerces agents engagements jobs' :=
  ⟨h.commerce.of_load_eq hjobs, h.client.of_load_eq hjobs, h.engagement.of_load_eq hjobs⟩

/-- The client and the engagement of a job stay as they are when a provider is set. -/
def KeepsClient (s : Store W) (job : Job W) (provider : Address) : Prop :=
  (job.clientAgent = none → resolveAgentByWallet s job.client = none) ∧
    (job.engagement = none → job.clientAgent = none ∨ resolveAgentByWallet s provider = none)

omit [DecidableEq W] in
/-- The client of a job that is linked again. -/
theorem party_client (href : Referred D s) {id : Id} {job : Job W}
    (hjob : s.jobs.load id = some job)
    (h : job.clientAgent = none → resolveAgentByWallet s job.client = none) :
    s.core.party job.clientAgent job.client = job.clientAgent := by
  cases hc : job.clientAgent with
  | none =>
    show s.core.resolve job.client = none
    rw [← map_fst_resolve, h hc]
    rfl
  | some c =>
    have hknown := href.client id job c hjob hc
    simp only [Core.party, isSome_core_agents, hknown, if_true]

omit [DecidableEq W] in
theorem link_of_keepsClient (href : Referred D s) {id : Id} {job : Job W}
    (hjob : s.jobs.load id = some job) {provider : Address} (h : KeepsClient s job provider) :
    (s.core.link D (setProvider provider job)).clientAgent = job.clientAgent ∧
      (s.core.link D (setProvider provider job)).engagement = job.engagement := by
  have hparty := party_client href hjob h.1
  constructor
  · show (s.core.party job.clientAgent job.client).or job.clientAgent = job.clientAgent
    rw [hparty]
    cases job.clientAgent with
    | none => rfl
    | some c => rfl
  · cases he : job.engagement with
    | some x => simp only [Core.link, setProvider, he]
    | none =>
      have hresolve : (some provider).bind (s.core.party none) = s.core.resolve provider := rfl
      rcases h.2 he with hnone | hnone
      · rw [hnone] at hparty
        simp only [Core.link, setProvider, he, hparty, hnone]
      · rw [← map_fst_resolve] at hresolve
        simp only [Core.link, setProvider, he, hparty, hresolve, hnone]
        cases job.clientAgent with
        | none => rfl
        | some c => rfl

/-- **The volumes are kept** if a job with a refund keeps its client and engagement. -/
theorem RefundTallies.step (h : RefundTallies s.agenticCommerces s.agents s.engagements s.jobs)
    (href : Referred D s) (hfresh : Fresh D s e)
    (hset : ∀ jobId provider, e = .providerSet jobId provider →
      ∀ job ∈ s.jobs.load (jobEntityId D jobId), job.refundedAmount ≠ 0 →
        KeepsClient s job provider) :
    RefundTallies (handle D s e).agenticCommerces (handle D s e).agents (handle D s e).engagements
      (handle D s e).jobs := by
  by_cases hrefunded : ∃ jobId amount, e = .refunded jobId amount
  · obtain ⟨jobId, amount, rfl⟩ := hrefunded
    rw [handle, handleRefunded, onJob]
    cases hold : s.jobs.load (jobEntityId D jobId) with
    | none => exact h
    | some old =>
      obtain ⟨points, heq⟩ := recordRefund_eq (addRefund amount old) amount
        (saveJob (jobEntityId D jobId) (addRefund amount old) s)
      simp only [heq]
      constructor
      · refine Tally.refund (φ := AgenticCommerce.addRefunded amount) h.commerce (fun _ => rfl) hold
          rfl rfl ?_
        intro g hg
        obtain ⟨hid, hknown⟩ := href.commerce _ old hold
        rw [← Option.some.inj hg, hid]
        exact hknown
      · exact Tally.refund (φ := Agent.addRefundedAsClient amount) h.client (fun _ => rfl) hold
          rfl rfl (fun g hg => href.client _ old g hold hg)
      · exact Tally.refund (φ := Engagement.addRefunded amount) h.engagement (fun _ => rfl) hold
          rfl rfl (fun g hg => href.engagement _ old g hold hg)
  have hcounters := h.counters hfresh (fun jobId amount heq => hrefunded ⟨jobId, amount, heq⟩)
  rcases jobs_cases D s e with ⟨jobId, client, provider, budget, rfl, hload⟩ |
    ⟨jobId, provider, rfl, hload⟩ | ⟨jobId, f, hupdate, hload⟩ | ⟨-, -, -, hload⟩
  · refine RefundTallies.of_load_eq ?_ ((jobs_handle D s _).trans hload)
    exact ⟨Tally.unrefunded_new hcounters.commerce hfresh rfl,
      Tally.unrefunded_new hcounters.client hfresh rfl,
      Tally.unrefunded_new hcounters.engagement hfresh rfl⟩
  · cases hold : s.jobs.load (jobEntityId D jobId) with
    | none =>
      rw [Table.modify, hold] at hload
      exact hcounters.of_load_eq ((jobs_handle D s _).trans hload)
    | some old =>
      rw [Table.modify, hold] at hload
      refine RefundTallies.of_load_eq ?_ ((jobs_handle D s _).trans hload)
      have hkeep : old.refundedAmount ≠ 0 → _ := fun hne =>
        link_of_keepsClient href hold (hset jobId provider rfl old hold hne)
      exact ⟨Tally.unrefunded hcounters.commerce hold rfl (fun _ => rfl),
        Tally.unrefunded hcounters.client hold rfl (fun hne => (hkeep hne).1),
        Tally.unrefunded hcounters.engagement hold rfl (fun hne => (hkeep hne).2)⟩
  · cases hold : s.jobs.load (jobEntityId D jobId) with
    | none =>
      rw [Table.modify, hold] at hload
      exact hcounters.of_load_eq ((jobs_handle D s _).trans hload)
    | some old =>
      have hlinks := links_jobUpdate hupdate old
      simp only [Job.links, Prod.mk.injEq] at hlinks
      have hamount : (f old).refundedAmount = old.refundedAmount := by
        cases e with
        | refunded jobId amount => exact absurd ⟨_, _, rfl⟩ hrefunded
        | budgetSet _ _ | jobFunded _ _ | jobSubmitted _ | jobRejected _ | jobExpired _
        | evaluatorFeePaid _ _ =>
          obtain ⟨-, rfl⟩ := Prod.mk.inj (Option.some.inj hupdate)
          rfl
        | jobCompleted _ | paymentReleased _ _ =>
          obtain ⟨-, rfl⟩ := Prod.mk.inj (Option.some.inj hupdate)
          show (markSettled _).refundedAmount = _
          rw [markSettled_eq]
          rfl
        | _ => cases hupdate
      refine RefundTallies.of_load_eq ?_ (jobs_load_update hupdate hold)
      exact ⟨Tally.unrefunded hcounters.commerce hold hamount (fun _ => congrArg some hlinks.1),
        Tally.unrefunded hcounters.client hold hamount (fun _ => hlinks.2.1),
        Tally.unrefunded hcounters.engagement hold hamount (fun _ => hlinks.2.2.2)⟩
  · exact hcounters.of_load_eq ((jobs_handle D s e).trans hload)

end Bufi.Subgraph
