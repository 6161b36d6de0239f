import Bufi.Subgraph.Refunds
import Bufi.Subgraph.Feedback

/-!
# Settlements without a refund

A settlement is a latch: two handlers can set it, and none releases it.  A job that has been
refunded is never to be one (`markSettledIfPaid`), but the latch looks at the status and the
payment of the job only, and the handlers of a refund and of the other states do not look at
the latch.  `Regular` is that the two never meet: a job with a refund is not settled, and a
settled job is not refunded, rejected or expired.  Then no counter of settlements has a
refunded job in it, and the evidence of a verified feedback is settled work of the rater
(`refundsApart_of_regular`).
-/

namespace Bufi.Subgraph

open Bufi.Evm Bufi.Index

variable {W : Type} [DecidableEq W] (D : Deployment W)

/-! ### The property -/

/-- The refunds of a job in a history. -/
def refundsIn (history : List (Call (Store W) Event)) (id : Id) : List ℤ :=
  history.flatMap (fun c => refundBy D c.pre id c.act)

/-- What a job had been paid when the call made it a settlement. -/
def settledBy (id : Id) (c : Call (Store W) Event) : ℤ :=
  match c.pre.jobs.load id, c.post.jobs.load id with
  | some old, some job =>
    if old.settled = false ∧ job.settled = true then job.providerPayment else 0
  | _, _ => 0

def settledFor (history : List (Call (Store W) Event)) (id : Id) : ℤ :=
  (history.map (settledBy id)).sum

/-- The settled jobs with a link that have no refund. -/
def isUnrefunded {γ : Type} [DecidableEq γ] (history : List (Call (Store W) Event))
    (link : Job W → Option γ) (g : γ) (id : Id) (job : Job W) : Bool :=
  isSettled link g id job && decide (refundsIn D history id = [])

/-- Only jobs without a refund are counted. -/
def Counted {γ : Type} [DecidableEq γ] (history : List (Call (Store W) Event)) (s : Store W)
    (link : Job W → Option γ) (g : γ) (number volume : ℤ) : Prop :=
  number = s.jobs.count (isUnrefunded D history link g) ∧
    volume = s.jobs.sumOver (isUnrefunded D history link g) (fun id _ => settledFor history id)

/-- The volume is what has been refunded of the jobs with a link. -/
def Refunded {γ : Type} [DecidableEq γ] (history : List (Call (Store W) Event)) (s : Store W)
    (link : Job W → Option γ) (g : γ) (volume : ℤ) : Prop :=
  volume = s.jobs.sumOver (fun _ job => decide (link job = some g))
    (fun id _ => (refundsIn D history id).sum)

/-- Settled work of a client and a provider. -/
def SettledWork (s : Store W) (client provider id : Id) : Prop :=
  ∃ job, s.jobs.load id = some job ∧ job.settled = true ∧ job.clientAgent = some client ∧
    job.providerAgent = some provider

/-- The feedback was given when the agent behind its client had settled work with the rated
agent, which is its evidence. -/
def Evidenced (history : List (Call (Store W) Event)) (s : Store W) (id : Id) (f : Feedback) :
    Prop :=
  ∃ c ∈ history, ∃ p rater evidence, c.act = .newFeedback p ∧
    id = feedbackEntityId D p.agentId p.client p.feedbackIndex ∧
    (resolveAgentByWallet c.pre p.client).map Prod.fst = some rater ∧
    f.clientAgent = some rater ∧ f.agent = agentEntityId D p.agentId ∧
    f.evidence = some evidence ∧
    SettledWork c.pre rater f.agent evidence ∧ SettledWork s rater f.agent evidence

/-- Refunds and settlements are apart. -/
structure RefundsApart (history : List (Call (Store W) Event)) (s : Store W) : Prop where
  settled : ∀ id job, s.jobs.load id = some job → job.settled = true →
    job.status = .completed ∧ 0 < job.providerPayment ∧ job.refundedAmount = 0 ∧
      refundsIn D history id = []
  commerce : ∀ x, s.agenticCommerces.load (agenticCommerceEntityId D) = some x →
    Counted D history s (fun job => some job.agenticCommerce) (agenticCommerceEntityId D)
      x.settledJobCount x.settledVolume ∧
    Refunded D history s (fun job => some job.agenticCommerce) (agenticCommerceEntityId D)
      x.refundedVolume
  provider : ∀ id a, s.agents.load id = some a →
    Counted D history s Job.providerAgent id a.settledAsProvider a.settledVolumeAsProvider
  client : ∀ id a, s.agents.load id = some a →
    Counted D history s Job.clientAgent id a.settledAsClient a.settledVolumeAsClient ∧
    Refunded D history s Job.clientAgent id a.refundedVolumeAsClient
  engagement : ∀ e x, s.engagements.load e = some x →
    Counted D history s Job.engagement e x.settledJobCount x.settledVolume ∧
    Refunded D history s Job.engagement e x.refundedVolume
  verified : ∀ id f, s.feedbacks.load id = some f → f.verified = true → Evidenced D history s id f

/-- The events that keep refunds and settlements apart.  Ids are new; a job becomes a
settlement without a refund, and a settlement is not refunded and keeps its state; the
provider of a job that is engaged, settled or refunded is set to one of the same agent. -/
def Regular (s : Store W) : Event → Prop
  | .registered agentId _ _ => s.agents.load (agentEntityId D agentId) = none
  | .jobCreated jobId _ _ _ => s.jobs.load (jobEntityId D jobId) = none
  | .jobCompleted jobId => ∀ job ∈ s.jobs.load (jobEntityId D jobId),
      settles (setStatus .completed job) → refundsOf s (jobEntityId D jobId) = []
  | .paymentReleased jobId amount => ∀ job ∈ s.jobs.load (jobEntityId D jobId),
      settles (addPayment amount job) → refundsOf s (jobEntityId D jobId) = []
  | .jobFunded jobId _ | .jobSubmitted jobId | .jobRejected jobId | .jobExpired jobId
  | .refunded jobId _ => ∀ job ∈ s.jobs.load (jobEntityId D jobId), job.settled = false
  | .providerSet jobId provider => ∀ job ∈ s.jobs.load (jobEntityId D jobId),
      (job.engagement = none ∧ job.settled = false ∧ job.refundedAmount = 0) ∨
        KeepsLinks s job provider
  | _ => True

instance (s : Store W) : DecidablePred (Regular D s)
  | .registered _ _ _ => inferInstanceAs (Decidable (s.agents.load _ = none))
  | .jobCreated _ _ _ _ => inferInstanceAs (Decidable (s.jobs.load _ = none))
  | .jobCompleted jobId => inferInstanceAs (Decidable (∀ job ∈ s.jobs.load (jobEntityId D jobId),
      settles (setStatus .completed job) → refundsOf s (jobEntityId D jobId) = []))
  | .paymentReleased jobId amount =>
    inferInstanceAs (Decidable (∀ job ∈ s.jobs.load (jobEntityId D jobId),
      settles (addPayment amount job) → refundsOf s (jobEntityId D jobId) = []))
  | .jobFunded jobId _ | .jobSubmitted jobId | .jobRejected jobId | .jobExpired jobId
  | .refunded jobId _ => inferInstanceAs
      (Decidable (∀ job ∈ s.jobs.load (jobEntityId D jobId), job.settled = false))
  | .providerSet jobId provider =>
    inferInstanceAs (Decidable (∀ job ∈ s.jobs.load (jobEntityId D jobId),
      (job.engagement = none ∧ job.settled = false ∧ job.refundedAmount = 0) ∨
        KeepsLinks s job provider))
  | .metadataSet _ _ _ | .transfer _ _ _ | .uriUpdated _ _ | .budgetSet _ _
  | .evaluatorFeePaid _ _ | .hookWhitelistUpdated | .upgraded _ | .newFeedback _
  | .feedbackRevoked _ _ _ | .responseAppended _ _ _ => .isTrue trivial

/-! ### Histories -/

variable {D} {s : Store W} {e : Event} {history : List (Call (Store W) Event)}

omit [DecidableEq W] in
theorem settledFor_snoc (c : Call (Store W) Event) (id : Id) :
    settledFor (history ++ [c]) id = settledFor history id + settledBy id c := by
  rw [settledFor, settledFor, List.map_append, List.sum_append]
  exact congrArg (_ + ·) (add_zero _)

omit [DecidableEq W] in
theorem refundsIn_snoc (c : Call (Store W) Event) (id : Id) :
    refundsIn D (history ++ [c]) id = refundsIn D history id ++ refundBy D c.pre id c.act := by
  rw [refundsIn, refundsIn, List.flatMap_append]
  exact congrArg (_ ++ ·) (List.append_nil _)

/-- The records of a job are its refunds. -/
theorem refundsOf_eq (hr : Run (indexStep D) Store.empty history s) (id : Id) :
    refundsOf s id = refundsIn D history id := by
  induction hr with
  | nil => rfl
  | @snoc history s s' e _ hs ih =>
    obtain rfl := Option.some.inj hs
    rw [refundsOf_handle, refundsIn_snoc, ih]

omit [DecidableEq W] in
theorem settledBy_of_none {s' : Store W} {id : Id} (h : s.jobs.load id = none) :
    settledBy id ⟨s, e, s'⟩ = 0 := by
  rw [settledBy, h]

omit [DecidableEq W] in
theorem settledBy_of_some {s' : Store W} {id : Id} {old job : Job W}
    (hold : s.jobs.load id = some old) (hjob : s'.jobs.load id = some job) :
    settledBy id ⟨s, e, s'⟩ =
      if old.settled = false ∧ job.settled = true then job.providerPayment else 0 := by
  rw [settledBy, hold, hjob]

omit [DecidableEq W] in
/-- A job whose latch is not moved. -/
theorem settledBy_of_same {s' : Store W} {id : Id} {old job : Job W}
    (hold : s.jobs.load id = some old) (hjob : s'.jobs.load id = some job)
    (hsame : job.settled = old.settled) : settledBy id ⟨s, e, s'⟩ = 0 := by
  rw [settledBy_of_some hold hjob, hsame, if_neg]
  intro hand
  rw [hand.1] at hand
  cases hand.2

/-! ### The latch -/

section Latch

omit [DecidableEq W]

theorem status_markSettled (job : Job W) : (markSettled job).status = job.status := by
  rw [markSettled_eq]
  rfl

theorem refundedAmount_markSettled (job : Job W) :
    (markSettled job).refundedAmount = job.refundedAmount := by
  rw [markSettled_eq]
  rfl

theorem settled_markSettled {job : Job W} (h : (markSettled job).settled = true) :
    job.settled = true ∨ settles job := by
  by_cases hs : settles job
  · exact .inr hs
  · rw [markSettled, if_neg hs] at h
    exact .inl h

theorem latch_markSettled {job : Job W} (h : job.settled = true) :
    (markSettled job).settled = true := by
  rw [markSettled_eq, h]
  rfl

/-- A settled job stays settled. -/
theorem latch_jobUpdate {jobId : ℕ} {f : Job W → Job W} (h : jobUpdate e = some (jobId, f))
    {job : Job W} (hsettled : job.settled = true) : (f job).settled = true := by
  cases e with
  | budgetSet _ _ | jobFunded _ _ | jobSubmitted _ | jobRejected _ | jobExpired _
  | evaluatorFeePaid _ _ | refunded _ _ =>
    obtain ⟨-, rfl⟩ := Prod.mk.inj (Option.some.inj h)
    exact hsettled
  | jobCompleted _ =>
    obtain ⟨-, rfl⟩ := Prod.mk.inj (Option.some.inj h)
    exact latch_markSettled (show (setStatus .completed job).settled = true from hsettled)
  | paymentReleased _ amount =>
    obtain ⟨-, rfl⟩ := Prod.mk.inj (Option.some.inj h)
    exact latch_markSettled (show (addPayment amount job).settled = true from hsettled)
  | _ => cases h

end Latch

/-- What is known of a job with its refunds and with what it had been paid when it became a
settlement. -/
structure Row (refunds : List ℤ) (volume : ℤ) (job : Job W) : Prop where
  settled : job.settled = true → job.status = .completed ∧ refunds = []
  refunded : job.refundedAmount = refunds.sum
  volume : job.settled = false → volume = 0

omit [DecidableEq W] in
/-- **A regular update** keeps refunds and settlements apart. -/
theorem Row.update {refunds : List ℤ} {volume : ℤ} {old : Job W} (h : Row refunds volume old)
    (hreg : Regular D s e) {jobId : ℕ} {f : Job W → Job W} (hupdate : jobUpdate e = some (jobId, f))
    (hold : s.jobs.load (jobEntityId D jobId) = some old)
    (hrefunds : refunds = refundsOf s (jobEntityId D jobId)) :
    Row (refunds ++ refundBy D s (jobEntityId D jobId) e)
      (volume + if old.settled = false ∧ (f old).settled = true then (f old).providerPayment else 0)
      (f old) := by
  have hvolume : (f old).settled = false → volume + (if old.settled = false ∧ (f old).settled = true
      then (f old).providerPayment else 0) = 0 := by
    intro hnot
    have holdNot : old.settled = false := by
      cases hs : old.settled with
      | false => rfl
      | true =>
        rw [latch_jobUpdate hupdate hs] at hnot
        cases hnot
    rw [h.volume holdNot, if_neg (fun hand => by rw [hnot] at hand; cases hand.2), add_zero]
  refine ⟨?_, ?_, hvolume⟩
  · intro hset
    cases e with
    | budgetSet _ _ | evaluatorFeePaid _ _ =>
      obtain ⟨rfl, rfl⟩ := Prod.mk.inj (Option.some.inj hupdate)
      exact ⟨(h.settled hset).1, (List.append_nil _).trans (h.settled hset).2⟩
    | jobFunded _ _ | jobSubmitted _ | jobRejected _ | jobExpired _ | refunded _ _ =>
      obtain ⟨rfl, rfl⟩ := Prod.mk.inj (Option.some.inj hupdate)
      have hfalse : old.settled = false := hreg old hold
      rw [show old.settled = true from hset] at hfalse
      cases hfalse
    | jobCompleted _ =>
      obtain ⟨rfl, rfl⟩ := Prod.mk.inj (Option.some.inj hupdate)
      show (markSettled _).status = _ ∧ refunds ++ [] = []
      rw [List.append_nil, status_markSettled]
      refine ⟨rfl, ?_⟩
      rcases settled_markSettled hset with hs | hs
      · exact (h.settled hs).2
      · exact hrefunds.trans (hreg old hold hs)
    | paymentReleased _ _ =>
      obtain ⟨rfl, rfl⟩ := Prod.mk.inj (Option.some.inj hupdate)
      show (markSettled _).status = _ ∧ refunds ++ [] = []
      rw [List.append_nil, status_markSettled]
      rcases settled_markSettled hset with hs | hs
      · exact h.settled hs
      · exact ⟨hs.2.1, hrefunds.trans (hreg old hold hs)⟩
    | _ => cases hupdate
  · cases e with
    | budgetSet _ _ | evaluatorFeePaid _ _ | jobFunded _ _ | jobSubmitted _ | jobRejected _
    | jobExpired _ =>
      obtain ⟨rfl, rfl⟩ := Prod.mk.inj (Option.some.inj hupdate)
      show _ = (refunds ++ []).sum
      rw [List.append_nil]
      exact h.refunded
    | jobCompleted _ | paymentReleased _ _ =>
      obtain ⟨rfl, rfl⟩ := Prod.mk.inj (Option.some.inj hupdate)
      show (markSettled _).refundedAmount = (refunds ++ []).sum
      rw [List.append_nil, refundedAmount_markSettled]
      exact h.refunded
    | refunded _ amount =>
      obtain ⟨rfl, rfl⟩ := Prod.mk.inj (Option.some.inj hupdate)
      rw [refundBy, if_pos ⟨rfl, by rw [hold]; rfl⟩, List.sum_append]
      show old.refundedAmount + (amount : ℤ) = _
      rw [h.refunded]
      exact congrArg (_ + ·) (add_zero _).symm
    | _ => cases hupdate

/-! ### The invariant -/

omit [DecidableEq W] in
/-- A feedback with its evidence, wherever the history leads. -/
theorem Evidenced.mono {id : Id} {f f' : Feedback} {s' : Store W} {c : Call (Store W) Event}
    (h : Evidenced D history s id f) (hclient : f'.clientAgent = f.clientAgent)
    (hagent : f'.agent = f.agent) (hevidence : f'.evidence = f.evidence)
    (hwork : ∀ client provider id, SettledWork s client provider id →
      SettledWork s' client provider id) : Evidenced D (history ++ [c]) s' id f' := by
  obtain ⟨d, hd, p, rater, evidence, hact, hid, hrater, hc, ha, hev, hpre, hpost⟩ := h
  rw [← hagent] at ha hpre hpost
  exact ⟨d, List.mem_append_left _ hd, p, rater, evidence, hact, hid, hrater, hclient.trans hc, ha,
    hevidence.trans hev, hpre, hwork _ _ _ hpost⟩

/-- The last settled job of an engagement is one of its settled jobs, and there is one if any
has been counted. -/
def HasEvidence (s : Store W) (g : W) (x : Engagement) : Prop :=
  (x.settledJobCount ≠ 0 → x.lastSettledJob.isSome) ∧
    ∀ id, x.lastSettledJob = some id → ∃ job, s.jobs.load id = some job ∧ job.settled = true ∧
      job.engagement = some g

variable (D) in
/-- What is carried along a run. -/
structure RefundInv (history : List (Call (Store W) Event)) (s : Store W) : Prop where
  referred : Referred D s
  agents : ∀ id, (s.agents.load id).isSome → ∃ n, id = agentEntityId D n
  paid : PaidJobs s.jobs.load
  row : ∀ id job, s.jobs.load id = some job → Row (refundsOf s id) (settledFor history id) job
  unknown : ∀ id, s.jobs.load id = none → refundsOf s id = [] ∧ settledFor history id = 0
  owned : ∀ id job x, s.jobs.load id = some job → job.engagement = some x →
    ∃ c p, job.clientAgent = some c ∧ job.providerAgent = some p ∧ x = engagementId D c p
  tallies : SettleTallies (fun id _ => settledFor history id) s.agenticCommerces s.agents
    s.engagements s.jobs
  refunds : RefundTallies s.agenticCommerces s.agents s.engagements s.jobs
  evidence : ∀ g x, s.engagements.load g = some x → HasEvidence s g x
  verified : ∀ id f, s.feedbacks.load id = some f → f.verified = true → Evidenced D history s id f

theorem RefundInv.init : RefundInv D [] (Store.empty : Store W) where
  referred := Referred.init
  agents id h := by cases h
  paid id job h := by cases h
  row id job h := by cases h
  unknown id _ := ⟨rfl, rfl⟩
  owned id job x h := by cases h
  tallies := ⟨tally_empty, tally_empty, tally_empty, tally_empty, tally_empty, tally_empty,
    tally_empty, tally_empty⟩
  refunds := ⟨tally_empty, tally_empty, tally_empty⟩
  evidence g x h := by cases h
  verified id f h := by cases h

/-! ### Jobs -/

omit [DecidableEq W] in
theorem fresh_of_regular (h : Regular D s e) : Fresh D s e := by
  cases e with
  | registered agentId agentURI owner => exact h
  | jobCreated jobId client provider budget => exact h
  | _ => trivial

omit [DecidableEq W] in
theorem keepsClient_of_keepsLinks {job : Job W} {provider : Address}
    (h : KeepsLinks s job provider) : KeepsClient s job provider := by
  refine ⟨h.2.1, fun hnone => ?_⟩
  rcases h.2.2 hnone with hc | hp
  · exact .inl hc
  · have hresolve := h.1
    rw [hp] at hresolve
    exact .inr (Option.map_eq_none_iff.mp hresolve)

/-- **A settled job stays settled**, with its links. -/
theorem settled_kept (href : Referred D s) (hreg : Regular D s e) {id : Id} {old : Job W}
    (hold : s.jobs.load id = some old) (hsettled : old.settled = true) :
    ∃ job, (handle D s e).jobs.load id = some job ∧ job.settled = true ∧ job.links = old.links := by
  obtain ⟨job, hjob⟩ := Option.isSome_iff_exists.mp (job_kept (D := D) (by rw [hold]; rfl) e)
  refine ⟨job, hjob, ?_⟩
  rcases row_cases hjob with ⟨hsame, -⟩ | ⟨jobId, client, provider, budget, rfl, rfl, -⟩ |
    ⟨jobId, provider, old', rfl, rfl, hold', rfl⟩ | ⟨jobId, f, old', hupdate, rfl, hold', rfl⟩
  · rw [hold] at hsame
    obtain rfl := Option.some.inj hsame
    exact ⟨hsettled, rfl⟩
  · have hnone : s.jobs.load (jobEntityId D jobId) = none := hreg
    rw [hold] at hnone
    cases hnone
  · rw [hold] at hold'
    obtain rfl := Option.some.inj hold'
    refine ⟨hsettled, ?_⟩
    rcases hreg old hold with ⟨-, hnot, -⟩ | hkeep
    · rw [hsettled] at hnot
      cases hnot
    · exact links_of_keepsLinks href hold hkeep
  · rw [hold] at hold'
    obtain rfl := Option.some.inj hold'
    exact ⟨latch_jobUpdate hupdate hsettled, links_jobUpdate hupdate old⟩

theorem settledWork_kept (href : Referred D s) (hreg : Regular D s e) {client provider id : Id}
    (h : SettledWork s client provider id) : SettledWork (handle D s e) client provider id := by
  obtain ⟨old, hold, hsettled, hc, hp⟩ := h
  obtain ⟨job, hjob, hset, hlinks⟩ := settled_kept href hreg hold hsettled
  simp only [Job.links, Prod.mk.injEq] at hlinks
  exact ⟨job, hjob, hset, hlinks.2.1.trans hc, hlinks.2.2.1.trans hp⟩

/-- The rows after a regular event. -/
theorem RefundInv.row_step (h : RefundInv D history s) (hreg : Regular D s e) {id : Id}
    {job : Job W} (hjob : (handle D s e).jobs.load id = some job) :
    Row (refundsOf (handle D s e) id) (settledFor (history ++ [⟨s, e, handle D s e⟩]) id) job := by
  rw [refundsOf_handle, settledFor_snoc]
  rcases row_cases hjob with ⟨hsame, hnot⟩ | ⟨jobId, client, provider, budget, rfl, rfl, rfl⟩ |
    ⟨jobId, provider, old, rfl, rfl, hold, rfl⟩ | ⟨jobId, f, old, hupdate, rfl, hold, rfl⟩
  · have hby : refundBy D s id e = [] := by
      cases e with
      | refunded jobId amount => exact if_neg (fun hand => hnot _ _ rfl hand.1)
      | _ => rfl
    rw [hby, List.append_nil, settledBy_of_same hsame hjob rfl, add_zero]
    exact h.row id job hsame
  · obtain ⟨hrefunds, hvolume⟩ := h.unknown _ hreg
    rw [hrefunds, hvolume, settledBy_of_none hreg]
    exact ⟨fun hset => (by cases hset), rfl, fun _ => rfl⟩
  · have hset : (s.core.link D (setProvider provider old)).settled = old.settled := rfl
    rw [settledBy_of_same hold hjob hset, add_zero]
    show Row (refundsOf s _ ++ []) _ _
    rw [List.append_nil]
    obtain ⟨hsettled, hrefunded, hvolume⟩ := h.row _ old hold
    exact ⟨hsettled, hrefunded, hvolume⟩
  · rw [settledBy_of_some hold hjob]
    exact (h.row _ old hold).update hreg hupdate hold rfl

/-- A job that is unknown after an event was unknown before it. -/
theorem RefundInv.unknown_step (h : RefundInv D history s) {id : Id}
    (hnone : (handle D s e).jobs.load id = none) :
    refundsOf (handle D s e) id = [] ∧
      settledFor (history ++ [⟨s, e, handle D s e⟩]) id = 0 := by
  have hold : s.jobs.load id = none := by
    cases hload : s.jobs.load id with
    | none => rfl
    | some job =>
      have hsome : (s.jobs.load id).isSome = true := by rw [hload]; rfl
      have hkept := job_kept (D := D) hsome e
      rw [hnone] at hkept
      cases hkept
  obtain ⟨hrefunds, hvolume⟩ := h.unknown id hold
  rw [refundsOf_handle, settledFor_snoc, hrefunds, hvolume, settledBy_of_none hold]
  refine ⟨?_, rfl⟩
  cases e with
  | refunded jobId amount => exact if_neg (fun hand => by rw [hold] at hand; cases hand.2)
  | _ => rfl

/-- An engagement of a job is that of its two agents. -/
theorem RefundInv.owned_step (h : RefundInv D history s) (hreg : Regular D s e) {id : Id}
    {job : Job W} {x : W} (hjob : (handle D s e).jobs.load id = some job)
    (hx : job.engagement = some x) :
    ∃ c p, job.clientAgent = some c ∧ job.providerAgent = some p ∧ x = engagementId D c p := by
  have hlinked : ∀ old : Job W, old.engagement = none → (s.core.link D old).engagement = some x →
      ∃ c p, (s.core.link D old).clientAgent = some c ∧
        (s.core.link D old).providerAgent = some p ∧ x = engagementId D c p := by
    intro old hnone hsome
    rcases link_engagement hsome with hsame | ⟨c, p, hc, hp, heq, -⟩
    · rw [hnone] at hsame
      cases hsame
    · exact ⟨c, p, hc, hp, heq⟩
  have hkept : ∀ old : Job W, s.jobs.load id = some old → job.links = old.links →
      ∃ c p, job.clientAgent = some c ∧ job.providerAgent = some p ∧ x = engagementId D c p := by
    intro old hold hlinks
    simp only [Job.links, Prod.mk.injEq] at hlinks
    obtain ⟨c, p, hc, hp, heq⟩ := h.owned id old x hold (hlinks.2.2.2 ▸ hx)
    exact ⟨c, p, hlinks.2.1.trans hc, hlinks.2.2.1.trans hp, heq⟩
  rcases job_cases hjob with ⟨old, hold, hlinks⟩ | ⟨jobId, client, provider, budget, -, -, rfl⟩ |
    ⟨jobId, provider, old, rfl, rfl, hold, rfl⟩
  · exact hkept old hold hlinks
  · exact hlinked _ rfl hx
  · rcases hreg old hold with ⟨hnone, -, -⟩ | hkeep
    · exact hlinked _ hnone hx
    · exact hkept old hold (links_of_keepsLinks h.referred hold hkeep)

/-! ### Counters -/

theorem SettleTallies.of_volumes {volume volume' : Id → Job W → ℤ}
    {commerces : Table Id AgenticCommerce} {agents : Table Id Agent}
    {engagements : Table W Engagement} {jobs : Table Id (Job W)}
    (h : SettleTallies volume commerces agents engagements jobs)
    (hv : ∀ id job, jobs.load id = some job → job.settled = true → volume' id job = volume id job) :
    SettleTallies volume' commerces agents engagements jobs := by
  have hkey : ∀ {γ : Type} (link : Job W → Option γ) id job, jobs.load id = some job →
      settledKey link id job ≠ none → volume' id job = volume id job := by
    intro γ link id job hjob hne
    refine hv id job hjob ?_
    cases hs : job.settled with
    | false => exact absurd (settledKey_of_not hs) hne
    | true => rfl
  exact ⟨h.commerceCount, h.commerceVolume.of_values (hkey _), h.providerCount,
    h.providerVolume.of_values (hkey _), h.clientCount, h.clientVolume.of_values (hkey _),
    h.engagementCount, h.engagementVolume.of_values (hkey _)⟩

/-- The counters of settlements after a regular event. -/
theorem RefundInv.tallies_step (h : RefundInv D history s) (hreg : Regular D s e) :
    SettleTallies (fun id _ => settledFor (history ++ [⟨s, e, handle D s e⟩]) id)
      (handle D s e).agenticCommerces (handle D s e).agents (handle D s e).engagements
      (handle D s e).jobs := by
  -- what is added now is added for a job that was not settled before
  have hlater : ∀ id job, s.jobs.load id = some job → job.settled = true →
      settledFor (history ++ [⟨s, e, handle D s e⟩]) id = settledFor history id := by
    intro id job hjob hsettled
    obtain ⟨job', hjob', hset, -⟩ := settled_kept h.referred hreg hjob hsettled
    rw [settledFor_snoc, settledBy_of_same hjob hjob' (hset.trans hsettled.symm), add_zero]
  refine (h.tallies.of_volumes hlater).step h.referred (fresh_of_regular hreg) ?_ ?_ ?_
  · exact fun _ _ _ _ => rfl
  · intro jobId provider he job hjob hsettled
    subst he
    rcases hreg job hjob with ⟨-, hnot, -⟩ | hkeep
    · rw [hsettled] at hnot
      cases hnot
    · exact hkeep
  · intro jobId f old hupdate hold hset
    cases hs : old.settled with
    | true => rfl
    | false =>
      have hjob : (handle D s e).jobs.load (jobEntityId D jobId) = some (f old) := by
        rw [jobs_load_update hupdate hold, Table.load_save_self]
      show settledFor _ _ = (f old).providerPayment
      rw [settledFor_snoc, settledBy_of_some hold hjob, if_pos ⟨hs, hset⟩,
        (h.row _ old hold).volume hs, zero_add]

theorem RefundInv.refunds_step (h : RefundInv D history s) (hreg : Regular D s e) :
    RefundTallies (handle D s e).agenticCommerces (handle D s e).agents (handle D s e).engagements
      (handle D s e).jobs := by
  refine h.refunds.step h.referred (fresh_of_regular hreg) ?_
  intro jobId provider he job hjob hamount
  subst he
  rcases hreg job hjob with ⟨-, -, hzero⟩ | hkeep
  · exact absurd hzero hamount
  · exact keepsClient_of_keepsLinks hkeep

/-! ### Evidence -/

/-- A property of an engagement that the handler does not write. -/
theorem engagement_of_frame {p : Engagement → Prop} [DecidablePred p]
    (hframe : EngagementFrame (fun x => if p x then (1 : ℤ) else 0) e) {g : W} {x : Engagement}
    (hx : (handle D s e).engagements.load g = some x) (hp : p x) :
    ∃ y, s.engagements.load g = some y ∧ p y := by
  have hvalue := engagements_value (D := D) (s := s) hframe g
  rw [Table.value_of_load hx, if_pos hp] at hvalue
  cases hy : s.engagements.load g with
  | none =>
    rw [Table.value_of_none hy] at hvalue
    cases hvalue
  | some y =>
    rw [Table.value_of_load hy] at hvalue
    by_cases hpy : p y
    · exact ⟨y, rfl, hpy⟩
    · rw [if_neg hpy] at hvalue
      cases hvalue

theorem HasEvidence.kept (href : Referred D s) (hreg : Regular D s e) {g : W} {x y : Engagement}
    (h : HasEvidence s g y) (hcount : x.settledJobCount = y.settledJobCount)
    (hlast : x.lastSettledJob = y.lastSettledJob) : HasEvidence (handle D s e) g x := by
  refine ⟨fun hne => ?_, fun id hid => ?_⟩
  · rw [hlast]
    exact h.1 (hcount ▸ hne)
  · obtain ⟨old, hold, hsettled, heng⟩ := h.2 id (hlast ▸ hid)
    obtain ⟨job, hjob, hset, hlinks⟩ := settled_kept href hreg hold hsettled
    simp only [Job.links, Prod.mk.injEq] at hlinks
    exact ⟨job, hjob, hset, hlinks.2.2.2.trans heng⟩

/-- The engagements after the event that may settle a job. -/
theorem RefundInv.evidence_marked (h : RefundInv D history s) (hreg : Regular D s e) {jobId : ℕ}
    {job : Job W} {g : W} {x : Engagement}
    (hjobs : (handle D s e).jobs.load = (s.jobs.save (jobEntityId D jobId) (markSettled job)).load)
    (hx : (markSettledIfPaid (jobEntityId D jobId) job s).2.engagements.load g = some x) :
    HasEvidence (handle D s e) g x := by
  unfold markSettledIfPaid at hx
  by_cases hs : settles job
  · obtain ⟨points, heq⟩ := countSettlement_eq (jobEntityId D jobId) job s
    rw [if_pos hs, heq] at hx
    change (s.engagements.modifyAt job.engagement _).load g = some x at hx
    cases he : job.engagement with
    | none =>
      rw [he] at hx
      exact (h.evidence g x hx).kept h.referred hreg rfl rfl
    | some k =>
      rw [he, Table.modifyAt, Table.load_modify] at hx
      by_cases hk : g = k
      · rw [if_pos hk] at hx
        obtain ⟨y, -, rfl⟩ := Option.map_eq_some_iff.mp hx
        refine ⟨fun _ => rfl, fun id hid => ?_⟩
        obtain rfl := Option.some.inj hid
        refine ⟨markSettled job, by rw [hjobs, Table.load_save_self], ?_, ?_⟩
        · rw [markSettled, if_pos hs]
        · rw [markSettled, if_pos hs, hk]
          exact he
      · rw [if_neg hk] at hx
        exact (h.evidence g x hx).kept h.referred hreg rfl rfl
  · rw [if_neg hs] at hx
    exact (h.evidence g x hx).kept h.referred hreg rfl rfl

theorem RefundInv.evidence_step (h : RefundInv D history s) (hreg : Regular D s e) {g : W}
    {x : Engagement} (hx : (handle D s e).engagements.load g = some x) :
    HasEvidence (handle D s e) g x := by
  by_cases hcompleted : ∃ jobId, e = .jobCompleted jobId
  · obtain ⟨jobId, rfl⟩ := hcompleted
    rcases onJob_cases D jobId s _ with heq | ⟨old, hold, heq⟩
    · rw [handle, handleJobCompleted, heq] at hx
      exact (h.evidence g x hx).kept h.referred hreg rfl rfl
    · have hjobs := jobs_load_update (D := D) (e := .jobCompleted jobId) rfl hold
      refine h.evidence_marked hreg hjobs ?_
      rw [handle, handleJobCompleted, heq] at hx
      exact hx
  by_cases hpaid : ∃ jobId amount, e = .paymentReleased jobId amount
  · obtain ⟨jobId, amount, rfl⟩ := hpaid
    rcases onJob_cases D jobId s _ with heq | ⟨old, hold, heq⟩
    · rw [handle, handlePaymentReleased, heq] at hx
      exact (h.evidence g x hx).kept h.referred hreg rfl rfl
    · have hjobs := jobs_load_update (D := D) (e := .paymentReleased jobId amount) rfl hold
      refine h.evidence_marked hreg hjobs ?_
      rw [handle, handlePaymentReleased, heq] at hx
      exact hx
  -- no other handler writes the count or the last settled job
  refine ⟨fun hne => ?_, fun id hid => ?_⟩
  · have hframe : EngagementFrame (fun x => if x.settledJobCount ≠ 0 ∧ x.lastSettledJob = none
        then (1 : ℤ) else 0) e := by
      cases e with
      | jobCompleted jobId => exact absurd ⟨_, rfl⟩ hcompleted
      | paymentReleased jobId amount => exact absurd ⟨_, _, rfl⟩ hpaid
      | _ => simp [EngagementFrame, newEngagement]
    by_contra hnone
    obtain ⟨y, hy, hcount, hlast⟩ :=
      engagement_of_frame hframe hx ⟨hne, by simpa using hnone⟩
    have hsome := (h.evidence g y hy).1 hcount
    rw [hlast] at hsome
    cases hsome
  · have hframe : EngagementFrame (fun x => if x.lastSettledJob = some id then (1 : ℤ) else 0)
        e := by
      cases e with
      | jobCompleted jobId => exact absurd ⟨_, rfl⟩ hcompleted
      | paymentReleased jobId amount => exact absurd ⟨_, _, rfl⟩ hpaid
      | _ => simp [EngagementFrame, newEngagement]
    obtain ⟨y, hy, hlast⟩ := engagement_of_frame hframe hx hid
    have hkept := HasEvidence.kept (e := e) h.referred hreg (h.evidence g y hy) rfl rfl
    exact hkept.2 id hlast

/-- A verified feedback that is created has its evidence. -/
theorem RefundInv.verified_new (h : RefundInv D history s) {p : NewFeedback}
    (hv : (feedbackOf D s p).verified = true) :
    ∃ rater id, (resolveAgentByWallet s p.client).map Prod.fst = some rater ∧
      (feedbackOf D s p).clientAgent = some rater ∧ (feedbackOf D s p).evidence = some id ∧
      SettledWork s rater (agentEntityId D p.agentId) id := by
  cases hr : resolveAgentByWallet s p.client with
  | none =>
    rw [feedbackOf, hr] at hv
    cases hv
  | some c =>
    have hclient : (feedbackOf D s p).clientAgent = some c.1 := by
      rw [feedbackOf, hr]
      rfl
    have hverified : (feedbackOf D s p).verified = decide (0 < (getOrCreateEngagement D s c.1
        (agentEntityId D p.agentId)).settledJobCount) := by
      rw [feedbackOf, hr]
      rfl
    have hevidence : (feedbackOf D s p).evidence = (getOrCreateEngagement D s c.1
        (agentEntityId D p.agentId)).lastSettledJob := by
      rw [hverified] at hv
      rw [feedbackOf, hr]
      exact if_pos hv
    rw [hverified] at hv
    have hpos := of_decide_eq_true hv
    cases hy : s.engagements.load (engagementId D c.1 (agentEntityId D p.agentId)) with
    | none =>
      rw [getOrCreateEngagement, hy] at hpos
      cases hpos
    | some y =>
      rw [getOrCreateEngagement, hy] at hpos hevidence
      obtain ⟨hsome, hjob⟩ := h.evidence _ y hy
      obtain ⟨id, hid⟩ := Option.isSome_iff_exists.mp (hsome (ne_of_gt hpos))
      obtain ⟨job, hload, hsettled, heng⟩ := hjob id hid
      obtain ⟨c', p', hc', hp', heq⟩ := h.owned id job _ hload heng
      have hrater : s.agents.load c.1 = some c.2 :=
        load_of_partyAgent (show partyAgent s none p.client = some (c.1, c.2) from hr)
      obtain ⟨m, hm⟩ := h.agents c.1 (by rw [hrater]; rfl)
      obtain ⟨m', hm'⟩ := h.agents c' (h.referred.client id job c' hload hc')
      obtain ⟨n', hn'⟩ := h.agents p' (h.referred.provider id job p' hload hp')
      rw [hm, hm', hn'] at heq
      obtain ⟨rfl, rfl⟩ := engagementId_inj heq
      exact ⟨c.1, id, rfl, hclient, hevidence.trans hid, job, hload, hsettled,
        hc'.trans (congrArg some (hm'.trans hm.symm)), hp'.trans (congrArg some hn')⟩

theorem RefundInv.verified_step (h : RefundInv D history s) (hreg : Regular D s e) {id : Id}
    {f : Feedback} (hf : (handle D s e).feedbacks.load id = some f) (hv : f.verified = true) :
    Evidenced D (history ++ [⟨s, e, handle D s e⟩]) (handle D s e) id f := by
  have hwork : ∀ client provider id, SettledWork s client provider id →
      SettledWork (handle D s e) client provider id :=
    fun client provider id hw => settledWork_kept h.referred hreg hw
  rcases feedback_cases hf with ⟨p, a, rfl, -, hid, rfl⟩ | ⟨old, hold, heq, -⟩
  · obtain ⟨rater, evidence, hrater, hclient, hevidence, hsettled⟩ := h.verified_new hv
    exact ⟨_, List.mem_append_right _ List.mem_cons_self, p, rater, evidence, rfl, hid, hrater,
      hclient, rfl, hevidence, hsettled, hwork _ _ _ hsettled⟩
  · have hverified : f.verified = old.verified := by rw [heq]
    have hclient : f.clientAgent = old.clientAgent := by rw [heq]
    have hagent : f.agent = old.agent := by rw [heq]
    have hevidence : f.evidence = old.evidence := by rw [heq]
    exact (h.verified id old hold (hverified ▸ hv)).mono hclient hagent hevidence hwork

/-! ### Runs -/

/-- **A regular event keeps refunds and settlements apart.** -/
theorem RefundInv.step (h : RefundInv D history s) (hreg : Regular D s e) :
    RefundInv D (history ++ [⟨s, e, handle D s e⟩]) (handle D s e) where
  referred := h.referred.step
  agents id hid := agents_ids h.agents id hid
  paid := h.paid.step e
  row _ _ hjob := h.row_step hreg hjob
  unknown _ hnone := h.unknown_step hnone
  owned _ _ _ hjob hx := h.owned_step hreg hjob hx
  tallies := h.tallies_step hreg
  refunds := h.refunds_step hreg
  evidence _ _ hx := h.evidence_step hreg hx
  verified _ _ hf hv := h.verified_step hreg hf hv

theorem refundInv_of_regular (hr : Run (indexStep D) Store.empty history s)
    (hreg : ∀ c ∈ history, Regular D c.pre c.act) : RefundInv D history s := by
  induction hr with
  | nil => exact RefundInv.init
  | @snoc history s s' e _ hs ih =>
    have hprev := ih (fun c hc => hreg c (List.mem_append_left _ hc))
    have hregular : Regular D s e := hreg ⟨s, e, s'⟩ (by simp)
    obtain rfl := Option.some.inj hs
    exact hprev.step hregular

/-! ### What the invariant says -/

theorem RefundInv.counted (h : RefundInv D history s)
    (hrecords : ∀ id, refundsOf s id = refundsIn D history id) {γ χ : Type} [DecidableEq γ]
    {counters : Table γ χ} {count volume : χ → ℤ} {link : Job W → Option γ}
    (hcount : Tally counters count s.jobs (settledKey link) (fun _ _ => 1))
    (hvolume : Tally counters volume s.jobs (settledKey link) (fun id _ => settledFor history id))
    {g : γ} {x : χ} (hx : counters.load g = some x) :
    Counted D history s link g (count x) (volume x) := by
  have hrows : ∀ id job, s.jobs.load id = some job →
      decide (settledKey link id job = some g) = isUnrefunded D history link g id job := by
    intro id job hjob
    rw [decide_settledKey, isUnrefunded, ← hrecords]
    cases hs : isSettled link g id job with
    | false => rfl
    | true =>
      have hsettled : job.settled = true := (Bool.and_eq_true_iff.mp hs).1
      rw [((h.row id job hjob).settled hsettled).2]
      rfl
  rw [hcount.eq_count hx, hvolume.eq_sumOver hx]
  exact ⟨Table.count_congr hrows, Table.sumOver_congr hrows⟩

theorem RefundInv.refunded (h : RefundInv D history s)
    (hrecords : ∀ id, refundsOf s id = refundsIn D history id) {γ χ : Type} [DecidableEq γ]
    {counters : Table γ χ} {volume : χ → ℤ} {link : Job W → Option γ}
    (hvolume : Tally counters volume s.jobs (fun _ => link) refund) {g : γ} {x : χ}
    (hx : counters.load g = some x) : Refunded D history s link g (volume x) := by
  have hrefunds : Tally counters volume s.jobs (fun _ => link)
      (fun id _ => (refundsIn D history id).sum) := by
    refine hvolume.of_values ?_
    intro id job hjob _
    rw [← hrecords]
    exact (h.row id job hjob).refunded.symm
  exact hrefunds.eq_sumOver hx

/-- **Refunds and settlements are apart** after every run of regular events. -/
theorem refundsApart_of_regular (D : Deployment W) (history : List (Call (Store W) Event))
    (s : Store W) (hr : Run (indexStep D) Store.empty history s)
    (hreg : ∀ c ∈ history, Regular D c.pre c.act) : RefundsApart D history s := by
  have h := refundInv_of_regular hr hreg
  have hrecords := refundsOf_eq hr
  constructor
  · intro id job hjob hsettled
    obtain ⟨hset, hrefunded, -⟩ := h.row id job hjob
    obtain ⟨hstatus, hnone⟩ := hset hsettled
    rw [hnone] at hrefunded
    exact ⟨hstatus, (h.paid id job hjob).2 hsettled, hrefunded, (hrecords id).symm.trans hnone⟩
  · exact fun x hx => ⟨h.counted hrecords h.tallies.commerceCount h.tallies.commerceVolume hx,
      h.refunded hrecords h.refunds.commerce hx⟩
  · exact fun id a ha => h.counted hrecords h.tallies.providerCount h.tallies.providerVolume ha
  · exact fun id a ha => ⟨h.counted hrecords h.tallies.clientCount h.tallies.clientVolume ha,
      h.refunded hrecords h.refunds.client ha⟩
  · exact fun e x hx => ⟨h.counted hrecords h.tallies.engagementCount h.tallies.engagementVolume hx,
      h.refunded hrecords h.refunds.engagement hx⟩
  · exact h.verified

/-! ### A settlement that is refunded -/

/-- A job is paid, completed and refunded. -/
def refundedEvents : List Event :=
  [.jobCreated 5 1 2 none, .paymentReleased 5 10, .jobCompleted 5, .refunded 5 10]

/-- The job is settled, and `10` has gone back. -/
theorem not_refundsApart_refunded :
    ∃ history s, Run (indexStep arcTestnet) Store.empty history s ∧
      history.map Call.act = refundedEvents ∧ ¬ RefundsApart arcTestnet history s := by
  have hr := Run.of_attempts (indexStep arcTestnet) Store.empty refundedEvents
  have hfacts : (attempts (indexStep arcTestnet) Store.empty refundedEvents).map Call.act =
        refundedEvents ∧
      ((afterAttempts (indexStep arcTestnet) Store.empty refundedEvents).jobs.load
        (jobEntityId arcTestnet 5)).map (fun job => (job.settled, job.refundedAmount)) =
        some (true, 10) := by
    decide +kernel
  obtain ⟨hacts, hjob⟩ := hfacts
  refine ⟨_, _, hr, hacts, ?_⟩
  intro h
  obtain ⟨job, hload, hpair⟩ := Option.map_eq_some_iff.mp hjob
  obtain ⟨hsettled, hamount⟩ := Prod.mk.inj hpair
  have hzero := (h.settled _ job hload hsettled).2.2.1
  rw [hamount] at hzero
  cases hzero

/-- Two agents with a job that is refunded and one that is settled, and a feedback. -/
def ratedEvents : List Event :=
  hiredEvents ++ [.jobCreated 6 1 2 none, .jobRejected 6, .refunded 6 4, .jobCompleted 5,
    .paymentReleased 5 10, .newFeedback ⟨2, 1, 0, 5, 0, "", ""⟩]

theorem refundsApart_of_regular_rated :
    ∃ history s, Run (indexStep arcTestnet) Store.empty history s ∧
      history.map Call.act = ratedEvents ∧
      (s.feedbacks.load (feedbackEntityId arcTestnet 2 1 0)).map Feedback.verified = some true ∧
      RefundsApart arcTestnet history s := by
  have hr := Run.of_attempts (indexStep arcTestnet) Store.empty ratedEvents
  have hfacts : (attempts (indexStep arcTestnet) Store.empty ratedEvents).map Call.act =
        ratedEvents ∧
      (∀ c ∈ attempts (indexStep arcTestnet) Store.empty ratedEvents,
        Regular arcTestnet c.pre c.act) ∧
      ((afterAttempts (indexStep arcTestnet) Store.empty ratedEvents).feedbacks.load
        (feedbackEntityId arcTestnet 2 1 0)).map Feedback.verified = some true := by
    decide +kernel
  obtain ⟨hacts, hreg, hverified⟩ := hfacts
  exact ⟨_, _, hr, hacts, hverified, refundsApart_of_regular arcTestnet _ _ hr hreg⟩

end Bufi.Subgraph
