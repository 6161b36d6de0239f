import Bufi.Subgraph.Links
import Bufi.Subgraph.Feedback

/-!
# What feedback is counted in

A feedback is counted for its agent, for the registry, for the engagement of its rater with
the agent, and by a point in the series of its tags.  When it is revoked it is taken out of
the counters of active feedback again.  The handler does not ask then who is behind the
wallet of the rater: it finds the same counters by what has been stored with the feedback.
So the counters are tallies of the stored feedback (`FeedbackTallies`), whatever happens to
wallets, agents and jobs in between (`feedbackCounted_of_once`).
-/

namespace Bufi.Subgraph

open Bufi.Evm Bufi.Index

variable {W : Type} [DecidableEq W] (D : Deployment W)

/-! ### The property -/

/-- The series of a feedback: its agent and its tags. -/
def Feedback.series (f : Feedback) : Id × String × String := (f.agent, f.tag1, f.tag2)

def FeedbackMetricPoint.series (p : FeedbackMetricPoint) : Id × String × String :=
  (p.agent, p.tag1, p.tag2)

/-- The counters are the numbers of what they count. -/
structure FeedbackCounted (s : Store W) : Prop where
  agent : ∀ id a, s.agents.load id = some a →
    a.feedbackCount = s.feedbacks.count (fun _ f => decide (f.agent = id)) ∧
    a.activeFeedbackCount =
      s.feedbacks.count (fun _ f => !f.isRevoked && decide (f.agent = id)) ∧
    a.verifiedFeedbackCount =
      s.feedbacks.count (fun _ f => !f.isRevoked && decide (f.agent = id) && f.verified) ∧
    a.responseCount = s.feedbackResponses.countP
      (fun r => decide ((s.feedbacks.load r.feedback).map Feedback.agent = some id))
  registry : ∀ id r, s.reputationRegistries.load id = some r →
    r.feedbackCount = s.feedbacks.count (fun _ f => decide (f.registry = id)) ∧
    r.activeFeedbackCount =
      s.feedbacks.count (fun _ f => !f.isRevoked && decide (f.registry = id)) ∧
    r.responseCount = s.feedbackResponses.countP
      (fun r => decide ((s.feedbacks.load r.feedback).map Feedback.registry = some id))
  engagement : ∀ e x, s.engagements.load e = some x →
    x.feedbackCount = s.feedbacks.count (fun _ f =>
      !f.isRevoked && decide (f.clientAgent = some x.client ∧ f.agent = x.provider)) ∧
    x.verifiedFeedbackCount = s.feedbacks.count (fun _ f =>
      !f.isRevoked && decide (f.clientAgent = some x.client ∧ f.agent = x.provider) && f.verified)
  responses : ∀ id f, s.feedbacks.load id = some f →
    f.responseCount = s.feedbackResponses.countP (fun r => decide (r.feedback = id))
  points : ∀ g,
    logTotal FeedbackMetricPoint.series FeedbackMetricPoint.feedbackCountDelta
        s.feedbackMetricPoints g =
      s.feedbacks.count (fun _ f => !f.isRevoked && decide (f.series = g)) ∧
    logTotal FeedbackMetricPoint.series FeedbackMetricPoint.valueDelta s.feedbackMetricPoints g =
      s.feedbacks.sumOver (fun _ f => !f.isRevoked && decide (f.series = g))
        (fun _ f => f.normalizedValue)

/-! ### The tallies -/

/-- A feedback counts for its link until it is revoked. -/
def activeKey {γ : Type} (link : Feedback → Option γ) (_ : Id) (f : Feedback) : Option γ :=
  if f.isRevoked then none else link f

def verifiedOne (_ : Id) (f : Feedback) : ℤ := oneIf f.verified

/-- The engagement of the rater, by what is stored. -/
def engagementLink (f : Feedback) : Option W :=
  f.clientAgent.map (fun rater => engagementId D rater f.agent)

/-- The counters are tallies of the feedback, and of the responses. -/
structure FeedbackTallies (s : Store W) : Prop where
  agentAll : Tally s.agents Agent.feedbackCount s.feedbacks (fun _ f => some f.agent) (fun _ _ => 1)
  agentActive : Tally s.agents Agent.activeFeedbackCount s.feedbacks
    (activeKey (fun f => some f.agent)) (fun _ _ => 1)
  agentVerified : Tally s.agents Agent.verifiedFeedbackCount s.feedbacks
    (activeKey (fun f => some f.agent)) verifiedOne
  registryAll : Tally s.reputationRegistries ReputationRegistry.feedbackCount s.feedbacks
    (fun _ f => some f.registry) (fun _ _ => 1)
  registryActive : Tally s.reputationRegistries ReputationRegistry.activeFeedbackCount s.feedbacks
    (activeKey (fun f => some f.registry)) (fun _ _ => 1)
  engagementActive : Tally s.engagements Engagement.feedbackCount s.feedbacks
    (activeKey (engagementLink D)) (fun _ _ => 1)
  engagementVerified : Tally s.engagements Engagement.verifiedFeedbackCount s.feedbacks
    (activeKey (engagementLink D)) verifiedOne
  pointCount : ∀ g, logTotal FeedbackMetricPoint.series FeedbackMetricPoint.feedbackCountDelta
      s.feedbackMetricPoints g =
    s.feedbacks.total (share (activeKey (fun f => some f.series)) (fun _ _ => 1) g)
  pointValue : ∀ g, logTotal FeedbackMetricPoint.series FeedbackMetricPoint.valueDelta
      s.feedbackMetricPoints g =
    s.feedbacks.total (share (activeKey (fun f => some f.series))
      (fun _ f => f.normalizedValue) g)
  agentResponses : ∀ g, s.agents.value (fun _ => Agent.responseCount) g =
    logTotal (fun r => (s.feedbacks.load r.feedback).map Feedback.agent) (fun _ => 1)
      s.feedbackResponses (some g)
  registryResponses : ∀ g, s.reputationRegistries.value (fun _ => ReputationRegistry.responseCount) g =
    logTotal (fun r => (s.feedbacks.load r.feedback).map Feedback.registry) (fun _ => 1)
      s.feedbackResponses (some g)
  ownResponses : ∀ id, s.feedbacks.value (fun _ => Feedback.responseCount) id =
    logTotal FeedbackResponse.feedback (fun _ => 1) s.feedbackResponses id

section Rows

variable {γ M : Type} [AddCommGroup M] [DecidableEq γ] {c c' : γ → M} {rows : Table Id Feedback}
  {id : Id} {old f : Feedback} {val : Id → Feedback → M}

/-- A feedback that is new. -/
theorem total_created {key : Id → Feedback → Option γ}
    (h : ∀ g, c g = rows.total (share key val g)) (hnew : rows.load id = none)
    (hc : ∀ g, c' g = c g + if key id f = some g then val id f else 0) (g : γ) :
    c' g = (rows.save id f).total (share key val g) := by
  rw [Table.total_save, Table.value_of_none hnew, sub_zero, ← h g]
  exact hc g

/-- A feedback that is revoked. -/
theorem total_revoked {link : Feedback → Option γ}
    (h : ∀ g, c g = rows.total (share (activeKey link) val g)) (hold : rows.load id = some old)
    (hactive : old.isRevoked = false)
    (hc : ∀ g, c' g = c g + if link old = some g then -val id old else 0) (g : γ) :
    c' g = (rows.save id { old with isRevoked := true }).total (share (activeKey link) val g) := by
  have hnow : share (activeKey link) val g id { old with isRevoked := true } = 0 :=
    if_neg (fun heq => by cases heq)
  have hwas : share (activeKey link) val g id old = if link old = some g then val id old else 0 := by
    rw [share, activeKey, hactive]
    rfl
  rw [Table.total_save, Table.value_of_load hold, ← h g, hc g, hnow, hwas, zero_sub]
  by_cases hg : link old = some g
  · rw [if_pos hg, if_pos hg]
  · rw [if_neg hg, if_neg hg, neg_zero]

/-- A feedback that counts as before. -/
theorem total_same {key : Id → Feedback → Option γ} (h : ∀ g, c g = rows.total (share key val g))
    (hold : rows.load id = some old) (hkey : key id f = key id old) (hval : val id f = val id old)
    (hc : ∀ g, c' g = c g) (g : γ) : c' g = (rows.save id f).total (share key val g) := by
  rw [hc g, h g, Table.total_save_of_eq]
  rw [Table.value_of_load hold, share, share, hkey, hval]

theorem ite_some {k g : γ} {x : M} :
    (if g = k then x else 0) = if some k = some g then x else 0 := by
  simp only [Option.some.injEq, eq_comm]

theorem ite_key {k g : γ} {x : M} :
    (if k = g then x else 0) = if some k = some g then x else 0 := by
  simp only [Option.some.injEq]

end Rows

/-! ### Steps -/

variable {D} {s : Store W} {e : Event}

/-- The other handlers leave what has been counted. -/
theorem FeedbackTallies.other (h : FeedbackTallies D s) (hfresh : FreshAgent D s e)
    (he : e.isRating = false) : FeedbackTallies D (handle D s e) := by
  have hratings := ratings_handle (D := D) (s := s) he
  simp only [Store.ratings, Prod.mk.injEq] at hratings
  obtain ⟨hregistries, hfeedbacks, hresponses, hpoints⟩ := hratings
  have hagent : ∀ get ∈ [Agent.feedbackCount, Agent.activeFeedbackCount,
      Agent.verifiedFeedbackCount, Agent.responseCount], AgentFrame get e := by
    cases e with
    | newFeedback p => cases he
    | feedbackRevoked agentId client index => cases he
    | responseAppended agentId client index => cases he
    | _ => simp [AgentFrame, newAgent]
  have hengagement : ∀ get ∈ [Engagement.feedbackCount, Engagement.verifiedFeedbackCount],
      EngagementFrame get e := by
    cases e with
    | newFeedback p => cases he
    | feedbackRevoked agentId client index => cases he
    | responseAppended agentId client index => cases he
    | _ => simp [EngagementFrame, newEngagement]
  constructor
  · rw [hfeedbacks]
    exact h.agentAll.of_value_eq (agents_value hfresh (hagent _ (by simp)))
  · rw [hfeedbacks]
    exact h.agentActive.of_value_eq (agents_value hfresh (hagent _ (by simp)))
  · rw [hfeedbacks]
    exact h.agentVerified.of_value_eq (agents_value hfresh (hagent _ (by simp)))
  · rw [hregistries, hfeedbacks]
    exact h.registryAll
  · rw [hregistries, hfeedbacks]
    exact h.registryActive
  · rw [hfeedbacks]
    exact h.engagementActive.of_value_eq (engagements_value (hengagement _ (by simp)))
  · rw [hfeedbacks]
    exact h.engagementVerified.of_value_eq (engagements_value (hengagement _ (by simp)))
  · rw [hpoints, hfeedbacks]
    exact h.pointCount
  · rw [hpoints, hfeedbacks]
    exact h.pointValue
  · intro g
    rw [hfeedbacks, hresponses, agents_value hfresh (hagent _ (by simp)) g]
    exact h.agentResponses g
  · rw [hregistries, hfeedbacks, hresponses]
    exact h.registryResponses
  · rw [hfeedbacks, hresponses]
    exact h.ownResponses

omit [DecidableEq W] in
/-- The registry after a feedback. -/
theorem value_ratedRegistries {get : ReputationRegistry → ℤ} {δ : ℤ} (hnew : get ⟨0, 0, 0⟩ = 0)
    (hadd : ∀ r, get { r with
      feedbackCount := r.feedbackCount + 1
      activeFeedbackCount := r.activeFeedbackCount + 1 } = get r + δ) (g : Id) :
    (s.reputationRegistries.save (reputationRegistryId D)
        { getOrCreateReputationRegistry D s with
          feedbackCount := (getOrCreateReputationRegistry D s).feedbackCount + 1
          activeFeedbackCount := (getOrCreateReputationRegistry D s).activeFeedbackCount + 1 }).value
        (fun _ => get) g =
      s.reputationRegistries.value (fun _ => get) g +
        if some (reputationRegistryId D) = some g then δ else 0 := by
  rw [← ite_some]
  exact Table.value_save_getD hnew hadd

/-- The engagements after a feedback, counted in that of its rater. -/
theorem value_ratedEngagements {get : Engagement → ℤ} {δ : ℤ} {p : NewFeedback}
    (hnew : ∀ c p, get (newEngagement c p) = 0)
    (hadd : ∀ x, get (x.addFeedback 1 (oneIf (feedbackOf D s p).verified)) = get x + δ) (g : W) :
    (ratedEngagements D s p).value (fun _ => get) g = s.engagements.value (fun _ => get) g +
      if engagementLink D (feedbackOf D s p) = some g then δ else 0 := by
  unfold ratedEngagements
  cases hr : resolveAgentByWallet s p.client with
  | none =>
    have hlink : engagementLink D (feedbackOf D s p) = none := by
      rw [feedbackOf, hr]
      rfl
    rw [hlink, if_neg (Option.some_ne_none _).symm, add_zero]
  | some c =>
    have hlink : engagementLink D (feedbackOf D s p) =
        some (engagementId D c.1 (agentEntityId D p.agentId)) := by
      rw [feedbackOf, hr]
      rfl
    rw [hlink, ← ite_some]
    exact Table.value_save_getD (hnew _ _) hadd

/-- The responses to a feedback that is known are those of the same agent and registry. -/
theorem logTotal_responses {β : Type} [DecidableEq β] {read : Feedback → β}
    {rows rows' : Table Id Feedback} {log : List FeedbackResponse}
    (h : ∀ r ∈ log, (rows'.load r.feedback).map read = (rows.load r.feedback).map read)
    (g : Option β) :
    logTotal (fun r => (rows'.load r.feedback).map read) (fun _ => (1 : ℤ)) log g =
      logTotal (fun r => (rows.load r.feedback).map read) (fun _ => 1) log g :=
  logTotal_congr h g

/-- **A feedback is created.** -/
theorem FeedbackTallies.created (h : FeedbackTallies D s) {p : NewFeedback} {a : Agent}
    (ha : s.agents.load (agentEntityId D p.agentId) = some a)
    (hnew : s.feedbacks.load (feedbackEntityId D p.agentId p.client p.feedbackIndex) = none)
    (hknown : ∀ r ∈ s.feedbackResponses, (s.feedbacks.load r.feedback).isSome) :
    FeedbackTallies D (handle D s (.newFeedback p)) := by
  have hold : ∀ {β : Type} (read : Feedback → β), ∀ r ∈ s.feedbackResponses,
      ((s.feedbacks.save (feedbackEntityId D p.agentId p.client p.feedbackIndex)
        (feedbackOf D s p)).load r.feedback).map read = (s.feedbacks.load r.feedback).map read := by
    intro β read r hr
    rw [Table.load_save_of_ne]
    intro heq
    have hsome := hknown r hr
    rw [heq, hnew] at hsome
    cases hsome
  rw [handle, handleNewFeedback_of_some ha]
  constructor
  · refine total_created h.agentAll hnew ?_
    intro g
    rw [Table.value_save_add ha (δ := 1) rfl, ite_some]
    rfl
  · refine total_created h.agentActive hnew ?_
    intro g
    rw [Table.value_save_add ha (δ := 1) rfl, ite_some]
    rfl
  · refine total_created h.agentVerified hnew ?_
    intro g
    rw [Table.value_save_add ha (δ := oneIf (feedbackOf D s p).verified) rfl, ite_some]
    rfl
  · exact total_created h.registryAll hnew (value_ratedRegistries rfl (fun _ => rfl))
  · exact total_created h.registryActive hnew (value_ratedRegistries rfl (fun _ => rfl))
  · exact total_created h.engagementActive hnew
      (value_ratedEngagements (fun _ _ => rfl) (fun _ => rfl))
  · exact total_created h.engagementVerified hnew
      (value_ratedEngagements (fun _ _ => rfl) (fun _ => rfl))
  · refine total_created h.pointCount hnew ?_
    intro g
    rw [logTotal_concat, ite_key]
    rfl
  · refine total_created h.pointValue hnew ?_
    intro g
    rw [logTotal_concat, ite_key]
    rfl
  · intro g
    refine Eq.trans (b := s.agents.value (fun _ => Agent.responseCount) g) ?_ ?_
    · exact Table.value_save_same ha rfl
    · exact (h.agentResponses g).trans (logTotal_responses (hold Feedback.agent) _).symm
  · intro g
    refine (value_ratedRegistries rfl (fun r => (add_zero r.responseCount).symm) g).trans ?_
    rw [ite_self, add_zero]
    exact (h.registryResponses g).trans (logTotal_responses (hold Feedback.registry) _).symm
  · intro id
    rw [Table.value_save]
    by_cases hid : id = feedbackEntityId D p.agentId p.client p.feedbackIndex
    · rw [if_pos hid, hid, ← h.ownResponses, Table.value_of_none hnew]
      rfl
    · rw [if_neg hid]
      exact h.ownResponses id

variable (D) in
/-- What is known of a feedback: its agent is that of its id, and the agent of its rater and
their engagement are in the store. -/
structure FeedbackRow (s : Store W) (id : Id) (f : Feedback) : Prop where
  agent : ∃ agentId client index, id = feedbackEntityId D agentId client index ∧
    f.agent = agentEntityId D agentId
  known : (s.agents.load f.agent).isSome
  registry : f.registry = reputationRegistryId D
  rater : ∀ c, f.clientAgent = some c → (s.agents.load c).isSome ∧
    (s.engagements.load (engagementId D c f.agent)).isSome

omit [DecidableEq W] in
theorem FeedbackRow.agent_eq {agentId : ℕ} {client : Address} {index : ℕ} {f : Feedback}
    (h : FeedbackRow D s (feedbackEntityId D agentId client index) f) :
    f.agent = agentEntityId D agentId := by
  obtain ⟨agentId', client', index', hid, hagent⟩ := h.agent
  obtain ⟨rfl, -, -⟩ := feedbackEntityId_inj hid
  exact hagent

/-- The engagements after a feedback is revoked. -/
theorem value_revokedEngagements {get : Engagement → ℤ} {δ : ℤ} {id : Id} {f : Feedback}
    (h : FeedbackRow D s id f)
    (hsub : ∀ x, get { x with
      feedbackCount := x.feedbackCount - 1
      verifiedFeedbackCount := x.verifiedFeedbackCount - oneIf f.verified } = get x + -δ) (g : W) :
    (revokedEngagements D s f f.agent).value (fun _ => get) g =
      s.engagements.value (fun _ => get) g +
        if engagementLink D f = some g then -δ else 0 := by
  have hlinked : (f.clientAgent.filter (fun id => (s.agents.load id).isSome)).map
      (fun rater => engagementId D rater f.agent) = engagementLink D f := by
    rw [engagementLink]
    cases hc : f.clientAgent with
    | none => rfl
    | some c => rw [Option.filter_some, if_pos (h.rater c hc).1]
  rw [revokedEngagements, Table.value_modifyAt hsub, hlinked]
  by_cases hg : engagementLink D f = some g
  · obtain ⟨c, hc, heq⟩ := Option.map_eq_some_iff.mp hg
    rw [if_pos hg, if_pos ⟨hg, heq ▸ (h.rater c hc).2⟩]
  · rw [if_neg hg, if_neg (fun hand => hg hand.1)]

/-- A feedback that is saved again keeps its responses. -/
theorem map_load_feedback {β : Type} (read : Feedback → β) {rows : Table Id Feedback} {id : Id}
    {old f : Feedback} (hold : rows.load id = some old) (hread : read f = read old) (k : Id) :
    ((rows.save id f).load k).map read = (rows.load k).map read := by
  rw [Table.load_save]
  by_cases hk : k = id
  · rw [if_pos hk, hk, hold, Option.map_some, Option.map_some, hread]
  · rw [if_neg hk]

/-- A response is appended to a feedback that is saved again. -/
theorem logTotal_appended {β : Type} [DecidableEq β] (read : Feedback → β)
    {rows : Table Id Feedback} {log : List FeedbackResponse} {id : Id} {old : Feedback}
    (hold : rows.load id = some old) (f : Feedback) (hread : read f = read old) (g : β) :
    logTotal (fun r => ((rows.save id f).load r.feedback).map read) (fun _ => (1 : ℤ))
        (log ++ [⟨id⟩]) (some g) =
      logTotal (fun r => (rows.load r.feedback).map read) (fun _ => 1) log (some g) +
        if some (read old) = some g then 1 else 0 := by
  rw [logTotal_concat,
    logTotal_responses (fun x _ => map_load_feedback read hold hread x.feedback),
    Table.load_save_self, Option.map_some, hread]

/-- **A feedback is revoked.** -/
theorem FeedbackTallies.revoked (h : FeedbackTallies D s) {agentId : ℕ} {client : Address}
    {index : ℕ} {r : ReputationRegistry} {a : Agent} {f : Feedback}
    (hknown : knownFeedback D agentId client index s = some (r, a, f))
    (hrow : FeedbackRow D s (feedbackEntityId D agentId client index) f)
    (hactive : f.isRevoked = false) :
    FeedbackTallies D (handle D s (.feedbackRevoked agentId client index)) := by
  obtain ⟨hr, ha, hf⟩ := load_of_knownFeedback D hknown
  have hagent := hrow.agent_eq
  rw [handle, handleFeedbackRevoked_of_known hknown, ← hagent]
  rw [← hagent] at ha
  have hkept : ∀ {β : Type} (read : Feedback → β), (∀ x : Feedback,
      read { x with isRevoked := true } = read x) → ∀ k, ((s.feedbacks.save
        (feedbackEntityId D agentId client index) { f with isRevoked := true }).load k).map read =
        (s.feedbacks.load k).map read :=
    fun read hread => map_load_feedback read hf (hread f)
  constructor
  · exact total_same h.agentAll hf rfl rfl (fun g => Table.value_save_same ha rfl)
  · refine total_revoked h.agentActive hf hactive ?_
    intro g
    rw [Table.value_save_add ha (δ := -1) rfl, ite_some]
  · refine total_revoked h.agentVerified hf hactive ?_
    intro g
    rw [Table.value_save_add ha (δ := -oneIf f.verified) rfl, ite_some]
    rfl
  · exact total_same h.registryAll hf rfl rfl (fun g => Table.value_save_same hr rfl)
  · refine total_revoked h.registryActive hf hactive ?_
    intro g
    rw [Table.value_save_add hr (δ := -1) rfl, ite_some, hrow.registry]
  · exact total_revoked h.engagementActive hf hactive
      (value_revokedEngagements hrow (fun _ => rfl))
  · exact total_revoked h.engagementVerified hf hactive
      (value_revokedEngagements hrow (fun _ => rfl))
  · refine total_revoked h.pointCount hf hactive ?_
    intro g
    rw [logTotal_concat, ite_key]
    rfl
  · refine total_revoked h.pointValue hf hactive ?_
    intro g
    rw [logTotal_concat, ite_key]
    rfl
  · intro g
    refine Eq.trans (b := s.agents.value (fun _ => Agent.responseCount) g) ?_ ?_
    · exact Table.value_save_same ha rfl
    · rw [h.agentResponses]
      exact (logTotal_responses (fun x _ => hkept Feedback.agent (fun _ => rfl) x.feedback) _).symm
  · intro g
    refine Eq.trans (b := s.reputationRegistries.value
      (fun _ => ReputationRegistry.responseCount) g) ?_ ?_
    · exact Table.value_save_same hr rfl
    · rw [h.registryResponses]
      exact (logTotal_responses
        (fun x _ => hkept Feedback.registry (fun _ => rfl) x.feedback) _).symm
  · intro id
    rw [← h.ownResponses]
    exact Table.value_save_same hf rfl

/-- **A response is appended.** -/
theorem FeedbackTallies.responded (h : FeedbackTallies D s) {agentId : ℕ} {client : Address}
    {index : ℕ} {r : ReputationRegistry} {a : Agent} {f : Feedback}
    (hknown : knownFeedback D agentId client index s = some (r, a, f))
    (hrow : FeedbackRow D s (feedbackEntityId D agentId client index) f) :
    FeedbackTallies D (handle D s (.responseAppended agentId client index)) := by
  obtain ⟨hr, ha, hf⟩ := load_of_knownFeedback D hknown
  rw [handle, handleResponseAppended_of_known hknown]
  constructor
  · exact total_same h.agentAll hf rfl rfl (fun g => Table.value_save_same ha rfl)
  · exact total_same h.agentActive hf rfl rfl (fun g => Table.value_save_same ha rfl)
  · exact total_same h.agentVerified hf rfl rfl (fun g => Table.value_save_same ha rfl)
  · exact total_same h.registryAll hf rfl rfl (fun g => Table.value_save_same hr rfl)
  · exact total_same h.registryActive hf rfl rfl (fun g => Table.value_save_same hr rfl)
  · exact total_same h.engagementActive hf rfl rfl (fun g => rfl)
  · exact total_same h.engagementVerified hf rfl rfl (fun g => rfl)
  · exact total_same h.pointCount hf rfl rfl (fun g => rfl)
  · exact total_same h.pointValue hf rfl rfl (fun g => rfl)
  · intro g
    refine (Table.value_save_add ha (δ := 1) rfl).trans ?_
    rw [h.agentResponses, ite_some, ← hrow.agent_eq]
    exact (logTotal_appended Feedback.agent hf { f with responseCount := f.responseCount + 1 }
      rfl g).symm
  · intro g
    refine (Table.value_save_add hr (δ := 1) rfl).trans ?_
    rw [h.registryResponses, ite_some, ← hrow.registry]
    exact (logTotal_appended Feedback.registry hf { f with responseCount := f.responseCount + 1 }
      rfl g).symm
  · intro id
    rw [Table.value_save_add hf (δ := 1) rfl, logTotal_concat, ← h.ownResponses]
    simp only [eq_comm]

/-! ### The invariant -/

variable (D) in
/-- What is carried along a run. -/
structure FeedbackInv (s : Store W) : Prop where
  agents : ∀ id, (s.agents.load id).isSome → ∃ n, id = agentEntityId D n
  ends : ∀ g x, s.engagements.load g = some x → (s.agents.load x.client).isSome ∧
    (s.agents.load x.provider).isSome ∧ g = engagementId D x.client x.provider
  row : ∀ id f, s.feedbacks.load id = some f → FeedbackRow D s id f
  answered : ∀ r ∈ s.feedbackResponses, (s.feedbacks.load r.feedback).isSome
  tallies : FeedbackTallies D s

theorem FeedbackInv.init : FeedbackInv D (Store.empty : Store W) where
  agents id h := by cases h
  ends g x h := by cases h
  row id f h := by cases h
  answered r hr := by cases hr
  tallies := ⟨tally_empty, tally_empty, tally_empty, tally_empty, tally_empty, tally_empty,
    tally_empty, fun _ => rfl, fun _ => rfl, fun _ => rfl, fun _ => rfl, fun _ => rfl⟩

/-- The row of a feedback after an event. -/
theorem FeedbackInv.row_step (h : FeedbackInv D s) {id : Id} {f : Feedback}
    (hf : (handle D s e).feedbacks.load id = some f) : FeedbackRow D (handle D s e) id f := by
  rcases feedback_cases hf with ⟨p, a, rfl, ha, hid, rfl⟩ | ⟨old, hold, heq, -⟩
  · refine ⟨⟨p.agentId, p.client, p.feedbackIndex, hid, rfl⟩, ?_, rfl, ?_⟩
    · exact agents_kept _ (show (s.agents.load (agentEntityId D p.agentId)).isSome = true by
        rw [ha]; rfl)
    · intro c hc
      cases hr : resolveAgentByWallet s p.client with
      | none =>
        rw [feedbackOf, hr] at hc
        cases hc
      | some x =>
        rw [feedbackOf, hr] at hc
        obtain rfl := Option.some.inj hc
        have hx := load_of_partyAgent (show partyAgent s none p.client = some (x.1, x.2) from hr)
        refine ⟨agents_kept _ (by rw [hx]; rfl), ?_⟩
        rw [handle, handleNewFeedback_of_some ha]
        show ((ratedEngagements D s p).load (engagementId D x.1 (agentEntityId D p.agentId))).isSome
        rw [ratedEngagements, hr]
        show ((s.engagements.save _ _).load _).isSome = true
        rw [Table.load_save_self]
        rfl
  · have hagent : f.agent = old.agent := by rw [heq]
    have hregistry : f.registry = old.registry := by rw [heq]
    have hclient : f.clientAgent = old.clientAgent := by rw [heq]
    obtain ⟨⟨agentId, client, index, hid, ha⟩, hknown, hreg, hrater⟩ := h.row id old hold
    refine ⟨⟨agentId, client, index, hid, hagent.trans ha⟩, ?_, hregistry.trans hreg, ?_⟩
    · rw [hagent]
      exact agents_kept _ hknown
    · intro c hc
      rw [hagent]
      obtain ⟨hc', he'⟩ := hrater c (hclient ▸ hc)
      exact ⟨agents_kept _ hc', engagements_kept _ he'⟩

/-- A response is to a feedback that is known. -/
theorem FeedbackInv.answered_step (h : FeedbackInv D s) :
    ∀ r ∈ (handle D s e).feedbackResponses, ((handle D s e).feedbacks.load r.feedback).isSome := by
  intro r hr
  cases he : e.isRating with
  | false =>
    have hresponses : (handle D s e).feedbackResponses = s.feedbackResponses :=
      congrArg (fun x => x.2.2.1) (ratings_handle he)
    rw [hresponses] at hr
    exact feedback_known (h.answered r hr)
  | true =>
    cases e with
    | newFeedback p =>
      refine feedback_known (h.answered r ?_)
      cases ha : s.agents.load (agentEntityId D p.agentId) with
      | none =>
        rw [handle, handleNewFeedback_of_none ha] at hr
        exact hr
      | some a =>
        rw [handle, handleNewFeedback_of_some ha] at hr
        exact hr
    | feedbackRevoked agentId client index =>
      refine feedback_known (h.answered r ?_)
      cases hknown : knownFeedback D agentId client index s with
      | none =>
        rw [handle, handleFeedbackRevoked_of_none hknown] at hr
        exact hr
      | some x =>
        rw [handle, handleFeedbackRevoked_of_known hknown] at hr
        exact hr
    | responseAppended agentId client index =>
      cases hknown : knownFeedback D agentId client index s with
      | none =>
        rw [handle, handleResponseAppended_of_none hknown] at hr
        exact feedback_known (h.answered r hr)
      | some x =>
        obtain ⟨reg, a, f⟩ := x
        have hf := (load_of_knownFeedback D hknown).2.2
        rw [handle, handleResponseAppended_of_known hknown] at hr
        rcases List.mem_append.mp hr with hold | hnow
        · exact feedback_known (h.answered r hold)
        · obtain rfl := List.mem_singleton.mp hnow
          exact feedback_known (by rw [hf]; rfl)
    | _ => cases he

/-- **An event that comes once keeps the tallies.** -/
theorem FeedbackInv.tallies_step (h : FeedbackInv D s) (hu : Unrepeated D s e) :
    FeedbackTallies D (handle D s e) := by
  cases he : e.isRating with
  | false => exact h.tallies.other hu.agent he
  | true =>
    cases e with
    | newFeedback p =>
      cases ha : s.agents.load (agentEntityId D p.agentId) with
      | none =>
        rw [handle, handleNewFeedback_of_none ha]
        exact h.tallies
      | some a => exact h.tallies.created ha hu h.answered
    | feedbackRevoked agentId client index =>
      cases hknown : knownFeedback D agentId client index s with
      | none =>
        rw [handle, handleFeedbackRevoked_of_none hknown]
        exact h.tallies
      | some x =>
        obtain ⟨r, a, f⟩ := x
        have hf := (load_of_knownFeedback D hknown).2.2
        exact h.tallies.revoked hknown (h.row _ f hf) (hu f hf)
    | responseAppended agentId client index =>
      cases hknown : knownFeedback D agentId client index s with
      | none =>
        rw [handle, handleResponseAppended_of_none hknown]
        exact h.tallies
      | some x =>
        obtain ⟨r, a, f⟩ := x
        exact h.tallies.responded hknown (h.row _ f (load_of_knownFeedback D hknown).2.2)
    | _ => cases he

theorem FeedbackInv.step (h : FeedbackInv D s) (hu : Unrepeated D s e) :
    FeedbackInv D (handle D s e) where
  agents := agents_ids h.agents
  ends := engagements_known h.ends
  row _ _ hf := h.row_step hf
  answered := h.answered_step
  tallies := h.tallies_step hu

/-! ### What the tallies say -/

theorem decide_activeKey {γ : Type} [DecidableEq γ] (link : Feedback → Option γ) (id : Id)
    (f : Feedback) (g : γ) :
    decide (activeKey link id f = some g) = (!f.isRevoked && decide (link f = some g)) := by
  unfold activeKey
  cases f.isRevoked with
  | false => rfl
  | true => rfl

/-- A sum of ones over the verified feedback is their number. -/
theorem sumOver_verifiedOne {rows : Table Id Feedback} (p : Id → Feedback → Bool) :
    rows.sumOver p verifiedOne = rows.count (fun id f => p id f && f.verified) := by
  rw [Table.count_eq_sumOver]
  refine congrArg rows.total (funext fun id => funext fun f => ?_)
  show (if p id f = true then verifiedOne id f else 0) =
    if (p id f && f.verified) = true then 1 else 0
  rw [verifiedOne, oneIf]
  cases p id f with
  | false => rfl
  | true => rfl

theorem logTotal_one {ε γ : Type} [DecidableEq γ] (key : ε → γ) (log : List ε) (g : γ) :
    logTotal key (fun _ => (1 : ℤ)) log g = log.countP (fun x => decide (key x = g)) := by
  rw [logTotal, List.countP_eq_length_filter]
  generalize log.filter (fun x => decide (key x = g)) = l
  induction l with
  | nil => rfl
  | cons x l ih =>
    rw [List.map_cons, List.sum_cons, ih, List.length_cons]
    push_cast
    ring

/-- The feedback with the link of an engagement is that of its two agents. -/
theorem FeedbackInv.engagementLink_eq (h : FeedbackInv D s) {id : Id} {f : Feedback}
    (hf : s.feedbacks.load id = some f) {g : W} {x : Engagement}
    (hx : s.engagements.load g = some x) :
    engagementLink D f = some g ↔ f.clientAgent = some x.client ∧ f.agent = x.provider := by
  obtain ⟨hclient, hprovider, rfl⟩ := h.ends g x hx
  have hrow := h.row id f hf
  constructor
  · intro hlink
    obtain ⟨c, hc, heq⟩ := Option.map_eq_some_iff.mp hlink
    obtain ⟨m, hm⟩ := h.agents c (hrow.rater c hc).1
    obtain ⟨n, hn⟩ := h.agents f.agent hrow.known
    obtain ⟨m', hm'⟩ := h.agents x.client hclient
    obtain ⟨n', hn'⟩ := h.agents x.provider hprovider
    rw [hm, hn, hm', hn'] at heq
    obtain ⟨rfl, rfl⟩ := engagementId_inj heq
    exact ⟨hc.trans (congrArg some (hm.trans hm'.symm)), hn.trans hn'.symm⟩
  · intro hand
    rw [engagementLink, hand.1, hand.2]
    rfl

theorem FeedbackInv.counted (h : FeedbackInv D s) : FeedbackCounted s := by
  have hactive : ∀ {γ : Type} [DecidableEq γ] (link : Feedback → γ) (g : γ),
      (fun id f => decide (activeKey (fun f => some (link f)) id f = some g)) =
        fun (_ : Id) f => !f.isRevoked && decide (link f = g) := by
    intro γ _ link g
    funext id f
    rw [decide_activeKey]
    simp only [Option.some.injEq]
  have hall : ∀ (link : Feedback → Id) (g : Id),
      (fun (_ : Id) f => decide (some (link f) = some g)) = fun _ f => decide (link f = g) := by
    intro link g
    simp only [Option.some.injEq]
  constructor
  · intro id a ha
    refine ⟨?_, ?_, ?_, ?_⟩
    · rw [h.tallies.agentAll.eq_count ha, hall]
    · rw [h.tallies.agentActive.eq_count ha, hactive]
    · rw [h.tallies.agentVerified.eq_sumOver ha, hactive, sumOver_verifiedOne]
    · rw [← logTotal_one, ← h.tallies.agentResponses, Table.value_of_load ha]
  · intro id r hr
    refine ⟨?_, ?_, ?_⟩
    · rw [h.tallies.registryAll.eq_count hr, hall]
    · rw [h.tallies.registryActive.eq_count hr, hactive]
    · rw [← logTotal_one, ← h.tallies.registryResponses, Table.value_of_load hr]
  · intro g x hx
    have hrows : ∀ id f, s.feedbacks.load id = some f →
        decide (activeKey (engagementLink D) id f = some g) =
          (!f.isRevoked && decide (f.clientAgent = some x.client ∧ f.agent = x.provider)) := by
      intro id f hf
      rw [decide_activeKey, decide_eq_decide.mpr (h.engagementLink_eq hf hx)]
    constructor
    · rw [h.tallies.engagementActive.eq_count hx]
      exact Table.count_congr hrows
    · rw [h.tallies.engagementVerified.eq_sumOver hx, sumOver_verifiedOne]
      exact Table.count_congr (fun id f hf => by rw [hrows id f hf])
  · intro id f hf
    rw [← logTotal_one, ← h.tallies.ownResponses, Table.value_of_load hf]
  · intro g
    constructor
    · rw [h.tallies.pointCount, total_share, hactive, ← Table.count_eq_sumOver]
    · rw [h.tallies.pointValue, total_share, hactive]

/-- **The counters of feedback are the numbers of what they count**, after every run in
which registrations, feedback and revocations come once each. -/
theorem feedbackCounted_of_once (D : Deployment W) (history : List (Call (Store W) Event))
    (s : Store W) (hr : Run (indexStep D) Store.empty history s)
    (honce : (emitted history).Nodup) : FeedbackCounted s := by
  suffices h : Emitted D history s ∧ FeedbackInv D s from h.2.counted
  induction hr with
  | nil => exact ⟨Emitted.init, FeedbackInv.init⟩
  | @snoc history s s' e _ hs ih =>
    rw [emitted_snoc] at honce
    obtain ⟨hemitted, hinv⟩ := ih honce.of_append_left
    obtain rfl := Option.some.inj hs
    have hnew : ∀ k, e.once = some k → k ∉ emitted history := by
      intro k hk hmem
      rw [show (⟨s, e, handle D s e⟩ : Call (Store W) Event).act.once.toList = [k] by
        show e.once.toList = [k]
        rw [hk]
        rfl] at honce
      exact (List.nodup_append.mp honce).2.2 k hmem k List.mem_cons_self rfl
    exact ⟨hemitted.step, hinv.step (hemitted.unrepeated hnew)⟩

/-- Two agents, a feedback with a response, and a revocation after the wallet of the rater
has gone to another agent. -/
def revokedEvents : List Event :=
  [.registered 1 "" 10, .registered 2 "" 20, .metadataSet 1 "agentWallet" (walletBytes 1),
    .newFeedback ⟨2, 1, 0, 5, 0, "a", ""⟩, .newFeedback ⟨2, 1, 1, 7, 0, "a", ""⟩,
    .responseAppended 2 1 0, .registered 3 "" 30, .metadataSet 3 "agentWallet" (walletBytes 1),
    .feedbackRevoked 2 1 0]

theorem feedbackCounted_of_once_revoked :
    ∃ history s, Run (indexStep arcTestnet) Store.empty history s ∧
      history.map Call.act = revokedEvents ∧
      (s.agents.load (agentEntityId arcTestnet 2)).map
        (fun a => (a.feedbackCount, a.activeFeedbackCount, a.responseCount)) = some (2, 1, 1) ∧
      (s.engagements.load (engagementId arcTestnet (agentEntityId arcTestnet 1)
        (agentEntityId arcTestnet 2))).map Engagement.feedbackCount = some 1 ∧
      FeedbackCounted s := by
  have hr := Run.of_attempts (indexStep arcTestnet) Store.empty revokedEvents
  have hfacts : (attempts (indexStep arcTestnet) Store.empty revokedEvents).map Call.act =
        revokedEvents ∧
      (emitted (attempts (indexStep arcTestnet) Store.empty revokedEvents)).Nodup ∧
      ((afterAttempts (indexStep arcTestnet) Store.empty revokedEvents).agents.load
        (agentEntityId arcTestnet 2)).map
        (fun a => (a.feedbackCount, a.activeFeedbackCount, a.responseCount)) = some (2, 1, 1) ∧
      ((afterAttempts (indexStep arcTestnet) Store.empty revokedEvents).engagements.load
        (engagementId arcTestnet (agentEntityId arcTestnet 1) (agentEntityId arcTestnet 2))).map
        Engagement.feedbackCount = some 1 := by
    decide +kernel
  obtain ⟨hacts, honce, hagent, hengagement⟩ := hfacts
  exact ⟨_, _, hr, hacts, hagent, hengagement,
    feedbackCounted_of_once arcTestnet _ _ hr honce⟩

end Bufi.Subgraph
