import Bufi.Subgraph.Frames
import Bufi.Subgraph.Ids

/-!
# Feedback

Feedback is written by three handlers: one creates it, one revokes it and one counts a
response.  `ratings_handle` is that the others leave it alone, and `feedback_cases` what
becomes of the row of a feedback.

The registries emit some events once: a registration of an agent, a new feedback, a
revocation of a feedback.  What is in the store has come from such an event
(`Emitted.step`), so that an event that comes once finds the store without it
(`Emitted.unrepeated`).
-/

namespace Bufi.Subgraph

open Bufi.Evm Bufi.Index

variable {W : Type} {D : Deployment W} {s : Store W} {e : Event}

/-- What the reputation registry has led to. -/
def Store.ratings (s : Store W) : Table Id ReputationRegistry × Table Id Feedback ×
    List FeedbackResponse × List FeedbackMetricPoint :=
  (s.reputationRegistries, s.feedbacks, s.feedbackResponses, s.feedbackMetricPoints)

/-- The events of the reputation registry. -/
def Event.isRating : Event → Bool
  | .newFeedback _ | .feedbackRevoked _ _ _ | .responseAppended _ _ _ => true
  | _ => false

variable [DecidableEq W]

theorem ratings_linkWorkspaces (job : Job W) : (linkWorkspaces D job s).2.ratings = s.ratings := by
  obtain ⟨-, ⟨c, p, ca, pa, -, -, -, -, hs⟩ | ⟨hs, -⟩⟩ := linkWorkspaces_cases D (s := s) job
  · rw [hs]
    rfl
  · rw [hs]

theorem ratings_markSettledIfPaid (id : Id) (job : Job W) :
    (markSettledIfPaid id job s).2.ratings = s.ratings := by
  unfold markSettledIfPaid
  by_cases hs : settles job
  · obtain ⟨points, heq⟩ := countSettlement_eq id job s
    rw [if_pos hs, heq]
    rfl
  · rw [if_neg hs]

omit [DecidableEq W] in
theorem ratings_updateJob (jobId : ℕ) (kind : JobEventKind) (amount : Option ℤ)
    (f : Job W → Job W) : (updateJob D jobId kind amount f s).ratings = s.ratings := by
  obtain ⟨jobs, events, heq⟩ := updateJob_eq (D := D) (s := s) jobId kind amount f
  rw [heq]
  rfl

/-- **Only the events of the reputation registry** change what it has led to. -/
theorem ratings_handle (he : e.isRating = false) : (handle D s e).ratings = s.ratings := by
  cases e with
  | newFeedback p => cases he
  | feedbackRevoked agentId client index => cases he
  | responseAppended agentId client index => cases he
  | registered _ _ _ | uriUpdated _ _ => rfl
  | metadataSet agentId key value =>
    obtain ⟨bindings, heq⟩ := handleMetadataSet_eq (D := D) (s := s) agentId key value
    rw [handle, heq]
    rfl
  | transfer sender receiver tokenId =>
    obtain ⟨registries, bindings, heq⟩ := handleTransfer_eq (D := D) (s := s) sender receiver tokenId
    rw [handle, heq]
    rfl
  | jobCreated jobId client provider budget =>
    obtain ⟨t, ht⟩ := getOrCreateAgenticCommerce_eq D s
    have hratings : (getOrCreateAgenticCommerce D s).2.ratings = s.ratings := by
      rw [ht]
      rfl
    exact (ratings_linkWorkspaces _).trans hratings
  | providerSet jobId provider =>
    rcases onJob_cases D jobId s _ with heq | ⟨job, -, heq⟩
    · rw [handle, handleProviderSet, heq]
    · rw [handle, handleProviderSet, heq]
      exact ratings_linkWorkspaces _
  | jobCompleted jobId =>
    rcases onJob_cases D jobId s _ with heq | ⟨job, -, heq⟩
    · rw [handle, handleJobCompleted, heq]
    · rw [handle, handleJobCompleted, heq]
      exact ratings_markSettledIfPaid _ _
  | paymentReleased jobId amount =>
    rcases onJob_cases D jobId s _ with heq | ⟨job, -, heq⟩
    · rw [handle, handlePaymentReleased, heq]
    · rw [handle, handlePaymentReleased, heq]
      exact ratings_markSettledIfPaid _ _
  | refunded jobId amount =>
    rcases onJob_cases D jobId s _ with heq | ⟨job, -, heq⟩
    · rw [handle, handleRefunded, heq]
    · rw [handle, handleRefunded, heq]
      obtain ⟨points, hrefund⟩ := recordRefund_eq (addRefund amount job) amount
        (saveJob (jobEntityId D jobId) (addRefund amount job) s)
      simp only [hrefund]
      rfl
  | budgetSet jobId _ | jobFunded jobId _ | jobSubmitted jobId | jobRejected jobId
  | jobExpired jobId | evaluatorFeePaid jobId _ => exact ratings_updateJob jobId _ _ _
  | hookWhitelistUpdated | upgraded _ =>
    obtain ⟨t, ht⟩ := getOrCreateAgenticCommerce_eq D s
    show (getOrCreateAgenticCommerce D s).2.ratings = _
    rw [ht]
    rfl

/-- **The row of a feedback after an event**: it has just been created, or it is as it was
but for whether it is revoked and how many responses it has. -/
theorem feedback_cases {id : Id} {f : Feedback} (h : (handle D s e).feedbacks.load id = some f) :
    (∃ p a, e = .newFeedback p ∧ s.agents.load (agentEntityId D p.agentId) = some a ∧
      id = feedbackEntityId D p.agentId p.client p.feedbackIndex ∧ f = feedbackOf D s p) ∨
    ∃ old, s.feedbacks.load id = some old ∧
      f = { old with isRevoked := f.isRevoked, responseCount := f.responseCount } ∧
      (f.isRevoked = old.isRevoked ∨ ∃ agentId client index,
        e = .feedbackRevoked agentId client index ∧
        id = feedbackEntityId D agentId client index) := by
  cases he : e.isRating with
  | false =>
    have hsame : (handle D s e).feedbacks = s.feedbacks :=
      congrArg (fun r => r.2.1) (ratings_handle he)
    rw [hsame] at h
    exact .inr ⟨f, h, rfl, .inl rfl⟩
  | true =>
    cases e with
    | newFeedback p =>
      cases ha : s.agents.load (agentEntityId D p.agentId) with
      | none =>
        rw [handle, handleNewFeedback_of_none ha] at h
        exact .inr ⟨f, h, rfl, .inl rfl⟩
      | some a =>
        rw [handle, handleNewFeedback_of_some ha] at h
        simp only [Table.load_save] at h
        by_cases hid : id = feedbackEntityId D p.agentId p.client p.feedbackIndex
        · rw [if_pos hid] at h
          exact .inl ⟨p, a, rfl, ha, hid, (Option.some.inj h).symm⟩
        · rw [if_neg hid] at h
          exact .inr ⟨f, h, rfl, .inl rfl⟩
    | feedbackRevoked agentId client index =>
      cases hknown : knownFeedback D agentId client index s with
      | none =>
        rw [handle, handleFeedbackRevoked_of_none hknown] at h
        exact .inr ⟨f, h, rfl, .inl rfl⟩
      | some x =>
        obtain ⟨r, a, old⟩ := x
        have hold := (load_of_knownFeedback D hknown).2.2
        rw [handle, handleFeedbackRevoked_of_known hknown] at h
        simp only [Table.load_save] at h
        by_cases hid : id = feedbackEntityId D agentId client index
        · rw [if_pos hid] at h
          obtain rfl := Option.some.inj h
          exact .inr ⟨old, hid ▸ hold, rfl, .inr ⟨agentId, client, index, rfl, hid⟩⟩
        · rw [if_neg hid] at h
          exact .inr ⟨f, h, rfl, .inl rfl⟩
    | responseAppended agentId client index =>
      cases hknown : knownFeedback D agentId client index s with
      | none =>
        rw [handle, handleResponseAppended_of_none hknown] at h
        exact .inr ⟨f, h, rfl, .inl rfl⟩
      | some x =>
        obtain ⟨r, a, old⟩ := x
        have hold := (load_of_knownFeedback D hknown).2.2
        rw [handle, handleResponseAppended_of_known hknown] at h
        simp only [Table.load_save] at h
        by_cases hid : id = feedbackEntityId D agentId client index
        · rw [if_pos hid] at h
          obtain rfl := Option.some.inj h
          exact .inr ⟨old, hid ▸ hold, rfl, .inl rfl⟩
        · rw [if_neg hid] at h
          exact .inr ⟨f, h, rfl, .inl rfl⟩
    | _ => cases he

/-- A feedback that is known stays known. -/
theorem feedback_known {id : Id} (h : (s.feedbacks.load id).isSome) :
    ((handle D s e).feedbacks.load id).isSome := by
  cases he : e.isRating with
  | false =>
    have hsame : (handle D s e).feedbacks = s.feedbacks :=
      congrArg (fun r => r.2.1) (ratings_handle he)
    rw [hsame]
    exact h
  | true =>
    cases e with
    | newFeedback p =>
      cases ha : s.agents.load (agentEntityId D p.agentId) with
      | none =>
        rw [handle, handleNewFeedback_of_none ha]
        exact h
      | some a =>
        rw [handle, handleNewFeedback_of_some ha]
        exact Table.isSome_load_save h
    | feedbackRevoked agentId client index =>
      cases hknown : knownFeedback D agentId client index s with
      | none =>
        rw [handle, handleFeedbackRevoked_of_none hknown]
        exact h
      | some x =>
        obtain ⟨r, a, old⟩ := x
        rw [handle, handleFeedbackRevoked_of_known hknown]
        exact Table.isSome_load_save h
    | responseAppended agentId client index =>
      cases hknown : knownFeedback D agentId client index s with
      | none =>
        rw [handle, handleResponseAppended_of_none hknown]
        exact h
      | some x =>
        obtain ⟨r, a, old⟩ := x
        rw [handle, handleResponseAppended_of_known hknown]
        exact Table.isSome_load_save h
    | _ => cases he

/-! ### Events that come once -/

/-- What is emitted once. -/
inductive Once
  | agent (agentId : ℕ)
  | feedback (agentId : ℕ) (client : Address) (index : ℕ)
  | revocation (agentId : ℕ) (client : Address) (index : ℕ)
  deriving DecidableEq

def Event.once : Event → Option Once
  | .registered agentId _ _ => some (.agent agentId)
  | .newFeedback p => some (.feedback p.agentId p.client p.feedbackIndex)
  | .feedbackRevoked agentId client index => some (.revocation agentId client index)
  | _ => none

/-- What a history has emitted. -/
def emitted (history : List (Call (Store W) Event)) : List Once :=
  history.filterMap (fun c => c.act.once)

variable {history : List (Call (Store W) Event)}

omit [DecidableEq W] in
theorem emitted_snoc (c : Call (Store W) Event) :
    emitted (history ++ [c]) = emitted history ++ c.act.once.toList := by
  rw [emitted, List.filterMap_append]
  refine congrArg (emitted history ++ ·) ?_
  rw [List.filterMap_cons]
  cases c.act.once with
  | none => rfl
  | some k => rfl

variable (D) in
/-- What is in the store has been emitted. -/
structure Emitted (history : List (Call (Store W) Event)) (s : Store W) : Prop where
  agents : ∀ n, (s.agents.load (agentEntityId D n)).isSome → .agent n ∈ emitted history
  feedbacks : ∀ agentId client index,
    (s.feedbacks.load (feedbackEntityId D agentId client index)).isSome →
    .feedback agentId client index ∈ emitted history
  revoked : ∀ agentId client index f,
    s.feedbacks.load (feedbackEntityId D agentId client index) = some f → f.isRevoked = true →
    .revocation agentId client index ∈ emitted history

omit [DecidableEq W] in
theorem Emitted.init : Emitted D [] (Store.empty : Store W) where
  agents n h := by cases h
  feedbacks agentId client index h := by cases h
  revoked agentId client index f h := by cases h

theorem Emitted.step (h : Emitted D history s) :
    Emitted D (history ++ [⟨s, e, handle D s e⟩]) (handle D s e) := by
  have hold : ∀ k, k ∈ emitted history → k ∈ emitted (history ++ [⟨s, e, handle D s e⟩]) :=
    fun k hk => by rw [emitted_snoc]; exact List.mem_append_left _ hk
  have hnow : ∀ k, e.once = some k → k ∈ emitted (history ++ [⟨s, e, handle D s e⟩]) :=
    fun k hk => by rw [emitted_snoc, hk]; exact List.mem_append_right _ List.mem_cons_self
  constructor
  · intro n hn
    rcases (agents_isSome D s e _).mp hn with hknown | ⟨agentId, agentURI, owner, rfl, hid⟩
    · exact hold _ (h.agents n hknown)
    · exact hnow _ (by rw [agentEntityId_inj hid]; rfl)
  · intro agentId client index hsome
    obtain ⟨f, hf⟩ := Option.isSome_iff_exists.mp hsome
    rcases feedback_cases hf with ⟨p, a, rfl, -, hid, -⟩ | ⟨old, hload, -⟩
    · obtain ⟨rfl, rfl, rfl⟩ := feedbackEntityId_inj hid
      exact hnow _ rfl
    · exact hold _ (h.feedbacks agentId client index (by rw [hload]; rfl))
  · intro agentId client index f hf hrevoked
    rcases feedback_cases hf with ⟨p, a, rfl, -, -, rfl⟩ |
      ⟨old, hload, -, hsame | ⟨agentId', client', index', rfl, hid⟩⟩
    · cases hrevoked
    · exact hold _ (h.revoked agentId client index old hload (hsame.symm.trans hrevoked))
    · obtain ⟨rfl, rfl, rfl⟩ := feedbackEntityId_inj hid
      exact hnow _ rfl

/-- The store does not hold what the event brings. -/
def Unrepeated (D : Deployment W) (s : Store W) : Event → Prop
  | .registered agentId _ _ => s.agents.load (agentEntityId D agentId) = none
  | .newFeedback p =>
    s.feedbacks.load (feedbackEntityId D p.agentId p.client p.feedbackIndex) = none
  | .feedbackRevoked agentId client index => ∀ f,
    s.feedbacks.load (feedbackEntityId D agentId client index) = some f → f.isRevoked = false
  | _ => True

omit [DecidableEq W] in
theorem Unrepeated.agent (h : Unrepeated D s e) : FreshAgent D s e := by
  cases e with
  | registered agentId agentURI owner => exact h
  | _ => trivial

omit [DecidableEq W] in
/-- **An event that comes once finds the store without it.** -/
theorem Emitted.unrepeated (h : Emitted D history s)
    (honce : ∀ k, e.once = some k → k ∉ emitted history) : Unrepeated D s e := by
  cases e with
  | registered agentId agentURI owner =>
    refine Option.not_isSome_iff_eq_none.mp ?_
    exact fun hsome => honce _ rfl (h.agents agentId hsome)
  | newFeedback p =>
    refine Option.not_isSome_iff_eq_none.mp ?_
    exact fun hsome => honce _ rfl (h.feedbacks _ _ _ hsome)
  | feedbackRevoked agentId client index =>
    intro f hf
    refine Bool.eq_false_iff.mpr ?_
    exact fun hrevoked => honce _ rfl (h.revoked _ _ _ f hf hrevoked)
  | _ => trivial

end Bufi.Subgraph
