import Bufi.Subgraph.Core

/-!
# Wallet bindings

`agentWallet` is metadata of an agent, and `WalletBinding` its inverse: the agent behind a
wallet.  Several agents may have one wallet in their metadata; the binding belongs to the
one that set it last.  When that agent gives the wallet up, its binding is dropped, and
the others are not looked at: the wallet is then bound to nobody although an agent has
it (`not_inStep_dropped`).

`InStep` is that the bindings say what the metadata says.  It holds after every run in
which no agent gives up a wallet that it is bound to and another agent has, no agent that
is bound is registered again, and a burned agent gets no wallet (`inStep_of_tidy`).
-/

namespace Bufi.Subgraph

open Bufi.Evm Bufi.Index

variable {W : Type} (D : Deployment W)

/-- The call sets the wallet of an agent that is known. -/
def Sets (c : Call (Store W) Event) (id : Id) (w : Address) : Prop :=
  ∃ agentId value, c.act = .metadataSet agentId "agentWallet" value ∧
    agentEntityId D agentId = id ∧ (c.pre.agents.load id).isSome ∧
    agentWalletFromMetadataValue value = some w

/-- The bindings are in step with the metadata. -/
structure InStep (history : List (Call (Store W) Event)) (s : Store W) : Prop where
  bound : ∀ w b, s.walletBindings.load w = some b → ∃ a, s.agents.load b.agent = some a ∧
    a.agentWallet = some w ∧ a.isBurned = false
  one : ∀ w b b', s.walletBindings.load w = some b → s.walletBindings.load w = some b' →
    b.agent = b'.agent
  /-- The wallet of an agent is bound, to the one that set it last. -/
  last : ∀ w id a, s.agents.load id = some a → a.agentWallet = some w →
    ∃ b, s.walletBindings.load w = some b ∧
      ∃ (i : ℕ) (c : Call (Store W) Event), history[i]? = some c ∧ Sets D c b.agent w ∧
        ∀ (j : ℕ) (c' : Call (Store W) Event) (id' : Id) (a' : Agent),
          s.agents.load id' = some a' → a'.agentWallet = some w →
          history[j]? = some c' → Sets D c' id' w → j ≤ i

/-! ### What goes wrong -/

/-- No wallet is bound to the agent. -/
def Unbound (s : Store W) (id : Id) : Prop :=
  ∀ w b, s.walletBindings.load w = some b → b.agent ≠ id

instance (s : Store W) (id : Id) : Decidable (Unbound s id) :=
  Table.decidableForallLoad (t := s.walletBindings)

/-- If the wallet is bound to the agent, then no other agent has it. -/
def FreeToDrop (s : Store W) (id : Id) (w : Address) : Prop :=
  s.walletBindings.load w = some ⟨id⟩ → ∀ id' a', s.agents.load id' = some a' → id' ≠ id →
    a'.agentWallet ≠ some w

instance (s : Store W) (id : Id) (w : Address) : Decidable (FreeToDrop s id w) :=
  inferInstanceAs (Decidable (_ → _))

/-- The agent may go from one wallet to another, or to none. -/
def MayChange (s : Store W) (id : Id) (old new : Option Address) : Prop :=
  ∀ w ∈ old, new ≠ some w → FreeToDrop s id w

instance (s : Store W) (id : Id) (old new : Option Address) : Decidable (MayChange s id old new) :=
  Option.decidableForallMem old

/-- The events that keep the bindings in step: an agent that is registered is not bound,
a burned one gets no wallet, and a wallet that is given up is free to drop. -/
def Tidy (s : Store W) : Event → Prop
  | .registered agentId _ _ => Unbound s (agentEntityId D agentId)
  | .metadataSet agentId key value =>
    key = "agentWallet" → ∀ a ∈ s.agents.load (agentEntityId D agentId),
      (a.isBurned = true → agentWalletFromMetadataValue value = none) ∧
      MayChange s (agentEntityId D agentId) a.agentWallet (agentWalletFromMetadataValue value)
  | .transfer sender _ tokenId =>
    sender ≠ 0 → ∀ a ∈ s.agents.load (agentEntityId D tokenId),
      MayChange s (agentEntityId D tokenId) a.agentWallet none
  | _ => True

instance (s : Store W) : DecidablePred (Tidy D s)
  | .registered _ _ _ => inferInstanceAs (Decidable (Unbound s _))
  | .metadataSet _ _ _ => inferInstanceAs (Decidable (_ = _ → ∀ a ∈ s.agents.load _, _ ∧ _))
  | .transfer _ _ _ =>
    inferInstanceAs (Decidable (_ ≠ _ → ∀ a ∈ s.agents.load _, MayChange s _ _ _))
  | .uriUpdated _ _ | .jobCreated _ _ _ _ | .providerSet _ _ | .budgetSet _ _ | .jobFunded _ _
  | .jobSubmitted _ | .jobCompleted _ | .jobRejected _ | .jobExpired _ | .paymentReleased _ _
  | .evaluatorFeePaid _ _ | .refunded _ _ | .hookWhitelistUpdated | .upgraded _ | .newFeedback _
  | .feedbackRevoked _ _ _ | .responseAppended _ _ _ => .isTrue trivial

/-! ### The invariant -/

/-- What is carried along a run, of the core. -/
structure CoreInStep (history : List (Call (Store W) Event)) (c : Core W) : Prop where
  bound : ∀ w id, c.bindings w = some id → c.agents id = some ⟨some w, false⟩
  held : ∀ w id face, c.agents id = some face → face.agentWallet = some w → c.bindings w ≠ none
  last : ∀ w id, c.bindings w = some id →
    ∃ (i : ℕ) (call : Call (Store W) Event), history[i]? = some call ∧ Sets D call id w ∧
      ∀ (j : ℕ) (call' : Call (Store W) Event) (id' : Id),
        history[j]? = some call' → Sets D call' id' w → j ≤ i

variable {D} {history : List (Call (Store W) Event)} {call : Call (Store W) Event} {c : Core W}

/-- A call that does not set the wallet. -/
theorem last_snoc (h : CoreInStep D history c) {w : Address} {id : Id}
    (hnew : ∀ id', ¬ Sets D call id' w) (hid : c.bindings w = some id) :
    ∃ (i : ℕ) (call' : Call (Store W) Event),
      (history ++ [call])[i]? = some call' ∧ Sets D call' id w ∧
      ∀ (j : ℕ) (call'' : Call (Store W) Event) (id' : Id),
        (history ++ [call])[j]? = some call'' → Sets D call'' id' w → j ≤ i := by
  obtain ⟨i, call', hi, hsets, hlast⟩ := h.last w id hid
  have hilt := (List.getElem?_eq_some_iff.mp hi).1
  refine ⟨i, call', by rw [List.getElem?_append_left hilt]; exact hi, hsets, ?_⟩
  intro j call'' id' hj hset
  rcases Nat.lt_or_ge j history.length with hjlt | hjge
  · rw [List.getElem?_append_left hjlt] at hj
    exact hlast j call'' id' hj hset
  · rw [List.getElem?_append_right hjge] at hj
    have hmem : call'' = call := by
      have := List.mem_of_getElem? hj
      simpa using this
    rw [hmem] at hset
    exact absurd hset (hnew id')

/-- A call that sets no wallet and changes neither agents nor bindings. -/
theorem CoreInStep.same (h : CoreInStep D history c) {c' : Core W}
    (hagents : c'.agents = c.agents) (hbindings : c'.bindings = c.bindings)
    (hnew : ∀ id w, ¬ Sets D call id w) : CoreInStep D (history ++ [call]) c' := by
  constructor
  · rw [hagents, hbindings]
    exact h.bound
  · rw [hagents, hbindings]
    exact h.held
  · intro w id hw
    rw [hbindings] at hw
    exact last_snoc h (fun id' => hnew id' w) hw

/-- The bindings after a change of wallets. -/
theorem bindings_change (id : Id) (old wallet : Option Address) (face : Face) (w : Address) :
    (((c.unbind id old).bind id wallet).setFace id face).bindings w =
      if wallet = some w then some id
      else if old = some w ∧ c.bindings w = some id then none else c.bindings w := rfl

/-- **An agent changes its wallet.**  The old one, if it is bound to the agent, is free to
drop. -/
theorem CoreInStep.change (h : CoreInStep D history c) {id : Id} {old wallet : Option Address}
    {burned : Bool} (hburned : burned = true → wallet = none)
    (hold : ∀ w, c.bindings w = some id → old = some w)
    (hdrop : ∀ w, c.bindings w = some id → wallet ≠ some w → ∀ id' face, id' ≠ id →
      c.agents id' = some face → face.agentWallet ≠ some w)
    (hsets : ∀ id' w, Sets D call id' w ↔ id' = id ∧ wallet = some w) :
    CoreInStep D (history ++ [call])
      (((c.unbind id old).bind id wallet).setFace id ⟨wallet, burned⟩) := by
  have hagents : (((c.unbind id old).bind id wallet).setFace id ⟨wallet, burned⟩).agents =
      Function.update c.agents id (some ⟨wallet, burned⟩) := rfl
  constructor
  · intro w id' hw
    rw [bindings_change] at hw
    rw [hagents]
    by_cases hwallet : wallet = some w
    · rw [if_pos hwallet] at hw
      obtain rfl := Option.some.inj hw
      have hnot : burned = false := by
        cases burned with
        | false => rfl
        | true =>
          rw [hburned rfl] at hwallet
          cases hwallet
      rw [Function.update_self, hwallet, hnot]
    · rw [if_neg hwallet] at hw
      by_cases hown : old = some w ∧ c.bindings w = some id
      · rw [if_pos hown] at hw
        cases hw
      · rw [if_neg hown] at hw
        have hne : id' ≠ id := by
          intro heq
          rw [heq] at hw
          exact hown ⟨hold w hw, hw⟩
        rw [Function.update_of_ne hne]
        exact h.bound w id' hw
  · intro w id' face hface hw
    rw [bindings_change]
    rw [hagents] at hface
    by_cases hwallet : wallet = some w
    · rw [if_pos hwallet]
      exact Option.some_ne_none id
    · rw [if_neg hwallet]
      by_cases hid : id' = id
      · rw [hid, Function.update_self] at hface
        obtain rfl := Option.some.inj hface
        exact absurd hw hwallet
      · rw [Function.update_of_ne hid] at hface
        by_cases hown : old = some w ∧ c.bindings w = some id
        · exact absurd hw (hdrop w hown.2 hwallet id' face hid hface)
        · rw [if_neg hown]
          exact h.held w id' face hface hw
  · intro w id' hw
    rw [bindings_change] at hw
    by_cases hwallet : wallet = some w
    · rw [if_pos hwallet] at hw
      obtain rfl := Option.some.inj hw
      refine ⟨history.length, call, List.getElem?_concat_length, (hsets _ w).mpr ⟨rfl, hwallet⟩, ?_⟩
      intro j call' id' hj _
      have hlt := (List.getElem?_eq_some_iff.mp hj).1
      rw [List.length_append, List.length_singleton] at hlt
      omega
    · rw [if_neg hwallet] at hw
      by_cases hown : old = some w ∧ c.bindings w = some id
      · rw [if_pos hown] at hw
        cases hw
      · rw [if_neg hown] at hw
        exact last_snoc h (fun id'' hset => hwallet ((hsets id'' w).mp hset).2) hw

/-! ### Steps -/

variable {s : Store W}

theorem core_bindings_eq_some {w : Address} {id : Id} :
    s.core.bindings w = some id ↔ s.walletBindings.load w = some ⟨id⟩ := by
  show (s.walletBindings.load w).map WalletBinding.agent = some id ↔ _
  cases hb : s.walletBindings.load w with
  | none => simp
  | some b =>
    obtain ⟨agent⟩ := b
    simp

/-- A wallet that is free to drop, in terms of the core. -/
theorem FreeToDrop.core {id : Id} {w : Address} (h : FreeToDrop s id w)
    (hw : s.core.bindings w = some id) {id' : Id} {face : Face} (hne : id' ≠ id)
    (hface : s.core.agents id' = some face) : face.agentWallet ≠ some w := by
  obtain ⟨a, ha, rfl⟩ := Option.map_eq_some_iff.mp hface
  exact h (core_bindings_eq_some.mp hw) id' a ha hne

/-- An agent is bound to its own wallet only. -/
theorem CoreInStep.wallet_of_load (h : CoreInStep D history s.core) {id : Id} {a : Agent}
    (ha : s.agents.load id = some a) (w : Address) (hw : s.core.bindings w = some id) :
    a.agentWallet = some w := by
  have hface := h.bound w id hw
  rw [core_agents_of_load ha] at hface
  exact congrArg Face.agentWallet (Option.some.inj hface)

/-- The calls that set no wallet. -/
theorem not_sets (hact : ∀ agentId value, call.act ≠ .metadataSet agentId "agentWallet" value)
    (id : Id) (w : Address) : ¬ Sets D call id w := by
  intro hset
  obtain ⟨agentId, value, heq, -⟩ := hset
  exact hact agentId value heq

theorem inStep_registered (h : CoreInStep D history s.core) {agentId : ℕ} {agentURI : String}
    {owner : Address} (ht : Tidy D s (.registered agentId agentURI owner)) (s' : Store W) :
    CoreInStep D (history ++ [⟨s, .registered agentId agentURI owner, s'⟩])
      (coreStep D s.core (.registered agentId agentURI owner)) := by
  have hnot : ∀ w, s.core.bindings w ≠ some (agentEntityId D agentId) :=
    fun w hw => ht w _ (core_bindings_eq_some.mp hw) rfl
  have hcore : coreStep D s.core (.registered agentId agentURI owner) =
      ((s.core.unbind (agentEntityId D agentId) none).bind (agentEntityId D agentId) none).setFace
        (agentEntityId D agentId) ⟨none, false⟩ := by
    rw [coreStep]
    simp [Core.unbind, Core.bind]
  rw [hcore]
  refine h.change (fun _ => rfl) (fun w hw => absurd hw (hnot w))
    (fun w hw => absurd hw (hnot w)) ?_
  intro id' w
  refine iff_of_false (not_sets (fun _ _ heq => by cases heq) id' w) ?_
  exact fun hand => by cases hand.2

theorem inStep_metadataSet (h : CoreInStep D history s.core) {agentId : ℕ} {key : String}
    {value : Bytes} (ht : Tidy D s (.metadataSet agentId key value)) (s' : Store W) :
    CoreInStep D (history ++ [⟨s, .metadataSet agentId key value, s'⟩])
      (coreStep D s.core (.metadataSet agentId key value)) := by
  rw [coreStep]
  cases ha : s.agents.load (agentEntityId D agentId) with
  | none =>
    rw [onFace_of_none D (core_agents_of_none ha)]
    refine h.same rfl rfl ?_
    intro id w hset
    obtain ⟨agentId', value', heq, rfl, hsome, -⟩ := hset
    injection heq with hagent
    rw [← hagent, ha] at hsome
    cases hsome
  | some a =>
    rw [onFace_of_some D (core_agents_of_load ha)]
    by_cases hkey : key = "agentWallet"
    · rw [if_pos hkey]
      obtain ⟨hburned, hdrop⟩ := ht hkey a ha
      have hwallet := h.wallet_of_load ha
      refine h.change hburned hwallet ?_ ?_
      · intro w hw hne id' face hid hface
        exact (hdrop w (hwallet w hw) hne).core hw hid hface
      · intro id' w
        constructor
        · intro hset
          obtain ⟨agentId', value', heq, rfl, -, hvalue⟩ := hset
          injection heq with hagent hkey' hval
          rw [hagent, hval]
          exact ⟨rfl, hvalue⟩
        · intro hand
          refine ⟨agentId, value, by rw [hkey], hand.1.symm, ?_, hand.2⟩
          show (s.agents.load id').isSome = true
          rw [hand.1, ha]
          rfl
    · rw [if_neg hkey]
      refine h.same rfl rfl (not_sets ?_)
      intro agentId' value' heq
      injection heq with _ hkey'
      exact hkey hkey'

theorem inStep_transfer (h : CoreInStep D history s.core) {sender receiver : Address}
    {tokenId : ℕ} (ht : Tidy D s (.transfer sender receiver tokenId)) (s' : Store W) :
    CoreInStep D (history ++ [⟨s, .transfer sender receiver tokenId, s'⟩])
      (coreStep D s.core (.transfer sender receiver tokenId)) := by
  have hsets : ∀ id w, ¬ Sets D ⟨s, .transfer sender receiver tokenId, s'⟩ id w :=
    not_sets (fun _ _ heq => by cases heq)
  rw [coreStep]
  by_cases hsender : sender = 0
  · rw [if_pos hsender]
    exact h.same rfl rfl hsets
  rw [if_neg hsender]
  cases ha : s.agents.load (agentEntityId D tokenId) with
  | none =>
    rw [onFace_of_none D (core_agents_of_none ha)]
    exact h.same rfl rfl hsets
  | some a =>
    rw [onFace_of_some D (core_agents_of_load ha)]
    have hwallet := h.wallet_of_load ha
    have hbind : ∀ c : Core W, c = c.bind (agentEntityId D tokenId) none := by
      intro c
      simp [Core.bind]
    rw [hbind (s.core.unbind _ _)]
    refine h.change (fun _ => rfl) hwallet ?_ ?_
    · intro w hw _ id' face hid hface
      exact (ht hsender a ha w (hwallet w hw) (Option.some_ne_none w).symm).core hw hid hface
    · intro id' w
      refine iff_of_false (hsets id' w) ?_
      exact fun hand => by cases hand.2

theorem inStep_onJob (h : CoreInStep D history s.core) (jobId : ℕ) (f : Job W → Job W)
    (hact : ∀ agentId value, call.act ≠ .metadataSet agentId "agentWallet" value) :
    CoreInStep D (history ++ [call]) (s.core.onJob D jobId f) := by
  unfold Core.onJob
  cases s.core.jobs (jobEntityId D jobId) with
  | none => exact h.same rfl rfl (not_sets hact)
  | some job => exact h.same rfl rfl (not_sets hact)

/-- **A tidy event keeps the bindings in step.** -/
theorem CoreInStep.step (h : CoreInStep D history s.core) {e : Event} (ht : Tidy D s e)
    (s' : Store W) : CoreInStep D (history ++ [⟨s, e, s'⟩]) (coreStep D s.core e) := by
  cases e with
  | registered agentId agentURI owner => exact inStep_registered h ht s'
  | metadataSet agentId key value => exact inStep_metadataSet h ht s'
  | transfer sender receiver tokenId => exact inStep_transfer h ht s'
  | jobCreated jobId client provider budget =>
    exact h.same rfl rfl (not_sets (fun _ _ heq => by cases heq))
  | providerSet jobId provider => exact inStep_onJob h _ _ (fun _ _ heq => by cases heq)
  | budgetSet jobId amount => exact inStep_onJob h _ _ (fun _ _ heq => by cases heq)
  | jobFunded jobId amount => exact inStep_onJob h _ _ (fun _ _ heq => by cases heq)
  | jobSubmitted jobId => exact inStep_onJob h _ _ (fun _ _ heq => by cases heq)
  | jobCompleted jobId => exact inStep_onJob h _ _ (fun _ _ heq => by cases heq)
  | jobRejected jobId => exact inStep_onJob h _ _ (fun _ _ heq => by cases heq)
  | jobExpired jobId => exact inStep_onJob h _ _ (fun _ _ heq => by cases heq)
  | paymentReleased jobId amount => exact inStep_onJob h _ _ (fun _ _ heq => by cases heq)
  | evaluatorFeePaid jobId amount => exact inStep_onJob h _ _ (fun _ _ heq => by cases heq)
  | refunded jobId amount => exact inStep_onJob h _ _ (fun _ _ heq => by cases heq)
  | uriUpdated _ _ | hookWhitelistUpdated | upgraded _ | newFeedback _ | feedbackRevoked _ _ _
  | responseAppended _ _ _ =>
    exact h.same rfl rfl (not_sets (fun _ _ heq => by cases heq))

theorem CoreInStep.init : CoreInStep D [] (Store.empty : Store W).core := by
  constructor
  · intro w id hw
    cases hw
  · intro w id face hface
    cases hface
  · intro w id hw
    cases hw

/-- What the invariant says of the store. -/
theorem CoreInStep.inStep (h : CoreInStep D history s.core) : InStep D history s := by
  constructor
  · intro w b hb
    have hface := h.bound w b.agent (core_bindings_eq_some.mpr hb)
    obtain ⟨a, ha, heq⟩ := Option.map_eq_some_iff.mp hface
    exact ⟨a, ha, congrArg Face.agentWallet heq, congrArg Face.isBurned heq⟩
  · intro w b b' hb hb'
    rw [hb] at hb'
    rw [Option.some.inj hb']
  · intro w id a ha hw
    have hbound := h.held w id a.face (core_agents_of_load ha) hw
    obtain ⟨id', hid'⟩ := Option.ne_none_iff_exists'.mp hbound
    refine ⟨⟨id'⟩, core_bindings_eq_some.mp hid', ?_⟩
    obtain ⟨i, call, hi, hset, hlast⟩ := h.last w id' hid'
    exact ⟨i, call, hi, hset, fun j call' id'' _ _ _ hj hset' => hlast j call' id'' hj hset'⟩

variable [DecidableEq W]

/-- **The bindings are in step** after every run of tidy events. -/
theorem inStep_of_tidy (hr : Run (indexStep D) Store.empty history s)
    (ht : ∀ c ∈ history, Tidy D c.pre c.act) : InStep D history s := by
  suffices h : CoreInStep D history s.core from h.inStep
  induction hr with
  | nil => exact CoreInStep.init
  | @snoc history s s' e hr hs ih =>
    have hprev := ih (fun c hc => ht c (List.mem_append_left _ hc))
    have htidy : Tidy D s e := ht ⟨s, e, s'⟩ (by simp)
    obtain rfl := Option.some.inj hs
    rw [core_handle]
    exact hprev.step htidy _

/-! ### Two agents with one wallet -/

/-- The wallet of the examples, as a metadata value. -/
def walletValue : Bytes := List.replicate 19 0 ++ [7]

/-- Two agents set one wallet, and the second clears it. -/
def droppedEvents : List Event :=
  [.registered 1 "" 10, .registered 2 "" 20, .metadataSet 1 "agentWallet" walletValue,
    .metadataSet 2 "agentWallet" walletValue, .metadataSet 2 "agentWallet" []]

/-- The first agent still has the wallet, and it is bound to nobody. -/
theorem not_inStep_dropped :
    ∃ history s, Run (indexStep arcTestnet) Store.empty history s ∧
      history.map Call.act = droppedEvents ∧ ¬ InStep arcTestnet history s := by
  have hr := Run.of_attempts (indexStep arcTestnet) Store.empty droppedEvents
  have hfacts : (attempts (indexStep arcTestnet) Store.empty droppedEvents).map Call.act =
        droppedEvents ∧
      ((afterAttempts (indexStep arcTestnet) Store.empty droppedEvents).agents.load
        (agentEntityId arcTestnet 1)).map Agent.agentWallet = some (some 7) ∧
      (afterAttempts (indexStep arcTestnet) Store.empty droppedEvents).walletBindings.load 7 =
        none := by
    decide +kernel
  obtain ⟨hacts, hwallet, hnone⟩ := hfacts
  refine ⟨_, _, hr, hacts, ?_⟩
  intro h
  obtain ⟨a, ha, hw⟩ := Option.map_eq_some_iff.mp hwallet
  obtain ⟨b, hb, -⟩ := h.last 7 _ a ha hw
  rw [hnone] at hb
  cases hb

/-- The first agent clears the wallet before the second goes to another owner. -/
def tidyEvents : List Event :=
  [.registered 1 "" 10, .registered 2 "" 20, .metadataSet 1 "agentWallet" walletValue,
    .metadataSet 2 "agentWallet" walletValue, .metadataSet 1 "agentWallet" [],
    .transfer 20 30 2, .metadataSet 2 "agentWallet" walletValue]

theorem inStep_of_tidy_cleared :
    ∃ history s, Run (indexStep arcTestnet) Store.empty history s ∧
      history.map Call.act = tidyEvents ∧
      s.walletBindings.load 7 = some ⟨agentEntityId arcTestnet 2⟩ ∧
      InStep arcTestnet history s := by
  have hr := Run.of_attempts (indexStep arcTestnet) Store.empty tidyEvents
  have hfacts : (attempts (indexStep arcTestnet) Store.empty tidyEvents).map Call.act =
        tidyEvents ∧
      (∀ c ∈ attempts (indexStep arcTestnet) Store.empty tidyEvents,
        Tidy arcTestnet c.pre c.act) ∧
      (afterAttempts (indexStep arcTestnet) Store.empty tidyEvents).walletBindings.load 7 =
        some ⟨agentEntityId arcTestnet 2⟩ := by
    decide +kernel
  obtain ⟨hacts, htidy, hbound⟩ := hfacts
  exact ⟨_, _, hr, hacts, hbound, inStep_of_tidy hr htidy⟩

end Bufi.Subgraph
