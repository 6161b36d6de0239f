import Bufi.Send.Pipeline
import Bufi.Send.Quorum

/-!
# One payment at a time

At most one job runs, whatever happens (`OneJob`).

An intent that the Gateway has accepted and that has no mint receipt yet is
unresolved.  `Books` keeps track of them: the server waits for the reply to it, or it
has the attestation and holds it back from other sends.  That breaks where the
Gateway accepts and the server does not learn it: the answer is lost or cannot be
read, or the server is restarted while the attestation was not written, or its file is
not readable.  `Kept` is that none of this happens in a step; the books are then right in
every state of a run.  A file that was written stays until the mint receipt
(`Books.written`).
-/

namespace Bufi.Send

open Bufi.Evm Bufi.Js

/-! ### At most one job -/

/-- At most one job runs, and the flag names it. -/
inductive OneJob (w : World) : Prop
  | idle (live : w.live = []) (running : w.running = none)
  | busy (j : Job) (live : w.live = [j]) (running : w.running = some j.id)

section

variable {v : Viem} {ids : ℕ → String} {w w' : World} {jobId : String} {j : Job}

theorem OneJob.live_of_jobOf (h : OneJob w) (hj : jobOf w jobId = some j) :
    w.live = [j] ∧ w.running = some j.id ∧ j.id = jobId := by
  have hmem := List.mem_of_find?_eq_some hj
  have hid := List.find?_some hj
  cases h with
  | idle live running =>
    rw [live] at hmem
    exact absurd hmem List.not_mem_nil
  | busy j' live running =>
    rw [live, List.mem_singleton] at hmem
    rw [hmem]
    exact ⟨live, running, by simpa [hmem] using hid⟩

theorem OneJob.live_of_idle (h : OneJob w) (hidle : w.running = none) : w.live = [] := by
  cases h with
  | idle live running => exact live
  | busy j live running =>
    rw [running] at hidle
    cases hidle

theorem requireIdle_eq_ok {u : Unit} : requireIdle w = .ok u ↔ w.running = none := by
  rw [requireIdle]
  cases w.running with
  | none => exact iff_of_true rfl rfl
  | some id => exact iff_of_false nofun nofun

theorem assertNoPendingMint_eq_ok {pendingMints : List (String × PendingMint)}
    {recipient : String} {value : ℤ} {u : Unit} :
    assertNoPendingMint pendingMints recipient value = .ok u
      ↔ ∀ e ∈ pendingMints, e.2.sameAs recipient value = false := by
  rw [assertNoPendingMint]
  cases hf : pendingMints.find? (fun e => e.2.sameAs recipient value) with
  | none => exact iff_of_true rfl (by simpa using List.find?_eq_none.mp hf)
  | some e =>
    refine iff_of_false nofun (fun h => ?_)
    have hsame := List.find?_some hf
    rw [h e (List.mem_of_find?_eq_some hf)] at hsame
    cases hsame

theorem startSend_eq_ok {i : ValidateInput} :
    startSend v ids i w = .ok w'
      ↔ ∃ plan, validateSend v i = .ok plan
        ∧ (∀ e ∈ w.pendingMints, e.2.sameAs i.recipient plan.value = false) ∧ w.running = none
        ∧ ∃ j : Job, j = ⟨ids w.drawn, i.recipient, plan.value, plan.source, i.allowlisted,
            .approvals⟩
          ∧ w' = { w with running := some j.id, live := w.live ++ [j], drawn := w.drawn + 1,
                          issued := w.issued ++ [j.intent] } := by
  simp only [startSend, bind_eq_ok, assertNoPendingMint_eq_ok, requireIdle_eq_ok, exists_const,
    pure_eq_ok, exists_eq_left]

theorem resumable_eq_ok {p : PendingMint} {dest : Dest} :
    resumable w jobId = .ok (p, dest)
      ↔ w.pendingMints.lookup jobId = some p
        ∧ (truthyText p.attestation = true ∧ truthyText p.signature = true)
        ∧ p.dest = some dest := by
  simp only [resumable, bind_eq_ok, orRevert_eq_ok, require_eq_ok, exists_const, pure_eq_ok,
    Prod.mk.injEq]
  constructor
  · rintro ⟨p', hp, ht, d, hd, rfl, rfl⟩
    exact ⟨hp, ht, hd⟩
  · rintro ⟨hp, ht, hd⟩
    exact ⟨p, hp, ht, dest, hd, rfl, rfl⟩

theorem resumeMint_eq_ok :
    resumeMint jobId w = .ok w'
      ↔ ∃ p dest, resumable w jobId = .ok (p, dest) ∧ w.running = none
        ∧ ∃ j : Job, j = ⟨jobId, p.recipient, p.value, dest.source, true,
            .minting p.attestation p.signature⟩
          ∧ w' = { w with running := some jobId, live := w.live ++ [j] } := by
  simp only [resumeMint, bind_eq_ok, requireIdle_eq_ok, exists_const, pure_eq_ok, exists_eq_left,
    Prod.exists]

theorem finish_eq (hlive : w.live = [j]) :
    finish j.id w = { w with running := none, live := [] } := by
  rw [finish, hlive]
  simp

theorem setStage_eq (hlive : w.live = [j]) (stage : Stage) :
    setStage j.id stage w = { w with live := [{ j with stage }] } := by
  rw [setStage, hlive]
  simp

/-! ### Steps -/

/-- The Gateway has accepted an intent, and no mint receipt for it has succeeded. -/
def Unresolved (w : World) (i : Intent) : Prop := i ∈ w.accepted ∧ i.id ∉ w.minted

/-- A body with an attestation and a signature. -/
def Answer.Readable (a : Answer) : Prop :=
  a.ok = true ∧ ∃ attestation signature, a.body = some (attestation, signature)
    ∧ truthyText attestation = true ∧ truthyText signature = true

/-- The server learns what the Gateway accepts: it still waits for the reply, the
answer arrives and can be read, and at a restart the write of the attestation has
succeeded and its file can be read. -/
def Kept (w : World) : Event → Prop
  | .decide i true => ∃ j ∈ w.live, j.id = i.id ∧ ∃ tries, j.stage = .posted tries none
  | .lost jobId => ∀ j ∈ w.live, j.id = jobId → ∀ tries, j.stage ≠ .posted tries (some true)
  | .answer jobId a => ∀ j ∈ w.live, j.id = jobId →
      ∀ tries, j.stage = .posted tries (some true) → a.Readable
  | .restart unreadable => ∀ i, Unresolved w i → i.id ∈ w.written ∧ unreadable i.id = false
  | _ => True

/-- What an event can do to a world with at most one job. -/
inductive Happens (v : Viem) (ids : ℕ → String) (w : World) : Event → World → Prop
  | started {i : ValidateInput} {j : Job} (hidle : w.live = []) (hid : j.id = ids w.drawn)
      (hstage : j.stage = .approvals)
      (hfree : ∀ e ∈ w.pendingMints, e.2.sameAs j.recipient j.value = false) :
      Happens v ids w (.request i) { w with running := some j.id, live := [j],
                                            drawn := w.drawn + 1,
                                            issued := w.issued ++ [j.intent] }
  | resumed {jobId : String} {j : Job} {p : PendingMint} (hidle : w.live = [])
      (hp : (jobId, p) ∈ w.pendingMints) (hintent : j.intent = ⟨jobId, p.recipient, p.value⟩)
      (hstage : j.stage = .minting p.attestation p.signature) :
      Happens v ids w (.resume jobId) { w with running := some j.id, live := [j] }
  | ended {e : Event} {j : Job} (hlive : w.live = [j])
      (hkept : Kept w e → ∀ tries, j.stage ≠ .posted tries (some true)) :
      Happens v ids w e { w with running := none, live := [] }
  | posted {j : Job} {tries : ℕ} (hlive : w.live = [j])
      (hstage : j.stage = .approvals ∨ ∃ n, j.stage = .retrying n) :
      Happens v ids w (.post j.id) { w with live := [{ j with stage := .posted tries none }],
                                            inFlight := w.inFlight ++ [j.intent] }
  | decided {i : Intent} {accept : Bool} (hmem : i ∈ w.inFlight) :
      Happens v ids w (.decide i accept) (onDecide i accept w)
  | retried {j : Job} {a : Answer} {tries : ℕ} {reply : Bool} (hlive : w.live = [j])
      (hstage : j.stage = .posted tries (some reply))
      (hkept : Kept w (.answer j.id a) → reply = false) :
      Happens v ids w (.answer j.id a) { w with live := [{ j with stage := .retrying (tries + 1) }] }
  | recorded {j : Job} {a : Answer} {p : PendingMint} {tries : ℕ} {running : Option String}
      {live : List Job} (hlive : w.live = [j]) (hstage : j.stage = .posted tries (some true))
      (hp : p.recipient = j.recipient ∧ p.value = j.value ∧ p.dest = some j.source.dest)
      (hkept : Kept w (.answer j.id a) →
        truthyText p.attestation = true ∧ truthyText p.signature = true)
      (hnext : (running = none ∧ live = [])
        ∨ (running = w.running ∧ live = [{ j with stage := .minting p.attestation p.signature }])) :
      Happens v ids w (.answer j.id a)
        { recordPendingMint j.id p a.saved w with running := running, live := live }
  | minted {j : Job} {removed : Bool} {attestation signature : Option String}
      (hlive : w.live = [j]) (hstage : j.stage = .minting attestation signature) :
      Happens v ids w (.minted j.id removed)
        { clearPendingMint j.id removed w with running := none, live := [],
                                               minted := w.minted ++ [j.id] }
  | restarted {unreadable : String → Bool} :
      Happens v ids w (.restart unreadable) (restart unreadable w)

theorem happens_of_answer {a : Answer} {tries : ℕ} {reply : Bool} (hlive : w.live = [j])
    (hstage : j.stage = .posted tries (some reply)) (hreply : a.ok = true → reply = true) :
    Happens v ids w (.answer j.id a) (onAnswer j tries a w) := by
  have hread : Kept w (.answer j.id a) → reply = true → a.Readable := by
    intro hk hr
    exact hk j (hlive ▸ List.mem_singleton_self j) rfl tries (hr ▸ hstage)
  have hstage' : ∀ n, j.stage = .posted n (some true) → reply = true := by
    intro n hn
    rw [hstage] at hn
    cases hn
    rfl
  rw [onAnswer]
  split_ifs with hok hretry
  · cases hbody : a.body with
    | none =>
      dsimp only
      rw [finish_eq hlive]
      refine .ended hlive (fun hk n hn => ?_)
      obtain ⟨-, att, sig, hb, -⟩ := hread hk (hstage' n hn)
      rw [hbody] at hb
      cases hb
    | some body =>
      obtain ⟨attestation, signature⟩ := body
      obtain rfl := hreply hok
      have hlive' : (recordPendingMint j.id ⟨j.recipient, j.value, some j.source.dest, attestation,
          signature⟩ a.saved w).live = [j] := hlive
      have hkept : Kept w (.answer j.id a) →
          truthyText attestation = true ∧ truthyText signature = true := by
        intro hk
        obtain ⟨-, att, sig, hb, ht⟩ := hread hk rfl
        rw [hbody] at hb
        obtain ⟨rfl, rfl⟩ := Prod.mk.inj (Option.some.inj hb)
        exact ht
      dsimp only
      split_ifs
      · rw [finish_eq hlive']
        exact .recorded hlive hstage ⟨rfl, rfl, rfl⟩ hkept (.inl ⟨rfl, rfl⟩)
      · rw [setStage_eq hlive']
        exact .recorded hlive hstage ⟨rfl, rfl, rfl⟩ hkept (.inr ⟨rfl, rfl⟩)
  · rw [setStage_eq hlive]
    refine .retried hlive hstage (fun hk => ?_)
    rw [← Bool.not_eq_true]
    exact fun hr => hok (hread hk hr).1
  · rw [finish_eq hlive]
    exact .ended hlive (fun hk n hn => hok (hread hk (hstage' n hn)).1)

/-- **What a step can do.** -/
theorem happens_of_step {e : Event} (hone : OneJob w) (h : pipelineStep v ids w e = some w') :
    Happens v ids w e w' := by
  cases e with
  | request i =>
    obtain ⟨plan, hplan, hfree, hidle, j, rfl, rfl⟩ :=
      startSend_eq_ok.mp (toOption_eq_some.mp h)
    have hlive := hone.live_of_idle hidle
    rw [hlive, List.nil_append]
    exact .started hlive rfl rfl hfree
  | resume jobId =>
    obtain ⟨p, dest, hp, hidle, j, rfl, rfl⟩ := resumeMint_eq_ok.mp (toOption_eq_some.mp h)
    have hlive := hone.live_of_idle hidle
    rw [hlive, List.nil_append]
    exact .resumed (j := ⟨jobId, p.recipient, p.value, dest.source, true,
      .minting p.attestation p.signature⟩) hlive (mem_of_lookup (resumable_eq_ok.mp hp).1) rfl rfl
  | fail jobId =>
    obtain ⟨j, hj, hnext⟩ := Option.bind_eq_some_iff.mp h
    obtain ⟨hlive, -, rfl⟩ := hone.live_of_jobOf hj
    split at hnext
    · obtain rfl := Option.some.inj hnext
      rename_i hstage
      rw [finish_eq hlive]
      exact .ended hlive (fun _ n hn => by rw [hstage] at hn; cases hn)
    · obtain rfl := Option.some.inj hnext
      rename_i hstage
      rw [finish_eq hlive]
      exact .ended hlive (fun _ n hn => by rw [hstage] at hn; cases hn)
    · cases hnext
  | post jobId =>
    obtain ⟨j, hj, hnext⟩ := Option.bind_eq_some_iff.mp h
    obtain ⟨hlive, -, rfl⟩ := hone.live_of_jobOf hj
    unfold onPost at hnext
    split at hnext
    · rename_i hstage
      split_ifs at hnext
      obtain rfl := Option.some.inj hnext
      rw [setStage_eq hlive]
      exact .posted hlive (.inl hstage)
    · rename_i tries hstage
      obtain rfl := Option.some.inj hnext
      rw [setStage_eq hlive]
      exact .posted hlive (.inr ⟨tries, hstage⟩)
    · cases hnext
  | decide i accept =>
    obtain ⟨hmem, h⟩ := Option.ite_none_right_eq_some.mp h
    obtain rfl := Option.some.inj h
    exact .decided hmem
  | lost jobId =>
    obtain ⟨j, hj, hnext⟩ := Option.bind_eq_some_iff.mp h
    obtain ⟨hlive, -, rfl⟩ := hone.live_of_jobOf hj
    split at hnext
    · obtain rfl := Option.some.inj hnext
      rw [finish_eq hlive]
      exact .ended hlive (fun hk => hk j (hlive ▸ List.mem_singleton_self j) rfl)
    · cases hnext
  | answer jobId a =>
    obtain ⟨j, hj, hnext⟩ := Option.bind_eq_some_iff.mp h
    obtain ⟨hlive, -, rfl⟩ := hone.live_of_jobOf hj
    split at hnext
    · rename_i tries reply hstage
      obtain ⟨hreply, hnext⟩ := Option.ite_none_right_eq_some.mp hnext
      obtain rfl := Option.some.inj hnext
      exact happens_of_answer hlive hstage hreply
    · cases hnext
  | minted jobId removed =>
    obtain ⟨j, hj, hnext⟩ := Option.bind_eq_some_iff.mp h
    obtain ⟨hlive, -, rfl⟩ := hone.live_of_jobOf hj
    split at hnext
    · rename_i att sig hstage
      obtain rfl := Option.some.inj hnext
      have hlive' : (clearPendingMint j.id removed w).live = [j] := hlive
      rw [finish_eq hlive']
      exact .minted hlive hstage
    · cases hnext
  | mintFailed jobId =>
    obtain ⟨j, hj, hnext⟩ := Option.bind_eq_some_iff.mp h
    obtain ⟨hlive, -, rfl⟩ := hone.live_of_jobOf hj
    split at hnext
    · rename_i att sig hstage
      obtain rfl := Option.some.inj hnext
      rw [finish_eq hlive]
      exact .ended hlive (fun _ n hn => by rw [hstage] at hn; cases hn)
    · cases hnext
  | restart unreadable =>
    obtain rfl := Option.some.inj h
    exact .restarted

/-- The jobs whose reply has come keep everything but their stage. -/
theorem onDecide_live {i : Intent} {accept : Bool} (hlive : w.live = [j]) :
    ∃ stage, (onDecide i accept w).live = [{ j with stage }]
      ∧ (stage = j.stage ∨ ∃ tries, j.stage = .posted tries none ∧ j.id = i.id
        ∧ stage = .posted tries (some accept)) := by
  rw [onDecide, hlive, List.map_singleton]
  dsimp only
  split
  · rename_i tries hstage
    split_ifs with hid
    · exact ⟨_, rfl, .inr ⟨tries, hstage, hid, rfl⟩⟩
    · exact ⟨j.stage, rfl, .inl rfl⟩
  · exact ⟨j.stage, rfl, .inl rfl⟩

theorem Happens.oneJob {e : Event} (hone : OneJob w) (h : Happens v ids w e w') : OneJob w' := by
  cases h with
  | started => exact .busy _ rfl rfl
  | resumed => exact .busy _ rfl rfl
  | ended | minted | restarted => exact .idle rfl rfl
  | @posted j tries hlive hstage | @retried j a tries reply hlive hstage hkept =>
    cases hone with
    | idle live running =>
      rw [live] at hlive
      cases hlive
    | busy j' live running =>
      obtain rfl := List.singleton_inj.mp (hlive.symm.trans live)
      exact .busy _ rfl running
  | @recorded j a p tries running live hlive hstage hp hkept hnext =>
    rcases hnext with ⟨rfl, rfl⟩ | ⟨rfl, rfl⟩
    · exact .idle rfl rfl
    · cases hone with
      | idle live running =>
        rw [live] at hlive
        cases hlive
      | busy j' live running =>
        obtain rfl := List.singleton_inj.mp (hlive.symm.trans live)
        exact .busy _ rfl running
  | decided hmem =>
    cases hone with
    | idle live running =>
      refine .idle ?_ running
      rw [onDecide, live]
      rfl
    | busy j live running =>
      obtain ⟨stage, hnew, -⟩ := onDecide_live live
      exact .busy _ hnew running

theorem oneJob_of_run {history : List (Call World Event)}
    (h : Run (pipelineStep v ids) World.initial history w) : OneJob w :=
  h.invariant (.idle rfl rfl) (fun _ _ _ hs hstep => (happens_of_step hs hstep).oneJob hs)

/-! ### The books -/

/-- What the server knows of the intents that it has issued. -/
structure Books (ids : ℕ → String) (w : World) : Prop where
  issued_lt : ∀ i ∈ w.issued, ∃ k < w.drawn, i.id = ids k
  issued_nodup : (w.issued.map Intent.id).Nodup
  inFlight : ∀ i ∈ w.inFlight, i ∈ w.issued
  accepted : ∀ i ∈ w.accepted, i ∈ w.issued
  live : ∀ j ∈ w.live, j.intent ∈ w.issued
  replied : ∀ j ∈ w.live, ∀ tries, j.stage = .posted tries (some true) → j.intent ∈ w.accepted
  received : ∀ e ∈ w.received, ⟨e.1, e.2.recipient, e.2.value⟩ ∈ w.accepted
  readable : ∀ e ∈ w.received, (truthyText e.2.attestation = true
    ∧ truthyText e.2.signature = true) ∧ ∃ dest, e.2.dest = some dest
  files : ∀ e ∈ w.files, e ∈ w.received
  written_received : ∀ jobId ∈ w.written, jobId ∈ w.received.map Prod.fst
  written : ∀ e ∈ w.received, e.1 ∈ w.written → e.1 ∉ w.minted → e ∈ w.files
  pending : ∀ e ∈ w.pendingMints, e ∈ w.received
  pending_nodup : (w.pendingMints.map Prod.fst).Nodup
  files_nodup : (w.files.map Prod.fst).Nodup
  held : ∀ e ∈ w.received, e.1 ∉ w.minted → e ∈ w.pendingMints
  known : ∀ i, Unresolved w i → (∃ p, (i.id, p) ∈ w.received)
    ∨ ∃ j ∈ w.live, j.id = i.id ∧ ∃ tries, j.stage = .posted tries (some true)
  waiting : ∀ j ∈ w.live, (∃ attestation signature, j.stage = .minting attestation signature)
    ∨ (j.id ∉ w.received.map Prod.fst
      ∧ ∀ e ∈ w.pendingMints, e.2.sameAs j.recipient j.value = false)

namespace Books

theorem initial (ids : ℕ → String) : Books ids World.initial := by
  constructor <;> simp [World.initial, Unresolved]

theorem eq_of_id (h : Books ids w) {i i' : Intent} (hi : i ∈ w.issued) (hi' : i' ∈ w.issued)
    (hid : i.id = i'.id) : i = i' :=
  List.inj_on_of_nodup_map h.issued_nodup hi hi' hid

/-- The id that is drawn next belongs to nobody. -/
theorem fresh (h : Books ids w) (hids : Function.Injective ids) {i : Intent} (hi : i ∈ w.issued) :
    i.id ≠ ids w.drawn := by
  intro he
  obtain ⟨k, hk, hid⟩ := h.issued_lt i hi
  have := hids (hid.symm.trans he)
  omega

theorem started (h : Books ids w) (hids : Function.Injective ids) (hidle : w.live = [])
    (hid : j.id = ids w.drawn) (hstage : j.stage = .approvals)
    (hfree : ∀ e ∈ w.pendingMints, e.2.sameAs j.recipient j.value = false) :
    Books ids { w with running := some j.id, live := [j], drawn := w.drawn + 1,
                       issued := w.issued ++ [j.intent] } := by
  refine { h with
    issued_lt := ?_, issued_nodup := ?_, inFlight := ?_, accepted := ?_, live := ?_,
    replied := ?_, known := ?_, waiting := ?_ }
  · intro i hi
    rcases List.mem_append.mp hi with hi | hi
    · obtain ⟨k, hk, he⟩ := h.issued_lt i hi
      exact ⟨k, Nat.lt_succ_of_lt hk, he⟩
    · rw [List.mem_singleton.mp hi]
      exact ⟨w.drawn, Nat.lt_succ_self _, hid⟩
  · rw [List.map_append]
    refine List.nodup_append.mpr ⟨h.issued_nodup, List.nodup_singleton _, ?_⟩
    rintro a ha b hb rfl
    obtain ⟨i, hi, rfl⟩ := List.mem_map.mp ha
    exact h.fresh hids hi ((List.mem_singleton.mp hb).trans hid)
  · exact fun i hi => List.mem_append_left _ (h.inFlight i hi)
  · exact fun i hi => List.mem_append_left _ (h.accepted i hi)
  · intro j' hj'
    rw [List.mem_singleton.mp hj']
    exact List.mem_append_right _ (List.mem_singleton_self _)
  · intro j' hj' tries ht
    rw [List.mem_singleton.mp hj', hstage] at ht
    cases ht
  · intro i hi
    refine (h.known i hi).imp_right (fun hlive => ?_)
    obtain ⟨j', hj', -⟩ := hlive
    rw [hidle] at hj'
    exact absurd hj' List.not_mem_nil
  · intro j' hj'
    rw [List.mem_singleton.mp hj']
    refine .inr ⟨fun hm => ?_, hfree⟩
    obtain ⟨e, he, heq⟩ := List.mem_map.mp hm
    exact h.fresh hids (h.accepted _ (h.received e he)) (heq.trans hid)

theorem resumed (h : Books ids w) {p : PendingMint} (hidle : w.live = [])
    (hp : (jobId, p) ∈ w.pendingMints) (hintent : j.intent = ⟨jobId, p.recipient, p.value⟩)
    (hstage : j.stage = .minting p.attestation p.signature) :
    Books ids { w with running := some j.id, live := [j] } := by
  refine { h with live := ?_, replied := ?_, known := ?_, waiting := ?_ }
  · intro j' hj'
    rw [List.mem_singleton.mp hj', hintent]
    exact h.accepted _ (h.received _ (h.pending _ hp))
  · intro j' hj' tries ht
    rw [List.mem_singleton.mp hj', hstage] at ht
    cases ht
  · intro i hi
    refine (h.known i hi).imp_right (fun hlive => ?_)
    obtain ⟨j', hj', -⟩ := hlive
    rw [hidle] at hj'
    exact absurd hj' List.not_mem_nil
  · intro j' hj'
    rw [List.mem_singleton.mp hj']
    exact .inl ⟨_, _, hstage⟩

/-- A job that does not wait for the reply to an accepted intent. -/
theorem received_of_stage (h : Books ids w) (hlive : w.live = [j])
    (hstage : ∀ tries, j.stage ≠ .posted tries (some true)) {i : Intent} (hi : Unresolved w i) :
    ∃ p, (i.id, p) ∈ w.received := by
  rcases h.known i hi with hp | ⟨j', hj', -, tries, ht⟩
  · exact hp
  · rw [hlive, List.mem_singleton] at hj'
    rw [hj'] at ht
    exact absurd ht (hstage tries)

theorem ended (h : Books ids w) (hlive : w.live = [j])
    (hstage : ∀ tries, j.stage ≠ .posted tries (some true)) :
    Books ids { w with running := none, live := [] } := by
  refine { h with live := ?_, replied := ?_, known := ?_, waiting := ?_ }
  · exact fun j' hj' => absurd hj' List.not_mem_nil
  · exact fun j' hj' => absurd hj' List.not_mem_nil
  · exact fun i hi => .inl (h.received_of_stage hlive hstage hi)
  · exact fun j' hj' => absurd hj' List.not_mem_nil

/-- Another stage before the Gateway has accepted. -/
theorem restaged (h : Books ids w) (hlive : w.live = [j]) {stage : Stage}
    (hstage : ∀ tries, j.stage ≠ .posted tries (some true))
    (hminting : ∀ attestation signature, j.stage ≠ .minting attestation signature)
    (hnew : ∀ tries, stage ≠ .posted tries (some true)) :
    Books ids { w with live := [{ j with stage }] } := by
  have hmem : j ∈ w.live := hlive ▸ List.mem_singleton_self j
  refine { h with live := ?_, replied := ?_, known := ?_, waiting := ?_ }
  · intro j' hj'
    rw [List.mem_singleton.mp hj']
    exact h.live j hmem
  · intro j' hj' tries ht
    rw [List.mem_singleton.mp hj'] at ht
    exact absurd ht (hnew tries)
  · exact fun i hi => .inl (h.received_of_stage hlive hstage hi)
  · intro j' hj'
    rw [List.mem_singleton.mp hj']
    refine .inr ?_
    rcases h.waiting j hmem with ⟨att, sig, hm⟩ | hw
    · exact absurd hm (hminting att sig)
    · exact hw

theorem posted (h : Books ids w) (hlive : w.live = [j]) {tries : ℕ}
    (hstage : j.stage = .approvals ∨ ∃ n, j.stage = .retrying n) :
    Books ids { w with live := [{ j with stage := .posted tries none }],
                       inFlight := w.inFlight ++ [j.intent] } := by
  have hnew : Books ids { w with live := [{ j with stage := .posted tries none }] } := by
    refine h.restaged hlive ?_ ?_ ?_
    · intro n hn
      rcases hstage with hs | ⟨m, hs⟩ <;> rw [hs] at hn <;> cases hn
    · intro att sig hn
      rcases hstage with hs | ⟨m, hs⟩ <;> rw [hs] at hn <;> cases hn
    · intro n hn
      cases hn
  refine { hnew with inFlight := ?_ }
  intro i hi
  rcases List.mem_append.mp hi with hi | hi
  · exact h.inFlight i hi
  · rw [List.mem_singleton.mp hi]
    exact h.live j (hlive ▸ List.mem_singleton_self j)

theorem mem_onDecide {i : Intent} {accept : Bool} {i' : Intent}
    (h : i' ∈ (onDecide i accept w).accepted) :
    i' ∈ w.accepted ∨ (accept = true ∧ i' = i) := by
  cases accept with
  | false => exact .inl h
  | true =>
    rcases List.mem_append.mp h with h | h
    · exact .inl h
    · exact .inr ⟨rfl, List.mem_singleton.mp h⟩

theorem accepted_onDecide {i i' : Intent} {accept : Bool} (h : i' ∈ w.accepted) :
    i' ∈ (onDecide i accept w).accepted := by
  cases accept with
  | false => exact h
  | true => exact List.mem_append_left _ h

theorem decided (h : Books ids w) (hone : OneJob w) {i : Intent} {accept : Bool}
    (hmem : i ∈ w.inFlight) (hkept : Kept w (.decide i accept)) :
    Books ids (onDecide i accept w) := by
  have hissued := h.inFlight i hmem
  have hlater : ∀ j' ∈ (onDecide i accept w).live, ∃ j ∈ w.live, j'.intent = j.intent
      ∧ j'.recipient = j.recipient ∧ j'.value = j.value
      ∧ (j'.stage = j.stage ∨ ∃ tries, j.stage = .posted tries none ∧ j.id = i.id
        ∧ j'.stage = .posted tries (some accept)) := by
    intro j' hj'
    cases hone with
    | idle live running =>
      rw [onDecide, live] at hj'
      exact absurd hj' List.not_mem_nil
    | busy j live running =>
      obtain ⟨stage, hnew, hst⟩ := onDecide_live (i := i) (w := w) live
      rw [hnew, List.mem_singleton] at hj'
      rw [hj']
      exact ⟨j, live ▸ List.mem_singleton_self j, rfl, rfl, rfl, hst⟩
  refine { h with
    inFlight := ?_, accepted := ?_, live := ?_, replied := ?_, received := ?_, known := ?_,
    waiting := ?_ }
  · exact fun i' hi' => h.inFlight i' (List.mem_of_mem_erase hi')
  · intro i' hi'
    rcases mem_onDecide hi' with hi' | ⟨-, rfl⟩
    · exact h.accepted i' hi'
    · exact hissued
  · intro j' hj'
    obtain ⟨j, hj, hintent, -⟩ := hlater j' hj'
    rw [hintent]
    exact h.live j hj
  · intro j' hj' tries ht
    obtain ⟨j, hj, hintent, -, -, hst⟩ := hlater j' hj'
    rw [hintent]
    rcases hst with hst | ⟨n, -, hid, hst⟩
    · exact accepted_onDecide (h.replied j hj tries (hst ▸ ht))
    · rw [hst] at ht
      cases ht
      rw [h.eq_of_id (h.live j hj) hissued hid]
      exact List.mem_append_right _ (List.mem_singleton_self i)
  · exact fun e he => accepted_onDecide (h.received e he)
  · rintro i' ⟨hi', hm⟩
    rcases mem_onDecide hi' with hi' | ⟨rfl, rfl⟩
    · refine (h.known i' ⟨hi', hm⟩).imp_right ?_
      rintro ⟨j, hj, hid, tries, ht⟩
      refine ⟨j, List.mem_map.mpr ⟨j, hj, ?_⟩, hid, tries, ht⟩
      rw [ht]
    · obtain ⟨j, hj, hid, tries, ht⟩ := hkept
      refine .inr ⟨{ j with stage := .posted tries (some true) },
        List.mem_map.mpr ⟨j, hj, ?_⟩, hid, tries, rfl⟩
      rw [ht]
      exact if_pos hid
  · intro j' hj'
    obtain ⟨j, hj, hintent, hrec, hval, hst⟩ := hlater j' hj'
    have hid : j'.id = j.id := congrArg Intent.id hintent
    rw [hid, hrec, hval]
    rcases h.waiting j hj with ⟨att, sig, hm⟩ | hw
    · refine .inl ⟨att, sig, ?_⟩
      rcases hst with hst | ⟨n, hn, -⟩
      · exact hst.trans hm
      · rw [hm] at hn
        cases hn
    · exact .inr hw

theorem mem_written {p : PendingMint} {saved : Bool} {id : String}
    (h : id ∈ (recordPendingMint jobId p saved w).written) :
    id ∈ w.written ∨ ((truthyText p.attestation && saved) = true ∧ id = jobId) := by
  dsimp only [recordPendingMint] at h
  split_ifs at h with hsaved
  · rcases List.mem_append.mp h with h | h
    · exact .inl h
    · exact .inr ⟨hsaved, List.mem_singleton.mp h⟩
  · exact .inl h

theorem recorded (h : Books ids w) {p : PendingMint} {saved : Bool} {tries : ℕ}
    {running : Option String} {live : List Job} (hlive : w.live = [j])
    (hstage : j.stage = .posted tries (some true))
    (hp : p.recipient = j.recipient ∧ p.value = j.value ∧ p.dest = some j.source.dest)
    (htruthy : truthyText p.attestation = true ∧ truthyText p.signature = true)
    (hnext : live = [] ∨ live = [{ j with stage := .minting p.attestation p.signature }]) :
    Books ids { recordPendingMint j.id p saved w with running := running, live := live } := by
  have hmem : j ∈ w.live := hlive ▸ List.mem_singleton_self j
  have hnew : j.id ∉ w.received.map Prod.fst := by
    rcases h.waiting j hmem with ⟨att, sig, hm⟩ | hw
    · rw [hstage] at hm
      cases hm
    · exact hw.1
  have hkey : ∀ l : List (String × PendingMint), (∀ e ∈ l, e ∈ w.received) →
      j.id ∉ l.map Prod.fst := by
    intro l hl hm
    obtain ⟨e, he, heq⟩ := List.mem_map.mp hm
    exact hnew (List.mem_map.mpr ⟨e, hl e he, heq⟩)
  have hset : ∀ l : List (String × PendingMint), (∀ e ∈ l, e ∈ w.received) →
      mapSet l j.id p = l ++ [(j.id, p)] := fun l hl => mapSet_of_not_mem (hkey l hl) p
  have hnodup : ∀ l : List (String × PendingMint), (∀ e ∈ l, e ∈ w.received) →
      (l.map Prod.fst).Nodup → ((l ++ [(j.id, p)]).map Prod.fst).Nodup := by
    intro l hl hn
    rw [List.map_append]
    refine List.nodup_append.mpr ⟨hn, List.nodup_singleton _, ?_⟩
    rintro a ha b hb rfl
    have heq : a = j.id := List.mem_singleton.mp hb
    exact hkey l hl (heq ▸ ha)
  have hstage' : ∀ j' ∈ live, j'.intent = j.intent
      ∧ j'.stage = .minting p.attestation p.signature := by
    intro j' hj'
    rcases hnext with rfl | rfl
    · exact absurd hj' List.not_mem_nil
    · rw [List.mem_singleton.mp hj']
      exact ⟨rfl, rfl⟩
  have hold : ∀ l : List (String × PendingMint), (∀ e ∈ l, e ∈ w.received) →
      ∀ e ∈ l ++ [(j.id, p)], e ∈ w.received ++ [(j.id, p)] := by
    intro l hl e he
    rcases List.mem_append.mp he with he | he
    · exact List.mem_append_left _ (hl e he)
    · exact List.mem_append_right _ he
  refine { h with
    live := ?_, replied := ?_, received := ?_, readable := ?_, files := ?_, written_received := ?_,
    written := ?_, pending := ?_, pending_nodup := ?_, files_nodup := ?_, held := ?_, known := ?_,
    waiting := ?_ }
  · intro j' hj'
    rw [(hstage' j' hj').1]
    exact h.live j hmem
  · intro j' hj' n hn
    rw [(hstage' j' hj').2] at hn
    cases hn
  · intro e he
    rcases List.mem_append.mp he with he | he
    · exact h.received e he
    · rw [List.mem_singleton.mp he, hp.1, hp.2.1]
      exact h.replied j hmem tries hstage
  · intro e he
    rcases List.mem_append.mp he with he | he
    · exact h.readable e he
    · rw [List.mem_singleton.mp he]
      exact ⟨htruthy, _, hp.2.2⟩
  · dsimp only [recordPendingMint]
    split_ifs
    · rw [hset w.files h.files]
      exact hold w.files h.files
    · exact fun e he => List.mem_append_left _ (h.files e he)
  · intro id hid
    show id ∈ (w.received ++ [(j.id, p)]).map Prod.fst
    rw [List.map_append]
    rcases mem_written hid with hid | ⟨-, rfl⟩
    · exact List.mem_append_left _ (h.written_received id hid)
    · exact List.mem_append_right _ (List.mem_singleton_self _)
  · intro e he hwritten hm
    dsimp only [recordPendingMint]
    rw [hset w.files h.files]
    rcases List.mem_append.mp he with he | he
    · have hne : e.1 ≠ j.id := fun heq => hnew (heq ▸ List.mem_map_of_mem he)
      have hfile := h.written e he ((mem_written hwritten).resolve_right (fun hw => hne hw.2)) hm
      split_ifs
      · exact List.mem_append_left _ hfile
      · exact hfile
    · obtain rfl := List.mem_singleton.mp he
      obtain hold | ⟨hsaved, -⟩ := mem_written hwritten
      · exact absurd (h.written_received _ hold) hnew
      · rw [if_pos hsaved]
        exact List.mem_append_right _ (List.mem_singleton_self _)
  · dsimp only [recordPendingMint]
    rw [hset w.pendingMints h.pending]
    exact hold w.pendingMints h.pending
  · dsimp only [recordPendingMint]
    rw [hset w.pendingMints h.pending]
    exact hnodup w.pendingMints h.pending h.pending_nodup
  · dsimp only [recordPendingMint]
    split_ifs
    · rw [hset w.files h.files]
      exact hnodup w.files h.files h.files_nodup
    · exact h.files_nodup
  · intro e he hm
    dsimp only [recordPendingMint]
    rw [hset w.pendingMints h.pending]
    rcases List.mem_append.mp he with he | he
    · exact List.mem_append_left _ (h.held e he hm)
    · exact List.mem_append_right _ he
  · intro i hi
    refine .inl ?_
    rcases h.known i hi with ⟨q, hq⟩ | ⟨j', hj', hid, -⟩
    · exact ⟨q, List.mem_append_left _ hq⟩
    · rw [hlive, List.mem_singleton] at hj'
      refine ⟨p, List.mem_append_right _ ?_⟩
      rw [← hid, hj']
      exact List.mem_singleton_self _
  · intro j' hj'
    exact .inl ⟨_, _, (hstage' j' hj').2⟩

theorem minted (h : Books ids w) {removed : Bool} {attestation signature : Option String}
    (hlive : w.live = [j]) (hstage : j.stage = .minting attestation signature) :
    Books ids { clearPendingMint j.id removed w with running := none, live := [],
                                                     minted := w.minted ++ [j.id] } := by
  refine { h with
    live := ?_, replied := ?_, files := ?_, written := ?_, pending := ?_, pending_nodup := ?_,
    files_nodup := ?_, held := ?_, known := ?_, waiting := ?_ }
  · exact fun j' hj' => absurd hj' List.not_mem_nil
  · exact fun j' hj' => absurd hj' List.not_mem_nil
  · dsimp only [clearPendingMint]
    split_ifs
    · exact fun e he => h.files e (List.mem_of_mem_filter he)
    · exact h.files
  · intro e he hwritten hm
    obtain ⟨hm, hne⟩ := not_or.mp (fun hc => hm (List.mem_append.mpr hc))
    have hfile := h.written e he hwritten hm
    dsimp only [clearPendingMint]
    split_ifs
    · rw [List.mem_singleton] at hne
      exact List.mem_filter.mpr ⟨hfile, decide_eq_true hne⟩
    · exact hfile
  · exact fun e he => h.pending e (List.mem_of_mem_filter he)
  · exact h.pending_nodup.sublist (List.filter_sublist.map _)
  · dsimp only [clearPendingMint]
    split_ifs
    · exact h.files_nodup.sublist (List.filter_sublist.map _)
    · exact h.files_nodup
  · intro e he hm
    obtain ⟨hm, hne⟩ := not_or.mp (fun hc => hm (List.mem_append.mpr hc))
    refine List.mem_filter.mpr ⟨h.held e he hm, ?_⟩
    rw [List.mem_singleton] at hne
    exact decide_eq_true hne
  · rintro i ⟨hi, hm⟩
    refine .inl (h.received_of_stage hlive ?_ ⟨hi, fun hc => hm (List.mem_append_left _ hc)⟩)
    intro tries ht
    rw [hstage] at ht
    cases ht
  · exact fun j' hj' => absurd hj' List.not_mem_nil

theorem restarted (h : Books ids w) {unreadable : String → Bool}
    (hkept : Kept w (.restart unreadable)) : Books ids (restart unreadable w) := by
  refine { h with
    live := ?_, replied := ?_, pending := ?_, pending_nodup := ?_, held := ?_, known := ?_,
    waiting := ?_ }
  · exact fun j' hj' => absurd hj' List.not_mem_nil
  · exact fun j' hj' => absurd hj' List.not_mem_nil
  · exact fun e he => h.files e (List.mem_of_mem_filter he)
  · exact h.files_nodup.sublist (List.filter_sublist.map _)
  · intro e he hm
    obtain ⟨hwritten, hread⟩ := hkept _ ⟨h.received e he, hm⟩
    exact List.mem_filter.mpr ⟨h.written e he hwritten hm, by simpa using hread⟩
  · intro i hi
    obtain ⟨e, he, heq⟩ := List.mem_map.mp (h.written_received _ (hkept i hi).1)
    exact .inl ⟨e.2, heq ▸ he⟩
  · exact fun j' hj' => absurd hj' List.not_mem_nil

end Books

/-- **A kept step keeps the books.** -/
theorem Happens.books {e : Event} (hids : Function.Injective ids) (hone : OneJob w)
    (hb : Books ids w) (h : Happens v ids w e w') (hkept : Kept w e) : Books ids w' := by
  cases h with
  | started hidle hid hstage hfree => exact hb.started hids hidle hid hstage hfree
  | resumed hidle hp hintent hstage => exact hb.resumed hidle hp hintent hstage
  | ended hlive hstage => exact hb.ended hlive (hstage hkept)
  | posted hlive hstage => exact hb.posted hlive hstage
  | decided hmem => exact hb.decided hone hmem hkept
  | @retried j a tries reply hlive hstage hreply =>
    refine hb.restaged hlive ?_ ?_ (fun n hn => nomatch hn)
    · intro n hn
      rw [hstage, hreply hkept] at hn
      cases hn
    · intro att sig hn
      rw [hstage] at hn
      cases hn
  | recorded hlive hstage hp htruthy hnext =>
    exact hb.recorded hlive hstage hp (htruthy hkept)
      (hnext.imp (fun hn => hn.2) (fun hn => hn.2))
  | minted hlive hstage => exact hb.minted hlive hstage
  | restarted => exact hb.restarted hkept

/-! ### Whole runs -/

/-- An intent that leaves for the Gateway has a recipient and a value for which no
accepted intent is unresolved. -/
def NoSecondIntent (c : Call World Event) : Prop :=
  ∀ jobId, c.act = .post jobId → ∀ j ∈ c.pre.live, j.id = jobId → ∀ i, Unresolved c.pre i →
    ¬(sameText i.recipient j.recipient = true ∧ i.value = j.value)

/-- An attestation that has no mint receipt yet can be resumed with its own bytes. -/
def AttestationsHeld (w : World) : Prop :=
  ∀ e ∈ w.received, e.1 ∉ w.minted → (∃ dest, resumable w e.1 = .ok (e.2, dest))
    ∧ (w.running = none → ∃ w' j, resumeMint e.1 w = .ok w' ∧ w'.live = [j]
      ∧ j.stage = .minting e.2.attestation e.2.signature)

theorem Books.attestationsHeld (h : Books ids w) (hone : OneJob w) : AttestationsHeld w := by
  intro e he hm
  have hlookup : w.pendingMints.lookup e.1 = some e.2 :=
    lookup_of_mem h.pending_nodup (h.held e he hm)
  obtain ⟨htruthy, dest, hdest⟩ := h.readable e he
  have hresume : resumable w e.1 = .ok (e.2, dest) :=
    resumable_eq_ok.mpr ⟨hlookup, htruthy, hdest⟩
  refine ⟨⟨dest, hresume⟩, fun hidle => ?_⟩
  refine ⟨_, ⟨e.1, e.2.recipient, e.2.value, dest.source, true,
    .minting e.2.attestation e.2.signature⟩,
    resumeMint_eq_ok.mpr ⟨e.2, dest, hresume, hidle, _, rfl, rfl⟩, ?_, rfl⟩
  rw [hone.live_of_idle hidle, List.nil_append]

theorem stage_of_post (hone : OneJob w) (h : pipelineStep v ids w (.post jobId) = some w') :
    ∃ j, w.live = [j] ∧ (j.stage = .approvals ∨ ∃ n, j.stage = .retrying n) := by
  obtain ⟨j, hj, hnext⟩ := Option.bind_eq_some_iff.mp h
  refine ⟨j, (hone.live_of_jobOf hj).1, ?_⟩
  unfold onPost at hnext
  split at hnext
  · rename_i hstage
    exact .inl hstage
  · rename_i tries hstage
    exact .inr ⟨tries, hstage⟩
  · cases hnext

theorem Books.noSecondIntent {e : Event} (h : Books ids w) (hone : OneJob w)
    (hstep : pipelineStep v ids w e = some w') : NoSecondIntent ⟨w, e, w'⟩ := by
  rintro jobId rfl j hj - i hi ⟨hrec, hval⟩
  obtain ⟨j', hlive, hstage⟩ := stage_of_post hone hstep
  have hj : j ∈ w.live := hj
  rw [hlive, List.mem_singleton] at hj
  subst hj
  have hnot : ∀ tries, j.stage ≠ .posted tries (some true) := by
    intro n hn
    rcases hstage with hs | ⟨m, hs⟩ <;> rw [hs] at hn <;> cases hn
  obtain ⟨p, hp⟩ := h.received_of_stage hlive hnot hi
  have hintent : (⟨i.id, p.recipient, p.value⟩ : Intent) = i :=
    h.eq_of_id (h.accepted _ (h.received _ hp)) (h.accepted i hi.1) rfl
  have hfree : p.sameAs j.recipient j.value = false := by
    rcases h.waiting j (hlive ▸ List.mem_singleton_self j) with ⟨att, sig, hm⟩ | ⟨-, hfree⟩
    · rcases hstage with hs | ⟨m, hs⟩ <;> rw [hs] at hm <;> cases hm
    · exact hfree _ (h.held _ hp hi.2)
  rw [← hintent] at hrec hval
  rw [PendingMint.sameAs, hrec, Bool.true_and, beq_eq_false_iff_ne] at hfree
  exact hfree hval

/-- **The books are right in a run in which the server learns what is accepted.** -/
theorem books_of_run {history : List (Call World Event)} (hids : Function.Injective ids)
    (h : Run (pipelineStep v ids) World.initial history w)
    (hkept : ∀ c ∈ history, Kept c.pre c.act) :
    Books ids w ∧ ∀ c ∈ history, NoSecondIntent c := by
  induction h with
  | nil => exact ⟨.initial ids, fun c hc => absurd hc List.not_mem_nil⟩
  | @snoc history s s' e hrun hstep ih =>
    obtain ⟨hb, hbefore⟩ := ih (fun c hc => hkept c (List.mem_append_left _ hc))
    have hone := oneJob_of_run hrun
    have hlast := hkept ⟨s, e, s'⟩ (List.mem_append_right _ (List.mem_singleton_self _))
    refine ⟨(happens_of_step hone hstep).books hids hone hb hlast, fun c hc => ?_⟩
    rcases List.mem_append.mp hc with hc | hc
    · exact hbefore c hc
    · rw [List.mem_singleton.mp hc]
      exact hb.noSecondIntent hone hstep

/-- **One payment at a time.**  In every run of requests, resumptions, restarts and
outcomes of the external calls at most one job is running.  In every run in which the
server learns what the Gateway accepts, no intent is submitted while another one for
the same recipient and value is unresolved, and every attestation can be resumed with
its own bytes until its mint receipt. -/
theorem commitsOnce_of_kept {history : List (Call World Event)} (hids : Function.Injective ids)
    (h : Run (pipelineStep v ids) World.initial history w) :
    OneJob w ∧ ((∀ c ∈ history, Kept c.pre c.act) →
      (∀ c ∈ history, NoSecondIntent c) ∧ AttestationsHeld w) := by
  have hone := oneJob_of_run h
  refine ⟨hone, fun hkept => ?_⟩
  obtain ⟨hb, hsecond⟩ := books_of_run hids h hkept
  exact ⟨hsecond, hb.attestationsHeld hone⟩

end

/-! ### A lost answer -/

/-- Distinct ids. -/
def countIds (n : ℕ) : String := String.ofList ('f' :: List.replicate n '0')

theorem countIds_injective : Function.Injective countIds := by
  intro a b h
  have hlist := congrArg (fun s : String => s.toList.length) h
  simpa [countIds] using hlist

/-- Alice and Bob send half a USDC from the treasury contract. -/
def soloInput : ValidateInput where
  req := { trioRequest "C" with signers := some ["A", "B"], source := some "evm" }
  pol := trioRead "C"
  allowlisted := true
  balances _ := .ofNat 10
  frostOwners := none

def soloPlan : SendPlan := ⟨.evm, 500000, ["A", "B"], .ofNat 3, .finite (1 / 2)⟩

theorem soloPlan_accepted : validateSend digitsViem soloInput = .ok soloPlan := by decide +kernel

def soloJob (n : ℕ) (stage : Stage) : Job :=
  ⟨countIds n, soloInput.recipient, 500000, .evm, true, stage⟩

def soloIntent (n : ℕ) : Intent := (soloJob n .approvals).intent

/-- The world after `n` earlier jobs whose intents were accepted, with job `n` at a
stage. -/
def soloWorld (accepted : List Intent) (n : ℕ) (stage : Stage) : World :=
  ⟨some (countIds n), [soloJob n stage], [], [], n + 1, [], (List.range (n + 1)).map soloIntent,
    accepted, [], [], []⟩

/-- The next send starts in a world without jobs and attestations. -/
theorem step_request (accepted : List Intent) (n : ℕ) :
    pipelineStep digitsViem countIds
      ⟨none, [], [], [], n, [], (List.range n).map soloIntent, accepted, [], [], []⟩
      (.request soloInput) = some (soloWorld accepted n .approvals) := by
  refine toOption_eq_some.mpr (startSend_eq_ok.mpr ⟨soloPlan, soloPlan_accepted,
    fun e he => absurd he List.not_mem_nil, rfl, _, rfl, ?_⟩)
  rw [soloWorld, List.range_succ, List.map_append]
  rfl

/-- The calls that lead to an accepted intent. -/
def acceptedHistory : List (Call World Event) :=
  let posted : World := { soloWorld [] 0 (.posted 0 none) with inFlight := [soloIntent 0] }
  [⟨.initial, .request soloInput, soloWorld [] 0 .approvals⟩,
    ⟨soloWorld [] 0 .approvals, .post (countIds 0), posted⟩,
    ⟨posted, .decide (soloIntent 0) true, soloWorld [soloIntent 0] 0 (.posted 0 (some true))⟩]

theorem run_acceptedHistory :
    Run (pipelineStep digitsViem countIds) World.initial acceptedHistory
      (soloWorld [soloIntent 0] 0 (.posted 0 (some true))) := by
  have hrequest := Run.nil.snoc (step_request [] 0)
  exact (hrequest.snoc (a := .post (countIds 0)) rfl).snoc (a := .decide (soloIntent 0) true) rfl

/-- The attestation of the first job. -/
def soloMint : PendingMint :=
  ⟨soloInput.recipient, 500000, some .base, some "0xaa", some "0xbb"⟩

def soloAnswer : Answer := ⟨true, false, some (some "0xaa", some "0xbb"), true⟩

/-- The server has the attestation, in memory and in a file, and mints. -/
def mintingWorld : World :=
  { soloWorld [soloIntent 0] 0 (.minting (some "0xaa") (some "0xbb")) with
    pendingMints := [(countIds 0, soloMint)]
    files := [(countIds 0, soloMint)]
    received := [(countIds 0, soloMint)]
    written := [countIds 0] }

/-- The answer is read, and the server is restarted before the mint. -/
def savedHistory : List (Call World Event) :=
  acceptedHistory
    ++ [⟨soloWorld [soloIntent 0] 0 (.posted 0 (some true)), .answer (countIds 0) soloAnswer,
      mintingWorld⟩]
    ++ [⟨mintingWorld, .restart (fun _ => false), restart (fun _ => false) mintingWorld⟩]

theorem run_savedHistory :
    Run (pipelineStep digitsViem countIds) World.initial savedHistory
      (restart (fun _ => false) mintingWorld) :=
  (run_acceptedHistory.snoc rfl).snoc rfl

theorem kept_savedHistory : ∀ c ∈ savedHistory, Kept c.pre c.act := by
  intro c hc
  simp only [savedHistory, acceptedHistory, List.cons_append, List.nil_append, List.mem_cons,
    List.not_mem_nil, or_false] at hc
  rcases hc with rfl | rfl | rfl | rfl | rfl
  · trivial
  · trivial
  · exact ⟨soloJob 0 (.posted 0 none), List.mem_singleton_self _, rfl, 0, rfl⟩
  · intro j _ _ tries _
    exact ⟨rfl, some "0xaa", some "0xbb", rfl, rfl, rfl⟩
  · rintro i ⟨hi, -⟩
    obtain rfl : i = soloIntent 0 := List.mem_singleton.mp hi
    exact ⟨List.mem_singleton_self _, rfl⟩

/-- The attestation is not minted yet, and it is held with its own bytes. -/
theorem commitsOnce_of_kept_saved :
    (∀ c ∈ savedHistory, Kept c.pre c.act)
      ∧ (countIds 0, soloMint) ∈ (restart (fun _ => false) mintingWorld).received
      ∧ countIds 0 ∉ (restart (fun _ => false) mintingWorld).minted
      ∧ OneJob (restart (fun _ => false) mintingWorld)
      ∧ (∀ c ∈ savedHistory, NoSecondIntent c)
      ∧ AttestationsHeld (restart (fun _ => false) mintingWorld) := by
  obtain ⟨hone, hheld⟩ := commitsOnce_of_kept countIds_injective run_savedHistory
  exact ⟨kept_savedHistory, List.mem_singleton_self _, List.not_mem_nil, hone,
    hheld kept_savedHistory⟩

/-- The answer is lost, and the same send is made again. -/
def lostHistory : List (Call World Event) :=
  let first := soloWorld [soloIntent 0] 0 (.posted 0 (some true))
  let second := soloWorld [soloIntent 0] 1 .approvals
  acceptedHistory
    ++ [⟨first, .lost (countIds 0), finish (countIds 0) first⟩]
    ++ [⟨finish (countIds 0) first, .request soloInput, second⟩]
    ++ [⟨second, .post (countIds 1),
      { soloWorld [soloIntent 0] 1 (.posted 0 none) with inFlight := [soloIntent 1] }⟩]

theorem run_lostHistory :
    Run (pipelineStep digitsViem countIds) World.initial lostHistory
      { soloWorld [soloIntent 0] 1 (.posted 0 none) with inFlight := [soloIntent 1] } :=
  ((run_acceptedHistory.snoc rfl).snoc (step_request [soloIntent 0] 1)).snoc rfl

/-- A second intent for the same recipient and value is submitted while the first one
is accepted and not minted. -/
theorem not_noSecondIntent_lost :
    Function.Injective countIds
      ∧ ∃ history w, Run (pipelineStep digitsViem countIds) World.initial history w
        ∧ ¬ ∀ c ∈ history, NoSecondIntent c := by
  refine ⟨countIds_injective, lostHistory, _, run_lostHistory, fun h => ?_⟩
  have hlast := h _ (List.mem_append_right _ (List.mem_singleton_self _))
  refine hlast (countIds 1) rfl (soloJob 1 .approvals) (List.mem_singleton_self _) rfl
    (soloIntent 0) ⟨List.mem_singleton_self _, List.not_mem_nil⟩ ⟨?_, rfl⟩
  decide +kernel

end Bufi.Send
