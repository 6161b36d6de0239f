import Bufi.Evidence.Records

/-!
# Canonical commitments

Reimbursements and projects commit to their settlement too, once there is one, and otherwise
to a text that says that there is none.  The main result, `evidence_canonical`, is about all
texts and all builders: texts and amounts are canonical, and records with one commitment
agree on what is committed to.
-/

namespace Bufi.Evidence

open Bufi.Evm Bufi.Text Bufi.Js Bufi.Logic

section

variable (numberText : Number → Utf16) (K : KeccakText)

/-! ### Settlements -/

/-- Facts with one settlement. -/
structure SameSettled {Phase : Type} (f g : EvidenceFacts Phase) : Prop where
  settledTotal : Option.Rel (SameAmount numberText) f.settledTotal g.settledTotal
  settlementCount : f.settlementCount = g.settlementCount

/-- What a settlement commits to. -/
theorem settlement_spec {message : String} {total : Option Amount} {count : Option Number}
    {fields : List (String × Value)} {c : Utf16}
    (h : settlement numberText K message total count fields = .ok c) :
    ∃ amount n text, total = some amount ∧ count = some n ∧ n.isSafeInteger = true
      ∧ canonicalDecimal numberText amount.value = .ok text
      ∧ commitment numberText K
        (obj ([("settledTotal", .string text), ("settlementCount", .number n)] ++ fields))
        = .ok c := by
  cases total with
  | none => cases h
  | some amount =>
    cases count with
    | none => cases h
    | some n =>
      simp only [settlement, Logic.bind_eq_ok, throwIf_eq_ok] at h
      obtain ⟨-, hcount, text, htext, hc⟩ := h
      rw [not_or, not_not] at hcount
      exact ⟨amount, n, text, rfl, rfl, hcount.1, htext, hc⟩

theorem settlementFields_data {t : Utf16} {n : Number} {fields : List (String × Value)}
    (hsafe : n.isSafeInteger = true) (hdata : ∀ e ∈ fields, Data e.2) :
    ∀ e ∈ [("settledTotal", (.string t : Value)), ("settlementCount", .number n)] ++ fields,
      Data e.2 := by
  rw [List.cons_append, List.cons_append, List.nil_append, List.forall_mem_cons,
    List.forall_mem_cons]
  exact ⟨.string _, .number hsafe, hdata⟩

/-- A settlement determines its facts and what the caller has added. -/
theorem settlement_determines {Phase : Type} {message : String} {f g : EvidenceFacts Phase}
    {fields fields' : List (String × Value)} {c d : Utf16} (keys : List String)
    (hnodup : ((["settledTotal", "settlementCount"] ++ keys).map lit).Nodup)
    (hkeys : fields.map Prod.fst = keys) (hkeys' : fields'.map Prod.fst = keys)
    (hdata : ∀ e ∈ fields, Data e.2) (hdata' : ∀ e ∈ fields', Data e.2)
    (hc : settlement numberText K message f.settledTotal f.settlementCount fields = .ok c)
    (hd : settlement numberText K message g.settledTotal g.settlementCount fields' = .ok d)
    (h : c = d) :
    SameSettled numberText f g ∧ List.Forall₂ (fun e e' => e.2.Same e'.2) fields fields' := by
  obtain ⟨a, n, text, hf, hn, hsafe, htext, hc⟩ := settlement_spec numberText K hc
  obtain ⟨a', n', text', hg, hn', hsafe', htext', hd⟩ := settlement_spec numberText K hd
  have hfields := fields_of_commitment numberText K (["settledTotal", "settlementCount"] ++ keys)
    hnodup (by rw [← hkeys]; rfl) (by rw [← hkeys']; rfl) (settlementFields_data hsafe hdata)
    (settlementFields_data hsafe' hdata') hc hd h
  rw [List.cons_append, List.cons_append, List.nil_append, List.cons_append, List.cons_append,
    List.nil_append, List.forall₂_cons, List.forall₂_cons] at hfields
  obtain ⟨htotal, hcount, hrest⟩ := hfields
  obtain rfl := eq_of_same_string htotal
  refine ⟨⟨?_, ?_⟩, hrest⟩
  · rw [hf, hg]
    exact .some (sameAmount_of_canonical numberText htext htext')
  · rw [hn, hn', eq_of_same_number hcount]

/-- The text of a settlement begins with a brace. -/
theorem settlement_ne_hashText {message : String} {total : Option Amount} {count : Option Number}
    {fields : List (String × Value)} {c text : Utf16} (keys : List String)
    (hnodup : ((["settledTotal", "settlementCount"] ++ keys).map lit).Nodup)
    (hkeys : fields.map Prod.fst = keys) (hdata : ∀ e ∈ fields, Data e.2)
    (htext : ∀ u ∈ text, u < 0x80) (hlength : 0 < text.length)
    (hne : ((lit "\x7b").map (fun c => Char.ofNat c.toNat))[0]?
      ≠ (text.map (fun c => Char.ofNat c.toNat))[0]?)
    (h : settlement numberText K message total count fields = .ok c) : c ≠ hashText K text := by
  obtain ⟨a, n, t, -, -, hsafe, -, hc⟩ := settlement_spec numberText K h
  have hall := settlementFields_data (t := t) hsafe hdata
  have hobj := Data.obj (["settledTotal", "settlementCount"] ++ keys)
    (by rw [← hkeys]; rfl) hnodup hall
  rw [commitment_data numberText K hobj] at hc
  rw [← Except.ok.inj hc, obj, Json.sortKeys, Json.render_object, List.append_assoc,
    ← List.append_nil text]
  exact hashText_ne_of_prefix K (List.all_iff_forall_prop.mp (by decide)) htext (by decide)
    hlength hne _ []

/-! ### Reimbursements -/

/-- What the request commitment of a reimbursement determines. -/
structure SameRequest
    (r s : ReimbursementEvidenceRecord × EvidenceFacts ReimbursementPhase) : Prop where
  requestId : r.1.requestId = s.1.requestId
  teamId : r.1.teamId = s.1.teamId
  phase : r.2.phase = s.2.phase
  itemCount : r.2.itemCount = s.2.itemCount
  subtotal : SameAmount numberText r.1.subtotal s.1.subtotal
  markupPercent : Option.Rel (SameAmount numberText) r.1.markupPercent s.1.markupPercent
  markupAmount : SameAmount numberText r.1.markupAmount s.1.markupAmount
  total : SameAmount numberText r.1.total s.1.total
  itemsHash : r.2.itemsHash = s.2.itemsHash
  currency : r.1.currency = s.1.currency
  sentAt : r.1.sentAt = s.1.sentAt

/-- What the settlement commitment of a reimbursement determines. -/
structure SamePayment
    (r s : ReimbursementEvidenceRecord × EvidenceFacts ReimbursementPhase) : Prop where
  phase : r.2.phase = s.2.phase
  settled : r.2.phase = .paid → SameSettled numberText r.2 s.2
  paidAt : r.2.phase = .paid → r.1.paidAt = s.1.paidAt
  paidTxHash : r.2.phase = .paid → r.1.paidTxHash = s.1.paidTxHash

def requestFields (record : ReimbursementEvidenceRecord)
    (facts : EvidenceFacts ReimbursementPhase) (subtotal : Utf16) (markupPercent : Value)
    (markupAmount total : Utf16) : List (String × Value) := [
  ("requestId", .string record.requestId),
  ("teamId", .string record.teamId),
  ("phase", .string facts.phase.text),
  ("itemCount", .number facts.itemCount),
  ("subtotal", .string subtotal),
  ("markupPercent", markupPercent),
  ("markupAmount", .string markupAmount),
  ("total", .string total),
  ("itemsHash", .string facts.itemsHash),
  ("currency", .string record.currency),
  ("sentAt", nullable record.sentAt)]

/-- What a reimbursement commits to. -/
structure ReimbursementSpec (record : ReimbursementEvidenceRecord)
    (facts : EvidenceFacts ReimbursementPhase) (c : ReimbursementCommitments) (subtotal : Utf16)
    (markupPercent : Value) (markupAmount total : Utf16) : Prop where
  itemCount : facts.itemCount.isSafeInteger = true
  subtotalText : canonicalDecimal numberText record.subtotal.value = .ok subtotal
  markupPercentText : nullableDecimal numberText record.markupPercent = .ok markupPercent
  markupAmountText : canonicalDecimal numberText record.markupAmount.value = .ok markupAmount
  totalText : canonicalDecimal numberText record.total.value = .ok total
  entity : c.entityCommitment = hashText K (lit "reimbursement:" ++ record.requestId)
  request : commitment numberText K
    (obj (requestFields record facts subtotal markupPercent markupAmount total))
    = .ok c.requestCommitment
  itemsHash : c.itemsHash = facts.itemsHash
  settlement : reimbursementSettlement numberText K record facts = .ok c.settlementCommitment

theorem reimbursementSpec {record : ReimbursementEvidenceRecord}
    {facts : EvidenceFacts ReimbursementPhase} {c : ReimbursementCommitments}
    (h : buildReimbursementEvidenceCommitments numberText K record facts = .ok c) :
    ∃ subtotal markupPercent markupAmount total, ReimbursementSpec numberText K record facts c
      subtotal markupPercent markupAmount total := by
  simp only [buildReimbursementEvidenceCommitments, Logic.bind_eq_ok, Logic.pure_eq_ok,
    throwIf_eq_ok] at h
  obtain ⟨requestId, hrequestId, teamId, hteamId, -, -, -, -, -, hcount, subtotal, hsubtotal,
    percent, hpercent, markup, hmarkup, total, htotal, currency, hcurrency, r, hrequest, s,
    hsettlement, rfl⟩ := h
  obtain rfl := requiredReference_string hrequestId
  obtain rfl := requiredReference_string hteamId
  obtain rfl := requiredReference_string hcurrency
  rw [not_or, not_not] at hcount
  exact ⟨subtotal, percent, markup, total, ⟨hcount.1, hsubtotal, hpercent, hmarkup, htotal, rfl,
    hrequest, rfl, hsettlement⟩⟩

/-- The canonical text of an amount that may be null is a string or null. -/
theorem nullableDecimal_data {a : Option Amount} {v : Value}
    (h : nullableDecimal numberText a = .ok v) : Data v := by
  cases a with
  | none =>
    obtain rfl := Except.ok.inj h
    exact Data.null
  | some a =>
    obtain ⟨s, -, rfl⟩ := Logic.map_eq_ok.mp h
    exact Data.string s

theorem sameNullable_of_canonical {a b : Option Amount} {v w : Value}
    (ha : nullableDecimal numberText a = .ok v) (hb : nullableDecimal numberText b = .ok w)
    (h : v.Same w) : Option.Rel (SameAmount numberText) a b := by
  cases a with
  | none =>
    obtain rfl := Except.ok.inj ha
    cases b with
    | none => exact .none
    | some b =>
      obtain ⟨s, -, rfl⟩ := Logic.map_eq_ok.mp hb
      cases h
  | some a =>
    obtain ⟨s, hs, rfl⟩ := Logic.map_eq_ok.mp ha
    cases b with
    | none =>
      obtain rfl := Except.ok.inj hb
      cases h
    | some b =>
      obtain ⟨t, ht, rfl⟩ := Logic.map_eq_ok.mp hb
      obtain rfl := eq_of_same_string h
      exact .some (sameAmount_of_canonical numberText hs ht)

theorem reimbursementPhase_text_injective : Function.Injective ReimbursementPhase.text := by
  intro p q
  cases p <;> cases q <;> decide +kernel

theorem sameRequest_of_commitment {r s : ReimbursementEvidenceRecord}
    {f g : EvidenceFacts ReimbursementPhase} {c d : ReimbursementCommitments}
    {a m t a' m' t' : Utf16} {p p' : Value}
    (hr : ReimbursementSpec numberText K r f c a p m t)
    (hs : ReimbursementSpec numberText K s g d a' p' m' t')
    (h : c.requestCommitment = d.requestCommitment) : SameRequest numberText (r, f) (s, g) := by
  have hdata : ∀ (r : ReimbursementEvidenceRecord) (f : EvidenceFacts ReimbursementPhase)
      (a m t : Utf16) (p : Value), f.itemCount.isSafeInteger = true → Data p →
        ∀ e ∈ requestFields r f a p m t, Data e.2 := by
    intro r f a m t p hcount hp
    simp only [requestFields, List.forall_mem_cons]
    exact ⟨.string _, .string _, .string _, .number hcount, .string _, hp, .string _, .string _,
      .string _, .string _, .nullable _, List.forall_mem_nil _⟩
  have hfields := fields_of_commitment numberText K
    ["requestId", "teamId", "phase", "itemCount", "subtotal", "markupPercent", "markupAmount",
      "total", "itemsHash", "currency", "sentAt"]
    (by decide +kernel) rfl rfl
    (hdata r f a m t p hr.itemCount (nullableDecimal_data numberText hr.markupPercentText))
    (hdata s g a' m' t' p' hs.itemCount (nullableDecimal_data numberText hs.markupPercentText))
    hr.request hs.request h
  simp only [requestFields, List.forall₂_cons, List.forall₂_nil_left_iff, and_true] at hfields
  obtain ⟨hid, hteam, hphase, hcount, hsubtotal, hpercent, hmarkup, htotal, hitems, hcurrency,
    hsent⟩ := hfields
  obtain rfl := eq_of_same_string hsubtotal
  obtain rfl := eq_of_same_string hmarkup
  obtain rfl := eq_of_same_string htotal
  exact
    { requestId := eq_of_same_string hid
      teamId := eq_of_same_string hteam
      phase := reimbursementPhase_text_injective (eq_of_same_string hphase)
      itemCount := eq_of_same_number hcount
      subtotal := sameAmount_of_canonical numberText hr.subtotalText hs.subtotalText
      markupPercent := sameNullable_of_canonical numberText hr.markupPercentText
        hs.markupPercentText hpercent
      markupAmount := sameAmount_of_canonical numberText hr.markupAmountText hs.markupAmountText
      total := sameAmount_of_canonical numberText hr.totalText hs.totalText
      itemsHash := eq_of_same_string hitems
      currency := eq_of_same_string hcurrency
      sentAt := eq_of_same_nullable hsent }

theorem notPaid_ascii : ∀ u ∈ lit "reimbursement:settlement:not-paid", u < 0x80 :=
  List.all_iff_forall_prop.mp (by decide)

theorem samePayment_of_commitment {r s : ReimbursementEvidenceRecord}
    {f g : EvidenceFacts ReimbursementPhase} {c d : Utf16}
    (hr : reimbursementSettlement numberText K r f = .ok c)
    (hs : reimbursementSettlement numberText K s g = .ok d) (h : c = d) :
    SamePayment numberText (r, f) (s, g) := by
  have hdata : ∀ r : ReimbursementEvidenceRecord, ∀ e ∈ [("paidAt", nullable r.paidAt),
      ("paidTxHash", nullable r.paidTxHash)], Data e.2 := by
    intro r
    simp only [List.forall_mem_cons]
    exact ⟨.nullable _, .nullable _, List.forall_mem_nil _⟩
  have hnodup :
      ((["settledTotal", "settlementCount"] ++ ["paidAt", "paidTxHash"]).map lit).Nodup := by
    decide +kernel
  rw [reimbursementSettlement] at hr hs
  by_cases hf : f.phase = .paid
  · rw [if_pos hf] at hr
    by_cases hg : g.phase = .paid
    · rw [if_pos hg] at hs
      obtain ⟨hsettled, hfields⟩ := settlement_determines numberText K ["paidAt", "paidTxHash"]
        hnodup rfl rfl (hdata r) (hdata s) hr hs h
      simp only [List.forall₂_cons, List.forall₂_nil_left_iff, and_true] at hfields
      exact ⟨hf.trans hg.symm, fun _ => hsettled, fun _ => eq_of_same_nullable hfields.1,
        fun _ => eq_of_same_nullable hfields.2⟩
    · rw [if_neg hg, Logic.pure_eq_ok] at hs
      exact absurd (h.trans hs.symm) (settlement_ne_hashText numberText K ["paidAt", "paidTxHash"]
        hnodup rfl (hdata r) notPaid_ascii (by decide) (by decide +kernel) hr)
  · rw [if_neg hf, Logic.pure_eq_ok] at hr
    by_cases hg : g.phase = .paid
    · rw [if_pos hg] at hs
      exact absurd (h.symm.trans hr.symm)
        (settlement_ne_hashText numberText K ["paidAt", "paidTxHash"] hnodup rfl (hdata s)
          notPaid_ascii (by decide) (by decide +kernel) hs)
    · have hsent : ∀ p : ReimbursementPhase, p ≠ .paid → p = .sent := by
        intro p hp
        cases p with
        | sent => rfl
        | paid => exact absurd rfl hp
      exact ⟨(hsent _ hf).trans (hsent _ hg).symm, fun hp => absurd hp hf, fun hp => absurd hp hf,
        fun hp => absurd hp hf⟩

/-- What the commitments of a reimbursement determine. -/
structure ReimbursementDetermines : Prop where
  entity : Determines (Function.uncurry (buildReimbursementEvidenceCommitments numberText K))
    (·.entityCommitment) (fun r s => SameText r.1.requestId s.1.requestId)
  request : Determines (Function.uncurry (buildReimbursementEvidenceCommitments numberText K))
    (·.requestCommitment) (SameRequest numberText)
  items : Determines (Function.uncurry (buildReimbursementEvidenceCommitments numberText K))
    (·.itemsHash) (fun r s => r.2.itemsHash = s.2.itemsHash)
  settlement : Determines (Function.uncurry (buildReimbursementEvidenceCommitments numberText K))
    (·.settlementCommitment) (SamePayment numberText)

theorem reimbursement_determines : ReimbursementDetermines numberText K := by
  constructor <;> intro r s c d hc hd h <;>
    obtain ⟨_, _, _, _, hr⟩ := reimbursementSpec numberText K hc <;>
    obtain ⟨_, _, _, _, hs⟩ := reimbursementSpec numberText K hd
  case entity =>
    exact sameText_of_prefix K (List.all_iff_forall_prop.mp (by decide))
      (hr.entity.symm.trans (h.trans hs.entity))
  case request => exact sameRequest_of_commitment numberText K hr hs h
  case items => exact hr.itemsHash.symm.trans (h.trans hs.itemsHash)
  case settlement => exact samePayment_of_commitment numberText K hr.settlement hs.settlement h

/-! ### Projects -/

/-- What the project commitment of a project determines. -/
structure SameProject (r s : ProjectEvidenceRecord × EvidenceFacts ProjectEvidencePhase) :
    Prop where
  projectId : r.1.projectId = s.1.projectId
  teamId : r.1.teamId = s.1.teamId
  phase : r.2.phase = s.2.phase
  status : r.1.status = s.1.status
  itemCount : r.2.itemCount = s.2.itemCount
  itemsHash : r.2.itemsHash = s.2.itemsHash
  closedAt : r.1.closedAt = s.1.closedAt

/-- What the settlement commitment of a project determines; its phases with a settlement are
not told apart. -/
structure SameClosing (r s : ProjectEvidenceRecord × EvidenceFacts ProjectEvidencePhase) :
    Prop where
  phase : r.2.phase = .sent ↔ s.2.phase = .sent
  settled : r.2.phase ≠ .sent → SameSettled numberText r.2 s.2
  closedAt : r.2.phase ≠ .sent → r.1.closedAt = s.1.closedAt

def projectFields (record : ProjectEvidenceRecord) (facts : EvidenceFacts ProjectEvidencePhase) :
    List (String × Value) := [
  ("projectId", .string record.projectId),
  ("teamId", .string record.teamId),
  ("phase", .string facts.phase.text),
  ("status", .string record.status),
  ("itemCount", .number facts.itemCount),
  ("itemsHash", .string facts.itemsHash),
  ("closedAt", nullable record.closedAt)]

/-- What a project commits to. -/
structure ProjectSpec (record : ProjectEvidenceRecord)
    (facts : EvidenceFacts ProjectEvidencePhase) (c : ProjectCommitments) : Prop where
  itemCount : facts.itemCount.isSafeInteger = true
  entity : c.entityCommitment = hashText K (lit "project:" ++ record.projectId)
  project : commitment numberText K (obj (projectFields record facts)) = .ok c.projectCommitment
  itemsHash : c.itemsHash = facts.itemsHash
  settlement : projectSettlement numberText K record.closedAt facts = .ok c.settlementCommitment

theorem closedAtOf_eq {closedAt closedAt' : Option Utf16} {phase : ProjectEvidencePhase}
    (h : closedAtOf closedAt phase = .ok closedAt') : closedAt' = closedAt := by
  rw [closedAtOf] at h
  by_cases hclosed : phase = .closed
  · rw [if_pos hclosed, Logic.map_eq_ok] at h
    obtain ⟨s, hs, rfl⟩ := h
    exact (requiredReference_nullable hs).symm
  · rw [if_neg hclosed, Logic.pure_eq_ok] at h
    exact h.symm

theorem projectSpec {record : ProjectEvidenceRecord} {facts : EvidenceFacts ProjectEvidencePhase}
    {c : ProjectCommitments}
    (h : buildProjectEvidenceCommitments numberText K record facts = .ok c) :
    ProjectSpec numberText K record facts c := by
  simp only [buildProjectEvidenceCommitments, Logic.bind_eq_ok, Logic.pure_eq_ok,
    throwIf_eq_ok] at h
  obtain ⟨projectId, hprojectId, teamId, hteamId, status, hstatus, -, hcount, closedAt, hclosed, p,
    hproject, s, hsettlement, rfl⟩ := h
  obtain rfl := requiredReference_string hprojectId
  obtain rfl := requiredReference_string hteamId
  obtain rfl := requiredReference_string hstatus
  obtain rfl := closedAtOf_eq hclosed
  rw [not_or, not_not] at hcount
  exact ⟨hcount.1, rfl, hproject, rfl, hsettlement⟩

theorem projectPhase_text_injective : Function.Injective ProjectEvidencePhase.text := by
  intro p q
  cases p <;> cases q <;> decide +kernel

theorem sameProject_of_commitment {r s : ProjectEvidenceRecord}
    {f g : EvidenceFacts ProjectEvidencePhase} {c d : ProjectCommitments}
    (hr : ProjectSpec numberText K r f c) (hs : ProjectSpec numberText K s g d)
    (h : c.projectCommitment = d.projectCommitment) : SameProject (r, f) (s, g) := by
  have hdata : ∀ (r : ProjectEvidenceRecord) (f : EvidenceFacts ProjectEvidencePhase),
      f.itemCount.isSafeInteger = true → ∀ e ∈ projectFields r f, Data e.2 := by
    intro r f hcount
    simp only [projectFields, List.forall_mem_cons]
    exact ⟨.string _, .string _, .string _, .string _, .number hcount, .string _, .nullable _,
      List.forall_mem_nil _⟩
  have hfields := fields_of_commitment numberText K
    ["projectId", "teamId", "phase", "status", "itemCount", "itemsHash", "closedAt"]
    (by decide +kernel) rfl rfl (hdata r f hr.itemCount) (hdata s g hs.itemCount) hr.project
    hs.project h
  simp only [projectFields, List.forall₂_cons, List.forall₂_nil_left_iff, and_true] at hfields
  obtain ⟨hid, hteam, hphase, hstatus, hcount, hitems, hclosed⟩ := hfields
  exact ⟨eq_of_same_string hid, eq_of_same_string hteam,
    projectPhase_text_injective (eq_of_same_string hphase), eq_of_same_string hstatus,
    eq_of_same_number hcount, eq_of_same_string hitems, eq_of_same_nullable hclosed⟩

theorem projectNotPaid_ascii : ∀ u ∈ lit "project:settlement:not-paid", u < 0x80 :=
  List.all_iff_forall_prop.mp (by decide)

theorem ne_sent_iff {p : ProjectEvidencePhase} : p ≠ .sent ↔ p = .paid ∨ p = .closed := by
  cases p <;> decide

theorem projectSettlement_of_sent {closedAt : Option Utf16}
    {f : EvidenceFacts ProjectEvidencePhase} (h : f.phase = .sent) :
    projectSettlement numberText K closedAt f
      = .ok (hashText K (lit "project:settlement:not-paid")) := by
  rw [projectSettlement, h]
  exact if_neg (by decide)

theorem projectSettlement_of_ne {closedAt : Option Utf16}
    {f : EvidenceFacts ProjectEvidencePhase} (h : f.phase ≠ .sent) :
    projectSettlement numberText K closedAt f
      = settlement numberText K "Project settlement evidence is invalid" f.settledTotal
        f.settlementCount [("closedAt", nullable closedAt)] := by
  rw [projectSettlement]
  exact if_pos (ne_sent_iff.mp h)

theorem sameClosing_of_commitment {r s : ProjectEvidenceRecord}
    {f g : EvidenceFacts ProjectEvidencePhase} {c d : Utf16}
    (hr : projectSettlement numberText K r.closedAt f = .ok c)
    (hs : projectSettlement numberText K s.closedAt g = .ok d) (h : c = d) :
    SameClosing numberText (r, f) (s, g) := by
  have hdata : ∀ r : ProjectEvidenceRecord, ∀ e ∈ [("closedAt", nullable r.closedAt)],
      Data e.2 := by
    intro r
    simp only [List.forall_mem_cons]
    exact ⟨.nullable _, List.forall_mem_nil _⟩
  have hnodup : ((["settledTotal", "settlementCount"] ++ ["closedAt"]).map lit).Nodup := by
    decide +kernel
  by_cases hf : f.phase = .sent
  · rw [projectSettlement_of_sent numberText K hf, Except.ok.injEq] at hr
    by_cases hg : g.phase = .sent
    · exact ⟨iff_of_true hf hg, fun hp => absurd hf hp, fun hp => absurd hf hp⟩
    · rw [projectSettlement_of_ne numberText K hg] at hs
      exact absurd (h.symm.trans hr.symm) (settlement_ne_hashText numberText K ["closedAt"] hnodup
        rfl (hdata s) projectNotPaid_ascii (by decide) (by decide +kernel) hs)
  · rw [projectSettlement_of_ne numberText K hf] at hr
    by_cases hg : g.phase = .sent
    · rw [projectSettlement_of_sent numberText K hg, Except.ok.injEq] at hs
      exact absurd (h.trans hs.symm) (settlement_ne_hashText numberText K ["closedAt"] hnodup
        rfl (hdata r) projectNotPaid_ascii (by decide) (by decide +kernel) hr)
    · rw [projectSettlement_of_ne numberText K hg] at hs
      obtain ⟨hsettled, hfields⟩ := settlement_determines numberText K ["closedAt"]
        hnodup rfl rfl (hdata r) (hdata s) hr hs h
      simp only [List.forall₂_cons, List.forall₂_nil_left_iff, and_true] at hfields
      exact ⟨iff_of_false hf hg, fun _ => hsettled, fun _ => eq_of_same_nullable hfields⟩

/-- What the commitments of a project determine. -/
structure ProjectDetermines : Prop where
  entity : Determines (Function.uncurry (buildProjectEvidenceCommitments numberText K))
    (·.entityCommitment) (fun r s => SameText r.1.projectId s.1.projectId)
  project : Determines (Function.uncurry (buildProjectEvidenceCommitments numberText K))
    (·.projectCommitment) SameProject
  items : Determines (Function.uncurry (buildProjectEvidenceCommitments numberText K))
    (·.itemsHash) (fun r s => r.2.itemsHash = s.2.itemsHash)
  settlement : Determines (Function.uncurry (buildProjectEvidenceCommitments numberText K))
    (·.settlementCommitment) (SameClosing numberText)

theorem project_determines : ProjectDetermines numberText K := by
  constructor <;> intro r s c d hc hd h <;>
    have hr := projectSpec numberText K hc <;> have hs := projectSpec numberText K hd
  case entity =>
    exact sameText_of_prefix K (List.all_iff_forall_prop.mp (by decide))
      (hr.entity.symm.trans (h.trans hs.entity))
  case project => exact sameProject_of_commitment numberText K hr hs h
  case items => exact hr.itemsHash.symm.trans (h.trans hs.itemsHash)
  case settlement => exact sameClosing_of_commitment numberText K hr.settlement hs.settlement h

/-! ### The theorem -/

/-- **Commitments are canonical.**  Values have one text exactly if they are the same up to
the order of keys, and the text is read back.  Amounts have one canonical text exactly if they
are the same number, and the canonical text is its own.  Records with one commitment agree on
what is committed to. -/
theorem evidence_canonical :
    (∀ v w : JsonData, stableStringify numberText v.value = stableStringify numberText w.value
        ↔ v.value.Same w.value)
      ∧ (∀ v : JsonData, ∃ text w, stableStringify numberText v.value = .ok text
        ∧ jsonParse text = some w ∧ v.value.Same w)
      ∧ (∀ x y a b, canonicalDecimal numberText x = .ok a → canonicalDecimal numberText y = .ok b →
        (a = b ↔ decimalValue (asText numberText x) = decimalValue (asText numberText y)))
      ∧ (∀ x a, canonicalDecimal numberText x = .ok a →
        canonicalDecimal numberText (some (.string a)) = .ok a)
      ∧ ContractDetermines numberText K
      ∧ PayrollDetermines numberText K
      ∧ ReportDetermines numberText K
      ∧ ReimbursementDetermines numberText K
      ∧ ProjectDetermines numberText K := by
  refine ⟨?_, ?_, ?_, ?_, contract_determines numberText K, payroll_determines numberText K,
    report_determines numberText K, reimbursement_determines numberText K,
    project_determines numberText K⟩
  · intro v w
    exact stableStringify_eq_iff numberText v.data w.data
  · intro v
    exact exists_parse_stableStringify numberText v.data
  · intro x y a b ha hb
    exact canonicalDecimal_eq_iff numberText ha hb
  · intro x a ha
    exact canonicalDecimal_canonical numberText ha

end

/-! ### Surrogates -/

/-- The bytes in hexadecimal in place of the hash. -/
def bytesKeccak : KeccakText where
  keccak256 := bytesToHex
  injective := bytesToHex_injective
  ascii := fun _ _ => lt_of_mem_bytesToHex

/-- A contract that is ready to be deployed. -/
def deployed (agreementId : Utf16) : ContractLifecycleEvidenceRecord where
  agreementId := agreementId
  teamId := lit "team"
  status := lit "active"
  agreementHash := none
  chainId := none
  totalAmount := .text (lit "1")
  fundedAmount := .text (lit "0")
  fundedAt := none
  escrowAddress := none
  updatedAt := lit "now"
  agreement := ⟨.object [], ⟨List.nodup_nil, trivial⟩, rfl⟩

/-- Ids that are surrogates without their partners have one commitment. -/
theorem entityCommitment_surrogates :
    (deployed [0xd800]).agreementId ≠ (deployed [0xd801]).agreementId
      ∧ (buildContractLifecycleEvidenceCommitments (fun _ => []) bytesKeccak
          (deployed [0xd800]) .contract_deploy).isOk = true
      ∧ buildContractLifecycleEvidenceCommitments (fun _ => []) bytesKeccak
          (deployed [0xd800]) .contract_deploy
        = buildContractLifecycleEvidenceCommitments (fun _ => []) bytesKeccak
          (deployed [0xd801]) .contract_deploy := by
  refine ⟨by decide, by decide +kernel, by decide +kernel⟩

end Bufi.Evidence
