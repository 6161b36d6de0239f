import Bufi.Evidence.Binding

/-!
# Contracts, payrolls and reports

The fields of a record on which two records with one commitment agree.  For every builder
there is a `Spec` of what a successful run has hashed, and the fields are read off from the
hashes.
-/

namespace Bufi.Evidence

open Bufi.Evm Bufi.Text Bufi.Js Bufi.Logic

section

variable (numberText : Number → Utf16)

/-- Amounts of one number. -/
def SameAmount (a b : Amount) : Prop :=
  decimalValue (asText numberText a.value) = decimalValue (asText numberText b.value)

theorem sameAmount_of_canonical {a b : Amount} {s : Utf16}
    (ha : canonicalDecimal numberText a.value = .ok s)
    (hb : canonicalDecimal numberText b.value = .ok s) : SameAmount numberText a b :=
  (canonicalDecimal_eq_iff numberText ha hb).mp rfl

variable (K : KeccakText)

/-! ### Contracts -/

/-- The part of a contract that its state commitment is made of. -/
structure SameState (r s : ContractLifecycleEvidenceRecord) : Prop where
  agreementHash : r.agreementHash = s.agreementHash
  chainId : r.chainId = s.chainId
  escrowConfigured : truthy r.escrowAddress = truthy s.escrowAddress
  fundedAmount : SameAmount numberText r.fundedAmount s.fundedAmount
  fundedAt : r.fundedAt = s.fundedAt
  status : r.status = s.status
  totalAmount : SameAmount numberText r.totalAmount s.totalAmount
  updatedAt : r.updatedAt = s.updatedAt

def stateFields (record : ContractLifecycleEvidenceRecord) (fundedAmount totalAmount : Utf16) :
    List (String × Value) := [
  ("agreementHash", nullable record.agreementHash),
  ("chainId", record.chainId.elim .null .number),
  ("escrowConfigured", .bool (truthy record.escrowAddress)),
  ("fundedAmount", .string fundedAmount),
  ("fundedAt", nullable record.fundedAt),
  ("status", .string record.status),
  ("totalAmount", .string totalAmount),
  ("updatedAt", .string record.updatedAt)]

/-- What a contract commits to. -/
structure ContractSpec (record : ContractLifecycleEvidenceRecord)
    (event : ContractLifecycleEvidenceEvent) (c : ContractCommitments)
    (fundedAmount totalAmount : Utf16) : Prop where
  chainId : ∀ x, record.chainId = some x → x.isSafeInteger = true
  funded : canonicalDecimal numberText record.fundedAmount.value = .ok fundedAmount
  total : canonicalDecimal numberText record.totalAmount.value = .ok totalAmount
  entity : c.entityCommitment = hashText K (lit "contract:" ++ record.agreementId)
  agreement : commitment numberText K record.agreement.value = .ok c.agreementCommitment
  state : commitment numberText K (obj (stateFields record fundedAmount totalAmount))
    = .ok c.stateCommitment
  snapshot : commitment numberText K (obj [
      ("agreementCommitment", .string c.agreementCommitment),
      ("event", .string event.text),
      ("stateCommitment", .string c.stateCommitment),
      ("teamCommitment", .string (hashText K (lit "team:" ++ record.teamId)))])
    = .ok c.snapshotCommitment

theorem contractSpec {record : ContractLifecycleEvidenceRecord}
    {event : ContractLifecycleEvidenceEvent} {c : ContractCommitments}
    (h : buildContractLifecycleEvidenceCommitments numberText K record event = .ok c) :
    ∃ fundedAmount totalAmount,
      ContractSpec numberText K record event c fundedAmount totalAmount := by
  simp only [buildContractLifecycleEvidenceCommitments, Logic.bind_eq_ok, Logic.pure_eq_ok,
    throwIf_eq_ok] at h
  obtain ⟨agreementId, hagreementId, teamId, hteamId, normalizedEvent, hevent, status, hstatus,
    updatedAt, hupdatedAt, -, -, -, hchain, fundedAmount, hfunded, totalAmount, htotal, -, -, -, -,
    -, -, -, -, -, -, a, hagreement, s, hstate, t, hsnapshot, rfl⟩ := h
  obtain rfl := requiredReference_string hagreementId
  obtain rfl := requiredReference_string hteamId
  obtain rfl := requiredReference_string hstatus
  obtain rfl := requiredReference_string hupdatedAt
  obtain rfl := requiredContractEvent_text hevent
  refine ⟨fundedAmount, totalAmount, ⟨?_, hfunded, htotal, rfl, hagreement, hstate, hsnapshot⟩⟩
  intro x hx
  rw [hx, Option.any_some] at hchain
  simp only [Bool.or_eq_true, not_or] at hchain
  simpa using hchain.1

theorem stateFields_data {record : ContractLifecycleEvidenceRecord} {funded total : Utf16}
    (h : ∀ x, record.chainId = some x → x.isSafeInteger = true) :
    ∀ f ∈ stateFields record funded total, Data f.2 := by
  have hchain : Data (record.chainId.elim .null .number) := by
    cases hx : record.chainId with
    | none => exact Data.null
    | some x => exact Data.number (h x hx)
  simp only [stateFields, List.forall_mem_cons]
  exact ⟨.nullable _, hchain, .bool _, .string _, .nullable _, .string _, .string _, .string _,
    List.forall_mem_nil _⟩

theorem sameState_of_commitment {r s : ContractLifecycleEvidenceRecord}
    {e e' : ContractLifecycleEvidenceEvent} {c d : ContractCommitments} {f t f' t' : Utf16}
    (hr : ContractSpec numberText K r e c f t) (hs : ContractSpec numberText K s e' d f' t')
    (h : c.stateCommitment = d.stateCommitment) : SameState numberText r s := by
  have hfields := fields_of_commitment numberText K
    ["agreementHash", "chainId", "escrowConfigured", "fundedAmount", "fundedAt", "status",
      "totalAmount", "updatedAt"]
    (by decide +kernel) rfl rfl (stateFields_data hr.chainId) (stateFields_data hs.chainId)
    hr.state hs.state h
  simp only [stateFields, List.forall₂_cons, List.forall₂_nil_left_iff, and_true] at hfields
  obtain ⟨hagreement, hchain, hescrow, hfunded, hfundedAt, hstatus, htotal, hupdated⟩ := hfields
  obtain rfl := eq_of_same_string hfunded
  obtain rfl := eq_of_same_string htotal
  refine ⟨eq_of_same_nullable hagreement, ?_, eq_of_same_bool hescrow,
    sameAmount_of_canonical numberText hr.funded hs.funded, eq_of_same_nullable hfundedAt,
    eq_of_same_string hstatus, sameAmount_of_canonical numberText hr.total hs.total,
    eq_of_same_string hupdated⟩
  cases hx : r.chainId with
  | none =>
    cases hy : s.chainId with
    | none => rfl
    | some y =>
      rw [hx, hy] at hchain
      cases hchain
  | some x =>
    cases hy : s.chainId with
    | none =>
      rw [hx, hy] at hchain
      cases hchain
    | some y =>
      rw [hx, hy] at hchain
      rw [eq_of_same_number hchain]

/-- What the snapshot of a contract determines. -/
structure SameSnapshot (r s : ContractLifecycleEvidenceRecord × ContractLifecycleEvidenceEvent) :
    Prop where
  agreement : r.1.agreement.value.Same s.1.agreement.value
  event : r.2 = s.2
  state : SameState numberText r.1 s.1
  teamId : SameText r.1.teamId s.1.teamId

theorem sameSnapshot_of_commitment {r s : ContractLifecycleEvidenceRecord}
    {e e' : ContractLifecycleEvidenceEvent} {c d : ContractCommitments} {f t f' t' : Utf16}
    (hr : ContractSpec numberText K r e c f t) (hs : ContractSpec numberText K s e' d f' t')
    (h : c.snapshotCommitment = d.snapshotCommitment) :
    SameSnapshot numberText (r, e) (s, e') := by
  have hdata : ∀ a b c d : Utf16, ∀ f ∈ [("agreementCommitment", (.string a : Value)),
      ("event", .string b), ("stateCommitment", .string c), ("teamCommitment", .string d)],
      Data f.2 := by
    intro a b c d
    simp only [List.forall_mem_cons]
    exact ⟨.string _, .string _, .string _, .string _, List.forall_mem_nil _⟩
  have hfields := fields_of_commitment numberText K
    ["agreementCommitment", "event", "stateCommitment", "teamCommitment"]
    (by decide +kernel) rfl rfl (hdata _ _ _ _) (hdata _ _ _ _) hr.snapshot hs.snapshot h
  simp only [List.forall₂_cons, List.forall₂_nil_left_iff, and_true] at hfields
  obtain ⟨hagreement, hevent, hstate, hteam⟩ := hfields
  exact ⟨same_of_commitment numberText K r.agreement.data s.agreement.data hr.agreement
      hs.agreement (eq_of_same_string hagreement),
    text_injective (eq_of_same_string hevent),
    sameState_of_commitment numberText K hr hs (eq_of_same_string hstate),
    sameText_of_prefix K (List.all_iff_forall_prop.mp (by decide)) (eq_of_same_string hteam)⟩

/-- What the commitments of a contract determine. -/
structure ContractDetermines : Prop where
  entity : Determines (Function.uncurry (buildContractLifecycleEvidenceCommitments numberText K))
    (·.entityCommitment) (fun r s => SameText r.1.agreementId s.1.agreementId)
  agreement : Determines (Function.uncurry (buildContractLifecycleEvidenceCommitments numberText K))
    (·.agreementCommitment) (fun r s => r.1.agreement.value.Same s.1.agreement.value)
  state : Determines (Function.uncurry (buildContractLifecycleEvidenceCommitments numberText K))
    (·.stateCommitment) (fun r s => SameState numberText r.1 s.1)
  snapshot : Determines (Function.uncurry (buildContractLifecycleEvidenceCommitments numberText K))
    (·.snapshotCommitment) (SameSnapshot numberText)

theorem contract_determines : ContractDetermines numberText K := by
  constructor <;> intro r s c d hc hd h <;>
    obtain ⟨_, _, hr⟩ := contractSpec numberText K hc <;>
    obtain ⟨_, _, hs⟩ := contractSpec numberText K hd
  case entity =>
    exact sameText_of_prefix K (List.all_iff_forall_prop.mp (by decide))
      (hr.entity.symm.trans (h.trans hs.entity))
  case agreement =>
    exact same_of_commitment numberText K r.1.agreement.data s.1.agreement.data hr.agreement
      hs.agreement h
  case state => exact sameState_of_commitment numberText K hr hs h
  case snapshot => exact sameSnapshot_of_commitment numberText K hr hs h

/-! ### Payrolls -/

/-- The part of a payroll that its record commitment is made of. -/
structure SamePayroll (r s : PayrollEvidenceRecord) : Prop where
  payrollId : r.payrollId = s.payrollId
  teamId : r.teamId = s.teamId
  payPeriodStart : r.payPeriodStart = s.payPeriodStart
  payPeriodEnd : r.payPeriodEnd = s.payPeriodEnd
  totalAmountUsdc : SameAmount numberText r.totalAmountUsdc s.totalAmountUsdc
  totalAmountEurc : SameAmount numberText r.totalAmountEurc s.totalAmountEurc
  recipientCount : r.recipientCount = s.recipientCount
  executedAt : r.executedAt = s.executedAt

/-- A batch has an id, or it is the record. -/
structure SameBatch (r s : PayrollEvidenceRecord × Option Utf16) : Prop where
  hasBatch : truthy r.2 = truthy s.2
  batchId : truthy r.2 = true → SameText (r.2.getD []) (s.2.getD [])
  record : truthy r.2 = false → SamePayroll numberText r.1 s.1

def payrollFields (record : PayrollEvidenceRecord) (totalAmountUsdc totalAmountEurc : Utf16) :
    List (String × Value) := [
  ("payrollId", .string record.payrollId),
  ("teamId", .string record.teamId),
  ("payPeriodStart", .string record.payPeriodStart),
  ("payPeriodEnd", .string record.payPeriodEnd),
  ("totalAmountUsdc", .string totalAmountUsdc),
  ("totalAmountEurc", .string totalAmountEurc),
  ("recipientCount", .number record.recipientCount),
  ("executedAt", nullable record.executedAt)]

/-- What a payroll commits to. -/
structure PayrollSpec (record : PayrollEvidenceRecord) (batchId : Option Utf16)
    (c : PayrollCommitments) (totalAmountUsdc totalAmountEurc : Utf16) : Prop where
  recipientCount : record.recipientCount.isSafeInteger = true
  usdc : canonicalDecimal numberText record.totalAmountUsdc.value = .ok totalAmountUsdc
  eurc : canonicalDecimal numberText record.totalAmountEurc.value = .ok totalAmountEurc
  entity : c.entityCommitment = hashText K (lit "payroll:" ++ record.payrollId)
  fields : commitment numberText K (obj (payrollFields record totalAmountUsdc totalAmountEurc))
    = .ok c.recordCommitment
  recipients : commitment numberText K record.recipients.value = .ok c.recipientCommitment
  batch : c.batchCommitment = if truthy batchId
    then hashText K (lit "payroll-batch:" ++ batchId.getD [])
    else hashText K (lit "payroll-record:" ++ c.recordCommitment)

theorem payrollSpec {record : PayrollEvidenceRecord} {batchId : Option Utf16}
    {c : PayrollCommitments}
    (h : buildPayrollEvidenceCommitments numberText K record batchId = .ok c) :
    ∃ usdc eurc, PayrollSpec numberText K record batchId c usdc eurc := by
  simp only [buildPayrollEvidenceCommitments, Logic.bind_eq_ok, Logic.pure_eq_ok,
    throwIf_eq_ok] at h
  obtain ⟨payrollId, hpayrollId, teamId, hteamId, -, -, -, hcount, -, -, counted, -, -, -,
    payPeriodStart, hstart, payPeriodEnd, hend, usdc, husdc, eurc, heurc, executedAt, hexecutedAt,
    r, hrecord, p, hrecipients, b, hbatch, rfl⟩ := h
  obtain rfl := requiredReference_string hpayrollId
  obtain rfl := requiredReference_string hteamId
  obtain rfl := requiredReference_string hstart
  obtain rfl := requiredReference_string hend
  have hexecuted := requiredReference_nullable hexecutedAt
  refine ⟨usdc, eurc, ⟨?_, husdc, heurc, rfl, ?_, hrecipients, ?_⟩⟩
  · rw [not_or, not_not] at hcount
    exact hcount.1
  · rw [payrollFields, hexecuted]
    exact hrecord
  · rw [payrollBatch] at hbatch
    by_cases hid : truthy batchId = true
    · rw [if_pos hid] at hbatch
      simp only [Logic.bind_eq_ok, Logic.pure_eq_ok] at hbatch
      obtain ⟨id, hid', rfl⟩ := hbatch
      rw [if_pos hid, requiredReference_nullable hid', Option.getD_some]
    · rw [if_neg hid, Logic.pure_eq_ok] at hbatch
      rw [if_neg hid]
      exact hbatch.symm

theorem samePayroll_of_commitment {r s : PayrollEvidenceRecord} {b b' : Option Utf16}
    {c d : PayrollCommitments} {u e u' e' : Utf16} (hr : PayrollSpec numberText K r b c u e)
    (hs : PayrollSpec numberText K s b' d u' e') (h : c.recordCommitment = d.recordCommitment) :
    SamePayroll numberText r s := by
  have hdata : ∀ (record : PayrollEvidenceRecord) (u e : Utf16),
      record.recipientCount.isSafeInteger = true → ∀ f ∈ payrollFields record u e, Data f.2 := by
    intro record u e hcount
    simp only [payrollFields, List.forall_mem_cons]
    exact ⟨.string _, .string _, .string _, .string _, .string _, .string _, .number hcount,
      .nullable _, List.forall_mem_nil _⟩
  have hfields := fields_of_commitment numberText K
    ["payrollId", "teamId", "payPeriodStart", "payPeriodEnd", "totalAmountUsdc", "totalAmountEurc",
      "recipientCount", "executedAt"]
    (by decide +kernel) rfl rfl (hdata r u e hr.recipientCount) (hdata s u' e' hs.recipientCount)
    hr.fields hs.fields h
  simp only [payrollFields, List.forall₂_cons, List.forall₂_nil_left_iff, and_true] at hfields
  obtain ⟨hid, hteam, hstart, hend, husdc, heurc, hcount, hexecuted⟩ := hfields
  obtain rfl := eq_of_same_string husdc
  obtain rfl := eq_of_same_string heurc
  exact ⟨eq_of_same_string hid, eq_of_same_string hteam, eq_of_same_string hstart,
    eq_of_same_string hend, sameAmount_of_canonical numberText hr.usdc hs.usdc,
    sameAmount_of_canonical numberText hr.eurc hs.eurc, eq_of_same_number hcount,
    eq_of_same_nullable hexecuted⟩

theorem wellFormed_commitment {v : Value} {c : Utf16} (h : commitment numberText K v = .ok c) :
    WellFormed c := by
  rw [commitment, Logic.bind_eq_ok] at h
  obtain ⟨text, -, htext⟩ := h
  rw [Logic.pure_eq_ok] at htext
  rw [← htext]
  exact wellFormed_hashText K text

/-- The id of a batch and the hash of a record are behind different prefixes. -/
theorem batch_ne_record (s t : Utf16) :
    hashText K (lit "payroll-batch:" ++ s) ≠ hashText K (lit "payroll-record:" ++ t) :=
  hashText_ne_of_prefix K (List.all_iff_forall_prop.mp (by decide))
    (List.all_iff_forall_prop.mp (by decide)) (n := 8) (by decide) (by decide)
    (by decide +kernel) s t

theorem sameBatch_of_commitment {r s : PayrollEvidenceRecord} {b b' : Option Utf16}
    {c d : PayrollCommitments} {u e u' e' : Utf16} (hr : PayrollSpec numberText K r b c u e)
    (hs : PayrollSpec numberText K s b' d u' e') (h : c.batchCommitment = d.batchCommitment) :
    SameBatch numberText (r, b) (s, b') := by
  rw [hr.batch, hs.batch] at h
  by_cases hb : truthy b = true
  · by_cases hb' : truthy b' = true
    · rw [if_pos hb, if_pos hb'] at h
      exact ⟨hb.trans hb'.symm, fun _ =>
        sameText_of_prefix K (List.all_iff_forall_prop.mp (by decide)) h,
        fun hnot => absurd (hnot.symm.trans hb) Bool.false_ne_true⟩
    · rw [if_pos hb, if_neg hb'] at h
      exact absurd h (batch_ne_record K _ _)
  · by_cases hb' : truthy b' = true
    · rw [if_neg hb, if_pos hb'] at h
      exact absurd h.symm (batch_ne_record K _ _)
    · rw [if_neg hb, if_neg hb'] at h
      rw [Bool.not_eq_true] at hb hb'
      refine ⟨hb.trans hb'.symm, fun hid => absurd (hb.symm.trans hid) Bool.false_ne_true,
        fun _ => ?_⟩
      -- the hash of a record is well formed, so it is determined behind the prefix
      have htext := sameText_of_prefix K (List.all_iff_forall_prop.mp (by decide)) h
      have hrecord := (wellFormed_commitment numberText K hr.fields).unscalars_scalars
      rw [htext, (wellFormed_commitment numberText K hs.fields).unscalars_scalars] at hrecord
      exact samePayroll_of_commitment numberText K hr hs hrecord.symm

/-- What the commitments of a payroll determine. -/
structure PayrollDetermines : Prop where
  entity : Determines (Function.uncurry (buildPayrollEvidenceCommitments numberText K))
    (·.entityCommitment) (fun r s => SameText r.1.payrollId s.1.payrollId)
  record : Determines (Function.uncurry (buildPayrollEvidenceCommitments numberText K))
    (·.recordCommitment) (fun r s => SamePayroll numberText r.1 s.1)
  recipients : Determines (Function.uncurry (buildPayrollEvidenceCommitments numberText K))
    (·.recipientCommitment) (fun r s => r.1.recipients.value.Same s.1.recipients.value)
  batch : Determines (Function.uncurry (buildPayrollEvidenceCommitments numberText K))
    (·.batchCommitment) (SameBatch numberText)

theorem payroll_determines : PayrollDetermines numberText K := by
  constructor <;> intro r s c d hc hd h <;>
    obtain ⟨_, _, hr⟩ := payrollSpec numberText K hc <;>
    obtain ⟨_, _, hs⟩ := payrollSpec numberText K hd
  case entity =>
    exact sameText_of_prefix K (List.all_iff_forall_prop.mp (by decide))
      (hr.entity.symm.trans (h.trans hs.entity))
  case record => exact samePayroll_of_commitment numberText K hr hs h
  case recipients =>
    exact same_of_commitment numberText K r.1.recipients.data s.1.recipients.data hr.recipients
      hs.recipients h
  case batch => exact sameBatch_of_commitment numberText K hr hs h

/-! ### Reports -/

/-- The sources of a report. -/
structure SameSources (r s : ReportEvidenceRecord) : Prop where
  transactions : r.transactionsData.value.Same s.transactionsData.value
  metrics : r.financialMetrics.value.Same s.financialMetrics.value
  analysis : r.aiAnalysis.value.Same s.aiAnalysis.value

structure SameReport (r s : ReportEvidenceRecord) : Prop where
  reportId : r.reportId = s.reportId
  teamId : r.teamId = s.teamId
  reportNumber : r.reportNumber = s.reportNumber
  fromDate : r.fromDate = s.fromDate
  toDate : r.toDate = s.toDate
  createdAt : r.createdAt = s.createdAt
  sources : SameSources r s

/-- What a report commits to. -/
structure ReportSpec (record : ReportEvidenceRecord) (c : ReportCommitments) : Prop where
  entity : c.entityCommitment = hashText K (lit "financial-report:" ++ record.reportId)
  transactions : commitment numberText K record.transactionsData.value = .ok c.transactionsHash
  metrics : commitment numberText K record.financialMetrics.value = .ok c.metricsHash
  analysis : commitment numberText K record.aiAnalysis.value = .ok c.analysisHash
  combined : commitment numberText K (obj [
      ("analysisHash", .string c.analysisHash),
      ("metricsHash", .string c.metricsHash),
      ("transactionsHash", .string c.transactionsHash)])
    = .ok c.combinedHash
  report : commitment numberText K (obj [
      ("reportId", .string record.reportId),
      ("teamId", .string record.teamId),
      ("reportNumber", .string record.reportNumber),
      ("fromDate", .string record.fromDate),
      ("toDate", .string record.toDate),
      ("createdAt", .string record.createdAt),
      ("combinedHash", .string c.combinedHash)])
    = .ok c.reportCommitment

theorem reportSpec {record : ReportEvidenceRecord} {c : ReportCommitments}
    (h : buildReportEvidenceCommitments numberText K record = .ok c) :
    ReportSpec numberText K record c := by
  simp only [buildReportEvidenceCommitments, Logic.bind_eq_ok, Logic.pure_eq_ok,
    throwIf_eq_ok] at h
  obtain ⟨reportId, hreportId, teamId, hteamId, -, -, -, -, t, ht, m, hm, a, ha, combined,
    hcombined, reportNumber, hnumber, fromDate, hfrom, toDate, hto, createdAt, hcreated, r,
    hreport, rfl⟩ := h
  obtain rfl := requiredReference_string hreportId
  obtain rfl := requiredReference_string hteamId
  obtain rfl := requiredReference_string hnumber
  obtain rfl := requiredReference_string hfrom
  obtain rfl := requiredReference_string hto
  obtain rfl := requiredReference_string hcreated
  exact ⟨rfl, ht, hm, ha, hcombined, hreport⟩

theorem sameSources_of_commitment {r s : ReportEvidenceRecord} {c d : ReportCommitments}
    (hr : ReportSpec numberText K r c) (hs : ReportSpec numberText K s d)
    (h : c.combinedHash = d.combinedHash) : SameSources r s := by
  have hdata : ∀ a b c : Utf16, ∀ f ∈ [("analysisHash", (.string a : Value)),
      ("metricsHash", .string b), ("transactionsHash", .string c)], Data f.2 := by
    intro a b c
    simp only [List.forall_mem_cons]
    exact ⟨.string _, .string _, .string _, List.forall_mem_nil _⟩
  have hfields := fields_of_commitment numberText K
    ["analysisHash", "metricsHash", "transactionsHash"]
    (by decide +kernel) rfl rfl (hdata _ _ _) (hdata _ _ _) hr.combined hs.combined h
  simp only [List.forall₂_cons, List.forall₂_nil_left_iff, and_true] at hfields
  obtain ⟨hanalysis, hmetrics, htransactions⟩ := hfields
  exact ⟨same_of_commitment numberText K r.transactionsData.data s.transactionsData.data
      hr.transactions hs.transactions (eq_of_same_string htransactions),
    same_of_commitment numberText K r.financialMetrics.data s.financialMetrics.data
      hr.metrics hs.metrics (eq_of_same_string hmetrics),
    same_of_commitment numberText K r.aiAnalysis.data s.aiAnalysis.data
      hr.analysis hs.analysis (eq_of_same_string hanalysis)⟩

theorem sameReport_of_commitment {r s : ReportEvidenceRecord} {c d : ReportCommitments}
    (hr : ReportSpec numberText K r c) (hs : ReportSpec numberText K s d)
    (h : c.reportCommitment = d.reportCommitment) : SameReport r s := by
  have hdata : ∀ a b c d e f g : Utf16, ∀ field ∈ [("reportId", (.string a : Value)),
      ("teamId", .string b), ("reportNumber", .string c), ("fromDate", .string d),
      ("toDate", .string e), ("createdAt", .string f), ("combinedHash", .string g)],
      Data field.2 := by
    intro a b c d e f g
    simp only [List.forall_mem_cons]
    exact ⟨.string _, .string _, .string _, .string _, .string _, .string _, .string _,
      List.forall_mem_nil _⟩
  have hfields := fields_of_commitment numberText K
    ["reportId", "teamId", "reportNumber", "fromDate", "toDate", "createdAt", "combinedHash"]
    (by decide +kernel) rfl rfl (hdata _ _ _ _ _ _ _) (hdata _ _ _ _ _ _ _) hr.report hs.report h
  simp only [List.forall₂_cons, List.forall₂_nil_left_iff, and_true] at hfields
  obtain ⟨hid, hteam, hnumber, hfrom, hto, hcreated, hcombined⟩ := hfields
  exact ⟨eq_of_same_string hid, eq_of_same_string hteam, eq_of_same_string hnumber,
    eq_of_same_string hfrom, eq_of_same_string hto, eq_of_same_string hcreated,
    sameSources_of_commitment numberText K hr hs (eq_of_same_string hcombined)⟩

/-- What the commitments of a report determine. -/
structure ReportDetermines : Prop where
  entity : Determines (buildReportEvidenceCommitments numberText K)
    (·.entityCommitment) (fun r s => SameText r.reportId s.reportId)
  transactions : Determines (buildReportEvidenceCommitments numberText K)
    (·.transactionsHash) (fun r s => r.transactionsData.value.Same s.transactionsData.value)
  metrics : Determines (buildReportEvidenceCommitments numberText K)
    (·.metricsHash) (fun r s => r.financialMetrics.value.Same s.financialMetrics.value)
  analysis : Determines (buildReportEvidenceCommitments numberText K)
    (·.analysisHash) (fun r s => r.aiAnalysis.value.Same s.aiAnalysis.value)
  combined : Determines (buildReportEvidenceCommitments numberText K)
    (·.combinedHash) SameSources
  report : Determines (buildReportEvidenceCommitments numberText K)
    (·.reportCommitment) SameReport

theorem report_determines : ReportDetermines numberText K := by
  constructor <;> intro r s c d hc hd h <;>
    have hr := reportSpec numberText K hc <;> have hs := reportSpec numberText K hd
  case entity =>
    exact sameText_of_prefix K (List.all_iff_forall_prop.mp (by decide))
      (hr.entity.symm.trans (h.trans hs.entity))
  case transactions =>
    exact same_of_commitment numberText K r.transactionsData.data s.transactionsData.data
      hr.transactions hs.transactions h
  case metrics =>
    exact same_of_commitment numberText K r.financialMetrics.data s.financialMetrics.data
      hr.metrics hs.metrics h
  case analysis =>
    exact same_of_commitment numberText K r.aiAnalysis.data s.aiAnalysis.data
      hr.analysis hs.analysis h
  case combined => exact sameSources_of_commitment numberText K hr hs h
  case report => exact sameReport_of_commitment numberText K hr hs h

end

end Bufi.Evidence
