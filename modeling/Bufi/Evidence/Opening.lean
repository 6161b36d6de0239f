import Bufi.Evidence.Token

/-!
# Opening evidence tokens

What is opened is what was sealed, for exactly the lifetime that it was sealed for; and
whatever text the seal gives back, claims that are opened have a lifetime that a token may
have, have not expired, and carry a reference that is valid, unless the kind in the text is
none of the six (`openCreEvidenceToken_iff`).
-/

namespace Bufi.Evidence

open Bufi.Text Bufi.Js Bufi.Logic

/-! ### Properties of an object -/

theorem getKey_eq_some {entries : List (Utf16 × Value)} (hnodup : (entries.map Prod.fst).Nodup)
    {key : String} {v : Value} (h : (lit key, v) ∈ entries) : getKey entries key = some v := by
  rw [getKey]
  cases hfind : entries.reverse.find? (fun e => e.1 == lit key) with
  | none =>
    have hnone := List.find?_eq_none.mp hfind _ (List.mem_reverse.mpr h)
    exact absurd (beq_self_eq_true (lit key)) hnone
  | some e =>
    have hmem := List.mem_reverse.mp (List.mem_of_find?_eq_some hfind)
    have hkey : e.1 = lit key := by simpa using List.find?_some hfind
    rw [eq_of_nodup_keys hnodup hmem h hkey, Option.map_some]

theorem getKey_eq_none {entries : List (Utf16 × Value)} {key : String}
    (h : lit key ∉ entries.map Prod.fst) : getKey entries key = none := by
  rw [getKey, Option.map_eq_none_iff, List.find?_eq_none]
  intro e he hkey
  have heq : e.1 = lit key := by simpa using hkey
  exact h (List.mem_map.mpr ⟨e, List.mem_reverse.mp he, heq⟩)

/-! ### References that are accepted -/

/-- A text that `requiredReference` accepts. -/
def isReference (s : Utf16) : Bool :=
  !(s.length = 0 ∨ MAX_REFERENCE_LENGTH < s.length ∨ hasControlCharacter s)

theorem requiredReference_eq_ok_iff {v : Unknown} {field : String} {s : Utf16} :
    requiredReference v field = .ok s ↔ v = some (.string s) ∧ isReference s = true := by
  constructor
  · intro h
    obtain rfl := requiredReference_eq_ok h
    refine ⟨rfl, ?_⟩
    rw [requiredReference] at h
    by_cases hbad : s.length = 0 ∨ MAX_REFERENCE_LENGTH < s.length ∨ hasControlCharacter s = true
    · rw [if_pos hbad] at h
      cases h
    · rw [isReference, Bool.not_eq_true', decide_eq_false_iff_not]
      exact hbad
  · rintro ⟨rfl, h⟩
    rw [isReference, Bool.not_eq_true', decide_eq_false_iff_not] at h
    rw [requiredReference]
    exact if_neg h

/-- A reference that the checks leave as it is. -/
def CreEvidenceReference.Valid : CreEvidenceReference → Prop
  | paymentScore entityId teamId =>
    isReference entityId = true ∧ isReference teamId = true ∧ entityId = teamId
      ∧ isUuid teamId = true
  | payroll entityId teamId batchId =>
    isReference entityId = true ∧ isReference teamId = true
      ∧ ∀ id ∈ batchId, isReference id = true
  | contract entityId teamId _ | reimbursement entityId teamId _ | report entityId teamId
  | project entityId teamId _ => isReference entityId = true ∧ isReference teamId = true

/-- A kind that there is. -/
def isKind (kind : Unknown) : Bool :=
  isText kind (lit "payment-score") || isText kind (lit "contract") || isText kind (lit "payroll")
    || isText kind (lit "reimbursement") || isText kind (lit "report")
    || isText kind (lit "project")

theorem validateKind_of_not_isKind {get : String → Unknown} {e t : Utf16}
    (h : isKind (get "kind") = false) : validateKind get e t = .ok none := by
  simp only [isKind, Bool.or_eq_false_iff] at h
  obtain ⟨⟨⟨⟨⟨h₁, h₂⟩, h₃⟩, h₄⟩, h₅⟩, h₆⟩ := h
  rw [validateKind]
  simp only [h₁, h₂, h₃, h₄, h₅, h₆, Bool.false_eq_true, if_false]
  rfl

theorem validateBatchId_valid {v : Unknown} {batchId : Option Utf16}
    (h : validateBatchId v = .ok batchId) : ∀ id ∈ batchId, isReference id = true := by
  rw [validateBatchId] at h
  by_cases hv : toBoolean v = true
  · rw [if_pos hv, map_eq_ok] at h
    obtain ⟨id, hid, rfl⟩ := h
    rintro _ ⟨⟩
    exact (requiredReference_eq_ok_iff.mp hid).2
  · rw [if_neg hv, pure_eq_ok] at h
    rw [← h]
    rintro _ ⟨⟩

/-- **What a kind gives is a valid reference, or it is none of the six.** -/
theorem validateKind_valid {get : String → Unknown} {e t : Utf16} (he : isReference e = true)
    (ht : isReference t = true) {r : Option CreEvidenceReference}
    (h : validateKind get e t = .ok r) :
    r.elim (isKind (get "kind") = false) CreEvidenceReference.Valid := by
  cases hkind : isKind (get "kind") with
  | false =>
    rw [validateKind_of_not_isKind hkind, Except.ok.injEq] at h
    rw [← h]
    rfl
  | true =>
    rw [validateKind] at h
    split at h
    · simp only [bind_eq_ok, throwIf_eq_ok, pure_eq_ok, not_or, not_not] at h
      obtain ⟨-, ⟨heq, huuid⟩, rfl⟩ := h
      exact ⟨he, ht, heq, huuid⟩
    split at h
    · obtain ⟨event, -, rfl⟩ := map_eq_ok.mp h
      exact ⟨he, ht⟩
    split at h
    · obtain ⟨batchId, hbatch, rfl⟩ := map_eq_ok.mp h
      exact ⟨he, ht, validateBatchId_valid hbatch⟩
    split at h
    · obtain ⟨phase, -, rfl⟩ := map_eq_ok.mp h
      exact ⟨he, ht⟩
    split at h
    · rw [pure_eq_ok] at h
      rw [← h]
      exact ⟨he, ht⟩
    split at h
    · obtain ⟨phase, -, rfl⟩ := map_eq_ok.mp h
      exact ⟨he, ht⟩
    · simp_all [isKind]

theorem validateReference_eq_ok_iff {get : String → Unknown} {r : Option CreEvidenceReference} :
    validateReference get = .ok r ↔ ∃ e t, get "entityId" = some (.string e)
      ∧ isReference e = true ∧ get "teamId" = some (.string t) ∧ isReference t = true
      ∧ validateKind get e t = .ok r := by
  rw [validateReference]
  simp only [bind_eq_ok, requiredReference_eq_ok_iff, and_assoc]
  constructor
  · rintro ⟨e, he, he', t, ht, ht', h⟩
    exact ⟨e, t, he, he', ht, ht', h⟩
  · rintro ⟨e, t, he, he', ht, ht', h⟩
    exact ⟨e, he, he', t, ht, ht', h⟩

/-- **A valid reference is accepted and left as it is**, in any object that has its
properties. -/
theorem validateReference_of_valid {get : String → Unknown} {r : CreEvidenceReference}
    (hvalid : r.Valid) (hfields : ∀ f ∈ r.fields, get f.1 = some f.2)
    (hbatch : "batchId" ∉ r.fields.map Prod.fst → get "batchId" = none) :
    validateReference get = .ok (some r) := by
  rw [validateReference_eq_ok_iff]
  cases r with
  | paymentScore e t =>
    simp only [CreEvidenceReference.fields, List.forall_mem_cons] at hfields
    obtain ⟨hkind, he, ht, -⟩ := hfields
    obtain ⟨he', ht', heq, huuid⟩ := hvalid
    refine ⟨e, t, he, he', ht, ht', ?_⟩
    rw [validateKind, hkind]
    refine (if_pos (by decide)).trans ?_
    rw [throwIf, if_neg (by simp [heq, huuid])]
    rfl
  | contract e t event =>
    simp only [CreEvidenceReference.fields, List.forall_mem_cons] at hfields
    obtain ⟨hkind, he, ht, hevent, -⟩ := hfields
    refine ⟨e, t, he, hvalid.1, ht, hvalid.2, ?_⟩
    rw [validateKind, hkind, hevent]
    refine (if_neg (by decide)).trans ((if_pos (by decide)).trans ?_)
    cases event <;> rfl
  | payroll e t batchId =>
    simp only [CreEvidenceReference.fields, List.cons_append, List.nil_append,
      List.forall_mem_cons] at hfields
    obtain ⟨hkind, he, ht, hrest⟩ := hfields
    refine ⟨e, t, he, hvalid.1, ht, hvalid.2.1, ?_⟩
    rw [validateKind, hkind]
    refine (if_neg (by decide)).trans ((if_neg (by decide)).trans ((if_pos (by decide)).trans ?_))
    cases batchId with
    | none =>
      rw [hbatch (by simp [CreEvidenceReference.fields])]
      rfl
    | some id =>
      have hid := hvalid.2.2 id rfl
      have hget := hrest ("batchId", .string id) List.mem_cons_self
      rw [hget, validateBatchId, if_pos, requiredReference_eq_ok_iff.mpr ⟨rfl, hid⟩]
      · rfl
      · cases id with
        | nil => cases hid
        | cons c id => rfl
  | reimbursement e t phase =>
    simp only [CreEvidenceReference.fields, List.forall_mem_cons] at hfields
    obtain ⟨hkind, he, ht, hphase, -⟩ := hfields
    refine ⟨e, t, he, hvalid.1, ht, hvalid.2, ?_⟩
    rw [validateKind, hkind, hphase]
    refine (if_neg (by decide)).trans ((if_neg (by decide)).trans ((if_neg (by decide)).trans
      ((if_pos (by decide)).trans ?_)))
    cases phase <;> rfl
  | report e t =>
    simp only [CreEvidenceReference.fields, List.forall_mem_cons] at hfields
    obtain ⟨hkind, he, ht, -⟩ := hfields
    refine ⟨e, t, he, hvalid.1, ht, hvalid.2, ?_⟩
    rw [validateKind, hkind]
    exact (if_neg (by decide)).trans ((if_neg (by decide)).trans ((if_neg (by decide)).trans
      ((if_neg (by decide)).trans (if_pos (by decide)))))
  | project e t phase =>
    simp only [CreEvidenceReference.fields, List.forall_mem_cons] at hfields
    obtain ⟨hkind, he, ht, hphase, -⟩ := hfields
    refine ⟨e, t, he, hvalid.1, ht, hvalid.2, ?_⟩
    rw [validateKind, hkind, hphase]
    refine (if_neg (by decide)).trans ((if_neg (by decide)).trans ((if_neg (by decide)).trans
      ((if_neg (by decide)).trans ((if_neg (by decide)).trans ((if_pos (by decide)).trans ?_)))))
    cases phase <;> rfl

/-! ### Keys -/

/-- The keys that a reference has. -/
def referenceKeys : List (List String) := [
  ["kind", "entityId", "teamId"],
  ["kind", "entityId", "teamId", "event"],
  ["kind", "entityId", "teamId", "batchId"],
  ["kind", "entityId", "teamId", "phase"]]

theorem keys_mem (r : CreEvidenceReference) : r.fields.map Prod.fst ∈ referenceKeys := by
  cases r with
  | payroll e t batchId =>
    cases batchId <;> simp [CreEvidenceReference.fields, referenceKeys]
  | _ => simp [CreEvidenceReference.fields, referenceKeys]

/-- The keys of claims that are not those of the reference. -/
def claimKeys : List String := ["audience", "expiresAt", "issuedAt", "nonce", "version"]

theorem nodup_keys : ∀ keys ∈ [] :: referenceKeys, ((keys ++ claimKeys).map lit).Nodup := by
  decide +kernel

theorem batchId_not_mem : ∀ keys ∈ [] :: referenceKeys, "batchId" ∉ keys →
    lit "batchId" ∉ (keys ++ claimKeys).map lit := by
  decide +kernel

theorem claims_keys (claims : CreEvidenceClaims) : ∃ keys ∈ [] :: referenceKeys,
    (claims.reference.elim [] CreEvidenceReference.fields).map Prod.fst = keys
      ∧ claims.fields.map Prod.fst = keys ++ claimKeys := by
  refine ⟨(claims.reference.elim [] CreEvidenceReference.fields).map Prod.fst, ?_, rfl, ?_⟩
  · cases claims.reference with
    | none => exact List.mem_cons_self
    | some r => exact List.mem_cons_of_mem _ (keys_mem r)
  · rw [CreEvidenceClaims.fields, List.map_append]
    rfl

/-- The object that a reference is. -/
def CreEvidenceReference.get (r : CreEvidenceReference) : String → Unknown :=
  getKey (r.fields.map (fun f => (lit f.1, f.2)))

theorem map_fst_lit (fields : List (String × Value)) :
    (fields.map (fun f => (lit f.1, f.2))).map Prod.fst = (fields.map Prod.fst).map lit := by
  rw [List.map_map, List.map_map]
  rfl

/-- A valid reference is left as it is. -/
theorem validateReference_get {r : CreEvidenceReference} (h : r.Valid) :
    validateReference r.get = .ok (some r) := by
  have hkeys := List.mem_cons_of_mem [] (keys_mem r)
  have hnodup := nodup_keys _ hkeys
  rw [List.map_append] at hnodup
  refine validateReference_of_valid h ?_ ?_
  · intro f hf
    refine getKey_eq_some ?_ (List.mem_map.mpr ⟨f, hf, rfl⟩)
    rw [map_fst_lit]
    exact hnodup.of_append_left
  · intro hbatch
    refine getKey_eq_none ?_
    rw [map_fst_lit]
    have hnot := batchId_not_mem _ hkeys hbatch
    rw [List.map_append, List.mem_append, not_or] at hnot
    exact hnot.1

/-! ### Claims in a text -/

theorem string_of_mem_fields {r : CreEvidenceReference} :
    ∀ f ∈ r.fields, ∃ s, f.2 = .string s := by
  cases r with
  | payroll e t batchId =>
    cases batchId <;> simp [CreEvidenceReference.fields]
  | _ => simp [CreEvidenceReference.fields]

/-- The values of claims are texts and numbers. -/
theorem scalar_of_mem_fields {claims : CreEvidenceClaims} :
    ∀ f ∈ claims.fields, (∃ s, f.2 = .string s) ∨ ∃ x ∈ [claims.expiresAt, claims.issuedAt,
      claims.version], f.2 = .number x := by
  intro f hf
  rw [CreEvidenceClaims.fields, List.mem_append] at hf
  rcases hf with hf | hf
  · cases hr : claims.reference with
    | none =>
      rw [hr] at hf
      cases hf
    | some r =>
      rw [hr] at hf
      exact Or.inl (string_of_mem_fields f hf)
  · simp only [List.mem_cons, List.not_mem_nil, or_false] at hf
    rcases hf with rfl | rfl | rfl | rfl | rfl <;> simp

theorem claims_data {claims : CreEvidenceClaims}
    (h : ∀ x ∈ [claims.expiresAt, claims.issuedAt, claims.version], x.isSafeInteger = true) :
    Data (obj claims.fields) := by
  obtain ⟨keys, hmem, -, hkeys⟩ := claims_keys claims
  refine Data.obj _ hkeys (nodup_keys keys hmem) ?_
  intro f hf
  obtain ⟨s, hs⟩ | ⟨x, hx, hfx⟩ := scalar_of_mem_fields f hf
  · rw [hs]
    exact Data.string s
  · rw [hfx]
    exact Data.number (h x hx)

/-- **The text of claims is read back**, with every property. -/
theorem parseClaims_stableStringify (numberText : Number → Utf16) (claims : CreEvidenceClaims)
    (h : ∀ x ∈ [claims.expiresAt, claims.issuedAt, claims.version], x.isSafeInteger = true)
    {text : Utf16} (htext : stableStringify numberText (obj claims.fields) = .ok text) :
    ∃ get, parseClaims (.ok text) = .ok get ∧ (∀ f ∈ claims.fields, get f.1 = some f.2)
      ∧ (∀ key, lit key ∉ (claims.fields.map Prod.fst).map lit → get key = none) := by
  have hdata := claims_data h
  rw [stableStringify_data numberText hdata, Except.ok.injEq] at htext
  have hparse := jsonParse_render numberText (Json.all_sortKeys hdata.safe)
  rw [htext, obj, Json.sortKeys] at hparse
  have hsorted : Json.sortMembers (claims.fields.map (fun f => (lit f.1, f.2)))
      = claims.fields.map (fun f => (lit f.1, f.2)) := by
    rw [Json.sortMembers_eq, List.map_map]
    refine List.map_congr_left (fun f hf => ?_)
    obtain ⟨s, hs⟩ | ⟨x, -, hx⟩ := scalar_of_mem_fields f hf
    · simp [hs, Json.sortKeys]
    · simp [hx, Json.sortKeys]
  rw [hsorted] at hparse
  have hperm := perm_sortEntries (claims.fields.map (fun f => (lit f.1, f.2)))
  have hkeys := hperm.map Prod.fst
  rw [map_fst_lit] at hkeys
  refine ⟨getKey (sortEntries (claims.fields.map (fun f => (lit f.1, f.2)))), ?_, ?_, ?_⟩
  · rw [parseClaims, hparse]
    rfl
  · intro f hf
    refine getKey_eq_some ?_ (hperm.mem_iff.mpr (List.mem_map.mpr ⟨f, hf, rfl⟩))
    obtain ⟨keys, hmem, -, heq⟩ := claims_keys claims
    rw [hkeys.nodup_iff, heq]
    exact nodup_keys keys hmem
  · intro key hkey
    refine getKey_eq_none ?_
    rwa [hkeys.mem_iff]

/-! ### Time -/

/-- The second that a time is in. -/
def Time.seconds (time : Time) : ℤ := time.ms / 1000

theorem Date.seconds_at (time : Time) : (Date.at time).seconds = .ofInt time.seconds :=
  Number.floor_round_div time.bounded

theorem Time.abs_seconds_le (time : Time) : |time.seconds| ≤ 8640000000000 := by
  have hms := time.bounded
  rw [abs_le] at hms ⊢
  rw [Time.seconds]
  omega

theorem lifetime_iff {i e : ℤ} :
    ¬((Number.ofInt e).le (.ofInt i) = true
        ∨ (Number.ofInt MAX_TTL_SECONDS).lt ((Number.ofInt e).minus (.ofInt i)) = true)
      ↔ 0 < e - i ∧ e - i ≤ MAX_TTL_SECONDS := by
  rw [not_or, Number.le_ofInt]
  constructor
  · rintro ⟨hlt, hle⟩
    refine ⟨by omega, ?_⟩
    by_contra hgt
    -- the difference is rounded, but not down to the limit
    rw [Number.minus, Number.sub_ofInt] at hle
    exact hle (Number.lt_round (by decide) (by decide) (by omega))
  · rintro ⟨hpos, hle⟩
    have hmax : MAX_TTL_SECONDS = 900 := rfl
    rw [Number.minus_ofInt (by rw [abs_le]; omega), Number.lt_ofInt]
    omega

/-! ### Checks -/

theorem requiredInteger_eq_ok_iff {v : Unknown} {field : String} {x : Number} :
    requiredInteger v field = .ok x
      ↔ ∃ n : ℤ, x = .ofInt n ∧ |n| < 2 ^ 53 ∧ v = some (.number (.ofInt n)) := by
  rw [requiredInteger.eq_def]
  constructor
  · intro h
    split at h
    · next y =>
      by_cases hy : y.isSafeInteger = true
      · rw [if_pos hy, pure_eq_ok] at h
        obtain ⟨n, rfl, hn⟩ := Number.isSafeInteger_iff.mp hy
        exact ⟨n, h.symm, hn, rfl⟩
      · rw [if_neg hy] at h
        cases h
    · cases h
  · rintro ⟨n, rfl, hn, rfl⟩
    exact if_pos (Number.isSafeInteger_iff.mpr ⟨n, rfl, hn⟩)

/-- The shape of a token. -/
def IsToken (token : Utf16) : Prop :=
  TOKEN_PREFIX <+: token ∧ TOKEN_PREFIX.length < token.length ∧ token.length ≤ MAX_TOKEN_LENGTH

/-- The claims that are accepted in the second `t`, before their reference is looked at. -/
structure Header (get : String → Unknown) (issuedAt expiresAt t : ℤ) (nonce : Utf16) : Prop where
  version : isNumber (get "version") 1 = true
  audience : isText (get "audience") TOKEN_AUDIENCE = true
  issued : get "issuedAt" = some (.number (.ofInt issuedAt))
  issuedSafe : |issuedAt| < 2 ^ 53
  expires : get "expiresAt" = some (.number (.ofInt expiresAt))
  expiresSafe : |expiresAt| < 2 ^ 53
  started : issuedAt ≤ t + CLOCK_SKEW_SECONDS
  alive : t < expiresAt
  lifetime : 0 < expiresAt - issuedAt
  short : expiresAt - issuedAt ≤ MAX_TTL_SECONDS
  nonceIs : get "nonce" = some (.string nonce)
  nonceOk : isReference nonce = true

/-- The claims of a header and a reference. -/
def claimsOf (reference : Option CreEvidenceReference) (issuedAt expiresAt : ℤ) (nonce : Utf16) :
    CreEvidenceClaims where
  reference := reference
  audience := TOKEN_AUDIENCE
  expiresAt := .ofInt expiresAt
  issuedAt := .ofInt issuedAt
  nonce := nonce
  version := .ofInt 1

/-- **When a token is opened.** -/
theorem openCreEvidenceToken_eq_ok_iff {unsealText : Utf16 → Except String Utf16} {token : Utf16}
    {now : Time} {claims : CreEvidenceClaims} :
    openCreEvidenceToken unsealText token (.at now) = .ok claims
      ↔ IsToken token ∧ ∃ get i e nonce r,
        parseClaims (unsealText (token.drop TOKEN_PREFIX.length)) = .ok get
          ∧ Header get i e now.seconds nonce ∧ validateReference get = .ok r
          ∧ claims = claimsOf r i e nonce := by
  have hseconds := abs_le.mp now.abs_seconds_le
  have hskew : CLOCK_SKEW_SECONDS = 30 := rfl
  have hplus : (Number.ofInt now.seconds).plus (.ofInt CLOCK_SKEW_SECONDS)
      = .ofInt (now.seconds + CLOCK_SKEW_SECONDS) :=
    Number.plus_ofInt (by rw [abs_le]; omega)
  rw [openCreEvidenceToken]
  simp only [bind_eq_ok, throwIf_eq_ok, pure_eq_ok, requiredInteger_eq_ok_iff,
    requiredReference_eq_ok_iff, Date.seconds_at, hplus]
  constructor
  · rintro ⟨-, htoken, get, hget, -, hheader, _, ⟨i, rfl, hi, hissued⟩, _,
      ⟨e, rfl, he, hexpires⟩, -, hwindow, -, hlifetime, nonce, ⟨hnonce, hnonce'⟩, r, hr, rfl⟩
    rw [not_or, not_or, not_not, List.isPrefixOf_iff_prefix, not_le, not_lt] at htoken
    rw [not_or, not_not, not_not] at hheader
    rw [not_or, Number.lt_ofInt, Number.le_ofInt, not_lt, not_le] at hwindow
    rw [lifetime_iff] at hlifetime
    exact ⟨htoken, get, i, e, nonce, r, hget, ⟨hheader.1, hheader.2, hissued, hi, hexpires, he,
      hwindow.1, hwindow.2, hlifetime.1, hlifetime.2, hnonce, hnonce'⟩, hr, rfl⟩
  · rintro ⟨htoken, get, i, e, nonce, r, hget, hheader, hr, rfl⟩
    refine ⟨(), ?_, get, hget, (), ?_, _, ⟨i, rfl, hheader.issuedSafe, hheader.issued⟩, _,
      ⟨e, rfl, hheader.expiresSafe, hheader.expires⟩, (), ?_, (), ?_, nonce,
      ⟨hheader.nonceIs, hheader.nonceOk⟩, r, hr, rfl⟩
    · rw [not_or, not_or, not_not, List.isPrefixOf_iff_prefix, not_le, not_lt]
      exact htoken
    · rw [not_or, not_not, not_not]
      exact ⟨hheader.version, hheader.audience⟩
    · rw [not_or, Number.lt_ofInt, Number.le_ofInt, not_lt, not_le]
      exact ⟨hheader.started, hheader.alive⟩
    · rw [lifetime_iff]
      exact ⟨hheader.lifetime, hheader.short⟩

/-! ### What is sealed -/

/-- Sealing and unsealing; a sealed text is not empty, and unsealing gives the text back. -/
structure Sealing where
  sealText : Utf16 → Except String Utf16
  unsealText : Utf16 → Except String Utf16
  nonempty : ∀ p c, sealText p = .ok c → c ≠ []
  unseal_seal : ∀ p c, sealText p = .ok c → unsealText c = .ok p

theorem exists_of_stableEntries (numberText : Number → Utf16) {l : List (Utf16 × Value)}
    {texts : List (Utf16 × Utf16)} (h : stableEntries numberText l = .ok texts) :
    ∀ e ∈ l, ∃ text, stableStringify numberText e.2 = .ok text := by
  induction l generalizing texts with
  | nil =>
    intro e he
    cases he
  | cons e l ih =>
    simp only [stableEntries, bind_eq_ok] at h
    obtain ⟨text, htext, rest, hrest, -⟩ := h
    exact List.forall_mem_cons.mpr ⟨⟨text, htext⟩, ih hrest⟩

/-- The time of issue of claims that have a text is not `NaN`. -/
theorem issuedAt_ne_nan (numberText : Number → Utf16) {claims : CreEvidenceClaims} {text : Utf16}
    (h : stableStringify numberText (obj claims.fields) = .ok text) : claims.issuedAt ≠ .nan := by
  intro hnan
  simp only [obj, stableStringify, bind_eq_ok] at h
  obtain ⟨texts, htexts, -⟩ := h
  have hmem : ("issuedAt", (.number claims.issuedAt : Value)) ∈ claims.fields := by
    simp [CreEvidenceClaims.fields]
  obtain ⟨t, ht⟩ := exists_of_stableEntries numberText htexts _ (List.mem_map.mpr ⟨_, hmem, rfl⟩)
  rw [hnan] at ht
  cases ht

/-- What was asked for when claims have been made and written. -/
structure Created (host : Host) (reference : String → Unknown) (options : CreEvidenceTokenOptions)
    (r : Option CreEvidenceReference) (issuedAt ttl : ℤ) (nonce : Utf16) : Prop where
  validated : validateReference reference = .ok r
  issued : ∃ time : Time, options.now.getD host.now = .at time ∧ issuedAt = time.seconds
  lifetime : options.ttlSeconds.getD (.ofInt 300) = .ofInt ttl
  positive : 0 < ttl
  short : ttl ≤ MAX_TTL_SECONDS
  nonceIs : nonce = options.nonce.getD host.randomUUID
  nonceOk : isReference nonce = true

theorem ttl_iff {x : Number} : ¬(¬x.isSafeInteger = true ∨ x.lt (.ofInt 1) = true
    ∨ (Number.ofInt MAX_TTL_SECONDS).lt x = true)
      ↔ ∃ n : ℤ, x = .ofInt n ∧ 0 < n ∧ n ≤ MAX_TTL_SECONDS := by
  have hmax : MAX_TTL_SECONDS = 900 := rfl
  rw [not_or, not_or, not_not, Number.isSafeInteger_iff]
  constructor
  · rintro ⟨⟨n, rfl, -⟩, hone, hle⟩
    rw [Number.lt_ofInt] at hone hle
    exact ⟨n, rfl, by omega, by omega⟩
  · rintro ⟨n, rfl, hpos, hle⟩
    rw [Number.lt_ofInt, Number.lt_ofInt]
    refine ⟨⟨n, rfl, ?_⟩, by omega, by omega⟩
    rw [abs_lt]
    omega

theorem created_of_createClaims (numberText : Number → Utf16) {host : Host}
    {reference : String → Unknown} {options : CreEvidenceTokenOptions}
    {claims : CreEvidenceClaims} {text : Utf16}
    (h : createClaims host reference options = .ok claims)
    (htext : stableStringify numberText (obj claims.fields) = .ok text) :
    ∃ r i ttl nonce, Created host reference options r i ttl nonce
      ∧ claims = claimsOf r i (i + ttl) nonce := by
  simp only [createClaims, bind_eq_ok, throwIf_eq_ok, pure_eq_ok, requiredReference_eq_ok_iff,
    ttl_iff] at h
  obtain ⟨r, hr, -, ⟨ttl, httl, hpos, hle⟩, nonce, ⟨hnonce, hnonce'⟩, rfl⟩ := h
  have hnan := issuedAt_ne_nan numberText htext
  have hmax : MAX_TTL_SECONDS = 900 := rfl
  cases hdate : options.now.getD host.now with
  | invalid =>
    rw [hdate] at hnan
    exact absurd rfl hnan
  | «at» time =>
    have hseconds := abs_le.mp time.abs_seconds_le
    have hplus : (Number.ofInt time.seconds).plus (.ofInt ttl) = .ofInt (time.seconds + ttl) :=
      Number.plus_ofInt (by rw [abs_le]; omega)
    refine ⟨r, time.seconds, ttl, nonce, ⟨hr, ⟨time, hdate, rfl⟩, httl, hpos, hle,
      (Json.string.inj (Option.some.inj hnonce)).symm, hnonce'⟩, ?_⟩
    rw [httl, Date.seconds_at, hplus]
    rfl

/-- What was validated is valid. -/
theorem valid_of_validateReference {get : String → Unknown} {r : CreEvidenceReference}
    (h : validateReference get = .ok (some r)) : r.Valid ∧ isKind (get "kind") = true := by
  obtain ⟨e, t, -, he, -, ht, hkind⟩ := validateReference_eq_ok_iff.mp h
  refine ⟨validateKind_valid he ht hkind, ?_⟩
  by_contra hnot
  rw [validateKind_of_not_isKind (by simpa using hnot)] at hkind
  cases hkind

/-- The plaintext of a token is accepted, although its kind is none of the six. -/
structure Unkinded (get : String → Unknown) (t : ℤ) : Prop where
  header : ∃ issuedAt expiresAt nonce, Header get issuedAt expiresAt t nonce
  entityId : ∃ s, get "entityId" = some (.string s) ∧ isReference s = true
  teamId : ∃ s, get "teamId" = some (.string s) ∧ isReference s = true
  kind : isKind (get "kind") = false

theorem validateReference_eq_none_iff {get : String → Unknown} :
    validateReference get = .ok none
      ↔ (∃ s, get "entityId" = some (.string s) ∧ isReference s = true)
        ∧ (∃ s, get "teamId" = some (.string s) ∧ isReference s = true)
        ∧ isKind (get "kind") = false := by
  rw [validateReference_eq_ok_iff]
  constructor
  · rintro ⟨e, t, he, he', ht, ht', hkind⟩
    exact ⟨⟨e, he, he'⟩, ⟨t, ht, ht'⟩, validateKind_valid he' ht' hkind⟩
  · rintro ⟨⟨e, he, he'⟩, ⟨t, ht, ht'⟩, hkind⟩
    exact ⟨e, t, he, he', ht, ht', validateKind_of_not_isKind hkind⟩

/-! ### The theorem -/

/-- The lifetime of a token, with the skew of clocks. -/
def Alive (issuedAt expiresAt t : ℤ) : Prop := issuedAt ≤ t + CLOCK_SKEW_SECONDS ∧ t < expiresAt

/-- A token opens to what was sealed, for exactly its lifetime. -/
def OpensAsSealed (S : Sealing) (host : Host) (reference : String → Unknown)
    (options : CreEvidenceTokenOptions) (token : Utf16) : Prop :=
  ∃ r issuedAt ttl nonce, Created host reference options (some r) issuedAt ttl nonce
    ∧ ∀ now : Time,
      (Alive issuedAt (issuedAt + ttl) now.seconds →
        openCreEvidenceToken S.unsealText token (.at now)
          = .ok (claimsOf (some r) issuedAt (issuedAt + ttl) nonce))
      ∧ (¬Alive issuedAt (issuedAt + ttl) now.seconds →
        ¬Returns (openCreEvidenceToken S.unsealText token (.at now)))

/-- Claims that a token may have in the second `t`. -/
structure Sound (claims : CreEvidenceClaims) (t : ℤ) : Prop where
  times : ∃ issuedAt expiresAt : ℤ, claims.issuedAt = .ofInt issuedAt
    ∧ claims.expiresAt = .ofInt expiresAt ∧ 0 < expiresAt - issuedAt
    ∧ expiresAt - issuedAt ≤ MAX_TTL_SECONDS ∧ t < expiresAt
  reference : ∃ r, claims.reference = some r ∧ validateReference r.get = .ok (some r)

theorem isText_string {s : Utf16} : isText (some (.string s)) s = true := decide_eq_true rfl

/-- **The text of claims has their header and their reference.** -/
theorem parse_claimsOf (numberText : Number → Utf16) {r : CreEvidenceReference} {i e : ℤ}
    {nonce text : Utf16} (hi : |i| < 2 ^ 53) (he : |e| < 2 ^ 53) (hnonce : isReference nonce = true)
    (hvalid : r.Valid)
    (htext : stableStringify numberText (obj (claimsOf (some r) i e nonce).fields) = .ok text) :
    ∃ get, parseClaims (.ok text) = .ok get
      ∧ (∀ t, Alive i e t → 0 < e - i → e - i ≤ MAX_TTL_SECONDS → Header get i e t nonce)
      ∧ validateReference get = .ok (some r) := by
  have hnumbers : ∀ x ∈ [Number.ofInt e, .ofInt i, .ofInt 1], x.isSafeInteger = true := by
    simp only [List.forall_mem_cons]
    exact ⟨Number.isSafeInteger_ofInt he, Number.isSafeInteger_ofInt hi,
      Number.isSafeInteger_ofInt (by decide), List.forall_mem_nil _⟩
  obtain ⟨get, hget, hfields, hnone⟩ :=
    parseClaims_stableStringify numberText (claimsOf (some r) i e nonce) hnumbers htext
  have hrest := fun f hf => hfields f (List.mem_append_right r.fields hf)
  simp only [List.forall_mem_cons] at hrest
  obtain ⟨haudience, hexpires, hissued, hnonce', hversion, -⟩ := hrest
  refine ⟨get, hget, ?_, ?_⟩
  · intro t halive hpos hle
    refine ⟨?_, ?_, hissued, hi, hexpires, he, halive.1, halive.2, hpos, hle, hnonce', hnonce⟩
    · rw [hversion]
      rfl
    · rw [haudience]
      exact isText_string
  · refine validateReference_of_valid hvalid (fun f hf => hfields f (List.mem_append_left _ hf)) ?_
    intro hbatch
    obtain ⟨keys, hmem, hreference, hkeys⟩ := claims_keys (claimsOf (some r) i e nonce)
    refine hnone "batchId" ?_
    rw [hkeys]
    exact batchId_not_mem keys hmem (hreference ▸ hbatch)

/-- **A token is opened to what was sealed.** -/
theorem opensAsSealed (numberText : Number → Utf16) {S : Sealing} {host : Host}
    {reference : String → Unknown} {options : CreEvidenceTokenOptions} {token : Utf16}
    (h : createCreEvidenceToken numberText host S.sealText reference options = .ok token)
    (hkind : isKind (reference "kind") = true) : OpensAsSealed S host reference options token := by
  simp only [createCreEvidenceToken, bind_eq_ok, throwIf_eq_ok, pure_eq_ok, not_lt] at h
  obtain ⟨claims, hclaims, text, htext, sealed, hsealed, -, hlength, rfl⟩ := h
  obtain ⟨r, i, ttl, nonce, hcreated, rfl⟩ := created_of_createClaims numberText hclaims htext
  cases r with
  | none =>
    have hnone := (validateReference_eq_none_iff.mp hcreated.validated).2.2
    cases hkind.symm.trans hnone
  | some r =>
    have hmax : MAX_TTL_SECONDS = 900 := rfl
    obtain ⟨time, -, hissued⟩ := hcreated.issued
    have hseconds := abs_le.mp time.abs_seconds_le
    have hpositive := hcreated.positive
    have hshort := hcreated.short
    have hsafe : |i| < 2 ^ 53 := by
      rw [abs_lt]
      omega
    have hsafe' : |i + ttl| < 2 ^ 53 := by
      rw [abs_lt]
      omega
    obtain ⟨get, hget, hheader, hr⟩ := parse_claimsOf numberText hsafe hsafe' hcreated.nonceOk
      (valid_of_validateReference hcreated.validated).1 htext
    have hparse : parseClaims (S.unsealText ((TOKEN_PREFIX ++ sealed).drop TOKEN_PREFIX.length))
        = .ok get := by
      rw [List.drop_left, S.unseal_seal text sealed hsealed]
      exact hget
    have htoken : IsToken (TOKEN_PREFIX ++ sealed) := by
      have hne := List.length_pos_iff.mpr (S.nonempty text sealed hsealed)
      refine ⟨List.prefix_append _ _, ?_, hlength⟩
      rw [List.length_append]
      omega
    refine ⟨r, i, ttl, nonce, hcreated, fun now => ⟨?_, ?_⟩⟩
    · intro halive
      exact openCreEvidenceToken_eq_ok_iff.mpr ⟨htoken, get, i, i + ttl, nonce, some r, hparse,
        hheader now.seconds halive (by omega) (by omega), hr, rfl⟩
    · rintro hnot ⟨c, hc⟩
      obtain ⟨-, get', i', e', nonce', r', hparse', hheader', -, -⟩ :=
        openCreEvidenceToken_eq_ok_iff.mp hc
      obtain rfl := Except.ok.inj (hparse.symm.trans hparse')
      -- the times in the text are those that were sealed, whatever the time is
      have hsealed' := hheader (i - CLOCK_SKEW_SECONDS) ⟨by omega, by
        have hskew : CLOCK_SKEW_SECONDS = 30 := rfl
        omega⟩ (by omega) (by omega)
      have hi : i = i' := Number.ofInt_injective
        (Json.number.inj (Option.some.inj (hsealed'.issued.symm.trans hheader'.issued)))
      have he : i + ttl = e' := Number.ofInt_injective
        (Json.number.inj (Option.some.inj (hsealed'.expires.symm.trans hheader'.expires)))
      rw [← hi, ← he] at hheader'
      exact hnot ⟨hheader'.started, hheader'.alive⟩

/-- **When a token opens to what was sealed, and when what is opened is sound**: in both
cases, if the kind is one of the six. -/
theorem openCreEvidenceToken_iff (numberText : Number → Utf16)
    (unsealText : Utf16 → Except String Utf16) (token : Utf16) (now : Time) :
    (∀ S host reference options sealedToken,
        createCreEvidenceToken numberText host S.sealText reference options = .ok sealedToken →
        (OpensAsSealed S host reference options sealedToken
          ↔ isKind (reference "kind") = true))
      ∧ ((∀ claims, openCreEvidenceToken unsealText token (.at now) = .ok claims →
          Sound claims now.seconds)
        ↔ ¬(IsToken token ∧ ∃ get,
          parseClaims (unsealText (token.drop TOKEN_PREFIX.length)) = .ok get
            ∧ Unkinded get now.seconds)) := by
  refine ⟨?_, ?_, ?_⟩
  · intro S host reference options sealedToken h
    constructor
    · rintro ⟨r, i, ttl, nonce, hcreated, -⟩
      exact (valid_of_validateReference hcreated.validated).2
    · exact opensAsSealed numberText h
  · rintro hsound ⟨htoken, get, hget, ⟨i, e, nonce, hheader⟩, hentity, hteam, hkind⟩
    have hnone := validateReference_eq_none_iff.mpr ⟨hentity, hteam, hkind⟩
    obtain ⟨r, hr, -⟩ := (hsound _ (openCreEvidenceToken_eq_ok_iff.mpr
      ⟨htoken, get, i, e, nonce, none, hget, hheader, hnone, rfl⟩)).reference
    cases hr
  · intro hkinds claims hopen
    obtain ⟨htoken, get, i, e, nonce, r, hget, hheader, hr, rfl⟩ :=
      openCreEvidenceToken_eq_ok_iff.mp hopen
    cases r with
    | none =>
      obtain ⟨hentity, hteam, hkind⟩ := validateReference_eq_none_iff.mp hr
      exact absurd ⟨htoken, get, hget, ⟨i, e, nonce, hheader⟩, hentity, hteam, hkind⟩ hkinds
    | some r =>
      exact ⟨⟨i, e, rfl, rfl, hheader.lifetime, hheader.short, hheader.alive⟩,
        r, rfl, validateReference_get (valid_of_validateReference hr).1⟩

/-- Sealing that changes nothing. -/
def plainSealing : Sealing where
  sealText := fun p => if p = [] then .error "empty" else .ok p
  unsealText := .ok
  nonempty := by
    intro p c h
    by_cases hp : p = []
    · rw [if_pos hp] at h
      cases h
    · rw [if_neg hp] at h
      rwa [← Except.ok.inj h]
  unseal_seal := by
    intro p c h
    by_cases hp : p = []
    · rw [if_pos hp] at h
      cases h
    · rw [if_neg hp] at h
      rw [Except.ok.inj h]

/-- The start of time. -/
def epoch : Time := ⟨0, by decide⟩

/-- The text of a token for the report `r` of the team `t`, issued at the start of time. -/
def reportClaims : Utf16 :=
  lit "\x7b\"audience\":\"bufi-cre-evidence\",\"entityId\":\"r\",\"expiresAt\":300,"
    ++ lit "\"issuedAt\":0,\"kind\":\"report\",\"nonce\":\"n\",\"teamId\":\"t\",\"version\":1\x7d"

/-- The same, with a kind that there is not. -/
def invoiceClaims : Utf16 :=
  lit "\x7b\"audience\":\"bufi-cre-evidence\",\"entityId\":\"r\",\"expiresAt\":300,"
    ++ lit "\"issuedAt\":0,\"kind\":\"invoice\",\"nonce\":\"n\",\"teamId\":\"t\",\"version\":1\x7d"

theorem openCreEvidenceToken_iff_report :
    OpensAsSealed plainSealing ⟨.at epoch, lit "n"⟩
      (CreEvidenceReference.report (lit "r") (lit "t")).get ⟨none, none, none⟩
      (TOKEN_PREFIX ++ reportClaims) :=
  ((openCreEvidenceToken_iff (fun _ => []) .ok [] epoch).1 plainSealing _ _ _ _
    (by decide +kernel)).mpr (by decide +kernel)

/-- A token whose plaintext has another kind is opened, and its claims have no reference. -/
theorem openCreEvidenceToken_invoice :
    openCreEvidenceToken .ok (TOKEN_PREFIX ++ invoiceClaims) (.at epoch)
        = .ok (claimsOf none 0 300 (lit "n"))
      ∧ ¬Sound (claimsOf none 0 300 (lit "n")) 0 := by
  refine ⟨by decide +kernel, ?_⟩
  rintro ⟨-, r, hr, -⟩
  cases hr

end Bufi.Evidence
