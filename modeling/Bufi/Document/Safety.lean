import Bufi.Document.Feedback
import Bufi.Document.Registration
import Bufi.Document.Render
import Bufi.Logic.Total

/-!
# No document aborts the indexer

Every guarded function gives a value, whatever it reads: the kind is tested before the
accessor is called, a float is cast only within the range of the cast, and only decimal
texts are given to `fromString`.  So every handler comes to its end, and one that returns
null has saved nothing (`resolvers_total`).
-/

namespace Bufi.Document

open Bufi.Evm Bufi.Text Bufi.Js Bufi.Digits Bufi.Logic

/-! ### Guarded reads -/

theorem returns_asObject (value : Option JSONValue) : Returns (asObject value) := by
  cases value with
  | none => exact .pure none
  | some value => cases value <;> exact ⟨_, rfl⟩

theorem returns_asArray (value : Option JSONValue) : Returns (asArray value) := by
  cases value with
  | none => exact .pure []
  | some value => cases value <;> exact ⟨_, rfl⟩

theorem returns_asString (value : Option JSONValue) : Returns (asString value) := by
  cases value with
  | none => exact .pure none
  | some value => cases value <;> exact ⟨_, rfl⟩

theorem returns_asBool (value : Option JSONValue) : Returns (asBool value) := by
  cases value with
  | none => exact .pure _
  | some value => cases value <;> exact ⟨_, rfl⟩

theorem returns_asObjectArray (value : Option JSONValue) : Returns (asObjectArray value) := by
  refine (returns_asArray value).bind ?_
  intro items _
  refine Returns.foldlM ?_ items []
  intro out item
  refine (returns_asObject (some item)).bind ?_
  intro obj _
  cases obj <;> exact .pure _

theorem returns_asStringArray (value : Option JSONValue) : Returns (asStringArray value) := by
  refine (returns_asArray value).bind ?_
  intro items _
  refine Returns.foldlM ?_ items []
  intro out item
  refine (returns_asString (some item)).bind ?_
  intro text _
  cases text <;> exact .pure _

/-! ### Numbers -/

theorem eq_ofInt_of_eq_floor {x : Number} (h : x.eq x.floor = true) :
    (∃ n, x = .ofInt n) ∨ x = .infinity ∨ x = .negInfinity := by
  cases x with
  | finite q =>
    left
    exact ⟨⌊q⌋, congrArg Number.finite (Number.eq_floor_finite.mp h)⟩
  | infinity => exact Or.inr (Or.inl rfl)
  | negInfinity => exact Or.inr (Or.inr rfl)
  | nan => cases h

/-- The text of an integer is read by `BigInt.fromString`. -/
theorem bigIntFromString_intDecimal (n : ℤ) : bigIntFromString (intDecimal n) = .ok n := by
  have hdecimal : ∀ k : ℕ, decimal k ≠ [] ∧ (decimal k).all Json.isDigit = true := by
    intro k
    refine ⟨?_, List.all_eq_true.mpr (fun c hc => isDigit_of_mem_decimal hc)⟩
    obtain ⟨c, t, htext, -⟩ := decimal_cons k
    rw [htext]
    exact List.cons_ne_nil c t
  have hvalue : ∀ k : ℕ, value 10 ((decimal k).map Json.digitOf) = k := by
    intro k
    rw [map_digitOf_decimal, value_decimalDigits]
  by_cases hneg : n < 0
  · have hsign : Json.parseSign false (unit '-' :: decimal n.natAbs) = (-1, decimal n.natAbs) := rfl
    rw [intDecimal, if_pos hneg, bigIntFromString, hsign]
    simp only [if_pos (hdecimal n.natAbs), hvalue]
    rw [show -1 * (n.natAbs : ℤ) = n by omega]
  · have hsign : Json.parseSign false (decimal n.natAbs) = (1, decimal n.natAbs) := by
      rw [← List.append_nil (decimal n.natAbs)]
      exact parseSign_decimal n.natAbs []
    rw [intDecimal, if_neg hneg, bigIntFromString, hsign]
    simp only [if_pos (hdecimal n.natAbs), hvalue]
    rw [show 1 * (n.natAbs : ℤ) = n by omega]

/-- **Whole numbers.**  What passes the test is between `0` and `2 ^ 63`, where the cast is
defined. -/
theorem returns_asWholeBigInt (value : Option JSONValue) : Returns (asWholeBigInt value) := by
  cases value with
  | none => exact .pure none
  | some value =>
    cases value with
    | number x =>
      show Returns (if x.lt (.ofInt 0) = true ∨ ¬ x.eq x.floor = true
          ∨ Number.le (.ofInt 9223372036854775808) x = true then pure none
        else asI64 x >>= fun whole => some <$> bigIntFromString (intDecimal whole))
      refine Returns.ite (fun _ => .pure none) ?_
      intro h
      obtain ⟨hneg, hfloor, hbig⟩ : ¬ x.lt (.ofInt 0) = true ∧ x.eq x.floor = true
          ∧ ¬ Number.le (.ofInt 9223372036854775808) x = true := by
        simpa only [not_or, not_not] using h
      rcases eq_ofInt_of_eq_floor hfloor with ⟨n, rfl⟩ | rfl | rfl
      · rw [Number.lt_ofInt] at hneg
        rw [Number.le_ofInt] at hbig
        rw [asI64, truncate_ofInt ⟨by omega, by omega⟩]
        refine (Returns.ok n).bind ?_
        rintro _ ⟨⟩
        rw [bigIntFromString_intDecimal]
        exact .ok _
      · exact absurd rfl hbig
      · exact absurd rfl hneg
    | _ => exact ⟨_, rfl⟩

theorem returns_asWholeI32 (value : Option JSONValue) {min max : ℤ} (hmin : -2 ^ 31 ≤ min)
    (hmax : max < 2 ^ 31) : Returns (asWholeI32 value min max) := by
  cases value with
  | none => exact .pure _
  | some value =>
    cases value with
    | number x =>
      show Returns (if ¬ x.eq x.floor = true then pure (JsonI32.mk false 0)
        else if x.lt (.ofInt min) = true ∨ Number.lt (.ofInt max) x = true then
          pure (JsonI32.mk false 0)
        else asI32 x >>= fun whole => pure (JsonI32.mk true whole))
      refine Returns.ite (fun _ => .pure _) ?_
      intro hfloor
      refine Returns.ite (fun _ => .pure _) ?_
      intro h
      obtain ⟨hlo, hhi⟩ := not_or.mp h
      rcases eq_ofInt_of_eq_floor (not_not.mp hfloor) with ⟨n, rfl⟩ | rfl | rfl
      · rw [Number.lt_ofInt] at hlo hhi
        rw [asI32, truncate_ofInt ⟨by omega, by omega⟩]
        exact .pure _
      · exact absurd rfl hhi
      · exact absurd rfl hlo
    | _ => exact ⟨_, rfl⟩

theorem returns_asStringOrNumber (value : Option JSONValue) : Returns (asStringOrNumber value) := by
  refine (returns_asString value).bind ?_
  intro text _
  cases text with
  | some text => exact .pure _
  | none =>
    refine (returns_asWholeBigInt value).bind ?_
    intro whole _
    cases whole <;> exact .pure _

theorem returns_describeJsonValue (host : Host) (value : JSONValue) :
    Returns (describeJsonValue host.f64Text value) := by
  cases value with
  | null => exact ⟨_, rfl⟩
  | bool b => exact ⟨_, rfl⟩
  | number x =>
    refine ⟨⟨floatText host.f64Text x, .NUMBER⟩, ?_⟩
    show (numberToText host.f64Text (.number x) >>= fun text =>
      pure (JsonValueDescription.mk text .NUMBER)) = _
    rw [numberToText_number]
    rfl
  | string s => exact ⟨_, rfl⟩
  | array l => exact ⟨_, describeJsonValue_container host.f64Text (Or.inl rfl)⟩
  | object l => exact ⟨_, describeJsonValue_container host.f64Text (Or.inr rfl)⟩

/-! ### Decimal numbers -/

theorem isDecimalLoop_spec {sawDigit sawDot : Bool} {s : Utf16}
    (h : isDecimalLoop sawDigit sawDot s = true) :
    s.all (fun c => Json.isDigit c || c == unit '.') = true
      ∧ s.count (unit '.') ≤ (if sawDot then 0 else 1)
      ∧ (sawDigit = true ∨ s.any Json.isDigit = true) := by
  induction s generalizing sawDigit sawDot with
  | nil => exact ⟨rfl, Nat.zero_le _, Or.inl h⟩
  | cons c s ih =>
    rw [isDecimalLoop] at h
    by_cases hdot : c = unit '.'
    · rw [if_pos hdot] at h
      cases sawDot with
      | true => cases h
      | false =>
        obtain ⟨hall, hcount, hdigit⟩ := ih h
        rw [hdot]
        refine ⟨by simpa using hall, ?_, hdigit.imp_right (fun hany => ?_)⟩
        · rw [List.count_cons_self]
          exact Nat.succ_le_succ hcount
        · rw [List.any_cons, hany, Bool.or_true]
    · rw [if_neg hdot] at h
      by_cases hout : c < unit '0' ∨ unit '9' < c
      · rw [if_pos hout] at h
        cases h
      · rw [if_neg hout] at h
        obtain ⟨hlo, hhi⟩ := not_or.mp hout
        have hc : Json.isDigit c = true := by
          rw [Json.isDigit, Bool.and_eq_true, decide_eq_true_iff, decide_eq_true_iff]
          exact ⟨UInt16.not_lt.mp hlo, UInt16.not_lt.mp hhi⟩
        obtain ⟨hall, hcount, -⟩ := ih h
        refine ⟨?_, ?_, Or.inr ?_⟩
        · rw [List.all_cons, hc, Bool.true_or, Bool.true_and]
          exact hall
        · rw [List.count_cons_of_ne hdot]
          exact hcount
        · rw [List.any_cons, hc, Bool.true_or]

/-- **What `isDecimalString` accepts, `BigDecimal.fromString` reads.** -/
theorem isBigDecimal_of_isDecimalString {s : Utf16} (h : isDecimalString s = true) :
    IsBigDecimal s := by
  have hdigits : isDecimalLoop false false (Json.parseSign false s).2 = true := by
    rw [isDecimalString] at h
    cases s with
    | nil => cases h
    | cons c s =>
      by_cases hminus : c = unit '-'
      · subst hminus
        have h : ¬ s = [] ∧ isDecimalLoop false false s = true := by simpa using h
        exact h.2
      · simpa [hminus, Json.parseSign] using h
  obtain ⟨hall, hcount, hdigit⟩ := isDecimalLoop_spec hdigits
  exact ⟨hall, hcount, hdigit.resolve_left (by decide)⟩

theorem returns_documentValue (host : Host) (value : Option Utf16) :
    Returns (documentValue host value) := by
  cases value with
  | none => exact .pure none
  | some value =>
    refine Returns.ite ?_ (fun _ => .pure none)
    intro h
    rw [bigDecimalFromString, if_pos (isBigDecimal_of_isDecimalString h)]
    exact .map (.ok _) some

/-! ### Handlers -/

/-- A handler that comes to its end. -/
abbrev Ends {α : Type} (x : Handler α) : Prop := Total (fun _ => True) x (fun _ _ => True)

theorem ends_save (e : Entity) : Ends (save e) := Total.modify (fun _ _ => trivial)

theorem ends_pure {α : Type} (a : α) : Ends (pure a) := Total.pure (fun _ _ => trivial)

section

variable (host : Host)

theorem ends_saveServiceFeatures (serviceId : Bytes) (startPosition : ℕ)
    (kind : AgentServiceFeatureKind) (values : List Utf16) :
    Ends (saveServiceFeatures serviceId startPosition kind values) := by
  refine Total.foldlM ?_ values startPosition
  intro position value
  exact (ends_save _).bind (fun _ => ends_pure _)

/-- A list of features is read and saved. -/
theorem ends_features {α : Type} (value : Option JSONValue) (serviceId : Bytes)
    (startPosition : ℕ) (kind : AgentServiceFeatureKind) {f : ℕ → Handler α}
    (hf : ∀ position, Ends (f position)) :
    Ends (liftM (asStringArray value) >>= fun values =>
      saveServiceFeatures serviceId startPosition kind values >>= f) := by
  refine Total.read (returns_asStringArray value) ?_
  intro values _
  exact (ends_saveServiceFeatures serviceId startPosition kind values).bind hf

theorem ends_saveServiceAttributes (serviceId : Bytes) (service : TypedMap) :
    Ends (saveServiceAttributes host serviceId service) := by
  refine Total.bind (R := fun _ _ => True) (Total.foldlM ?_ service 0) (fun _ => ends_pure _)
  intro position entry
  refine Total.ite (fun _ => ends_pure _) ?_
  intro _
  refine Total.read (returns_describeJsonValue host entry.2) ?_
  intro described _
  exact (ends_save _).bind (fun _ => ends_pure _)

theorem ends_saveAgentService (registrationId : Bytes) (position : ℕ) (service : TypedMap) :
    Ends (saveAgentService host registrationId position service) := by
  refine Total.read (returns_asString _) ?_
  intro name _
  refine Total.read (returns_asString _) ?_
  intro endpoint _
  cases name with
  | none => exact ends_pure _
  | some name =>
    cases endpoint with
    | none => exact ends_pure _
    | some endpoint =>
      refine Total.read (returns_asString _) ?_
      intro version _
      refine (ends_save _).bind ?_
      intro _
      refine ends_features _ _ _ _ (fun _ => ?_)
      refine ends_features _ _ _ _ (fun _ => ?_)
      refine ends_features _ _ _ _ (fun _ => ?_)
      refine ends_features _ _ _ _ (fun _ => ?_)
      refine ends_features _ _ _ _ (fun _ => ?_)
      refine ends_features _ _ _ _ (fun _ => ?_)
      refine ends_features _ _ _ _ (fun _ => ?_)
      exact ends_saveServiceAttributes host _ service

theorem ends_saveAgentRegistrationReference (registrationId : Bytes) (position : ℕ)
    (reference : TypedMap) :
    Ends (saveAgentRegistrationReference registrationId position reference) := by
  refine Total.read (returns_asString _) ?_
  intro agentRegistry _
  cases agentRegistry with
  | none => exact ends_pure _
  | some agentRegistry =>
    refine Total.read (returns_asWholeBigInt _) ?_
    intro agentId _
    exact ends_save _

theorem ends_saveAgentRegistration (id agentId : Bytes) (sourceURI : Utf16)
    (sourceURIKind : URIKind) (rawJSON : Utf16) (obj : TypedMap) :
    Ends (saveAgentRegistration host id agentId sourceURI sourceURIKind rawJSON obj) := by
  refine Total.read (returns_asString _) (fun profileType _ => ?_)
  refine Total.read (returns_asString _) (fun name _ => ?_)
  refine Total.read (returns_asString _) (fun description _ => ?_)
  refine Total.read (returns_asString _) (fun image _ => ?_)
  refine Total.read (returns_asBool _) (fun active _ => ?_)
  refine Total.read (returns_asBool _) (fun x402Support _ => ?_)
  refine Total.read (returns_asObjectArray _) (fun services _ => ?_)
  refine Total.bind (R := fun _ _ => True) (Total.forM ?_ services.zipIdx) (fun _ => ?_)
  · intro p
    exact ends_saveAgentService host id p.2 p.1
  refine Total.read (returns_asObjectArray _) (fun registrations _ => ?_)
  refine Total.bind (R := fun _ _ => True) (Total.forM ?_ registrations.zipIdx) (fun _ => ?_)
  · intro p
    exact ends_saveAgentRegistrationReference id p.2 p.1
  refine Total.read (returns_asStringArray _) (fun supportedTrust _ => ?_)
  refine Total.bind (R := fun _ _ => True) (Total.forM ?_ supportedTrust.zipIdx) (fun _ => ?_)
  · intro p
    exact ends_save _
  exact ends_save _

theorem ends_saveFeatureList (documentId : Bytes) (startPosition : ℕ) (kind : FeedbackFeatureKind)
    (values : List Utf16) : Ends (saveFeatureList documentId startPosition kind values) := by
  refine Total.foldlM ?_ values startPosition
  intro position value
  exact (ends_save _).bind (fun _ => ends_pure _)

theorem ends_saveFeatureIf (documentId : Bytes) (position : ℕ) (kind : FeedbackFeatureKind)
    (value : Option Utf16) : Ends (saveFeatureIf documentId position kind value) := by
  cases value with
  | none => exact ends_pure _
  | some value => exact (ends_save _).bind (fun _ => ends_pure _)

/-- A feature is read and saved. -/
theorem ends_feature {α : Type} (value : Option JSONValue) (documentId : Bytes) (position : ℕ)
    (kind : FeedbackFeatureKind) {f : ℕ → Handler α} (hf : ∀ position, Ends (f position)) :
    Ends (liftM (asString value) >>= fun value =>
      saveFeatureIf documentId position kind value >>= f) := by
  refine Total.read (returns_asString value) ?_
  intro value _
  exact (ends_saveFeatureIf documentId position kind value).bind hf

/-- A list of strings is read and saved. -/
theorem ends_featureList {α : Type} (obj : TypedMap) (key : String) (documentId : Bytes)
    (position : ℕ) (kind : FeedbackFeatureKind) {f : ℕ → Handler α}
    (hf : ∀ position, Ends (f position)) :
    Ends (liftM (listOfStrings obj key) >>= fun values =>
      saveFeatureList documentId position kind values >>= f) := by
  refine Total.read (returns_asStringArray _) ?_
  intro values _
  exact (ends_saveFeatureList documentId position kind values).bind hf

theorem ends_saveA2aFeatures (documentId : Bytes) (position : ℕ) (a2a : Option TypedMap) :
    Ends (saveA2aFeatures documentId position a2a) := by
  cases a2a with
  | none => exact ends_pure _
  | some a2a =>
    refine Total.read (returns_asStringArray _) ?_
    intro values _
    exact ends_saveFeatureList _ _ _ _

theorem ends_saveOasfFeatures (documentId : Bytes) (position : ℕ) (oasf : Option TypedMap) :
    Ends (saveOasfFeatures documentId position oasf) := by
  cases oasf with
  | none => exact ends_pure _
  | some oasf =>
    refine ends_featureList _ _ _ _ _ (fun _ => ?_)
    refine Total.read (returns_asStringArray _) ?_
    intro values _
    exact ends_saveFeatureList _ _ _ _

theorem ends_saveMcpFeatures (documentId : Bytes) (position : ℕ) (mcp : Option TypedMap) :
    Ends (saveMcpFeatures documentId position mcp) := by
  cases mcp with
  | none => exact ends_pure _
  | some mcp =>
    refine ends_feature _ _ _ _ (fun _ => ?_)
    refine ends_feature _ _ _ _ (fun _ => ?_)
    refine ends_feature _ _ _ _ (fun _ => ?_)
    refine Total.read (returns_asString _) ?_
    intro completion _
    exact ends_saveFeatureIf _ _ _ _

theorem ends_saveFeatures (documentId : Bytes) (obj : TypedMap) (a2a : Option TypedMap) :
    Ends (saveFeatures documentId obj a2a) := by
  refine Total.read (returns_asObject _) (fun oasf _ => ?_)
  refine Total.read (returns_asObject _) (fun mcp _ => ?_)
  refine (ends_saveA2aFeatures documentId 0 a2a).bind (fun _ => ?_)
  refine (ends_saveOasfFeatures documentId _ oasf).bind (fun _ => ?_)
  refine ends_feature _ _ _ _ (fun _ => ?_)
  refine ends_feature _ _ _ _ (fun _ => ?_)
  refine ends_feature _ _ _ _ (fun _ => ?_)
  exact ends_saveMcpFeatures documentId _ mcp

theorem ends_savePaymentProof (documentId : Bytes) (proof : TypedMap) :
    Ends (savePaymentProof documentId proof) := by
  refine Total.read (returns_asString _) (fun fromAddress _ => ?_)
  refine Total.read (returns_asString _) (fun toAddress _ => ?_)
  refine Total.read (returns_asStringOrNumber _) (fun chainId _ => ?_)
  refine Total.read (returns_asString _) (fun txHash _ => ?_)
  refine Total.read (returns_asString _) (fun transactionHash _ => ?_)
  refine Total.read (returns_asString _) (fun txSignature _ => ?_)
  refine Total.read (returns_asString _) (fun transactionSignature _ => ?_)
  refine Total.read (returns_asString _) (fun amount _ => ?_)
  refine Total.read (returns_asString _) (fun currency _ => ?_)
  refine Total.read (returns_asString _) (fun protocol _ => ?_)
  refine Total.read (returns_asString _) (fun timestamp _ => ?_)
  refine Total.read (returns_asWholeI32 _ (by decide) (by decide)) (fun decimals _ => ?_)
  exact ends_save _

theorem ends_savePaymentProofIf (documentId : Bytes) (proof : Option TypedMap) :
    Ends (savePaymentProofIf documentId proof) := by
  cases proof with
  | none => exact ends_pure _
  | some proof => exact ends_savePaymentProof documentId proof

theorem ends_saveAttachment (documentId : Bytes) (position : ℕ) (attachment : TypedMap) :
    Ends (saveAttachment host documentId position attachment) := by
  refine Total.read (returns_asString _) (fun name _ => ?_)
  refine Total.read (returns_asString _) (fun uri _ => ?_)
  refine Total.read (returns_asString _) (fun mimeType _ => ?_)
  cases name with
  | none => exact ends_pure _
  | some name =>
    cases uri with
    | none => exact ends_pure _
    | some uri =>
      cases mimeType with
      | none => exact ends_pure _
      | some mimeType =>
        refine Total.read (returns_asWholeBigInt _) (fun size _ => ?_)
        refine Total.read (returns_asString _) (fun description _ => ?_)
        refine Total.read (returns_asString _) (fun uploadedAt _ => ?_)
        exact ends_save _

theorem returns_a2aField (a2a : Option TypedMap) (obj : TypedMap) (nested flat : String) :
    Returns (a2aField a2a obj nested flat) := by
  cases a2a with
  | none => exact returns_asString _
  | some a2a =>
    refine (returns_asString _).bind (fun _ _ => ?_)
    exact (returns_asString _).bind (fun _ _ => .pure _)

theorem ends_saveFeedbackDocument (id feedbackId : Bytes) (sourceURI : Utf16)
    (sourceURIKind : URIKind) (rawJSON : Utf16) (obj : TypedMap) :
    Ends (saveFeedbackDocument host id feedbackId sourceURI sourceURIKind rawJSON obj) := by
  refine Total.read (returns_asString _) (fun agentRegistry _ => ?_)
  refine Total.read (returns_asWholeBigInt _) (fun agentId _ => ?_)
  refine Total.read (returns_asString _) (fun clientAddress _ => ?_)
  refine Total.read (returns_asString _) (fun createdAt _ => ?_)
  refine Total.read (returns_asString _) (fun value _ => ?_)
  refine Total.read (returns_documentValue host value) (fun value _ => ?_)
  refine Total.read (returns_asWholeI32 _ (by decide) (by decide)) (fun valueDecimals _ => ?_)
  refine Total.read (returns_asString _) (fun tag1 _ => ?_)
  refine Total.read (returns_asString _) (fun tag2 _ => ?_)
  refine Total.read (returns_asString _) (fun endpoint _ => ?_)
  refine Total.read (returns_asString _) (fun reasoning _ => ?_)
  refine Total.read (returns_asString _) (fun context _ => ?_)
  refine Total.read (returns_asString _) (fun task _ => ?_)
  refine Total.read (returns_asObject _) (fun a2a _ => ?_)
  refine Total.read (returns_a2aField a2a obj _ _) (fun a2aContextId _ => ?_)
  refine Total.read (returns_a2aField a2a obj _ _) (fun a2aTaskId _ => ?_)
  refine Total.read (returns_asObject _) (fun paymentProof _ => ?_)
  refine (ends_save _).bind (fun _ => ?_)
  refine (ends_savePaymentProofIf id paymentProof).bind (fun _ => ?_)
  refine Total.read (returns_asObjectArray _) (fun attachments _ => ?_)
  refine Total.bind (R := fun _ _ => True) (Total.forM ?_ attachments.zipIdx) (fun _ => ?_)
  · intro p
    exact ends_saveAttachment host id p.2 p.1
  exact (ends_saveFeatures id obj a2a).bind (fun _ => ends_pure _)

/-! ### The two resolvers -/

/-- A resolver comes to its end if the entities of every object can be saved, and one that
returns null has saved nothing. -/
theorem total_resolveDocument {α : Type} {load : Bytes → Handler (Option α)}
    {write : Bytes → Utf16 → TypedMap → Handler Unit}
    (hload : ∀ id s, ∃ r, load id s = .ok (r, s)) (hwrite : ∀ id text obj, Ends (write id text obj))
    (owner : Bytes) (sourceURI : Utf16) (sourceURIKind : URIKind) (store : Store) :
    Total (· = store) (resolveDocument host load write owner sourceURI sourceURIKind)
      (fun r store' => r = none → store' = store) := by
  have hnull : Total (· = store) (pure none : Handler (Option Bytes))
      (fun r store' => r = none → store' = store) := Total.pure (fun s hs _ => hs)
  refine Total.ite (fun _ => hnull) ?_
  intro _
  cases decodeDataUri host sourceURI with
  | none => exact hnull
  | some rawJSON =>
    refine Total.bind (R := fun _ s => s = store) ?_ ?_
    · rintro s rfl
      obtain ⟨r, hr⟩ := hload _ s
      exact ⟨r, s, hr, rfl⟩
    intro loaded
    cases loaded with
    | some e => exact Total.pure (fun s hs _ => hs)
    | none =>
      cases host.tryFromString rawJSON with
      | none => exact hnull
      | some parsed =>
        refine Total.read (returns_asObject (some parsed)) ?_
        intro obj _
        cases obj with
        | none => exact hnull
        | some obj =>
          -- from here on entities are saved, and null is no longer returned
          refine Total.bind (R := fun _ _ => True) ?_ (fun _ => Total.pure (fun _ _ h => nomatch h))
          intro s _
          exact hwrite _ rawJSON obj s trivial

end

/-- **No document aborts the indexer.**  Whatever the parser gives for a text, both
resolvers come to their end, and one that returns null has saved nothing. -/
theorem resolvers_total (host : Host) (owner : Bytes) (sourceURI : Utf16)
    (sourceURIKind : URIKind) (store : Store) :
    (∃ r store', resolveAgentRegistration host owner sourceURI sourceURIKind store
        = .ok (r, store') ∧ (r = none → store' = store))
      ∧ ∃ r store', resolveFeedbackDocument host owner sourceURI sourceURIKind store
        = .ok (r, store') ∧ (r = none → store' = store) := by
  constructor
  · refine total_resolveDocument host ?_ ?_ owner sourceURI sourceURIKind store store rfl
    · intro id s
      exact ⟨_, rfl⟩
    · intro id text obj
      exact ends_saveAgentRegistration host id owner sourceURI sourceURIKind text obj
  · refine total_resolveDocument host ?_ ?_ owner sourceURI sourceURIKind store store rfl
    · intro id s
      exact ⟨_, rfl⟩
    · intro id text obj
      exact ends_saveFeedbackDocument host id owner sourceURI sourceURIKind text obj

end Bufi.Document
