import Bufi.Document.Publish
import Bufi.Logic.Total
import Bufi.Text.Decode
import Bufi.Text.JsonSort

/-!
# What becomes of a published registration

The subgraph gets the `data:` URI from the chain and reads the document back.  The runtime it
reads with is not the one that wrote it: its parser refuses a surrogate without its partner,
and keeps the entries of an object in an order of its own.  `Reads` is what both agree on.

`Writes` says what a handler saves, from every store.  A handler is put together from guarded
reads and saves, and `Writes` has a rule for each; the reads look at the entries of an object
by key only, so that their order does not matter (`same_get`).

`published_indexed` joins the two sides: every document that is published whole is indexed
with all its fields but one.  An agent id is published as a text, and read as a number, so it
is lost.
-/

namespace Bufi.Document

open Bufi.Evm Bufi.Text Bufi.Js Bufi.Logic

/-! ### What a handler writes -/

/-- From every store, the handler gives `a` and saves the entities `es`, the first one first. -/
def Writes {α : Type} (x : Handler α) (a : α) (es : List Entity) : Prop :=
  ∀ store, x store = .ok (a, es.reverse ++ store)

namespace Writes

variable {α β : Type} {a : α} {b : β} {es fs : List Entity}

theorem pure (a : α) : Writes (Pure.pure a) a [] := fun _ => rfl

theorem save (e : Entity) : Writes (Document.save e) () [e] := fun _ => rfl

theorem bind {x : Handler α} {f : α → Handler β} (hx : Writes x a es) (hf : Writes (f a) b fs) :
    Writes (x >>= f) b (es ++ fs) := by
  intro store
  show (x store >>= fun p => f p.1 p.2) = _
  rw [hx store, List.reverse_append, List.append_assoc]
  exact hf _

/-- A read that gives `a`, and what is done with it. -/
theorem read {x : Except Trap α} {f : α → Handler β} (hx : x = .ok a) (hf : Writes (f a) b fs) :
    Writes (liftM x >>= f) b fs := by
  intro store
  rw [hx]
  exact hf store

theorem forM {f : α → Handler PUnit} {g : α → Entity} {l : List α}
    (h : ∀ a ∈ l, Writes (f a) () [g a]) : Writes (l.forM f) () (l.map g) := by
  induction l with
  | nil => exact pure ()
  | cons a l ih =>
    obtain ⟨ha, hl⟩ := List.forall_mem_cons.mp h
    exact ha.bind (ih hl)

end Writes

/-! ### Reading an object by key -/

/-- Two values are absent, or the same up to the order of entries. -/
def SameValue : Option JSONValue → Option JSONValue → Prop
  | none, w => w = none
  | some v, w => ∃ w', w = some w' ∧ Json.Same v w'

theorem TypedMap.get_cons (k : Utf16) (v : JSONValue) (l : TypedMap) (key : String) :
    TypedMap.get ((k, v) :: l) key = if k = lit key then some v else TypedMap.get l key := by
  by_cases h : k = lit key
  · rw [if_pos h, TypedMap.get, List.find?_cons_of_pos (by simpa using h)]
    rfl
  · rw [if_neg h, TypedMap.get, List.find?_cons_of_neg (by simpa using h)]
    rfl

theorem TypedMap.get_of_notMem {l : TypedMap} {key : String} (h : lit key ∉ l.map Prod.fst) :
    l.get key = none := by
  induction l with
  | nil => rfl
  | cons e l ih =>
    rw [List.map_cons, List.mem_cons, not_or] at h
    rw [TypedMap.get_cons, if_neg (fun he => h.1 he.symm), ih h.2]

/-- Entries with distinct keys are read in any order. -/
theorem TypedMap.get_perm {l m : TypedMap} (hperm : l.Perm m) (hl : (l.map Prod.fst).Nodup)
    (key : String) : l.get key = m.get key := by
  induction hperm with
  | nil => rfl
  | cons e _ ih =>
    rw [TypedMap.get_cons, TypedMap.get_cons, ih (List.nodup_cons.mp hl).2]
  | swap e e' l =>
    rw [TypedMap.get_cons, TypedMap.get_cons, TypedMap.get_cons, TypedMap.get_cons]
    have hne : e'.1 ≠ e.1 := fun h => (List.nodup_cons.mp hl).1 (by simp [h])
    by_cases h : e.1 = lit key
    · rw [if_pos h, if_pos h, if_neg (fun h' => hne (h'.trans h.symm))]
    · rw [if_neg h, if_neg h]
  | trans hlm _ ih ih' => exact (ih hl).trans (ih' ((hlm.map Prod.fst).nodup_iff.mp hl))

theorem keys_perm_of_sameEntries {l m : TypedMap} (h : Json.SameEntries l m) :
    (m.map Prod.fst).Perm (l.map Prod.fst) := by
  induction l generalizing m with
  | nil =>
    obtain rfl := h
    exact List.Perm.refl _
  | cons e l ih =>
    obtain ⟨w, rest, hperm, -, hrest⟩ := h
    exact (hperm.map Prod.fst).trans ((ih hrest).cons e.1)

/-- **Objects that are the same are read the same.** -/
theorem same_get {l m : TypedMap} (hl : (l.map Prod.fst).Nodup) (h : Json.SameEntries l m)
    (key : String) : SameValue (l.get key) (m.get key) := by
  induction l generalizing m with
  | nil =>
    obtain rfl := h
    exact rfl
  | cons e l ih =>
    have hm : (m.map Prod.fst).Nodup := (keys_perm_of_sameEntries h).nodup_iff.mpr hl
    obtain ⟨w, rest, hperm, hhead, hrest⟩ := h
    rw [TypedMap.get_perm hperm hm, TypedMap.get_cons, TypedMap.get_cons]
    by_cases hk : e.1 = lit key
    · rw [if_pos hk, if_pos hk]
      exact ⟨w, rfl, hhead⟩
    · rw [if_neg hk, if_neg hk]
      exact ih (List.nodup_cons.mp hl).2 hrest

theorem asString_same {a b : Option JSONValue} (h : SameValue a b) : asString b = asString a := by
  cases a with
  | none =>
    obtain rfl := h
    rfl
  | some v =>
    obtain ⟨w, rfl, hw⟩ := h
    cases v with
    | null | bool | number | string =>
      obtain rfl := hw
      rfl
    | array | object =>
      obtain ⟨m, rfl, -⟩ := hw
      rfl

theorem asBool_same {a b : Option JSONValue} (h : SameValue a b) : asBool b = asBool a := by
  cases a with
  | none =>
    obtain rfl := h
    rfl
  | some v =>
    obtain ⟨w, rfl, hw⟩ := h
    cases v with
    | null | bool | number | string =>
      obtain rfl := hw
      rfl
    | array | object =>
      obtain ⟨m, rfl, -⟩ := hw
      rfl

theorem asWholeBigInt_same {a b : Option JSONValue} (h : SameValue a b) :
    asWholeBigInt b = asWholeBigInt a := by
  cases a with
  | none =>
    obtain rfl := h
    rfl
  | some v =>
    obtain ⟨w, rfl, hw⟩ := h
    cases v with
    | null | bool | number | string =>
      obtain rfl := hw
      rfl
    | array | object =>
      obtain ⟨m, rfl, -⟩ := hw
      rfl

/-- A loop that appends one value for every item. -/
theorem foldlM_append {α β : Type} {f : List β → α → Except Trap (List β)} {l : List α} {m : List β}
    (h : List.Forall₂ (fun a b => ∀ out, f out a = .ok (out ++ [b])) l m) (out : List β) :
    l.foldlM f out = .ok (out ++ m) := by
  induction h generalizing out with
  | nil =>
    rw [List.foldlM_nil, List.append_nil]
    rfl
  | @cons a b l m hab _ ih =>
    rw [List.foldlM_cons, hab out]
    show l.foldlM f (out ++ [b]) = _
    rw [ih, List.append_assoc]
    rfl

theorem forall₂_of_sameItems {l m : List JSONValue} (h : Json.SameItems l m) :
    List.Forall₂ Json.Same l m := by
  induction l generalizing m with
  | nil =>
    obtain rfl := h
    exact .nil
  | cons v l ih =>
    obtain ⟨w, m', rfl, hvw, hrest⟩ := h
    exact .cons hvw (ih hrest)

/-- An array of strings is read as it is. -/
theorem asStringArray_same {l : List Utf16} {b : Option JSONValue}
    (h : SameValue (some (.array (l.map .string))) b) : asStringArray b = .ok l := by
  obtain ⟨w, rfl, m, rfl, hm⟩ := h
  have hread := List.forall₂_map_left_iff.mp (forall₂_of_sameItems hm)
  refine foldlM_append (List.Forall₂.imp ?_ hread.flip) []
  rintro v s rfl out
  rfl

/-- An array of objects is read as objects that are the same. -/
theorem asObjectArray_same {l : List TypedMap} {b : Option JSONValue}
    (h : SameValue (some (.array (l.map .object))) b) :
    ∃ objs, asObjectArray b = .ok objs ∧ List.Forall₂ Json.SameEntries l objs := by
  obtain ⟨w, rfl, m, rfl, hm⟩ := h
  have hread := List.forall₂_map_left_iff.mp (forall₂_of_sameItems hm)
  have hobjs : ∃ objs : List TypedMap, m = objs.map .object
      ∧ List.Forall₂ Json.SameEntries l objs := by
    clear hm
    induction hread with
    | nil => exact ⟨[], rfl, .nil⟩
    | cons hvw _ ih =>
      obtain ⟨entries, rfl, hentries⟩ := hvw
      obtain ⟨objs, rfl, hrest⟩ := ih
      exact ⟨entries :: objs, rfl, .cons hentries hrest⟩
  obtain ⟨objs, rfl, hsame⟩ := hobjs
  refine ⟨objs, foldlM_append ?_ [], hsame⟩
  rw [List.forall₂_map_left_iff]
  exact List.forall₂_same.mpr (fun _ _ _ => rfl)

/-! ### Services -/

section

variable {host : Host}

def indexedService (host : Host) (registrationId : Bytes) (position : ℕ)
    (service : AgentRegistrationService) : Entity :=
  .agentService {
    id := concatI32 registrationId position
    registration := registrationId
    position
    kind := classifyServiceKind host service.name
    name := service.name
    endpoint := service.endpoint
    version := service.version
    capabilitiesInferred := false }

def indexedReference (registrationId : Bytes) (position : ℕ) (link : AgentRegistrationLink) :
    Entity :=
  .agentRegistrationReference {
    id := concatI32 registrationId position
    registration := registrationId
    position
    agentRegistry := link.agentRegistry
    namespaceName := (parseCaip10 link.agentRegistry).namespaceName
    chainId := (parseCaip10 link.agentRegistry).chainId
    registryAddress := (parseCaip10 link.agentRegistry).reference
    agentId := none }

theorem keys_service (service : AgentRegistrationService) :
    (service.entries.map Prod.fst).Sublist [lit "name", lit "endpoint", lit "version"] := by
  obtain ⟨name, endpoint, version⟩ := service
  cases version with
  | none => exact .cons_cons _ (.cons_cons _ (.cons _ .slnil))
  | some version => exact List.Sublist.refl _

/-- A service without attributes of its own writes none. -/
theorem writes_saveServiceAttributes {serviceId : Bytes} {obj : TypedMap}
    (h : ∀ k ∈ obj.map Prod.fst, k ∈ KNOWN_SERVICE_KEYS) :
    Writes (saveServiceAttributes host serviceId obj) () [] := by
  have hfold : ∀ (l : TypedMap) (position : ℕ), (∀ e ∈ l, e.1 ∈ KNOWN_SERVICE_KEYS) →
      Writes (l.foldlM (fun position (e : Utf16 × JSONValue) =>
        if KNOWN_SERVICE_KEYS.contains e.1 then pure position
        else do
          let described ← describeJsonValue host.f64Text e.2
          save (.agentServiceAttribute
            { id := concatI32 serviceId position, service := serviceId, position, key := e.1
              value := described.value, valueType := described.valueType })
          pure (position + 1)) position) position [] := by
    intro l position hl
    induction l with
    | nil => exact Writes.pure position
    | cons e l ih =>
      obtain ⟨he, hl⟩ := List.forall_mem_cons.mp hl
      rw [List.foldlM_cons, if_pos (List.contains_iff_mem.mpr he)]
      exact (Writes.pure position).bind (ih hl)
  refine (hfold obj 0 ?_).bind (Writes.pure ())
  exact fun e he => h e.1 (List.mem_map_of_mem he)

/-- A list of features that is not there writes none. -/
theorem writes_features {α : Type} {value : Option JSONValue} {serviceId : Bytes} {position : ℕ}
    {kind : AgentServiceFeatureKind} {f : ℕ → Handler α} {a : α} {es : List Entity}
    (hvalue : value = none) (hf : Writes (f position) a es) :
    Writes (liftM (asStringArray value) >>= fun values =>
      saveServiceFeatures serviceId position kind values >>= f) a es := by
  subst hvalue
  exact Writes.read rfl ((Writes.pure position).bind hf)

theorem writes_saveAgentService {registrationId : Bytes} {position : ℕ}
    {service : AgentRegistrationService} {obj : TypedMap}
    (h : Json.SameEntries service.entries obj) :
    Writes (saveAgentService host registrationId position obj) ()
      [indexedService host registrationId position service] := by
  have hkeys := keys_service service
  have hget := same_get (hkeys.nodup (by decide)) h
  have hknown : ∀ k ∈ obj.map Prod.fst, k ∈ KNOWN_SERVICE_KEYS := by
    intro k hk
    have hmem := hkeys.subset ((keys_perm_of_sameEntries h).mem_iff.mp hk)
    exact List.all_iff_forall_prop.mp
      (show [lit "name", lit "endpoint", lit "version"].all (fun k => k ∈ KNOWN_SERVICE_KEYS) by
        decide) k hmem
  have hother : ∀ key, lit key ∉ [lit "name", lit "endpoint", lit "version"] →
      obj.get key = none := by
    intro key hkey
    have hsame := hget key
    rwa [TypedMap.get_of_notMem (fun hmem => hkey (hkeys.subset hmem))] at hsame
  obtain ⟨name, endpoint, version⟩ := service
  have hversion : asString (obj.get "version") = .ok version := by
    rw [asString_same (hget "version")]
    cases version <;> rfl
  refine Writes.read (asString_same (hget "name")) ?_
  refine Writes.read (asString_same (hget "endpoint")) ?_
  refine Writes.read hversion ?_
  refine (Writes.save _).bind ?_
  refine writes_features (hother _ (by decide)) ?_
  refine writes_features (hother _ (by decide)) ?_
  refine writes_features (hother _ (by decide)) ?_
  refine writes_features (hother _ (by decide)) ?_
  refine writes_features (hother _ (by decide)) ?_
  refine writes_features (hother _ (by decide)) ?_
  refine writes_features (hother _ (by decide)) ?_
  exact writes_saveServiceAttributes hknown

/-! ### The rest of the document -/

theorem keys_link (link : AgentRegistrationLink) :
    (link.entries.map Prod.fst).Sublist [lit "agentRegistry", lit "agentId"] := by
  obtain ⟨agentRegistry, agentId⟩ := link
  cases agentId with
  | none => exact .cons_cons _ (.cons _ .slnil)
  | some agentId => exact List.Sublist.refl _

/-- An agent id that is a text is not read. -/
theorem writes_saveAgentRegistrationReference {registrationId : Bytes} {position : ℕ}
    {link : AgentRegistrationLink} {obj : TypedMap} (h : Json.SameEntries link.entries obj) :
    Writes (saveAgentRegistrationReference registrationId position obj) ()
      [indexedReference registrationId position link] := by
  have hget := same_get ((keys_link link).nodup (by decide)) h
  obtain ⟨agentRegistry, agentId⟩ := link
  have hagent : asWholeBigInt (obj.get "agentId") = .ok none := by
    rw [asWholeBigInt_same (hget "agentId")]
    cases agentId <;> rfl
  refine Writes.read (asString_same (hget "agentRegistry")) ?_
  refine Writes.read hagent ?_
  exact Writes.save _

/-- A loop over objects that writes one entity for each. -/
theorem writes_objects {α : Type} {entries : α → TypedMap} {f : TypedMap → ℕ → Handler Unit}
    {g : ℕ → α → Entity} {l : List α} {objs : List TypedMap}
    (hsame : List.Forall₂ Json.SameEntries (l.map entries) objs)
    (hf : ∀ a obj i, Json.SameEntries (entries a) obj → Writes (f obj i) () [g i a]) (n : ℕ) :
    Writes ((objs.zipIdx n).forM (fun p => f p.1 p.2)) ()
      ((l.zipIdx n).map (fun p => g p.2 p.1)) := by
  induction l generalizing objs n with
  | nil =>
    cases hsame
    exact Writes.pure ()
  | cons a l ih =>
    cases hsame with
    | @cons _ obj _ objs hhead hrest =>
      rw [List.zipIdx_cons, List.zipIdx_cons]
      exact (hf a obj n hhead).bind (ih hrest (n + 1))

def indexedTrust (host : Host) (registrationId : Bytes) (position : ℕ) (name : Utf16) : Entity :=
  .agentTrust {
    id := concatI32 registrationId position
    registration := registrationId
    position
    kind := classifyTrustKind host name
    name }

/-- The entities of a published document, in the order they are saved. -/
def indexed (host : Host) (id agentId : Bytes) (sourceURI rawJSON : Utf16)
    (doc : AgentRegistrationDocument) : List Entity :=
  doc.services.zipIdx.map (fun p => indexedService host id p.2 p.1)
    ++ doc.registrations.zipIdx.map (fun p => indexedReference id p.2 p.1)
    ++ doc.supportedTrust.zipIdx.map (fun p => indexedTrust host id p.2 p.1)
    ++ [.agentRegistration {
      id
      agent := agentId
      sourceURI
      sourceURIKind := .DATA
      contentHash := host.keccak256 (host.fromUTF8 rawJSON)
      rawJSON
      profileType := some doc.type
      name := some doc.name
      description := doc.description
      image := doc.image
      active := some doc.active
      x402Support := none
      usedLegacyEndpointsField := false }]

theorem keys_document (doc : AgentRegistrationDocument) :
    (doc.entries.map Prod.fst).Sublist [lit "type", lit "name", lit "description", lit "image",
      lit "active", lit "services", lit "registrations", lit "supportedTrust"] := by
  obtain ⟨type, name, description, image, active, services, registrations, trust⟩ := doc
  have hoptional : ∀ key value, ((optional key value).map Prod.fst).Sublist [lit key] := by
    intro key value
    cases value with
    | none => exact .cons _ .slnil
    | some text => exact List.Sublist.refl _
  simp only [AgentRegistrationDocument.entries, List.map_append]
  exact (((List.Sublist.refl [lit "type", lit "name"]).append
    (hoptional "description" description)).append
    (hoptional "image" image)).append (List.Sublist.refl _)

/-- What the members of a document are, those that may be left out aside. -/
theorem get_document (doc : AgentRegistrationDocument) :
    asString (doc.entries.get "description") = .ok doc.description
      ∧ asString (doc.entries.get "image") = .ok doc.image
      ∧ doc.entries.get "active" = some (.bool doc.active)
      ∧ doc.entries.get "services"
        = some (.array (doc.services.map (fun service => .object service.entries)))
      ∧ doc.entries.get "registrations"
        = some (.array (doc.registrations.map (fun link => .object link.entries)))
      ∧ doc.entries.get "supportedTrust" = some (.array (doc.supportedTrust.map .string)) := by
  obtain ⟨type, name, description, image, active, services, registrations, trust⟩ := doc
  cases description with
  | none =>
    cases image with
    | none => exact ⟨rfl, rfl, rfl, rfl, rfl, rfl⟩
    | some image => exact ⟨rfl, rfl, rfl, rfl, rfl, rfl⟩
  | some description =>
    cases image with
    | none => exact ⟨rfl, rfl, rfl, rfl, rfl, rfl⟩
    | some image => exact ⟨rfl, rfl, rfl, rfl, rfl, rfl⟩

/-- **A published document is indexed whole**, whatever the order of its entries. -/
theorem writes_saveAgentRegistration {id agentId : Bytes} {sourceURI rawJSON : Utf16}
    {doc : AgentRegistrationDocument} {obj : TypedMap} (h : Json.SameEntries doc.entries obj) :
    Writes (saveAgentRegistration host id agentId sourceURI .DATA rawJSON obj) ()
      (indexed host id agentId sourceURI rawJSON doc) := by
  have hkeys := keys_document doc
  have hget := same_get (hkeys.nodup (by decide)) h
  have hmissing : ∀ key, lit key ∉ [lit "type", lit "name", lit "description", lit "image",
      lit "active", lit "services", lit "registrations", lit "supportedTrust"] →
      obj.get key = none := by
    intro key hkey
    have hsame := hget key
    rwa [TypedMap.get_of_notMem (fun hmem => hkey (hkeys.subset hmem))] at hsame
  obtain ⟨hdescription, himage, hactive, hservices, hregistrations, htrust⟩ := get_document doc
  have hx402 : asBool (obj.get "x402Support") = .ok ⟨false, false⟩ := by
    rw [hmissing "x402Support" (by decide)]
    rfl
  have hactive : asBool (obj.get "active") = .ok ⟨true, doc.active⟩ := by
    rw [asBool_same (hget "active"), hactive]
    rfl
  have hlegacy : obj.get "endpoints" = none := hmissing "endpoints" (by decide)
  -- the member `services` is there, so the old name of it is not looked at
  have hsame := hget "services"
  rw [hservices] at hsame
  obtain ⟨v, hv, hsameServices⟩ := hsame
  have hused : (obj.get "services").any (fun field => !field.isNull) = true := by
    obtain ⟨m, rfl, -⟩ := hsameServices
    rw [hv]
    rfl
  obtain ⟨services, hread, hsame⟩ := asObjectArray_same
    (l := doc.services.map AgentRegistrationService.entries) (b := obj.get "services")
    ⟨v, hv, by rw [List.map_map]; exact hsameServices⟩
  have hsameLinks := hget "registrations"
  rw [hregistrations] at hsameLinks
  obtain ⟨links, hreadLinks, hlinks⟩ := asObjectArray_same
    (l := doc.registrations.map AgentRegistrationLink.entries) (b := obj.get "registrations")
    (by rw [List.map_map]; exact hsameLinks)
  have hreadTrust : asStringArray (obj.get "supportedTrust") = .ok doc.supportedTrust :=
    asStringArray_same (by rw [← htrust]; exact hget "supportedTrust")
  rw [indexed, List.append_assoc, List.append_assoc]
  refine Writes.read (asString_same (hget "type")) ?_
  refine Writes.read (asString_same (hget "name")) ?_
  refine Writes.read ((asString_same (hget "description")).trans hdescription) ?_
  refine Writes.read ((asString_same (hget "image")).trans himage) ?_
  refine Writes.read hactive ?_
  refine Writes.read hx402 ?_
  have hreadServices : asObjectArray (if (obj.get "services").any (fun field => !field.isNull) then
      obj.get "services" else obj.get "endpoints") = .ok services := by
    rw [if_pos hused]
    exact hread
  refine Writes.read hreadServices ?_
  have hloop := writes_objects (f := fun obj i => saveAgentService host id i obj)
    (g := indexedService host id) hsame (fun _ _ _ => writes_saveAgentService) 0
  refine hloop.bind ?_
  refine Writes.read hreadLinks ?_
  have hloop := writes_objects (f := fun obj i => saveAgentRegistrationReference id i obj)
    (g := indexedReference id) hlinks (fun _ _ _ => writes_saveAgentRegistrationReference) 0
  refine hloop.bind ?_
  refine Writes.read hreadTrust ?_
  have hloop := Writes.forM (f := fun p : Utf16 × ℕ => saveAgentTrust host id p.2 p.1)
    (g := fun p => indexedTrust host id p.2 p.1) (l := doc.supportedTrust.zipIdx)
    (fun _ _ => Writes.save _)
  refine hloop.bind ?_
  rw [hused]
  exact Writes.save _

/-! ### The URI -/

/-- `text.toLowerCase()` of a character of ASCII. -/
def asciiLower (c : CodeUnit) : CodeUnit := if unit 'A' ≤ c ∧ c ≤ unit 'Z' then c + 0x20 else c

/-- At most `n` arrays and objects are inside one another. -/
def nestedIn : ℕ → JSONValue → Bool
  | n + 1, .array l => l.all (nestedIn n)
  | n + 1, .object l => l.all (fun e => nestedIn n e.2)
  | 0, .array _ | 0, .object _ => false
  | _, _ => true

/-- What the runtime of the subgraph and JavaScript agree on.  The runtime need not read a
text with a lone surrogate, nor keep the order of entries, nor read what is nested deeper
than a document: parsers have a limit. -/
structure Host.Reads (host : Host) : Prop where
  lower : ∀ s, (∀ c ∈ s, c < 0x80) → host.toLowerCase s = s.map asciiLower
  decode : ∀ s, WellFormed s → host.decodeUTF8 (utf8 s) = s
  parse : ∀ v : JSONValue, v.DistinctKeys →
    v.all (fun s => toWellFormed s == s) Number.isSafeInteger = true → nestedIn 3 v = true →
    ∃ w, host.tryFromString (stringify v) = some w ∧ Json.Same v w

theorem mem_toBase64 {s : Utf16} {c : CodeUnit} (h : c ∈ toBase64 s) :
    c < 0x80 ∧ isWhitespace c = false ∧ c ≠ unit '{' ∧ c ≠ unit '[' := by
  have hall : ∀ c ∈ ALPHABET ++ [equalsSign],
      (c < 0x80 ∧ isWhitespace c = false ∧ c ≠ unit '{' ∧ c ≠ unit '[') :=
    List.all_iff_forall_prop.mp (by decide +kernel)
  refine hall c ?_
  rw [toBase64, List.mem_append] at h
  rw [List.mem_append, List.mem_singleton]
  exact h.imp (mem_alphabet_of_base64 _ c) List.eq_of_mem_replicate

theorem base64Decode_toBase64 (s : Utf16) : base64Decode (toBase64 s) = some (utf8 s) := by
  refine base64Decode_of_eq (k := (3 - (utf8 s).length % 3) % 3) ?_
  rw [withoutWhitespace, List.filter_eq_self.mpr]
  · rfl
  · intro c hc
    rw [(mem_toBase64 hc).2.1]
    rfl

theorem ascii_dataUri (s : Utf16) : ∀ c ∈ dataUriPrefix ++ toBase64 s, c < 0x80 := by
  intro c hc
  rcases List.mem_append.mp hc with hc | hc
  · exact (List.all_iff_forall_prop.mp (by decide +kernel) : ∀ c ∈ dataUriPrefix, c < 0x80) c hc
  · exact (mem_toBase64 hc).1

theorem startsWith_data (hh : host.Reads) (s : Utf16) :
    (lit "data:").isPrefixOf (host.toLowerCase (dataUriPrefix ++ toBase64 s)) = true := by
  have hprefix : dataUriPrefix.map asciiLower = lit "data:" ++ lit "application/json;base64," := by
    decide +kernel
  rw [hh.lower _ (ascii_dataUri s), List.map_append, hprefix, List.append_assoc,
    List.isPrefixOf_iff_prefix]
  exact List.prefix_append _ _

theorem classifyUri_dataUri (hh : host.Reads) (s : Utf16) :
    classifyUri host (dataUriPrefix ++ toBase64 s) = .DATA := by
  have hlen : (dataUriPrefix ++ toBase64 s).length ≠ 0 := by
    rw [List.length_append]
    exact Nat.ne_of_gt (Nat.add_pos_left (by decide) _)
  rw [classifyUri, if_neg hlen]
  exact if_pos (startsWith_data hh s)

theorem hasBase64Marker_json (hh : host.Reads) :
    hasBase64Marker host (lit "application/json;base64") = true := by
  have hsplit : (lit "application/json;base64").splitOn (unit ';')
      = [lit "application/json", lit "base64"] := by decide +kernel
  have hlower : host.toLowerCase (lit "base64") = lit "base64" := by
    rw [hh.lower _ (List.all_iff_forall_prop.mp (by decide +kernel))]
    decide +kernel
  rw [hasBase64Marker, hsplit, List.any_cons, List.any_cons, hlower]
  simp

/-- **The payload of a published URI is the text it was made of.** -/
theorem decodeDataUri_toBase64 (hh : host.Reads) {s : Utf16} (hs : WellFormed s) :
    decodeDataUri host (dataUriPrefix ++ toBase64 s) = some s := by
  have hdrop : (dataUriPrefix ++ toBase64 s).drop 5
      = lit "application/json;base64" ++ unit ',' :: toBase64 s := rfl
  have hcomma : unit ',' ∉ lit "application/json;base64" := by decide +kernel
  have hindex : (lit "application/json;base64" ++ unit ',' :: toBase64 s).idxOf (unit ',')
      = (lit "application/json;base64").length := by
    rw [List.idxOf_append_of_notMem hcomma, List.idxOf_cons_self, Nat.add_zero]
  have hplain : ∀ c, c = unit '{' ∨ c = unit '[' → [c].isPrefixOf (toBase64 s) = false := by
    intro c hc
    cases hb : toBase64 s with
    | nil => rfl
    | cons d rest =>
      have hd := (mem_toBase64 (s := s) (c := d) (by rw [hb]; exact List.mem_cons_self)).2.2
      rw [List.isPrefixOf_cons_cons, Bool.and_eq_false_iff]
      left
      rw [beq_eq_false_iff_ne]
      rintro rfl
      exact hc.elim hd.1 hd.2
  rw [decodeDataUri, if_pos (startsWith_data hh s)]
  simp only [hdrop]
  rw [if_pos (List.mem_append_right _ List.mem_cons_self), hindex, List.take_left',
    ← List.drop_drop, List.drop_left, List.drop_one, List.tail_cons, hasBase64Marker_json hh]
  · have hcurly : (lit "\x7b").isPrefixOf (toBase64 s) = false := hplain _ (Or.inl rfl)
    have hsquare : (lit "[").isPrefixOf (toBase64 s) = false := hplain _ (Or.inr rfl)
    rw [hcurly, hsquare]
    simp only [Bool.or_false, Bool.not_false, Bool.and_true, if_true, base64DecodeToString,
      base64Decode_toBase64, Option.map_some, hh.decode s hs]
  · rfl

/-! ### The document -/

/-- What the values of a document are made of. -/
theorem document_values (doc : AgentRegistrationDocument) : ∀ e ∈ doc.entries,
    (∃ text, e.2 = .string text) ∨ (∃ b, e.2 = .bool b)
      ∨ (∃ l, e.2 = .array l ∧ ∀ v ∈ l, ∃ text, v = .string text)
      ∨ ∃ l : List TypedMap, e.2 = .array (l.map .object) ∧ ∀ m ∈ l, (m.map Prod.fst).Nodup
        ∧ ∀ e ∈ m, ∃ text, e.2 = .string text := by
  have hoptional : ∀ key value, ∀ e ∈ optional key value, ∃ text, e.2 = .string text := by
    intro key value e he
    cases value with
    | none => cases he
    | some text =>
      obtain rfl := List.mem_singleton.mp he
      exact ⟨text, rfl⟩
  have hservice : ∀ service : AgentRegistrationService, ∀ e ∈ service.entries,
      ∃ text, e.2 = .string text := by
    intro service e he
    rcases List.mem_append.mp he with he | he
    · rcases List.mem_pair.mp he with rfl | rfl
      · exact ⟨_, rfl⟩
      · exact ⟨_, rfl⟩
    · exact hoptional _ _ e he
  have hlink : ∀ link : AgentRegistrationLink, ∀ e ∈ link.entries, ∃ text, e.2 = .string text := by
    intro link e he
    rcases List.mem_cons.mp he with rfl | he
    · exact ⟨_, rfl⟩
    · exact hoptional _ _ e he
  intro e he
  simp only [AgentRegistrationDocument.entries, List.mem_append, List.mem_cons, List.not_mem_nil,
    or_false] at he
  rcases he with ((((rfl | rfl) | he) | he) | (rfl | rfl | rfl | rfl))
  · exact Or.inl ⟨_, rfl⟩
  · exact Or.inl ⟨_, rfl⟩
  · exact Or.inl (hoptional _ _ e he)
  · exact Or.inl (hoptional _ _ e he)
  · exact Or.inr (Or.inl ⟨_, rfl⟩)
  · refine Or.inr (Or.inr (Or.inr ⟨doc.services.map AgentRegistrationService.entries, ?_, ?_⟩))
    · rw [List.map_map]
      rfl
    · exact List.forall_mem_map.mpr
        (fun service _ => ⟨(keys_service service).nodup (by decide), hservice service⟩)
  · refine Or.inr (Or.inr (Or.inr ⟨doc.registrations.map AgentRegistrationLink.entries, ?_, ?_⟩))
    · rw [List.map_map]
      rfl
    · exact List.forall_mem_map.mpr
        (fun link _ => ⟨(keys_link link).nodup (by decide), hlink link⟩)
  · exact Or.inr (Or.inr (Or.inl ⟨_, rfl, List.forall_mem_map.mpr (fun text _ => ⟨text, rfl⟩)⟩))

theorem distinctKeys_document (doc : AgentRegistrationDocument) :
    (Json.object doc.entries : JSONValue).DistinctKeys := by
  have hstrings : ∀ m : TypedMap, (∀ e ∈ m, ∃ text, e.2 = .string text) →
      Json.DistinctMembers m := by
    intro m hm
    refine Json.distinctMembers_iff.mpr (fun e he => ?_)
    obtain ⟨text, htext⟩ := hm e he
    rw [htext]
    trivial
  refine ⟨(keys_document doc).nodup (by decide), Json.distinctMembers_iff.mpr (fun e he => ?_)⟩
  rcases document_values doc e he with ⟨text, htext⟩ | ⟨b, hb⟩ | ⟨l, hl, hall⟩ | ⟨l, hl, hall⟩
  · rw [htext]
    trivial
  · rw [hb]
    trivial
  · rw [hl, Json.DistinctKeys, Json.distinctItems_iff]
    intro v hv
    obtain ⟨text, rfl⟩ := hall v hv
    trivial
  · rw [hl, Json.DistinctKeys, Json.distinctItems_iff]
    refine List.forall_mem_map.mpr (fun m hm => ?_)
    exact ⟨(hall m hm).1, hstrings m (hall m hm).2⟩

theorem nestedIn_document (doc : AgentRegistrationDocument) :
    nestedIn 3 (.object doc.entries) = true := by
  refine List.all_eq_true.mpr (fun e he => ?_)
  rcases document_values doc e he with ⟨text, htext⟩ | ⟨b, hb⟩ | ⟨l, hl, hall⟩ | ⟨l, hl, hall⟩
  · rw [htext]
    rfl
  · rw [hb]
    rfl
  · rw [hl]
    refine List.all_eq_true.mpr (fun v hv => ?_)
    obtain ⟨text, rfl⟩ := hall v hv
    rfl
  · rw [hl]
    refine List.all_eq_true.mpr (List.forall_mem_map.mpr (fun m hm => ?_))
    refine List.all_eq_true.mpr (fun e he => ?_)
    obtain ⟨text, htext⟩ := (hall m hm).2 e he
    rw [htext]
    rfl

/-- A document has no numbers. -/
theorem safeNumbers_document (doc : AgentRegistrationDocument) :
    SafeNumbers (.object doc.entries) := by
  refine Json.allEntries_iff.mpr (fun e he => ⟨rfl, ?_⟩)
  rcases document_values doc e he with ⟨text, htext⟩ | ⟨b, hb⟩ | ⟨l, hl, hall⟩ | ⟨l, hl, hall⟩
  · rw [htext]
    rfl
  · rw [hb]
    rfl
  · rw [hl]
    refine Json.allItems_iff.mpr (fun v hv => ?_)
    obtain ⟨text, rfl⟩ := hall v hv
    rfl
  · rw [hl]
    refine Json.allItems_iff.mpr (List.forall_mem_map.mpr (fun m hm => ?_))
    refine Json.allEntries_iff.mpr (fun e he => ⟨rfl, ?_⟩)
    obtain ⟨text, htext⟩ := (hall m hm).2 e he
    rw [htext]
    rfl

/-- The texts of a document have no lone surrogates. -/
def Whole (doc : AgentRegistrationDocument) : Prop :=
  (Json.object doc.entries : JSONValue).all (fun s => toWellFormed s == s) Number.isSafeInteger
    = true

instance (doc : AgentRegistrationDocument) : Decidable (Whole doc) :=
  inferInstanceAs (Decidable (_ = true))

/-- The identifier of the registry is read back, whatever the text of the address. -/
theorem parseCaip10_link (n : ℕ) (registry : Utf16) :
    parseCaip10 (lit "eip155:" ++ decimal n ++ lit ":" ++ registry)
      = ⟨some (lit "eip155"), some (decimal n), some registry⟩ := by
  have hnamespace : unit ':' ∉ lit "eip155" := by decide +kernel
  have hdecimal : unit ':' ∉ decimal n := by
    intro hmem
    exact absurd (isDigit_of_mem_decimal hmem) (by decide)
  have hparts : (lit "eip155:" ++ decimal n ++ lit ":" ++ registry).splitOn (unit ':')
      = lit "eip155" :: decimal n :: registry.splitOn (unit ':') := by
    rw [show lit "eip155:" ++ decimal n ++ lit ":" ++ registry
        = lit "eip155" ++ unit ':' :: (decimal n ++ unit ':' :: registry) by
      simp only [List.append_assoc]; rfl]
    rw [List.splitOn_append_cons_self_of_not_mem hnamespace,
      List.splitOn_append_cons_self_of_not_mem hdecimal]
  have hlen : ¬ (lit "eip155" :: decimal n :: registry.splitOn (unit ':')).length < 3 := by
    have hpos := List.length_pos_of_ne_nil (List.splitOn_ne_nil (unit ':') registry)
    simp only [List.length_cons]
    omega
  rw [parseCaip10, hparts]
  simp only [if_neg hlen, List.getElem?_cons_zero, List.getElem?_cons_succ, List.drop_succ_cons,
    List.drop_zero, List.intercalate_splitOn]

theorem links_of_build {toLowerCase : Utf16 → Utf16} {input : AgentRegistrationInput}
    {link : AgentRegistrationLink} (h : link ∈ registrationLinks toLowerCase input) :
    ∃ chainId registry, input.chainId = some chainId ∧ input.identityRegistry = some registry
      ∧ parseCaip10 link.agentRegistry
        = ⟨some (lit "eip155"), some (decimal chainId.val), some (toLowerCase registry)⟩ := by
  rw [registrationLinks] at h
  cases hchain : input.chainId with
  | none =>
    rw [hchain] at h
    cases h
  | some chainId =>
    cases hregistry : input.identityRegistry with
    | none =>
      rw [hchain, hregistry] at h
      cases h
    | some registry =>
      rw [hchain, hregistry] at h
      simp only at h
      split_ifs at h with hempty
      · cases h
      · obtain rfl := List.mem_singleton.mp h
        exact ⟨chainId, registry, rfl, rfl, parseCaip10_link _ _⟩

/-! ### From the input to the entities -/

theorem resolveDocument_eq {α : Type} {load : Bytes → Handler (Option α)}
    {write : Bytes → Utf16 → TypedMap → Handler Unit} {owner id : Bytes} {uri rawJSON : Utf16}
    {obj : TypedMap} {store store' : Store} (hid : id = host.keccak256 (owner ++ host.fromUTF8 uri))
    (hdecode : decodeDataUri host uri = some rawJSON) (hload : load id store = .ok (none, store))
    (hparse : host.tryFromString rawJSON = some (.object obj))
    (hwrite : write id rawJSON obj store = .ok ((), store')) :
    resolveDocument host load write owner uri .DATA store = .ok (some id, store') := by
  subst hid
  rw [resolveDocument, if_neg (not_not.mpr rfl), hdecode]
  show (load _ store >>= fun p => _) = _
  rw [hload]
  simp only [hparse]
  show (write _ rawJSON obj store >>= fun p => _) = _
  rw [hwrite]
  rfl

/-- The agent has no entity for this URI yet. -/
def Fresh (id : Bytes) (store : Store) : Prop := ∀ e, Entity.agentRegistration e ∈ store → e.id ≠ id

theorem load_of_fresh {id : Bytes} {store : Store} (h : Fresh id store) :
    AgentRegistration.load id store = .ok (none, store) := by
  show Except.ok (store.findSome? _, store) = _
  refine congrArg (fun r => Except.ok (r, store)) (List.findSome?_eq_none_iff.mpr ?_)
  intro e he
  cases e with
  | agentRegistration e => exact if_neg (h e he)
  | _ => rfl

/-- A URI that was built has the text of the document behind it, and is not too large. -/
theorem uri_of_build {toLowerCase : Utf16 → Utf16} {input : AgentRegistrationInput}
    {doc : AgentRegistrationDocument} {uri : Utf16}
    (hdoc : buildAgentRegistrationDocument toLowerCase input = .ok doc)
    (huri : buildAgentRegistrationDataUri toLowerCase input = .ok uri) :
    uri = dataUriPrefix ++ toBase64 (stringify (.object doc.entries))
      ∧ uri.length ≤ AGENT_REGISTRATION_MAX_BYTES := by
  rw [buildAgentRegistrationDataUri, hdoc] at huri
  obtain ⟨doc', hdoc', huri⟩ := Logic.bind_eq_ok.mp huri
  obtain rfl := Except.ok.inj hdoc'
  simp only at huri
  change (if AGENT_REGISTRATION_MAX_BYTES < _ then _ else _) = _ at huri
  split_ifs at huri with hlarge
  obtain rfl := Except.ok.inj huri
  exact ⟨rfl, Nat.not_lt.mp hlarge⟩

theorem build_of_length {toLowerCase : Utf16 → Utf16} {input : AgentRegistrationInput}
    {doc : AgentRegistrationDocument}
    (hdoc : buildAgentRegistrationDocument toLowerCase input = .ok doc)
    (hlen : ¬ AGENT_REGISTRATION_MAX_BYTES
      < (dataUriPrefix ++ toBase64 (stringify (.object doc.entries))).length) :
    buildAgentRegistrationDataUri toLowerCase input
      = .ok (dataUriPrefix ++ toBase64 (stringify (.object doc.entries))) := by
  refine Logic.bind_eq_ok.mpr ⟨doc, hdoc, ?_⟩
  dsimp only
  rw [if_neg hlen]
  rfl

theorem fields_of_build {toLowerCase : Utf16 → Utf16} {input : AgentRegistrationInput}
    {doc : AgentRegistrationDocument}
    (hdoc : buildAgentRegistrationDocument toLowerCase input = .ok doc) :
    doc.services = deskAgentServices input.appUrl input.teamId ++ input.services
      ∧ doc.supportedTrust = [lit "reputation"]
      ∧ doc.registrations = registrationLinks toLowerCase input := by
  rw [buildAgentRegistrationDocument] at hdoc
  cases hname : cleanText (some input.name) 120 with
  | none =>
    rw [hname] at hdoc
    cases hdoc
  | some name =>
    rw [hname] at hdoc
    obtain rfl := Except.ok.inj hdoc
    exact ⟨rfl, rfl, rfl⟩

/-- The public surfaces and the trust have kinds of their own. -/
theorem kinds (hh : host.Reads) :
    classifyServiceKind host (lit "web") = .WEB ∧ classifyServiceKind host (lit "a2a") = .A2A
      ∧ classifyServiceKind host (lit "x402") = .X402
      ∧ classifyTrustKind host (lit "reputation") = .REPUTATION := by
  have hlower : ∀ s : Utf16, s.all (fun c => decide (c < 0x80)) = true → s.map asciiLower = s →
      host.toLowerCase s = s := by
    intro s hs hmap
    rw [hh.lower s (fun c hc => by simpa using List.all_eq_true.mp hs c hc), hmap]
  rw [classifyServiceKind, classifyServiceKind, classifyServiceKind, classifyTrustKind,
    hlower (lit "web") (by decide +kernel) (by decide +kernel),
    hlower (lit "a2a") (by decide +kernel) (by decide +kernel),
    hlower (lit "x402") (by decide +kernel) (by decide +kernel),
    hlower (lit "reputation") (by decide +kernel) (by decide +kernel)]
  decide +kernel

/-- **What BUFI publishes, the subgraph indexes.**  A document that was published and has no
lone surrogate is a `data:` URI of at most 4096 characters, and resolving it saves its
services, its registry, its trust and itself, field by field; the public surfaces are known by
their kinds.  The agent id of the registry is the only thing lost. -/
theorem published_indexed (hh : host.Reads) {toLowerCase : Utf16 → Utf16}
    {input : AgentRegistrationInput} {doc : AgentRegistrationDocument} {uri : Utf16}
    (hdoc : buildAgentRegistrationDocument toLowerCase input = .ok doc)
    (huri : buildAgentRegistrationDataUri toLowerCase input = .ok uri) (hwhole : Whole doc)
    (agentId : Bytes) {store : Store}
    (hfresh : Fresh (host.keccak256 (agentId ++ host.fromUTF8 uri)) store) :
    classifyUri host uri = .DATA ∧ isAgentRegistrationDataUri uri = true
      ∧ uri.length ≤ AGENT_REGISTRATION_MAX_BYTES
      ∧ resolveAgentRegistration host agentId uri .DATA store
        = .ok (some (host.keccak256 (agentId ++ host.fromUTF8 uri)),
          (indexed host (host.keccak256 (agentId ++ host.fromUTF8 uri)) agentId uri
            (stringify (.object doc.entries)) doc).reverse ++ store)
      ∧ (doc.services.map (fun service => classifyServiceKind host service.name)).take 3
        = [.WEB, .A2A, .X402]
      ∧ doc.supportedTrust.map (classifyTrustKind host) = [.REPUTATION]
      ∧ ∀ link ∈ doc.registrations, ∃ chainId registry, input.chainId = some chainId
        ∧ input.identityRegistry = some registry ∧ parseCaip10 link.agentRegistry
          = ⟨some (lit "eip155"), some (decimal chainId.val), some (toLowerCase registry)⟩ := by
  obtain ⟨rfl, hlarge⟩ := uri_of_build hdoc huri
  obtain ⟨hservices, htrust, hlinks⟩ := fields_of_build hdoc
  obtain ⟨hweb, ha2a, hx402, hreputation⟩ := kinds hh
  have hwell : WellFormed (stringify (.object doc.entries)) :=
    wellFormed_render _ (safeNumbers_document doc)
  obtain ⟨w, hparse, hsame⟩ := hh.parse _ (distinctKeys_document doc) hwhole
    (nestedIn_document doc)
  obtain ⟨obj, rfl, hobj⟩ := hsame
  refine ⟨classifyUri_dataUri hh _, ?_, hlarge, ?_, ?_, ?_, ?_⟩
  · rw [isAgentRegistrationDataUri, List.isPrefixOf_iff_prefix]
    exact List.prefix_append _ _
  · exact resolveDocument_eq rfl (decodeDataUri_toBase64 hh hwell) (load_of_fresh hfresh) hparse
      (writes_saveAgentRegistration hobj store)
  · rw [hservices, List.map_append, List.take_append_of_le_length (le_refl 3)]
    simp only [deskAgentServices, List.map_cons, List.map_nil, hweb, ha2a, hx402]
    rfl
  · rw [htrust, List.map_singleton, hreputation]
  · intro link hlink
    rw [hlinks] at hlink
    exact links_of_build hlink

end

/-! ### A workspace -/

theorem safeNumbers_of_all {okString : Utf16 → Bool} {v : JSONValue}
    (h : v.all okString Number.isSafeInteger = true) : SafeNumbers v := by
  induction v using Json.induct with
  | hnull => rfl
  | hbool b => rfl
  | hnumber x => exact h
  | hstring s => rfl
  | harray l ih =>
    rw [Json.all, Json.allItems_iff] at h
    exact Json.allItems_iff.mpr (fun v hv => ih v hv (h v hv))
  | hobject l ih =>
    rw [Json.all, Json.allEntries_iff] at h
    exact Json.allEntries_iff.mpr (fun e he => ⟨rfl, ih e he (h e he).2⟩)

/-- A runtime that reads as JavaScript does, with a stand-in for the hash. -/
def plainHost : Host where
  keccak256 b := b
  fromUTF8 := utf8
  decodeUTF8 b := unscalars (decodeChars b)
  tryFromString := jsonParse
  toLowerCase s := s.map asciiLower
  f64Text _ := []
  bigDecimal _ := 0

theorem plainHost_reads : plainHost.Reads where
  lower _ _ := rfl
  decode s hs := by
    show unscalars (decodeChars (utf8 s)) = s
    rw [decodeChars_utf8, hs.unscalars_scalars]
  parse v hv hall _ :=
    ⟨v, jsonParse_render _ (safeNumbers_of_all hall), (Json.sortKeys_eq_iff hv hv).mp rfl⟩

def arcInput : AgentRegistrationInput where
  name := lit "  Arc   Argentina  "
  description := some (lit "Invoices and contracts.\n\nSettles on Arc.")
  image := some (lit "avatars/team/logo.png")
  appUrl := lit "https://desk.bu.finance/"
  teamId := lit "57cf6dcc"
  chainId := some 5042002
  identityRegistry := some (lit "0x8004A818")
  agentId := some (lit "894551")
  services := [⟨lit "mcp", lit "https://shiva.bu.finance/mcp", some (lit "2025-06-18")⟩]

def arcDocument : AgentRegistrationDocument where
  type := AGENT_REGISTRATION_TYPE
  name := lit "Arc Argentina"
  description := some (lit "Invoices and contracts. Settles on Arc.")
  image := none
  active := true
  services := deskAgentServices (lit "https://desk.bu.finance") (lit "57cf6dcc")
    ++ [⟨lit "mcp", lit "https://shiva.bu.finance/mcp", some (lit "2025-06-18")⟩]
  registrations := [⟨lit "eip155:5042002:0x8004a818", some (lit "894551")⟩]
  supportedTrust := [lit "reputation"]

theorem arc_document :
    buildAgentRegistrationDocument (List.map asciiLower) arcInput = .ok arcDocument := by
  have hdoc : (buildAgentRegistrationDocument (List.map asciiLower) arcInput).toOption
      = some arcDocument := by decide +kernel
  cases hbuild : buildAgentRegistrationDocument (List.map asciiLower) arcInput with
  | error e =>
    rw [hbuild] at hdoc
    cases hdoc
  | ok doc =>
    rw [hbuild] at hdoc
    rw [Option.some.inj hdoc]

def arcUri : Utf16 := dataUriPrefix ++ toBase64 (stringify (.object arcDocument.entries))

theorem arc_uri : buildAgentRegistrationDataUri (List.map asciiLower) arcInput = .ok arcUri := by
  have hlen : ¬ AGENT_REGISTRATION_MAX_BYTES < arcUri.length := by decide +kernel
  exact build_of_length arc_document hlen

theorem published_indexed_arc :
    resolveAgentRegistration plainHost [1] arcUri .DATA []
      = .ok (some (plainHost.keccak256 ([1] ++ plainHost.fromUTF8 arcUri)),
        (indexed plainHost (plainHost.keccak256 ([1] ++ plainHost.fromUTF8 arcUri)) [1] arcUri
          (stringify (.object arcDocument.entries)) arcDocument).reverse ++ []) :=
  (published_indexed plainHost_reads arc_document arc_uri (by decide +kernel) [1]
    (fun _ he => absurd he (List.not_mem_nil))).2.2.2.1

end Bufi.Document
