import Bufi.Evidence.Commitments
import Bufi.Logic.Total
import Bufi.Text.Decode

/-!
# What a commitment determines

Two records with one commitment agree on every field that the commitment is made of: JSON up
to the order of keys, amounts up to their spelling.  A commitment is the hash of a text, so
the argument is the same for all of them.  The texts of values are well formed, so equal
hashes are equal texts; a text determines the value up to the order of keys; and an object
literal has its keys in a fixed order, so its fields agree one by one.

An id behind a prefix is determined up to `SameText` only: its text need not be well formed.
-/

namespace Bufi.Evidence

open Bufi.Evm Bufi.Text Bufi.Js Bufi.Logic

/-- Two inputs of a builder agree where a part of what is built is equal. -/
def Determines {R C : Type} (build : R → Except String C) (part : C → Utf16)
    (Agree : R → R → Prop) : Prop :=
  ∀ r s c d, build r = .ok c → build s = .ok d → part c = part d → Agree r s

/-- The same text, a surrogate without its partner being U+FFFD. -/
def SameText (s t : Utf16) : Prop := scalars s = scalars t

instance (s t : Utf16) : Decidable (SameText s t) :=
  inferInstanceAs (Decidable (scalars s = scalars t))

/-! ### Hashes of texts -/

section

variable (K : KeccakText)

theorem sameText_of_hashText_eq {s t : Utf16} (h : hashText K s = hashText K t) : SameText s t :=
  utf8_eq_iff.mp (K.injective h)

theorem eq_of_hashText_eq {s t : Utf16} (hs : WellFormed s) (ht : WellFormed t)
    (h : hashText K s = hashText K t) : s = t :=
  eq_of_utf8_eq hs ht (K.injective h)

/-- A hash is a well-formed text. -/
theorem wellFormed_hashText (s : Utf16) : WellFormed (hashText K s) :=
  .of_forall (fun c hc => not_surrogate_of_lt (K.ascii _ c hc))

/-- Ids behind one prefix. -/
theorem sameText_of_prefix {p s t : Utf16} (hp : ∀ c ∈ p, c < 0x80)
    (h : hashText K (p ++ s) = hashText K (p ++ t)) : SameText s t := by
  have hplain : ∀ c ∈ p, isLead c = false ∧ isTrail c = false :=
    fun c hc => not_surrogate_of_lt (hp c hc)
  have hscalars := sameText_of_hashText_eq K h
  rw [SameText, scalars_append hplain, scalars_append hplain] at hscalars
  exact List.append_cancel_left hscalars

/-- Prefixes that differ at a place. -/
theorem hashText_ne_of_prefix {p q : Utf16} (hp : ∀ c ∈ p, c < 0x80) (hq : ∀ c ∈ q, c < 0x80)
    {n : ℕ} (hpn : n < p.length) (hqn : n < q.length)
    (hne : (p.map (fun c => Char.ofNat c.toNat))[n]? ≠ (q.map (fun c => Char.ofNat c.toNat))[n]?)
    (s t : Utf16) : hashText K (p ++ s) ≠ hashText K (q ++ t) := by
  intro h
  have hscalars := sameText_of_hashText_eq K h
  rw [SameText, scalars_append (fun c hc => not_surrogate_of_lt (hp c hc)),
    scalars_append (fun c hc => not_surrogate_of_lt (hq c hc))] at hscalars
  have hat := congrArg (fun l => l[n]?) hscalars
  simp only [List.getElem?_append_left, List.length_map, hpn, hqn] at hat
  exact hne hat

end

/-! ### Commitments to values -/

/-- A value whose objects have every key once and whose numbers are safe integers. -/
structure Data (v : Value) : Prop where
  distinct : v.DistinctKeys
  safe : SafeNumbers v

theorem JsonData.data (d : JsonData) : Data d.value := ⟨d.distinct, d.safe⟩

theorem Data.string (s : Utf16) : Data (.string s) := ⟨trivial, rfl⟩

theorem Data.bool (b : Bool) : Data (.bool b) := ⟨trivial, rfl⟩

theorem Data.null : Data .null := ⟨trivial, rfl⟩

theorem Data.number {x : Number} (h : x.isSafeInteger = true) : Data (.number x) := ⟨trivial, h⟩

theorem Data.nullable (s : Option Utf16) : Data (nullable s) := by
  cases s with
  | none => exact Data.null
  | some s => exact Data.string s

/-- An object literal. -/
theorem Data.obj {fields : List (String × Value)} (keys : List String)
    (hkeys : fields.map Prod.fst = keys) (hnodup : (keys.map lit).Nodup)
    (h : ∀ f ∈ fields, Data f.2) : Data (obj fields) := by
  have hfst : (fields.map (fun f => (lit f.1, f.2))).map Prod.fst = keys.map lit := by
    rw [← hkeys, List.map_map, List.map_map]
    rfl
  constructor
  · rw [Evidence.obj, Json.DistinctKeys, Json.distinctMembers_iff, hfst]
    exact ⟨hnodup, List.forall_mem_map.mpr (fun f hf => (h f hf).distinct)⟩
  · rw [Evidence.obj, SafeNumbers, Json.all, Json.allEntries_iff]
    exact List.forall_mem_map.mpr (fun f hf => ⟨rfl, (h f hf).safe⟩)

theorem isFinite_of_isSafeInteger {x : Number} (h : x.isSafeInteger = true) :
    x.isFinite = true := by
  obtain ⟨n, rfl, -⟩ := Number.isSafeInteger_iff.mp h
  rfl

theorem SafeNumbers.isFinite {v : Value} (h : SafeNumbers v) :
    v.all (fun _ => true) Number.isFinite = true := by
  induction v using Json.induct with
  | hnull => rfl
  | hbool b => rfl
  | hnumber x => exact isFinite_of_isSafeInteger h
  | hstring s => rfl
  | harray l ih =>
    have hall := Json.allItems_iff.mp h
    exact Json.allItems_iff.mpr (fun v hv => ih v hv (hall v hv))
  | hobject l ih =>
    have hall := Json.allEntries_iff.mp h
    exact Json.allEntries_iff.mpr (fun e he => ⟨rfl, ih e he (hall e he).2⟩)

section

variable (numberText : Number → Utf16)

/-- The text of a value. -/
theorem stableStringify_data {v : Value} (h : Data v) :
    stableStringify numberText v = .ok (v.sortKeys.render quoteUnits (finiteText numberText)) :=
  stableStringify_eq numberText (SafeNumbers.isFinite h.safe)

/-- **Values have one text exactly if they are the same up to the order of keys.** -/
theorem stableStringify_eq_iff {v w : Value} (hv : Data v) (hw : Data w) :
    stableStringify numberText v = stableStringify numberText w ↔ v.Same w := by
  rw [stableStringify_data numberText hv, stableStringify_data numberText hw, Except.ok.injEq,
    ← Json.sortKeys_eq_iff hv.distinct hw.distinct]
  constructor
  · intro h
    exact eq_of_render_eq numberText (Json.all_sortKeys hv.safe) (Json.all_sortKeys hw.safe) h
  · intro h
    rw [h]

/-- **The text of a value is read back as the value with its keys sorted.** -/
theorem exists_parse_stableStringify {v : Value} (h : Data v) :
    ∃ text w, stableStringify numberText v = .ok text ∧ jsonParse text = some w ∧ v.Same w :=
  ⟨_, _, stableStringify_data numberText h,
    jsonParse_render numberText (Json.all_sortKeys h.safe), Json.same_sortKeys v⟩

variable (K : KeccakText)

theorem commitment_data {v : Value} (h : Data v) : commitment numberText K v
    = .ok (hashText K (v.sortKeys.render quoteUnits (finiteText numberText))) := by
  rw [commitment, stableStringify_data numberText h]
  rfl

theorem wellFormed_sorted {v : Value} (h : Data v) :
    WellFormed (v.sortKeys.render quoteUnits (finiteText numberText)) :=
  wellFormed_render numberText (Json.all_sortKeys h.safe)

/-- **A commitment determines the value** up to the order of keys. -/
theorem same_of_commitment {v w : Value} {c d : Utf16} (hv : Data v) (hw : Data w)
    (hc : commitment numberText K v = .ok c) (hd : commitment numberText K w = .ok d)
    (h : c = d) : v.Same w := by
  rw [commitment_data numberText K hv] at hc
  rw [commitment_data numberText K hw, ← h] at hd
  have htext := eq_of_hashText_eq K (wellFormed_sorted numberText hv)
    (wellFormed_sorted numberText hw) (Except.ok.inj (hc.trans hd.symm))
  exact (Json.sortKeys_eq_iff hv.distinct hw.distinct).mp
    (eq_of_render_eq numberText (Json.all_sortKeys hv.safe) (Json.all_sortKeys hw.safe) htext)

/-- **A commitment determines the fields of an object literal.** -/
theorem fields_of_commitment {fields fields' : List (String × Value)} {c d : Utf16}
    (keys : List String) (hnodup : (keys.map lit).Nodup)
    (hkeys : fields.map Prod.fst = keys) (hkeys' : fields'.map Prod.fst = keys)
    (hdata : ∀ f ∈ fields, Data f.2) (hdata' : ∀ f ∈ fields', Data f.2)
    (hc : commitment numberText K (obj fields) = .ok c)
    (hd : commitment numberText K (obj fields') = .ok d) (h : c = d) :
    List.Forall₂ (fun f f' => f.2.Same f'.2) fields fields' := by
  obtain ⟨m, hm, hsame⟩ := same_of_commitment numberText K (Data.obj keys hkeys hnodup hdata)
    (Data.obj keys hkeys' hnodup hdata') hc hd h
  obtain rfl := Json.object.inj hm
  have hfst : ∀ l : List (String × Value), l.map Prod.fst = keys →
      (l.map (fun f => (lit f.1, f.2))).map Prod.fst = keys.map lit := by
    intro l hl
    rw [← hl, List.map_map, List.map_map]
    rfl
  have hentries := Json.forall₂_of_sameEntries ((hfst _ hkeys).trans (hfst _ hkeys').symm)
    ((hfst _ hkeys).symm ▸ hnodup) hsame
  rwa [List.forall₂_map_left_iff, List.forall₂_map_right_iff] at hentries

/-! ### Steps of a builder -/

theorem throwIf_eq_ok {p : Prop} [Decidable p] {message : String} {u : Unit} :
    throwIf p message = .ok u ↔ ¬ p := by
  rw [throwIf]
  by_cases h : p
  · rw [if_pos h]
    exact iff_of_false (by intro h; cases h) (not_not_intro h)
  · rw [if_neg h]
    exact iff_of_true rfl h

/-- A reference is the text that was given. -/
theorem requiredReference_eq_ok {v : Unknown} {field : String} {s : Utf16}
    (h : requiredReference v field = .ok s) : v = some (.string s) := by
  rw [requiredReference.eq_def] at h
  split at h
  · next value =>
    split at h
    · cases h
    · rw [Logic.pure_eq_ok] at h
      rw [h]
  · cases h

theorem requiredReference_string {s t : Utf16} {field : String}
    (h : requiredReference (some (.string s)) field = .ok t) : t = s := by
  have heq := requiredReference_eq_ok h
  exact (Json.string.inj (Option.some.inj heq)).symm

theorem requiredReference_nullable {s : Option Utf16} {t : Utf16} {field : String}
    (h : requiredReference (some (nullable s)) field = .ok t) : s = some t := by
  have heq := Option.some.inj (requiredReference_eq_ok h)
  cases s with
  | none => cases heq
  | some s => rw [Json.string.inj heq]

theorem requiredContractEvent_text {event event' : ContractLifecycleEvidenceEvent}
    (h : requiredContractEvent (some (.string event.text)) = .ok event') : event' = event := by
  cases event <;> exact (Except.ok.inj h).symm

theorem text_injective : Function.Injective ContractLifecycleEvidenceEvent.text := by
  intro e e'
  cases e <;> cases e' <;> decide +kernel

theorem eq_of_same_string {s t : Utf16} (h : Json.Same (N := Number) (.string s) (.string t)) :
    s = t := (Json.string.inj h).symm

theorem eq_of_same_bool {b b' : Bool} (h : Json.Same (N := Number) (.bool b) (.bool b')) :
    b = b' := (Json.bool.inj h).symm

theorem eq_of_same_number {x y : Number} (h : Json.Same (.number x) (.number y)) : x = y :=
  (Json.number.inj h).symm

theorem eq_of_same_nullable {s t : Option Utf16} (h : (nullable s).Same (nullable t)) :
    s = t := by
  cases s with
  | none =>
    cases t with
    | none => rfl
    | some t => cases h
  | some s =>
    cases t with
    | none => cases h
    | some t => rw [eq_of_same_string h]

end

end Bufi.Evidence
