import Bufi.Js.Json

/-!
# Canonical texts

Evidence is committed to by the hash of a text.  `stableStringify` writes a value with the
keys of every object sorted, and `canonicalDecimal` an amount without zeros that count for
nothing.  Both are canonical: values have one text exactly if they are the same up to the
order of keys, since the text is that of the sorted value (`stableStringify_eq`), and decimal
texts have one canonical text exactly if they stand for the same number
(`canonicalDecimal_eq_iff`).

A value that a caller hands in is JSON or `undefined`; a key that an object does not have is
`undefined` too.  `Except String` is the result of a function that may throw.
-/

namespace Bufi.Evidence

open Bufi.Text Bufi.Js Bufi.Digits

abbrev Value := Json Number

/-- A value or `undefined`. -/
abbrev Unknown := Option Value

def MAX_REFERENCE_LENGTH : ℕ := 256

/-! ### Checks -/

/-- A control character; the units of a surrogate pair are none, and neither is its code
point. -/
def hasControlCharacter (value : Utf16) : Bool := value.any (fun code => code < 32 || code == 127)

def requiredReference (value : Unknown) (field : String) : Except String Utf16 :=
  match value with
  | some (.string value) =>
    if value.length = 0 ∨ MAX_REFERENCE_LENGTH < value.length ∨ hasControlCharacter value then
      throw s!"CRE evidence {field} is invalid"
    else pure value
  | _ => throw s!"CRE evidence {field} is invalid"

def requiredInteger (value : Unknown) (field : String) : Except String Number :=
  match value with
  | some (.number x) =>
    if x.isSafeInteger then pure x else throw s!"CRE evidence {field} must be an integer"
  | _ => throw s!"CRE evidence {field} must be an integer"

section

variable (numberText : Number → Utf16)

/-! ### Texts -/

mutual

/-- `String(value)` of JSON. -/
def valueText : Value → Utf16
  | .null => lit "null"
  | .bool b => if b then lit "true" else lit "false"
  | .number x => finiteText numberText x
  | .string s => s
  | .array l => [unit ','].intercalate (elementTexts l)
  | .object _ => lit "[object Object]"

/-- The elements of an array; null leaves no text. -/
def elementTexts : List Value → List Utf16
  | [] => []
  | v :: l => (match v with | .null => [] | v => valueText v) :: elementTexts l

end

/-- `String(value)` -/
def asText : Unknown → Utf16
  | none => lit "undefined"
  | some value => valueText numberText value

/-- `/^\d+(?:\.\d+)?$/` -/
def isDecimalText (raw : Utf16) : Bool :=
  let digits (s : Utf16) : Bool := s ≠ [] && s.all Json.isDigit
  match raw.dropWhile Json.isDigit with
  | [] => digits raw
  | c :: fraction => digits (raw.takeWhile Json.isDigit) && c == unit '.' && digits fraction

/-- `integer.replace(/^0+(?=\d)/, '') || '0'` -/
def normalizeInteger (integer : Utf16) : Utf16 :=
  match integer.dropWhile (· == digit 0) with
  | [] => [digit 0]
  | rest => rest

/-- `fraction.replace(/0+$/, '')` -/
def normalizeFraction (fraction : Utf16) : Utf16 := fraction.rdropWhile (· == digit 0)

def canonicalDecimal (value : Unknown) : Except String Utf16 :=
  let raw := asText numberText value
  if isDecimalText raw then
    let integer := raw.takeWhile (· != unit '.')
    let fraction := (raw.dropWhile (· != unit '.')).drop 1
    let normalizedInteger := normalizeInteger integer
    let normalizedFraction := normalizeFraction fraction
    pure (if normalizedFraction ≠ [] then normalizedInteger ++ lit "." ++ normalizedFraction
      else normalizedInteger)
  else throw "CRE evidence decimal is invalid"

mutual

/-- Deterministic JSON.  The entries of an object have their keys once, so that the text of an
entry can be made before the entries are sorted by key. -/
def stableStringify : Value → Except String Utf16
  | .null => pure (lit "null")
  | .bool b => pure (if b then lit "true" else lit "false")
  | .string s => pure (quoteJson s)
  | .number x =>
    if x.isFinite then pure (finiteText numberText x)
    else throw "CRE evidence contains a non-finite number"
  | .array items => do
    let texts ← stableItems items
    pure (lit "[" ++ [unit ','].intercalate texts ++ lit "]")
  | .object record => do
    let texts ← stableEntries record
    let entries := (sortEntries texts).map (fun e => quoteJson e.1 ++ lit ":" ++ e.2)
    pure (lit "\x7b" ++ [unit ','].intercalate entries ++ lit "\x7d")

def stableItems : List Value → Except String (List Utf16)
  | [] => pure []
  | v :: l => do pure ((← stableStringify v) :: (← stableItems l))

def stableEntries : List (Utf16 × Value) → Except String (List (Utf16 × Utf16))
  | [] => pure []
  | (k, v) :: l => do pure ((k, ← stableStringify v) :: (← stableEntries l))

end

end

/-! ### Decimal texts -/

/-- The number that a decimal text stands for. -/
def decimalValue (raw : Utf16) : ℚ :=
  value 10 ((raw.takeWhile Json.isDigit).map Json.digitOf)
    + fraction (((raw.dropWhile Json.isDigit).drop 1).map Json.digitOf)

theorem isDigit_iff {c : CodeUnit} : Json.isDigit c = true ↔ ∃ d < 10, c = digit d := by
  constructor
  · intro h
    rw [Json.isDigit, Bool.and_eq_true, decide_eq_true_iff, decide_eq_true_iff,
      UInt16.le_iff_toNat_le, UInt16.le_iff_toNat_le] at h
    obtain ⟨hlo, hhi⟩ : 48 ≤ c.toNat ∧ c.toNat ≤ 57 := h
    refine ⟨c.toNat - 48, by omega, ?_⟩
    rw [digit, show 0x30 + (c.toNat - 48) = c.toNat by omega, UInt16.ofNat_toNat]
  · rintro ⟨d, hd, rfl⟩
    exact (digit_spec d hd).1

theorem exists_digits {s : Utf16} (h : s.all Json.isDigit = true) :
    ∃ ds : List ℕ, (∀ d ∈ ds, d < 10) ∧ s = ds.map digit := by
  induction s with
  | nil => exact ⟨[], by simp, rfl⟩
  | cons c s ih =>
    rw [List.all_cons, Bool.and_eq_true] at h
    obtain ⟨d, hd, rfl⟩ := isDigit_iff.mp h.1
    obtain ⟨ds, hds, rfl⟩ := ih h.2
    exact ⟨d :: ds, List.forall_mem_cons.mpr ⟨hd, hds⟩, rfl⟩

/-- Digits in front of the point and behind it. -/
structure Decimal (raw : Utf16) (ds es : List ℕ) : Prop where
  eq : raw = point ds es
  ne_nil : ds ≠ []
  lt : ∀ d ∈ ds, d < 10
  lt' : ∀ e ∈ es, e < 10

theorem isDigit_of_mem_map {ds : List ℕ} (h : ∀ d ∈ ds, d < 10) :
    ∀ c ∈ ds.map digit, Json.isDigit c = true := by
  intro c hc
  obtain ⟨d, hd, rfl⟩ := List.mem_map.mp hc
  exact (digit_spec d (h d hd)).1

theorem map_digitOf_map {ds : List ℕ} (h : ∀ d ∈ ds, d < 10) :
    (ds.map digit).map Json.digitOf = ds := by
  rw [List.map_map]
  exact (List.map_congr_left (fun d hd => (digit_spec d (h d hd)).2)).trans (List.map_id _)

theorem takeWhile_point {p : CodeUnit → Bool} (hdot : p (unit '.') = false) {ds es : List ℕ}
    (h : ∀ c ∈ ds.map digit, p c = true) : (point ds es).takeWhile p = ds.map digit := by
  rw [point, List.takeWhile_append_of_pos h]
  split
  · simp
  · rw [List.takeWhile_cons_of_neg (by simp [hdot]), List.append_nil]

theorem dropWhile_point {p : CodeUnit → Bool} (hdot : p (unit '.') = false) {ds es : List ℕ}
    (h : ∀ c ∈ ds.map digit, p c = true) :
    (point ds es).dropWhile p = if es = [] then [] else unit '.' :: es.map digit := by
  rw [point, List.dropWhile_append_of_pos h]
  split
  · rfl
  · exact List.dropWhile_cons_of_neg (by simp [hdot])

theorem isDecimalText_of_decimal {raw : Utf16} {ds es : List ℕ} (h : Decimal raw ds es) :
    isDecimalText raw = true := by
  have hds := isDigit_of_mem_map h.lt
  have hall : (ds.map digit).all Json.isDigit = true := List.all_eq_true.mpr hds
  have hne : ds.map digit ≠ [] := by
    rw [ne_eq, List.map_eq_nil_iff]
    exact h.ne_nil
  rw [isDecimalText, h.eq, takeWhile_point (by decide) hds, dropWhile_point (by decide) hds]
  by_cases hes : es = []
  · rw [if_pos hes, point, if_pos hes, List.append_nil]
    simp [hall, hne]
  · rw [if_neg hes]
    have hall' : (es.map digit).all Json.isDigit = true :=
      List.all_eq_true.mpr (isDigit_of_mem_map h.lt')
    simp [hall, hne, hall', hes]

theorem exists_decimal {raw : Utf16} (h : isDecimalText raw = true) :
    ∃ ds es, Decimal raw ds es := by
  have hsplit : raw.takeWhile Json.isDigit ++ raw.dropWhile Json.isDigit = raw :=
    List.takeWhile_append_dropWhile
  obtain ⟨ds, hds, hint⟩ := exists_digits (s := raw.takeWhile Json.isDigit)
    (List.all_eq_true.mpr (fun c hc => List.mem_takeWhile_imp hc))
  rw [isDecimalText] at h
  cases hrest : raw.dropWhile Json.isDigit with
  | nil =>
    rw [hrest, List.append_nil] at hsplit
    simp only [hrest, Bool.and_eq_true, decide_eq_true_eq] at h
    refine ⟨ds, [], ⟨?_, ?_, hds, by simp⟩⟩
    · rw [point, if_pos rfl, List.append_nil, ← hint, hsplit]
    · rintro rfl
      exact h.1 (hsplit.symm.trans hint)
  | cons c rest =>
    simp only [hrest, Bool.and_eq_true, decide_eq_true_eq, beq_iff_eq] at h
    obtain ⟨⟨⟨hne, -⟩, rfl⟩, hrestNe, hrestAll⟩ := h
    obtain ⟨es, hes, rfl⟩ := exists_digits hrestAll
    have hesNe : es ≠ [] := by
      rintro rfl
      exact hrestNe rfl
    refine ⟨ds, es, ⟨?_, ?_, hds, hes⟩⟩
    · rw [point, if_neg hesNe, ← hint, ← hrest, hsplit]
    · rintro rfl
      exact hne hint

/-- The number of a decimal text, by its digits. -/
theorem decimalValue_eq {raw : Utf16} {ds es : List ℕ} (h : Decimal raw ds es) :
    decimalValue raw = value 10 ds + fraction es := by
  have hds := isDigit_of_mem_map h.lt
  rw [decimalValue, h.eq, takeWhile_point (by decide) hds, dropWhile_point (by decide) hds,
    map_digitOf_map h.lt]
  by_cases hes : es = []
  · rw [if_pos hes, hes]
    rfl
  · rw [if_neg hes, List.drop_one, List.tail_cons, map_digitOf_map h.lt']

theorem digit_beq : ∀ d < 10, (digit d == digit 0) = (d == 0) := by decide +kernel

theorem dropWhile_map_digit {ds : List ℕ} (h : ∀ d ∈ ds, d < 10) :
    (ds.map digit).dropWhile (· == digit 0) = (ds.dropWhile (· == 0)).map digit := by
  induction ds with
  | nil => rfl
  | cons d ds ih =>
    obtain ⟨hd, hds⟩ := List.forall_mem_cons.mp h
    rw [List.map_cons, List.dropWhile_cons, List.dropWhile_cons, digit_beq d hd, ih hds]
    split
    · rfl
    · rfl

theorem normalizeInteger_map {ds : List ℕ} (h : ∀ d ∈ ds, d < 10) :
    normalizeInteger (ds.map digit) = (decimalDigits (value 10 ds)).map digit := by
  rw [normalizeInteger, dropWhile_map_digit h, dropWhile_zero (by decide) h, decimalDigits]
  by_cases hzero : value 10 ds = 0
  · rw [if_pos hzero, hzero, numeral_zero]
    rfl
  · rw [if_neg hzero]
    cases hdigits : numeral 10 (value 10 ds) with
    | nil => exact absurd (numeral_injective (hdigits.trans numeral_zero.symm)) hzero
    | cons d l => rfl

theorem normalizeFraction_map {es : List ℕ} (h : ∀ e ∈ es, e < 10) :
    normalizeFraction (es.map digit) = (es.rdropWhile (· == 0)).map digit := by
  have hreverse : ∀ e ∈ es.reverse, e < 10 := fun e he => h e (List.mem_reverse.mp he)
  rw [normalizeFraction, List.rdropWhile, List.rdropWhile, ← List.map_reverse,
    dropWhile_map_digit hreverse, List.map_reverse]

/-- The digits of a text after the zeros that count for nothing have gone. -/
theorem decimal_normalized {raw : Utf16} {ds es : List ℕ} (h : Decimal raw ds es) :
    Decimal (point (decimalDigits (value 10 ds)) (es.rdropWhile (· == 0)))
      (decimalDigits (value 10 ds)) (es.rdropWhile (· == 0)) where
  eq := rfl
  ne_nil := decimalDigits_ne_nil _
  lt := decimalDigits_lt _
  lt' := fun e he => h.lt' e ((List.rdropWhile_prefix _ es).subset he)

section

variable (numberText : Number → Utf16)

/-- **The canonical text of a decimal text.** -/
theorem canonicalDecimal_eq {v : Unknown} {ds es : List ℕ}
    (h : Decimal (asText numberText v) ds es) :
    canonicalDecimal numberText v
      = .ok (point (decimalDigits (value 10 ds)) (es.rdropWhile (· == 0))) := by
  have hds : ∀ c ∈ ds.map digit, (c != unit '.') = true := by
    intro c hc
    have hdigit := isDigit_of_mem_map h.lt c hc
    rw [bne_iff_ne]
    rintro rfl
    cases hdigit
  have hint : (asText numberText v).takeWhile (· != unit '.') = ds.map digit := by
    rw [h.eq, takeWhile_point (by decide) hds]
  have hfrac : ((asText numberText v).dropWhile (· != unit '.')).drop 1 = es.map digit := by
    rw [h.eq, dropWhile_point (by decide) hds]
    by_cases hes : es = []
    · rw [if_pos hes, hes]
      rfl
    · rw [if_neg hes]
      rfl
  rw [canonicalDecimal]
  simp only [isDecimalText_of_decimal h, if_true, hint, hfrac, normalizeInteger_map h.lt,
    normalizeFraction_map h.lt', point]
  by_cases hes : es.rdropWhile (· == 0) = []
  · simp [hes, pure, Except.pure]
  · simp [hes, pure, Except.pure, lit]

theorem exists_of_canonicalDecimal {v : Unknown} {a : Utf16}
    (h : canonicalDecimal numberText v = .ok a) :
    ∃ ds es, Decimal (asText numberText v) ds es
      ∧ a = point (decimalDigits (value 10 ds)) (es.rdropWhile (· == 0)) := by
  have htext : isDecimalText (asText numberText v) = true := by
    by_contra hnot
    rw [canonicalDecimal] at h
    simp only [hnot, if_false, Bool.false_eq_true] at h
    cases h
  obtain ⟨ds, es, hdecimal⟩ := exists_decimal htext
  rw [canonicalDecimal_eq numberText hdecimal] at h
  exact ⟨ds, es, hdecimal, (Except.ok.inj h).symm⟩

/-- The canonical text stands for the same number. -/
theorem decimalValue_canonical {v : Unknown} {a : Utf16}
    (h : canonicalDecimal numberText v = .ok a) :
    decimalValue a = decimalValue (asText numberText v) := by
  obtain ⟨ds, es, hdecimal, rfl⟩ := exists_of_canonicalDecimal numberText h
  rw [decimalValue_eq hdecimal, decimalValue_eq (decimal_normalized hdecimal),
    value_decimalDigits, fraction_rdropWhile]

/-- **One canonical text for one number.** -/
theorem canonicalDecimal_eq_iff {v w : Unknown} {a b : Utf16}
    (ha : canonicalDecimal numberText v = .ok a) (hb : canonicalDecimal numberText w = .ok b) :
    a = b ↔ decimalValue (asText numberText v) = decimalValue (asText numberText w) := by
  constructor
  · rintro rfl
    rw [← decimalValue_canonical numberText ha, decimalValue_canonical numberText hb]
  · intro h
    obtain ⟨ds, es, hv, rfl⟩ := exists_of_canonicalDecimal numberText ha
    obtain ⟨ds', es', hw, rfl⟩ := exists_of_canonicalDecimal numberText hb
    rw [decimalValue_eq hv, decimalValue_eq hw] at h
    obtain ⟨hint, hfrac⟩ := eq_of_add_eq ⟨fraction_nonneg es, fraction_lt_one hv.lt'⟩
      ⟨fraction_nonneg es', fraction_lt_one hw.lt'⟩ h
    rw [← fraction_rdropWhile es, ← fraction_rdropWhile es'] at hfrac
    rw [hint, eq_of_fraction_eq (decimal_normalized hv).lt' (decimal_normalized hw).lt'
      (getLast?_rdropWhile es) (getLast?_rdropWhile es') hfrac]

/-- A canonical text is its own. -/
theorem canonicalDecimal_canonical {v : Unknown} {a : Utf16}
    (h : canonicalDecimal numberText v = .ok a) :
    canonicalDecimal numberText (some (.string a)) = .ok a := by
  obtain ⟨ds, es, hdecimal, rfl⟩ := exists_of_canonicalDecimal numberText h
  have hnormal : Decimal (asText numberText (some (.string
      (point (decimalDigits (value 10 ds)) (es.rdropWhile (· == 0)))))) _ _ :=
    decimal_normalized hdecimal
  rw [canonicalDecimal_eq numberText hnormal, value_decimalDigits, List.rdropWhile_idempotent]

/-! ### Stable texts -/

theorem stableStringify_eq {v : Value} (h : v.all (fun _ => true) Number.isFinite = true) :
    stableStringify numberText v
      = .ok (v.sortKeys.render quoteUnits (finiteText numberText)) := by
  induction v using Json.induct with
  | hnull => rfl
  | hbool b => cases b <;> rfl
  | hnumber x => exact if_pos h
  | hstring s => rfl
  | harray l ih =>
    rw [Json.all, Json.allItems_iff] at h
    have hitems : stableItems numberText l
        = .ok (l.map (fun v => v.sortKeys.render quoteUnits (finiteText numberText))) := by
      induction l with
      | nil => rfl
      | cons v l ihl =>
        obtain ⟨hv, hl⟩ := List.forall_mem_cons.mp h
        obtain ⟨ihv, ihrest⟩ := List.forall_mem_cons.mp ih
        rw [stableItems, ihv hv, ihl ihrest hl]
        rfl
    rw [stableStringify, hitems, Json.sortKeys, Json.render_array, Json.sortItems_eq, List.map_map]
    rfl
  | hobject l ih =>
    rw [Json.all, Json.allEntries_iff] at h
    have hentries : stableEntries numberText l
        = .ok (l.map (fun e => (e.1, e.2.sortKeys.render quoteUnits (finiteText numberText)))) := by
      induction l with
      | nil => rfl
      | cons e l ihl =>
        obtain ⟨he, hl⟩ := List.forall_mem_cons.mp h
        obtain ⟨ihe, ihrest⟩ := List.forall_mem_cons.mp ih
        rw [stableEntries, ihe he.2, ihl ihrest hl]
        rfl
    have hsort : sortEntries (l.map (fun e =>
          (e.1, e.2.sortKeys.render quoteUnits (finiteText numberText))))
        = (sortEntries (Json.sortMembers l)).map (fun e =>
          (e.1, e.2.render quoteUnits (finiteText numberText))) := by
      rw [map_sortEntries (fun e : Utf16 × Value => e.2.render quoteUnits (finiteText numberText)),
        Json.sortMembers_eq, List.map_map]
      rfl
    have htext : ∀ e : Utf16 × Value, Json.entryText quoteUnits (finiteText numberText) e
        = quoteJson e.1 ++ lit ":" ++ e.2.render quoteUnits (finiteText numberText) := by
      intro e
      rw [Json.entryText, quoteJson]
      simp [lit]
    rw [stableStringify, hentries, Json.sortKeys, Json.render_object, funext htext]
    simp only [bind, Except.bind, hsort, List.map_map]
    rfl

end

end Bufi.Evidence
