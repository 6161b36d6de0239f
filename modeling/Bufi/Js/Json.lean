import Bufi.Js.Number
import Bufi.Text.Decimal
import Bufi.Text.Hex
import Bufi.Text.JsonSort
import Bufi.Text.Utf8

/-!
# JSON in JavaScript

`quoteJson` is `JSON.stringify` of a string: control characters are escaped, and so is a
surrogate without its partner, so that the text is well formed (`wellFormed_quoteUnits`) and
is read back (`parseChars_quoteUnits`).  A safe integer is written in decimal; how another
finite number is written is a parameter.

`jsonParse` is `JSON.parse`.  Numbers are rounded to doubles; a key that is twice in an object
is twice in the entries, and the later one counts.
-/

namespace Bufi.Js

open Bufi.Text Bufi.Digits

/-! ### Strings -/

/-- `\u` and four digits. -/
def unicodeEscape (c : CodeUnit) : Utf16 :=
  [unit '\\', unit 'u', hexChar (c.toNat / 0x1000), hexChar (c.toNat / 0x100 % 0x10),
    hexChar (c.toNat / 0x10 % 0x10), hexChar (c.toNat % 0x10)]

/-- The text of a character that is no surrogate. -/
def escapeChar (c : CodeUnit) : Utf16 :=
  if c = 0x08 then lit "\\b"
  else if c = 0x09 then lit "\\t"
  else if c = 0x0a then lit "\\n"
  else if c = 0x0c then lit "\\f"
  else if c = 0x0d then lit "\\r"
  else if c = unit '"' ∨ c = unit '\\' then [unit '\\', c]
  else if c < 0x20 then unicodeEscape c
  else [c]

/-- What is behind the first quotation mark. -/
def quoteUnits : Utf16 → Utf16
  | [] => [unit '"']
  | c :: rest =>
    if isLead c then
      match rest with
      | [] => unicodeEscape c ++ [unit '"']
      | d :: rest' =>
        if isTrail d then c :: d :: quoteUnits rest' else unicodeEscape c ++ quoteUnits (d :: rest')
    else if isTrail c then unicodeEscape c ++ quoteUnits rest
    else escapeChar c ++ quoteUnits rest

/-- `JSON.stringify(s)` -/
def quoteJson (s : Utf16) : Utf16 := unit '"' :: quoteUnits s

theorem parseChars_unicodeEscape (c : CodeUnit) (rest : Utf16) :
    Json.parseChars (unicodeEscape c ++ rest)
      = (Json.parseChars rest).bind (fun p => some (c :: p.1, p.2)) := by
  have hlt := c.toNat_lt
  have hvalue : value 16 [c.toNat / 0x1000, c.toNat / 0x100 % 0x10, c.toNat / 0x10 % 0x10,
      c.toNat % 0x10] = c.toNat := by
    simp only [value, List.foldl_cons, List.foldl_nil]
    omega
  refine Json.parseChars_hex ?_ rest
  rw [Json.hexUnit]
  simp only [List.mapM_cons, List.mapM_nil, hexOf_hexChar _ (show c.toNat / 0x1000 < 16 by omega),
    hexOf_hexChar _ (show c.toNat / 0x100 % 0x10 < 16 by omega),
    hexOf_hexChar _ (show c.toNat / 0x10 % 0x10 < 16 by omega),
    hexOf_hexChar _ (show c.toNat % 0x10 < 16 by omega), Option.bind_eq_bind, Option.bind_some,
    Option.pure_def, hvalue, UInt16.ofNat_toNat]

theorem parseChars_escapeChar (c : CodeUnit) (rest : Utf16) :
    Json.parseChars (escapeChar c ++ rest)
      = (Json.parseChars rest).bind (fun p => some (c :: p.1, p.2)) := by
  have hescaped : ∀ {e u}, e ≠ unit 'u' → Json.escaped e = some u → c = u →
      Json.parseChars ([unit '\\', e] ++ rest)
        = (Json.parseChars rest).bind (fun p => some (c :: p.1, p.2)) := by
    rintro e u hne hu rfl
    exact Json.parseChars_escaped hne hu rest
  rw [escapeChar]
  split
  · next h => exact hescaped (e := unit 'b') (by decide) (by decide) h
  split
  · next h => exact hescaped (e := unit 't') (by decide) (by decide) h
  split
  · next h => exact hescaped (e := unit 'n') (by decide) (by decide) h
  split
  · next h => exact hescaped (e := unit 'f') (by decide) (by decide) h
  split
  · next h => exact hescaped (e := unit 'r') (by decide) (by decide) h
  split
  · next h =>
    rcases h with rfl | rfl
    · exact Json.parseChars_escaped (by decide) (by decide) rest
    · exact Json.parseChars_escaped (by decide) (by decide) rest
  · next h =>
    obtain ⟨hquote, hback⟩ := not_or.mp h
    split
    · exact parseChars_unicodeEscape c rest
    · next hge => exact Json.parseChars_plain hquote hback (UInt16.not_lt.mp hge) rest

theorem parseChars_surrogate {c : CodeUnit} (h : 0xd800 ≤ c.toNat) (rest : Utf16) :
    Json.parseChars (c :: rest) = (Json.parseChars rest).bind (fun p => some (c :: p.1, p.2)) := by
  have hne : ∀ d : CodeUnit, d.toNat < 0xd800 → c ≠ d := by
    rintro d hd rfl
    omega
  refine Json.parseChars_plain (hne _ (by decide)) (hne _ (by decide)) ?_ rest
  rw [UInt16.le_iff_toNat_le]
  exact (by decide : (0x20 : UInt16).toNat ≤ 0xd800).trans h

/-- **A string is read back.** -/
theorem parseChars_quoteUnits (s rest : Utf16) :
    Json.parseChars (quoteUnits s ++ rest) = some (s, rest) := by
  fun_induction quoteUnits s with
  | case1 => exact Json.parseChars_quote rest
  | case2 c hlead =>
    rw [List.append_assoc, parseChars_unicodeEscape, List.singleton_append, Json.parseChars_quote]
    rfl
  | case3 c hlead d rest' htrail ih =>
    rw [List.cons_append, List.cons_append, parseChars_surrogate (isLead_iff.mp hlead).1,
      parseChars_surrogate (by have := (isTrail_iff.mp htrail).1; omega), ih]
    rfl
  | case4 c hlead d rest' htrail ih =>
    rw [List.append_assoc, parseChars_unicodeEscape, ih]
    rfl
  | case5 c rest hlead htrail ih =>
    rw [List.append_assoc, parseChars_unicodeEscape, ih]
    rfl
  | case6 c rest hlead htrail ih =>
    rw [List.append_assoc, parseChars_escapeChar, ih]
    rfl

/-! ### The text of a string is well formed -/

theorem isPlain_hexChar : ∀ d < 16, isLead (hexChar d) = false ∧ isTrail (hexChar d) = false := by
  decide +kernel

theorem wellFormed_unicodeEscape (c : CodeUnit) : WellFormed (unicodeEscape c) := by
  have hlt := c.toNat_lt
  refine WellFormed.of_forall ?_
  simp only [unicodeEscape, List.forall_mem_cons, List.not_mem_nil, false_implies, implies_true,
    and_true]
  exact ⟨by decide, by decide, isPlain_hexChar _ (by omega), isPlain_hexChar _ (by omega),
    isPlain_hexChar _ (by omega), isPlain_hexChar _ (by omega)⟩

theorem wellFormed_escapeChar {c : CodeUnit} (hlead : isLead c = false)
    (htrail : isTrail c = false) :
    WellFormed (escapeChar c) := by
  rw [escapeChar]
  split
  · exact .of_forall (List.all_iff_forall_prop.mp (by decide))
  split
  · exact .of_forall (List.all_iff_forall_prop.mp (by decide))
  split
  · exact .of_forall (List.all_iff_forall_prop.mp (by decide))
  split
  · exact .of_forall (List.all_iff_forall_prop.mp (by decide))
  split
  · exact .of_forall (List.all_iff_forall_prop.mp (by decide))
  split
  · exact (WellFormed.plain (by decide) (by decide)).append (.plain hlead htrail)
  split
  · exact wellFormed_unicodeEscape c
  · exact .plain hlead htrail

theorem wellFormed_quoteUnits (s : Utf16) : WellFormed (quoteUnits s) := by
  fun_induction quoteUnits s with
  | case1 => exact .plain (by decide) (by decide)
  | case2 c hlead => exact (wellFormed_unicodeEscape c).append (.plain (by decide) (by decide))
  | case3 c hlead d rest' htrail ih => exact (WellFormed.pair hlead htrail).append ih
  | case4 c hlead d rest' htrail ih => exact (wellFormed_unicodeEscape c).append ih
  | case5 c rest hlead htrail ih => exact (wellFormed_unicodeEscape c).append ih
  | case6 c rest hlead htrail ih =>
    exact (wellFormed_escapeChar (by simpa using hlead) (by simpa using htrail)).append ih

/-! ### Numbers -/

/-- The numbers of a value are safe integers. -/
def SafeNumbers (v : Json Number) : Prop := v.all (fun _ => true) Number.isSafeInteger = true

instance (v : Json Number) : Decidable (SafeNumbers v) :=
  inferInstanceAs (Decidable (v.all (fun _ => true) Number.isSafeInteger = true))

/-- Values with safe integers are those of rationals. -/
theorem mapNumber_toRat {v : Json Number} (h : SafeNumbers v) {g : ℚ → Number}
    (hg : ∀ n : ℤ, |n| < 2 ^ 53 → g n = .ofInt n) : (v.mapNumber Number.toRat).mapNumber g = v := by
  refine Json.mapNumber_cancel ?_ h
  intro x hx
  obtain ⟨n, rfl, hn⟩ := Number.isSafeInteger_iff.mp hx
  exact hg n hn

section

variable (numberText : Number → Utf16)

/-- `JSON.stringify(x)` of a finite number, which is also `String(x)`. -/
def finiteText (x : Number) : Utf16 :=
  match x.toInt? with
  | some n => if |n| < 2 ^ 53 then intDecimal n else numberText x
  | none => numberText x

theorem finiteText_ofInt {n : ℤ} (h : |n| < 2 ^ 53) :
    finiteText numberText (.ofInt n) = intDecimal n := by
  rw [finiteText, Number.toInt?_ofInt]
  exact if_pos h

/-- What JavaScript writes, JSON reads. -/
theorem readable_stringify : Json.Readable quoteUnits (finiteText numberText) (fun _ => true)
    Number.isSafeInteger Number.toRat where
  string := parseChars_quoteUnits
  number := by
    intro x hx rest hrest
    obtain ⟨n, rfl, hn⟩ := Number.isSafeInteger_iff.mp hx
    rw [finiteText_ofInt numberText hn]
    exact parseNumber_intDecimal n hrest
  head := by
    intro x hx
    obtain ⟨n, rfl, hn⟩ := Number.isSafeInteger_iff.mp hx
    rw [finiteText_ofInt numberText hn]
    exact intDecimal_cons n

end

theorem wellFormed_intDecimal (n : ℤ) : WellFormed (intDecimal n) := by
  have hdigit : ∀ c, Json.isDigit c = true → isLead c = false ∧ isTrail c = false := by
    intro c hc
    rw [Json.isDigit, Bool.and_eq_true, decide_eq_true_iff, decide_eq_true_iff,
      UInt16.le_iff_toNat_le, UInt16.le_iff_toNat_le] at hc
    have hle : c.toNat ≤ 57 := hc.2
    rw [Bool.eq_false_iff, ne_eq, isLead_iff, Bool.eq_false_iff, ne_eq, isTrail_iff]
    omega
  have hdecimal : WellFormed (decimal n.natAbs) :=
    .of_forall (fun c hc => hdigit c (isDigit_of_mem_decimal hc))
  rw [intDecimal]
  split
  · exact (WellFormed.plain (c := unit '-') (by decide) (by decide)).append hdecimal
  · exact hdecimal

/-- **The text of a value is well formed.** -/
theorem wellFormed_render (numberText : Number → Utf16) {v : Json Number} (h : SafeNumbers v) :
    WellFormed (v.render quoteUnits (finiteText numberText)) := by
  have hascii : ∀ s : Utf16, (s.all (fun c => !isLead c && !isTrail c)) = true → WellFormed s := by
    intro s hs
    refine .of_forall (fun c hc => ?_)
    simpa using List.all_eq_true.mp hs c hc
  have hquote : ∀ s, WellFormed (unit '"' :: quoteUnits s) := fun s =>
    (WellFormed.plain (c := unit '"') (by decide) (by decide)).append (wellFormed_quoteUnits s)
  induction v using Json.induct with
  | hnull => exact hascii (lit "null") (by decide)
  | hbool b =>
    cases b with
    | true => exact hascii (lit "true") (by decide)
    | false => exact hascii (lit "false") (by decide)
  | hnumber x =>
    obtain ⟨n, rfl, hn⟩ := Number.isSafeInteger_iff.mp h
    rw [Json.render, finiteText_ofInt numberText hn]
    exact wellFormed_intDecimal n
  | hstring s => exact hquote s
  | harray l ih =>
    have hall := Json.allItems_iff.mp h
    rw [Json.render_array]
    refine ((hascii (lit "[") (by decide)).append (WellFormed.intercalate
      (hascii [unit ','] (by decide)) ?_)).append (hascii (lit "]") (by decide))
    exact List.forall_mem_map.mpr (fun v hv => ih v hv (hall v hv))
  | hobject l ih =>
    have hall := Json.allEntries_iff.mp h
    rw [Json.render_object]
    refine ((hascii (lit "\x7b") (by decide)).append (WellFormed.intercalate
      (hascii [unit ','] (by decide)) ?_)).append (hascii (lit "\x7d") (by decide))
    refine List.forall_mem_map.mpr (fun e he => ?_)
    rw [Json.entryText]
    exact (hquote e.1).append ((WellFormed.plain (c := unit ':') (by decide) (by decide)).append
      (ih e he (hall e he).2))

/-! ### Reading -/

/-- `JSON.parse(text)` -/
def jsonParse (text : Utf16) : Option (Json Number) :=
  (Json.parse text).map (Json.mapNumber Number.round)

theorem all_true {N : Type} (v : Json N) : v.all (fun _ => true) (fun _ => true) = true := by
  induction v using Json.induct with
  | hnull => rfl
  | hbool b => rfl
  | hnumber x => rfl
  | hstring s => rfl
  | harray l ih => exact Json.allItems_iff.mpr ih
  | hobject l ih => exact Json.allEntries_iff.mpr (fun e he => ⟨rfl, ih e he⟩)

/-- **What was written without whitespace is read back.** -/
theorem jsonParse_render (numberText : Number → Utf16) {v : Json Number} (h : SafeNumbers v) :
    jsonParse (v.render quoteUnits (finiteText numberText)) = some v := by
  rw [jsonParse, Json.parse_render (readable_stringify numberText) h, if_pos (all_true v),
    Option.map_some, mapNumber_toRat h]
  intro n hn
  exact Number.round_intCast hn.le

/-- Values with one text are equal. -/
theorem eq_of_render_eq (numberText : Number → Utf16) {v w : Json Number} (hv : SafeNumbers v)
    (hw : SafeNumbers w) (h : v.render quoteUnits (finiteText numberText)
      = w.render quoteUnits (finiteText numberText)) : v = w := by
  have hread := jsonParse_render numberText hv
  rw [h, jsonParse_render numberText hw] at hread
  exact (Option.some.inj hread).symm

end Bufi.Js
