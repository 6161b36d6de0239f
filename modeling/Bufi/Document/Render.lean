import Bufi.Document.Json
import Bufi.Js.Json

/-!
# Attributes as JSON

`describeJsonValue` stores an array or an object as the text that `toJsonText` gives.  The
text is the value without whitespace (`toJsonText_eq`).  Its strings are escaped by
`quoteJsonString`, which knows the quotation mark, the backslash and the line feed, and
writes every other character as it is; JSON allows no other control character to stand so
(`describeJsonValue_json_iff`).
-/

namespace Bufi.Document

open Bufi.Text Bufi.Js

/-! ### Strings -/

/-- The text of a character in a string. -/
def charText (c : CodeUnit) : Utf16 :=
  if c = unit '"' ∨ c = unit '\\' then [unit '\\', c] else if c = 0x0a then lit "\\n" else [c]

/-- What is behind the first quotation mark. -/
def quoted (s : Utf16) : Utf16 := s.flatMap charText ++ lit "\""

theorem quoteJsonString_eq (s : Utf16) : quoteJsonString s = unit '"' :: quoted s := by
  have hloop : ∀ out : Utf16, s.foldl (fun out c =>
      if c = unit '"' ∨ c = unit '\\' then out ++ [unit '\\', c]
      else if c = 0x0a then out ++ lit "\\n"
      else out ++ [c]) out = out ++ s.flatMap charText := by
    induction s with
    | nil => simp
    | cons c s ih =>
      intro out
      rw [List.foldl_cons, ih, List.flatMap_cons, ← List.append_assoc, charText]
      split
      · rfl
      · split <;> rfl
  rw [quoteJsonString, hloop, quoted, List.append_assoc]
  rfl

/-- No control character but the line feed. -/
def isPlain (s : Utf16) : Bool := s.all (fun c => decide (0x20 ≤ c ∨ c = 0x0a))

theorem parseChars_charText {c : CodeUnit} (h : 0x20 ≤ c ∨ c = 0x0a) (rest : Utf16) :
    Json.parseChars (charText c ++ rest)
      = (Json.parseChars rest).bind (fun p => some (c :: p.1, p.2)) := by
  rw [charText]
  split
  · next hc =>
    rcases hc with rfl | rfl
    · exact Json.parseChars_escaped (by decide) (by decide) rest
    · exact Json.parseChars_escaped (by decide) (by decide) rest
  · next hc =>
    obtain ⟨hquote, hback⟩ := not_or.mp hc
    split
    · next hnl =>
      rw [hnl]
      exact Json.parseChars_escaped (by decide) (by decide) rest
    · next hnl => exact Json.parseChars_plain hquote hback (h.resolve_right hnl) rest

/-- **A string is read back** if it has no control character but the line feed, and
refused if it has. -/
theorem parseChars_quoted (s rest : Utf16) :
    Json.parseChars (quoted s ++ rest) = if isPlain s then some (s, rest) else none := by
  induction s with
  | nil => exact Json.parseChars_quote rest
  | cons c s ih =>
    have happend : quoted (c :: s) ++ rest = charText c ++ (quoted s ++ rest) := by
      simp only [quoted, List.flatMap_cons, List.append_assoc]
    rw [happend]
    by_cases hc : 0x20 ≤ c ∨ c = 0x0a
    · rw [parseChars_charText hc, ih]
      by_cases hs : isPlain s = true
      · rw [if_pos hs, if_pos (by simpa [isPlain, hc] using hs)]
        rfl
      · rw [if_neg hs, if_neg (by simpa [isPlain, hc] using hs)]
        rfl
    · obtain ⟨hlt, hnl⟩ := not_or.mp hc
      have hlt := UInt16.not_le.mp hlt
      have hquote : c ≠ unit '"' := by
        rintro rfl
        exact absurd hlt (by decide)
      have hback : c ≠ unit '\\' := by
        rintro rfl
        exact absurd hlt (by decide)
      rw [charText, if_neg (not_or.mpr ⟨hquote, hback⟩), if_neg hnl, List.singleton_append,
        Json.parseChars_control hlt, if_neg (by simp [isPlain, hc])]

/-! ### Numbers -/

section

variable (f64Text : Number → Utf16)

/-- The text of a number. -/
def floatText (x : Number) : Utf16 :=
  match x.toInt? with
  | some n => if -2 ^ 63 ≤ n ∧ n < 2 ^ 63 then intDecimal n else f64Text x
  | none => f64Text x

/-- **A number is written without a trap.** -/
theorem numberToText_number (x : Number) :
    numberToText f64Text (.number x) = .ok (floatText f64Text x) := by
  rw [numberToText, floatText]
  cases hx : x.toInt? with
  | some n =>
    obtain rfl := Number.eq_ofInt_of_toInt? hx
    have hfloor : (Number.ofInt n).eq (Number.ofInt n).floor = true := by
      rw [Number.ofInt, Number.eq_floor_finite, Int.floor_intCast]
    have hrange : (Number.le (.ofInt (-9223372036854775808)) (.ofInt n) = true
        ∧ (Number.ofInt n).lt (.ofInt 9223372036854775808) = true
        ∧ (Number.ofInt n).eq (Number.ofInt n).floor = true) ↔ -2 ^ 63 ≤ n ∧ n < 2 ^ 63 := by
      rw [Number.le_ofInt, Number.lt_ofInt, hfloor]
      norm_num
    simp only [JSONValue.toF64, bind, Except.bind, hrange]
    by_cases hn : -2 ^ 63 ≤ n ∧ n < 2 ^ 63
    · rw [if_pos hn, if_pos hn, asI64, truncate_ofInt hn]
      rfl
    · rw [if_neg hn, if_neg hn]
      rfl
  | none =>
    have hfloor : ¬ ((Number.le (.ofInt (-9223372036854775808)) x = true)
        ∧ x.lt (.ofInt 9223372036854775808) = true ∧ x.eq x.floor = true) := by
      rintro ⟨hle, hlt, heq⟩
      cases x with
      | finite q =>
        rw [Number.eq_floor_finite] at heq
        rw [Number.toInt?, heq, if_pos (Rat.den_intCast _)] at hx
        cases hx
      | infinity => cases hlt
      | negInfinity => cases hle
      | nan => cases heq
    simp only [JSONValue.toF64, bind, Except.bind, hfloor, if_false]
    rfl

/-! ### Values -/

/-- A loop that puts a comma in front of every text but the first. -/
theorem foldlM_comma {α : Type} {step : Utf16 → α × ℕ → Except Trap Utf16} {text : α → Utf16}
    {l : List α} (h : ∀ x ∈ l, ∀ out i,
      step out (x, i) = .ok ((if 0 < i then out ++ lit "," else out) ++ text x))
    (k : ℕ) (out : Utf16) :
    (l.zipIdx (k + 1)).foldlM step out
      = .ok (out ++ l.flatMap (fun x => unit ',' :: text x)) := by
  induction l generalizing k out with
  | nil => simp [pure, Except.pure]
  | cons x l ih =>
    obtain ⟨hx, hl⟩ := List.forall_mem_cons.mp h
    have hassoc : out ++ (x :: l).flatMap (fun x => unit ',' :: text x)
        = out ++ lit "," ++ text x ++ l.flatMap (fun x => unit ',' :: text x) := by
      simp [lit]
    rw [List.zipIdx_cons, List.foldlM_cons, hx, if_pos k.succ_pos, hassoc]
    exact ih hl (k + 1) (out ++ lit "," ++ text x)

theorem foldlM_first {α : Type} (step : Utf16 → α × ℕ → Except Trap Utf16) (text : α → Utf16)
    {x : α} {l : List α} (h : ∀ y ∈ x :: l, ∀ out i,
      step out (y, i) = .ok ((if 0 < i then out ++ lit "," else out) ++ text y))
    (out : Utf16) :
    (x :: l).zipIdx.foldlM step out
      = .ok (out ++ (text x ++ l.flatMap (fun y => unit ',' :: text y))) := by
  obtain ⟨hx, hl⟩ := List.forall_mem_cons.mp h
  rw [List.zipIdx_cons, List.foldlM_cons, hx, if_neg (Nat.lt_irrefl 0), ← List.append_assoc]
  exact foldlM_comma hl 0 (out ++ text x)

theorem depth_le_of_mem_items {l : List JSONValue} {v : JSONValue} (h : v ∈ l) :
    v.depth ≤ Json.depthItems l := by
  induction l with
  | nil => cases h
  | cons w l ih =>
    rw [Json.depthItems]
    rcases List.mem_cons.mp h with rfl | h
    · exact le_max_left _ _
    · exact (ih h).trans (le_max_right _ _)

theorem depth_le_of_mem_entries {l : TypedMap} {entry : Utf16 × JSONValue} (h : entry ∈ l) :
    entry.2.depth ≤ Json.depthEntries l := by
  induction l with
  | nil => cases h
  | cons other l ih =>
    rw [Json.depthEntries]
    rcases List.mem_cons.mp h with rfl | h
    · exact le_max_left _ _
    · exact (ih h).trans (le_max_right _ _)

/-- A round of the loop over an array. -/
def itemStep (depth : ℕ) (out : Utf16) (p : JSONValue × ℕ) : Except Trap Utf16 := do
  let text ← toJsonText f64Text depth p.1
  pure ((if 0 < p.2 then out ++ lit "," else out) ++ text)

/-- A round of the loop over an object. -/
def entryStep (depth : ℕ) (out : Utf16) (p : (Utf16 × JSONValue) × ℕ) : Except Trap Utf16 := do
  let text ← toJsonText f64Text depth p.1.2
  pure ((if 0 < p.2 then out ++ lit "," else out) ++ (quoteJsonString p.1.1 ++ lit ":" ++ text))

theorem toJsonText_array (depth : ℕ) (items : List JSONValue) :
    toJsonText f64Text (depth + 1) (.array items)
      = items.zipIdx.foldlM (itemStep f64Text depth) (lit "[")
          >>= fun out => pure (out ++ lit "]") := rfl

theorem toJsonText_object (depth : ℕ) (entries : TypedMap) :
    toJsonText f64Text (depth + 1) (.object entries)
      = entries.zipIdx.foldlM (entryStep f64Text depth) (lit "\x7b")
          >>= fun out => pure (out ++ lit "\x7d") := rfl

/-- **A value is written without a trap, and its text is the value without whitespace.** -/
theorem toJsonText_eq (v : JSONValue) (depth : ℕ) (hdepth : v.depth ≤ depth) :
    toJsonText f64Text depth v = .ok (v.render quoted (floatText f64Text)) := by
  induction v using Json.induct generalizing depth with
  | hnull =>
    cases depth with
    | zero => cases hdepth
    | succ depth => rfl
  | hbool b =>
    cases depth with
    | zero => cases hdepth
    | succ depth => cases b <;> rfl
  | hnumber x =>
    cases depth with
    | zero => cases hdepth
    | succ depth => exact numberToText_number f64Text x
  | hstring s =>
    cases depth with
    | zero => cases hdepth
    | succ depth => exact congrArg Except.ok (quoteJsonString_eq s)
  | harray l ih =>
    rw [Json.depth] at hdepth
    cases depth with
    | zero => omega
    | succ depth =>
      have hitem : ∀ v ∈ l, toJsonText f64Text depth v
          = .ok (v.render quoted (floatText f64Text)) := by
        intro v hv
        have hle := depth_le_of_mem_items hv
        exact ih v hv depth (by omega)
      rw [toJsonText_array]
      cases l with
      | nil => rfl
      | cons v l =>
        have hloop := foldlM_first (itemStep f64Text depth)
          (Json.render quoted (floatText f64Text)) (x := v) (l := l)
          (fun v hv out i => by rw [itemStep, hitem v hv]; rfl) (lit "[")
        rw [hloop, Json.render, Json.renderItems_eq_flatMap]
        simp [bind, Except.bind, pure, Except.pure, lit]
  | hobject l ih =>
    rw [Json.depth] at hdepth
    cases depth with
    | zero => omega
    | succ depth =>
      have hentry : ∀ entry ∈ l, toJsonText f64Text depth entry.2
          = .ok (entry.2.render quoted (floatText f64Text)) := by
        intro entry h
        have hle := depth_le_of_mem_entries h
        exact ih entry h depth (by omega)
      rw [toJsonText_object]
      cases l with
      | nil => rfl
      | cons entry l =>
        have hloop := foldlM_first (entryStep f64Text depth)
          (Json.entryText quoted (floatText f64Text)) (x := entry) (l := l)
          (fun entry h out i => by
            rw [entryStep, hentry entry h, quoteJsonString_eq, Json.entryText]
            simp [bind, Except.bind, pure, Except.pure, lit]) (lit "\x7b")
        rw [hloop, Json.render, Json.renderEntries_eq_flatMap, Json.entryText]
        simp [bind, Except.bind, pure, Except.pure, lit]

/-! ### Reading the text -/

theorem floatText_ofInt {n : ℤ} (h : |n| < 2 ^ 53) :
    floatText f64Text (.ofInt n) = intDecimal n := by
  obtain ⟨hlo, hhi⟩ := abs_lt.mp h
  rw [floatText, Number.toInt?_ofInt]
  exact if_pos ⟨by omega, by omega⟩

theorem readable : Json.Readable quoted (floatText f64Text) isPlain Number.isSafeInteger
    Number.toRat where
  string := parseChars_quoted
  number := by
    intro x hx rest hrest
    obtain ⟨n, rfl, hn⟩ := Number.isSafeInteger_iff.mp hx
    rw [floatText_ofInt f64Text hn]
    exact parseNumber_intDecimal n hrest
  head := by
    intro x hx
    obtain ⟨n, rfl, hn⟩ := Number.isSafeInteger_iff.mp hx
    rw [floatText_ofInt f64Text hn]
    exact intDecimal_cons n

/-- The value that a JSON text stands for. -/
def readJson (text : Utf16) : Option JSONValue :=
  (Json.parse text).map (Json.mapNumber Number.finite)

/-- No string of a value and no key has a control character, but for the line feed. -/
def PlainStrings (v : JSONValue) : Prop := v.all isPlain (fun _ => true) = true

instance (v : JSONValue) : Decidable (PlainStrings v) :=
  inferInstanceAs (Decidable (v.all isPlain (fun _ => true) = true))

theorem readJson_render {v : JSONValue} (h : SafeNumbers v) :
    readJson (v.render quoted (floatText f64Text))
      = if v.all isPlain (fun _ => true) then some v else none := by
  rw [readJson, Json.parse_render (readable f64Text) h]
  split
  · exact congrArg some (mapNumber_toRat h (fun n _ => rfl))
  · rfl

theorem describeJsonValue_container {v : JSONValue} (h : v.kind = .ARRAY ∨ v.kind = .OBJECT) :
    describeJsonValue f64Text v = .ok ⟨v.render quoted (floatText f64Text), .JSON⟩ := by
  have htext := toJsonText_eq f64Text v v.depth le_rfl
  have hstring : v.kind ≠ .STRING := by rcases h with h | h <;> rw [h] <;> decide
  have hbool : v.kind ≠ .BOOL := by rcases h with h | h <;> rw [h] <;> decide
  have hnumber : v.kind ≠ .NUMBER := by rcases h with h | h <;> rw [h] <;> decide
  rw [describeJsonValue, if_neg hstring, if_neg hbool, if_neg hnumber, htext]
  rfl

/-- **Arrays and objects as attributes.**  The text that is stored for an array or an object
is JSON of the same value, and of no other, exactly if no string of it and no key has a
control character other than the line feed. -/
theorem describeJsonValue_json_iff {v : JSONValue} (hkind : v.kind = .ARRAY ∨ v.kind = .OBJECT)
    (hnum : SafeNumbers v) :
    (∃ text, describeJsonValue f64Text v = .ok ⟨text, .JSON⟩ ∧ readJson text = some v
        ∧ ∀ w : JSONValue, w.kind = .ARRAY ∨ w.kind = .OBJECT → SafeNumbers w →
          describeJsonValue f64Text w = .ok ⟨text, .JSON⟩ → w = v)
      ↔ PlainStrings v := by
  rw [describeJsonValue_container f64Text hkind]
  constructor
  · rintro ⟨text, htext, hread, -⟩
    obtain rfl := congrArg JsonValueDescription.value (Except.ok.inj htext)
    rw [readJson_render f64Text hnum, Option.ite_none_right_eq_some] at hread
    exact hread.1
  · intro hplain
    have hread := (readJson_render f64Text hnum).trans (if_pos hplain)
    refine ⟨_, rfl, hread, ?_⟩
    intro w hw hwnum hwtext
    rw [describeJsonValue_container f64Text hw] at hwtext
    -- the text of `w` is that of `v`, which is JSON, so it is read as `w` and as `v`
    have htext : w.render quoted (floatText f64Text) = v.render quoted (floatText f64Text) :=
      congrArg JsonValueDescription.value (Except.ok.inj hwtext)
    rw [← htext, readJson_render f64Text hwnum, Option.ite_none_right_eq_some] at hread
    exact Option.some.inj hread.2

/-- The value of an attribute `["a\n", 1]`. -/
theorem describeJsonValue_json_iff_list :
    (∃ text, describeJsonValue (fun _ => []) (.array [.string [unit 'a', 0x0a], .number (.ofInt 1)])
          = .ok ⟨text, .JSON⟩
        ∧ readJson text = some (.array [.string [unit 'a', 0x0a], .number (.ofInt 1)])
        ∧ ∀ w : JSONValue, w.kind = .ARRAY ∨ w.kind = .OBJECT → SafeNumbers w →
          describeJsonValue (fun _ => []) w = .ok ⟨text, .JSON⟩ →
            w = .array [.string [unit 'a', 0x0a], .number (.ofInt 1)])
      ↔ PlainStrings (.array [.string [unit 'a', 0x0a], .number (.ofInt 1)]) :=
  describeJsonValue_json_iff _ (Or.inl rfl) (by decide +kernel)

/-- A list with the string of one tab is stored as a text that is not JSON. -/
theorem describeJsonValue_tab :
    ¬ ∃ text, describeJsonValue (fun _ => []) (.array [.string [0x09]]) = .ok ⟨text, .JSON⟩
      ∧ (Json.parse text).isSome = true := by
  rintro ⟨text, htext, hsome⟩
  have hvalue : describeJsonValue (fun _ => []) (.array [.string [0x09]])
      = .ok ⟨[unit '[', unit '"', 0x09, unit '"', unit ']'], .JSON⟩ := rfl
  rw [hvalue] at htext
  obtain rfl := congrArg JsonValueDescription.value (Except.ok.inj htext)
  exact absurd hsome (by decide +kernel)

end

end Bufi.Document
