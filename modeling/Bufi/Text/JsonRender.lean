import Bufi.Text.Json

/-!
# Writing JSON

`render` writes a value without whitespace; how strings and numbers are written is a
parameter.  If the strings and numbers are read back one by one, the value is read back,
and if a string is not, the text is no JSON at all (`parse_render`).
-/

namespace Bufi.Text

namespace Json

section

variable {N : Type}

section

variable (quoted : Utf16 → Utf16) (numberText : N → Utf16)

mutual

/-- The text of a value without whitespace; `quoted` is what stands behind the opening
quotation mark of a string, the closing one included. -/
def render : Json N → Utf16
  | null => lit "null"
  | bool true => lit "true"
  | bool false => lit "false"
  | number x => numberText x
  | string s => unit '"' :: quoted s
  | array [] => lit "[]"
  | array (v :: l) => unit '[' :: (render v ++ renderItems l)
  | object [] => lit "\x7b\x7d"
  | object ((k, v) :: l) => unit '{' :: (unit '"' :: quoted k ++ unit ':' :: render v ++ renderEntries l)

def renderItems : List (Json N) → Utf16
  | [] => lit "]"
  | v :: l => unit ',' :: (render v ++ renderItems l)

def renderEntries : List (Utf16 × Json N) → Utf16
  | [] => lit "\x7d"
  | (k, v) :: l => unit ',' :: (unit '"' :: quoted k ++ unit ':' :: render v ++ renderEntries l)

end

end

section

variable (okString : Utf16 → Bool) (okNumber : N → Bool)

mutual

/-- All strings of a value, keys included, and all its numbers pass. -/
def all : Json N → Bool
  | null => true
  | bool _ => true
  | number x => okNumber x
  | string s => okString s
  | array l => allItems l
  | object l => allEntries l

def allItems : List (Json N) → Bool
  | [] => true
  | v :: l => all v && allItems l

def allEntries : List (Utf16 × Json N) → Bool
  | [] => true
  | (k, v) :: l => okString k && all v && allEntries l

end

end

mutual

/-- How deep a value is. -/
def depth : Json N → ℕ
  | null | bool _ | number _ | string _ => 1
  | array l => depthItems l + 1
  | object l => depthEntries l + 1

def depthItems : List (Json N) → ℕ
  | [] => 0
  | v :: l => max (depth v) (depthItems l)

def depthEntries : List (Utf16 × Json N) → ℕ
  | [] => 0
  | (_, v) :: l => max (depth v) (depthEntries l)

end

section

variable {M : Type} (f : N → M)

mutual

/-- The value with other numbers. -/
def mapNumber : Json N → Json M
  | null => null
  | bool b => bool b
  | number x => number (f x)
  | string s => string s
  | array l => array (mapItems l)
  | object l => object (mapEntries l)

def mapItems : List (Json N) → List (Json M)
  | [] => []
  | v :: l => mapNumber v :: mapItems l

def mapEntries : List (Utf16 × Json N) → List (Utf16 × Json M)
  | [] => []
  | (k, v) :: l => (k, mapNumber v) :: mapEntries l

end

end

/-- Induction over a value and its parts. -/
theorem induct {P : Json N → Prop} (hnull : P null) (hbool : ∀ b, P (bool b))
    (hnumber : ∀ x, P (number x)) (hstring : ∀ s, P (string s))
    (harray : ∀ l, (∀ v ∈ l, P v) → P (array l))
    (hobject : ∀ l, (∀ e ∈ l, P e.2) → P (object l)) (v : Json N) : P v := by
  refine @Json.rec N P (fun l => ∀ v ∈ l, P v) (fun l => ∀ e ∈ l, P e.2) (fun e => P e.2)
    hnull hbool hnumber hstring harray hobject ?_ ?_ ?_ ?_ ?_ v
  · simp
  · intro v l hv hl
    exact List.forall_mem_cons.mpr ⟨hv, hl⟩
  · simp
  · intro e l he hl
    exact List.forall_mem_cons.mpr ⟨he, hl⟩
  · intro k v hv
    exact hv

section

variable {M : Type} {okString : Utf16 → Bool} {okNumber : N → Bool}

theorem allItems_iff {l : List (Json N)} :
    allItems okString okNumber l = true ↔ ∀ v ∈ l, v.all okString okNumber = true := by
  induction l with
  | nil => simp [allItems]
  | cons v l ih => rw [allItems, Bool.and_eq_true, ih, List.forall_mem_cons]

theorem allEntries_iff {l : List (Utf16 × Json N)} :
    allEntries okString okNumber l = true
      ↔ ∀ e ∈ l, okString e.1 = true ∧ e.2.all okString okNumber = true := by
  induction l with
  | nil => simp [allEntries]
  | cons e l ih => rw [allEntries, Bool.and_eq_true, Bool.and_eq_true, ih, List.forall_mem_cons]

theorem mapItems_eq (f : N → M) (l : List (Json N)) : mapItems f l = l.map (mapNumber f) := by
  induction l with
  | nil => rfl
  | cons v l ih => rw [mapItems, ih, List.map_cons]

theorem mapEntries_eq (f : N → M) (l : List (Utf16 × Json N)) :
    mapEntries f l = l.map (fun e => (e.1, e.2.mapNumber f)) := by
  induction l with
  | nil => rfl
  | cons e l ih => rw [mapEntries, ih, List.map_cons]

/-- Numbers that are changed back. -/
theorem mapNumber_cancel {f : N → M} {g : M → N} (h : ∀ x, okNumber x = true → g (f x) = x)
    {v : Json N} (hv : v.all okString okNumber = true) : (v.mapNumber f).mapNumber g = v := by
  induction v using induct with
  | hnull => rfl
  | hbool b => rfl
  | hnumber x => exact congrArg number (h x hv)
  | hstring s => rfl
  | harray l ih =>
    rw [all, allItems_iff] at hv
    have hmap : ∀ v ∈ l, (v.mapNumber f).mapNumber g = v := fun v hmem => ih v hmem (hv v hmem)
    rw [mapNumber, mapNumber, mapItems_eq, mapItems_eq, List.map_map]
    exact congrArg array ((List.map_congr_left hmap).trans (List.map_id _))
  | hobject l ih =>
    rw [all, allEntries_iff] at hv
    have hmap : ∀ e ∈ l, (e.1, (e.2.mapNumber f).mapNumber g) = e := by
      intro e hmem
      rw [ih e hmem (hv e hmem).2]
    rw [mapNumber, mapNumber, mapEntries_eq, mapEntries_eq, List.map_map]
    exact congrArg object ((List.map_congr_left hmap).trans (List.map_id _))

end

section

variable (quoted : Utf16 → Utf16) (numberText : N → Utf16)

theorem renderItems_eq_flatMap (l : List (Json N)) : renderItems quoted numberText l
    = l.flatMap (fun v => unit ',' :: v.render quoted numberText) ++ lit "]" := by
  induction l with
  | nil => rfl
  | cons v l ih =>
    rw [renderItems, ih, List.flatMap_cons, List.append_assoc]
    rfl

/-- The text of an entry. -/
def entryText (e : Utf16 × Json N) : Utf16 :=
  unit '"' :: quoted e.1 ++ unit ':' :: e.2.render quoted numberText

theorem renderEntries_eq_flatMap (l : List (Utf16 × Json N)) : renderEntries quoted numberText l
    = l.flatMap (fun e => unit ',' :: entryText quoted numberText e) ++ lit "\x7d" := by
  induction l with
  | nil => rfl
  | cons e l ih =>
    rw [renderEntries, ih, List.flatMap_cons, entryText]
    simp only [List.append_assoc, List.cons_append]

theorem intercalate_comma {α : Type} (f : α → Utf16) (a : α) (l : List α) :
    [unit ','].intercalate ((a :: l).map f) = f a ++ l.flatMap (fun b => unit ',' :: f b) := by
  induction l generalizing a with
  | nil => simp
  | cons b l ih =>
    rw [List.map_cons, List.map_cons, List.intercalate_cons_cons, ← List.map_cons, ih,
      List.flatMap_cons]
    simp

/-- An array is its values with commas between them. -/
theorem render_array (l : List (Json N)) : (array l).render quoted numberText
    = lit "[" ++ [unit ','].intercalate (l.map (render quoted numberText)) ++ lit "]" := by
  cases l with
  | nil => rfl
  | cons v l =>
    rw [render, renderItems_eq_flatMap, intercalate_comma]
    simp [lit]

/-- An object is its entries with commas between them. -/
theorem render_object (l : List (Utf16 × Json N)) : (object l).render quoted numberText
    = lit "\x7b" ++ [unit ','].intercalate (l.map (entryText quoted numberText)) ++ lit "\x7d" := by
  cases l with
  | nil => rfl
  | cons e l =>
    rw [render, renderEntries_eq_flatMap, intercalate_comma, entryText]
    simp [lit]

end

/-! ### Reading what was written -/

theorem skipWs_cons {c : CodeUnit} (h : isWs c = false) (t : Utf16) : skipWs (c :: t) = c :: t :=
  List.dropWhile_cons_of_neg (by simp [h])

/-- A number ends before the text. -/
def Follow (t : Utf16) : Prop :=
  ∀ c, t.head? = some c → isDigit c = false ∧ c ≠ unit '.' ∧ c ≠ unit 'e' ∧ c ≠ unit 'E'

theorem follow_nil : Follow [] := by
  intro c hc
  cases hc

theorem follow_cons {c : CodeUnit} {t : Utf16}
    (h : isDigit c = false ∧ c ≠ unit '.' ∧ c ≠ unit 'e' ∧ c ≠ unit 'E') : Follow (c :: t) := by
  intro d hd
  obtain rfl := Option.some.inj hd
  exact h

/-- The writers of strings and of numbers are understood by the reader: numbers that pass
are read as `q`, strings are read back if they pass, and refused if not. -/
structure Readable (quoted : Utf16 → Utf16) (numberText : N → Utf16) (okString : Utf16 → Bool)
    (okNumber : N → Bool) (q : N → ℚ) : Prop where
  string : ∀ s rest, parseChars (quoted s ++ rest) = if okString s then some (s, rest) else none
  number : ∀ x, okNumber x = true → ∀ rest, Follow rest →
    parseNumber (numberText x ++ rest) = some (q x, rest)
  head : ∀ x, okNumber x = true →
    ∃ c t, numberText x = c :: t ∧ (isDigit c = true ∨ c = unit '-')

variable {quoted : Utf16 → Utf16} {numberText : N → Utf16} {okString : Utf16 → Bool}
  {okNumber : N → Bool} {q : N → ℚ}

/-- The first character of a number is that of no other value. -/
theorem ne_of_numberHead {c : CodeUnit} (h : isDigit c = true ∨ c = unit '-') {d : CodeUnit}
    (hd : isDigit d = false) (hne : d ≠ unit '-') : c ≠ d := by
  rintro rfl
  rcases h with h | h
  · rw [hd] at h
    cases h
  · exact hne h

theorem head_render (h : Readable quoted numberText okString okNumber q) {v : Json N}
    (hv : v.all (fun _ => true) okNumber = true) :
    ∃ c t, v.render quoted numberText = c :: t ∧ isWs c = false ∧ c ≠ unit ']' := by
  cases v with
  | null => exact ⟨_, _, rfl, by decide, by decide⟩
  | bool b =>
    cases b with
    | true => exact ⟨_, _, rfl, by decide, by decide⟩
    | false => exact ⟨_, _, rfl, by decide, by decide⟩
  | number x =>
    obtain ⟨c, t, htext, hc⟩ := h.head x hv
    refine ⟨c, t, htext, ?_, ne_of_numberHead hc (by decide) (by decide)⟩
    have h₁ := ne_of_numberHead (d := 0x20) hc (by decide) (by decide)
    have h₂ := ne_of_numberHead (d := 0x09) hc (by decide) (by decide)
    have h₃ := ne_of_numberHead (d := 0x0a) hc (by decide) (by decide)
    have h₄ := ne_of_numberHead (d := 0x0d) hc (by decide) (by decide)
    simp [isWs, h₁, h₂, h₃, h₄]
  | string s => exact ⟨_, _, rfl, by decide, by decide⟩
  | array l =>
    cases l with
    | nil => exact ⟨_, _, rfl, by decide, by decide⟩
    | cons v l => exact ⟨_, _, rfl, by decide, by decide⟩
  | object l =>
    cases l with
    | nil => exact ⟨_, _, rfl, by decide, by decide⟩
    | cons e l => exact ⟨_, _, rfl, by decide, by decide⟩

/-- What the reader makes of a value that was written. -/
def ReadBack (quoted : Utf16 → Utf16) (numberText : N → Utf16) (okString : Utf16 → Bool)
    (okNumber : N → Bool) (q : N → ℚ) (v : Json N) : Prop :=
  v.all (fun _ => true) okNumber = true → ∀ fuel rest,
    (v.render quoted numberText).length ≤ fuel → Follow rest →
    parseValue fuel (v.render quoted numberText ++ rest)
      = if v.all okString (fun _ => true) then some (v.mapNumber q, rest) else none

theorem follow_renderItems (l : List (Json N)) (rest : Utf16) :
    Follow (renderItems quoted numberText l ++ rest) := by
  cases l with
  | nil => exact follow_cons (by decide)
  | cons v l => exact follow_cons (by decide)

theorem follow_renderEntries (l : List (Utf16 × Json N)) (rest : Utf16) :
    Follow (renderEntries quoted numberText l ++ rest) := by
  cases l with
  | nil => exact follow_cons (by decide)
  | cons e l => exact follow_cons (by decide)

theorem parseItems_render {l : List (Json N)}
    (hl : ∀ v ∈ l, ReadBack quoted numberText okString okNumber q v)
    (hnum : allItems (fun _ => true) okNumber l = true) (fuel : ℕ) (rest : Utf16)
    (hfuel : (renderItems quoted numberText l).length ≤ fuel) :
    parseItems fuel (renderItems quoted numberText l ++ rest)
      = if allItems okString (fun _ => true) l then some (mapItems q l, rest) else none := by
  induction l generalizing fuel with
  | nil =>
    cases fuel with
    | zero => simp [renderItems, lit] at hfuel
    | succ fuel => rfl
  | cons v l ih =>
    obtain ⟨hv, hl⟩ := List.forall_mem_cons.mp hl
    rw [allItems, Bool.and_eq_true] at hnum
    rw [renderItems, List.length_cons, List.length_append] at hfuel
    cases fuel with
    | zero => omega
    | succ fuel =>
      have hvalue := hv hnum.1 fuel (renderItems quoted numberText l ++ rest) (by omega)
        (follow_renderItems l rest)
      have hmore := ih hl hnum.2 fuel (by omega)
      rw [renderItems, List.cons_append, List.append_assoc, parseItems,
        skipWs_cons (by decide)]
      simp only [reduceIte, show unit ',' ≠ unit ']' by decide, hvalue, allItems]
      by_cases hok : v.all okString (fun _ => true) = true
      · by_cases hmoreOk : allItems okString (fun _ => true) l = true
        · simp [hok, hmore, hmoreOk, mapItems]
        · simp [hok, hmore, hmoreOk]
      · simp [hok]

theorem parseMember_render (h : Readable quoted numberText okString okNumber q) {k : Utf16}
    {v : Json N} (hv : ReadBack quoted numberText okString okNumber q v)
    (hnum : v.all (fun _ => true) okNumber = true) (fuel : ℕ) (rest : Utf16)
    (hfuel : (v.render quoted numberText).length ≤ fuel) (hrest : Follow rest) :
    parseMember (parseValue fuel)
        (unit '"' :: (quoted k ++ unit ':' :: (v.render quoted numberText ++ rest)))
      = if okString k && v.all okString (fun _ => true) then some ((k, v.mapNumber q), rest)
        else none := by
  rw [parseMember, skipWs_cons (by decide)]
  simp only [reduceIte, h.string]
  by_cases hkey : okString k = true
  · have hcolon : skipWs (unit ':' :: (v.render quoted numberText ++ rest))
        = unit ':' :: (v.render quoted numberText ++ rest) := skipWs_cons (by decide) _
    by_cases hok : v.all okString (fun _ => true) = true
    · simp [hkey, hcolon, hv hnum fuel rest hfuel hrest, hok]
    · simp [hkey, hcolon, hv hnum fuel rest hfuel hrest, hok]
  · simp [hkey]

theorem parseEntries_render (h : Readable quoted numberText okString okNumber q)
    {l : List (Utf16 × Json N)}
    (hl : ∀ e ∈ l, ReadBack quoted numberText okString okNumber q e.2)
    (hnum : allEntries (fun _ => true) okNumber l = true) (fuel : ℕ) (rest : Utf16)
    (hfuel : (renderEntries quoted numberText l).length ≤ fuel) :
    parseEntries fuel (renderEntries quoted numberText l ++ rest)
      = if allEntries okString (fun _ => true) l then some (mapEntries q l, rest) else none := by
  induction l generalizing fuel with
  | nil =>
    cases fuel with
    | zero => simp [renderEntries, lit] at hfuel
    | succ fuel => rfl
  | cons e l ih =>
    obtain ⟨k, v⟩ := e
    obtain ⟨hv, hl⟩ := List.forall_mem_cons.mp hl
    have hv : ReadBack quoted numberText okString okNumber q v := hv
    rw [allEntries, Bool.true_and, Bool.and_eq_true] at hnum
    simp only [renderEntries, List.length_cons, List.length_append] at hfuel
    cases fuel with
    | zero => omega
    | succ fuel =>
      have hmember := parseMember_render h (k := k) hv hnum.1 fuel
        (renderEntries quoted numberText l ++ rest) (by omega) (follow_renderEntries l rest)
      have hmore := ih hl hnum.2 fuel (by omega)
      simp only [renderEntries, List.cons_append, List.append_assoc]
      rw [parseEntries, skipWs_cons (by decide)]
      simp only [reduceIte, show unit ',' ≠ unit '}' by decide, hmember, allEntries]
      by_cases hok : (okString k && v.all okString (fun _ => true)) = true
      · by_cases hmoreOk : allEntries okString (fun _ => true) l = true
        · simp [hok, hmore, hmoreOk, mapEntries]
        · simp [hok, hmore, hmoreOk]
      · simp [hok]

/-- A text that starts like a number is read as one. -/
theorem parseValue_number {c : CodeUnit} {t : Utf16} (hc : isDigit c = true ∨ c = unit '-')
    (fuel : ℕ) : parseValue (fuel + 1) (c :: t)
      = (parseNumber (c :: t)).bind (fun p => some (number p.1, p.2)) := by
  have hne : ∀ d, isDigit d = false → d ≠ unit '-' → c ≠ d :=
    fun d hd hd' => ne_of_numberHead hc hd hd'
  have hws : isWs c = false := by
    simp [isWs, hne 0x20 (by decide) (by decide), hne 0x09 (by decide) (by decide),
      hne 0x0a (by decide) (by decide), hne 0x0d (by decide) (by decide)]
  have hprefix : ∀ d l, isDigit d = false → d ≠ unit '-' →
      (d :: l).isPrefixOf (c :: t) = false := by
    intro d l hd hd'
    rw [List.isPrefixOf, beq_false_of_ne (Ne.symm (hne d hd hd')), Bool.false_and]
  have hnull : (lit "null").isPrefixOf (c :: t) = false := hprefix _ _ (by decide) (by decide)
  have htrue : (lit "true").isPrefixOf (c :: t) = false := hprefix _ _ (by decide) (by decide)
  have hfalse : (lit "false").isPrefixOf (c :: t) = false := hprefix _ _ (by decide) (by decide)
  rw [parseValue, skipWs_cons hws]
  simp only [hne (unit '"') (by decide) (by decide), hne (unit '[') (by decide) (by decide),
    hne (unit '{') (by decide) (by decide), hnull, htrue, hfalse, reduceIte, Bool.false_eq_true]
  rfl

theorem parseValue_literal {w : Json ℚ} {t rest : Utf16} {fuel : ℕ} (hpos : 0 < t.length)
    (hfuel : t.length ≤ fuel) (h : ∀ fuel, parseValue (fuel + 1) (t ++ rest) = some (w, rest)) :
    parseValue fuel (t ++ rest) = some (w, rest) := by
  cases fuel with
  | zero => omega
  | succ fuel => exact h fuel

/-- **A value that was written is read back**, if its strings are, and refused if not. -/
theorem parseValue_render (h : Readable quoted numberText okString okNumber q) (v : Json N) :
    ReadBack quoted numberText okString okNumber q v := by
  refine induct ?_ ?_ ?_ ?_ ?_ ?_ v
  · intro _ fuel rest hfuel _
    exact parseValue_literal (t := lit "null") (by decide) hfuel (fun _ => rfl)
  · intro b _ fuel rest hfuel _
    cases b with
    | true => exact parseValue_literal (t := lit "true") (by decide) hfuel (fun _ => rfl)
    | false => exact parseValue_literal (t := lit "false") (by decide) hfuel (fun _ => rfl)
  · intro x hx fuel rest hfuel hrest
    obtain ⟨c, t, htext, hc⟩ := h.head x hx
    have hread := h.number x hx rest hrest
    rw [render, htext, List.length_cons] at hfuel
    rw [render, htext, List.cons_append]
    rw [htext, List.cons_append] at hread
    cases fuel with
    | zero => omega
    | succ fuel =>
      rw [parseValue_number hc, hread]
      rfl
  · intro s _ fuel rest hfuel _
    rw [render, List.length_cons] at hfuel
    cases fuel with
    | zero => omega
    | succ fuel =>
      rw [render, List.cons_append, parseValue, skipWs_cons (by decide)]
      simp only [reduceIte, h.string]
      by_cases hok : okString s = true
      · simp [hok, all, mapNumber]
      · simp [hok, all]
  · intro l hl hnum fuel rest hfuel _
    cases l with
    | nil => exact parseValue_literal (t := lit "[]") (by decide) hfuel (fun _ => rfl)
    | cons v l =>
      obtain ⟨hv, hl⟩ := List.forall_mem_cons.mp hl
      rw [all, allItems, Bool.and_eq_true] at hnum
      rw [render, List.length_cons, List.length_append] at hfuel
      cases fuel with
      | zero => omega
      | succ fuel =>
        obtain ⟨c, t, htext, hws, hne⟩ := head_render h hnum.1
        have hvalue := hv hnum.1 fuel (renderItems quoted numberText l ++ rest) (by omega)
          (follow_renderItems l rest)
        have hmore := parseItems_render hl hnum.2 fuel rest (by omega)
        have hfirst : (skipWs (v.render quoted numberText
            ++ (renderItems quoted numberText l ++ rest))).head? ≠ some (unit ']') := by
          rw [htext, List.cons_append, skipWs_cons hws]
          simpa using hne
        rw [render, List.cons_append, List.append_assoc, parseValue, skipWs_cons (by decide)]
        simp only [reduceIte, show unit '[' ≠ unit '"' by decide, hfirst, hvalue, all, allItems]
        by_cases hok : v.all okString (fun _ => true) = true
        · by_cases hmoreOk : allItems okString (fun _ => true) l = true
          · simp [hok, hmore, hmoreOk, mapNumber, mapItems]
          · simp [hok, hmore, hmoreOk]
        · simp [hok]
  · intro l hl hnum fuel rest hfuel _
    cases l with
    | nil => exact parseValue_literal (t := lit "\x7b\x7d") (by decide) hfuel (fun _ => rfl)
    | cons e l =>
      obtain ⟨k, v⟩ := e
      obtain ⟨hv, hl⟩ := List.forall_mem_cons.mp hl
      have hv : ReadBack quoted numberText okString okNumber q v := hv
      rw [all, allEntries, Bool.true_and, Bool.and_eq_true] at hnum
      simp only [render, List.cons_append, List.length_cons, List.length_append] at hfuel
      cases fuel with
      | zero => omega
      | succ fuel =>
        have hmember := parseMember_render h (k := k) hv hnum.1 fuel
          (renderEntries quoted numberText l ++ rest) (by omega) (follow_renderEntries l rest)
        have hmore := parseEntries_render h hl hnum.2 fuel rest (by omega)
        simp only [render, List.cons_append, List.append_assoc]
        rw [parseValue, skipWs_cons (by decide)]
        have hfirst : ∀ t, (skipWs (unit '"' :: t)).head? ≠ some (unit '}') := by
          intro t ht
          rw [skipWs_cons (by decide), List.head?_cons] at ht
          exact absurd (Option.some.inj ht) (by decide)
        simp only [reduceIte, show unit '{' ≠ unit '"' by decide, show unit '{' ≠ unit '[' by decide,
          hfirst, hmember, all, allEntries]
        by_cases hok : (okString k && v.all okString (fun _ => true)) = true
        · by_cases hmoreOk : allEntries okString (fun _ => true) l = true
          · simp [hok, hmore, hmoreOk, mapNumber, mapEntries]
          · simp [hok, hmore, hmoreOk]
        · simp [hok]

/-- **The round trip.**  The text of a value is JSON exactly if its strings are read back,
and then it is that of the value. -/
theorem parse_render (h : Readable quoted numberText okString okNumber q) {v : Json N}
    (hnum : v.all (fun _ => true) okNumber = true) :
    parse (v.render quoted numberText)
      = if v.all okString (fun _ => true) then some (v.mapNumber q) else none := by
  have hread := parseValue_render h v hnum ((v.render quoted numberText).length + 1) []
    (Nat.le_succ _) follow_nil
  rw [List.append_nil] at hread
  rw [parse, hread]
  by_cases hok : v.all okString (fun _ => true) = true
  · rw [if_pos hok, if_pos hok]
    rfl
  · rw [if_neg hok, if_neg hok]
    rfl

end

end Json

end Bufi.Text
