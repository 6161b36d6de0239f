import Bufi.Text.Digits
import Bufi.Text.Utf16
import Mathlib.Data.List.TakeWhile
import Mathlib.Data.Rat.Defs

/-!
# JSON

A JSON text is read by `parse`, which follows the grammar of RFC 8259: whitespace around
the tokens, the escapes of strings, and numbers with a fraction and an exponent.  A number
is the rational that it spells, and the entries of an object are kept in their order.
-/

namespace Bufi.Text

open Bufi.Digits

/-- A JSON value, with numbers in `N`. -/
inductive Json (N : Type)
  | null
  | bool (b : Bool)
  | number (x : N)
  | string (s : Utf16)
  | array (items : List (Json N))
  | object (entries : List (Utf16 × Json N))

namespace Json

/-! ### The grammar -/

def isWs (c : CodeUnit) : Bool := c == 0x20 || c == 0x09 || c == 0x0a || c == 0x0d

def skipWs (t : Utf16) : Utf16 := t.dropWhile isWs

def isDigit (c : CodeUnit) : Bool := unit '0' ≤ c && c ≤ unit '9'

def digitOf (c : CodeUnit) : ℕ := c.toNat - 0x30

def hexOf (c : CodeUnit) : Option ℕ :=
  if isDigit c then some (digitOf c)
  else if unit 'a' ≤ c && c ≤ unit 'f' then some (c.toNat - 0x57)
  else if unit 'A' ≤ c && c ≤ unit 'F' then some (c.toNat - 0x37)
  else none

/-- `%x75 4HEXDIG` -/
def hexUnit (a b c d : CodeUnit) : Option CodeUnit := do
  let ds ← [a, b, c, d].mapM hexOf
  pure (UInt16.ofNat (value 16 ds))

/-- What stands behind a backslash, but for `u`. -/
def escaped (c : CodeUnit) : Option CodeUnit :=
  if c = unit '"' ∨ c = unit '\\' ∨ c = unit '/' then some c
  else if c = unit 'b' then some 0x08
  else if c = unit 'f' then some 0x0c
  else if c = unit 'n' then some 0x0a
  else if c = unit 'r' then some 0x0d
  else if c = unit 't' then some 0x09
  else none

/-- The characters of a string up to its closing quotation mark, and what is behind. -/
def parseChars : Utf16 → Option (Utf16 × Utf16)
  | [] => none
  | c :: rest =>
    if c = unit '"' then some ([], rest)
    else if c = unit '\\' then
      match rest with
      | [] => none
      | e :: rest =>
        if e = unit 'u' then
          match rest with
          | h₁ :: h₂ :: h₃ :: h₄ :: rest => do
            let u ← hexUnit h₁ h₂ h₃ h₄
            let (s, rest) ← parseChars rest
            pure (u :: s, rest)
          | _ => none
        else do
          let u ← escaped e
          let (s, rest) ← parseChars rest
          pure (u :: s, rest)
    else if c < 0x20 then none
    else do
      let (s, rest) ← parseChars rest
      pure (c :: s, rest)

theorem parseChars_quote (rest : Utf16) : parseChars (unit '"' :: rest) = some ([], rest) := by
  rw [parseChars.eq_def]
  exact if_pos rfl

theorem parseChars_plain {c : CodeUnit} (hquote : c ≠ unit '"') (hback : c ≠ unit '\\')
    (hge : 0x20 ≤ c) (rest : Utf16) :
    parseChars (c :: rest) = (parseChars rest).bind (fun p => some (c :: p.1, p.2)) := by
  rw [parseChars.eq_def]
  simp only [hquote, hback, UInt16.not_lt.mpr hge, if_false]
  rfl

/-- A raw control character is refused. -/
theorem parseChars_control {c : CodeUnit} (h : c < 0x20) (rest : Utf16) :
    parseChars (c :: rest) = none := by
  have hquote : c ≠ unit '"' := by
    rintro rfl
    exact absurd h (by decide)
  have hback : c ≠ unit '\\' := by
    rintro rfl
    exact absurd h (by decide)
  rw [parseChars.eq_def]
  simp only [hquote, hback, h, if_false, if_true]

theorem parseChars_escaped {e u : CodeUnit} (hne : e ≠ unit 'u') (h : escaped e = some u)
    (rest : Utf16) : parseChars (unit '\\' :: e :: rest)
      = (parseChars rest).bind (fun p => some (u :: p.1, p.2)) := by
  rw [parseChars.eq_def]
  simp only [show unit '\\' ≠ unit '"' by decide, hne, h, if_false, if_true]
  rfl

theorem parseChars_hex {a b c d u : CodeUnit} (h : hexUnit a b c d = some u) (rest : Utf16) :
    parseChars (unit '\\' :: unit 'u' :: a :: b :: c :: d :: rest)
      = (parseChars rest).bind (fun p => some (u :: p.1, p.2)) := by
  rw [parseChars.eq_def]
  simp only [show unit '\\' ≠ unit '"' by decide, h, if_false, if_true]
  rfl

/-- `1*DIGIT` -/
def parseDigits (t : Utf16) : Option (List ℕ × Utf16) :=
  if t.takeWhile isDigit = [] then none
  else some ((t.takeWhile isDigit).map digitOf, t.dropWhile isDigit)

/-- `zero / ( digit1-9 *DIGIT )` -/
def parseInt (t : Utf16) : Option (List ℕ × Utf16) := do
  let (ds, t) ← parseDigits t
  if ds.head? = some 0 ∧ ds ≠ [0] then none else pure (ds, t)

/-- `[ frac ]` -/
def parseFraction : Utf16 → Option (List ℕ × Utf16)
  | [] => some ([], [])
  | c :: t => if c = unit '.' then parseDigits t else some ([], c :: t)

/-- `[ minus / plus ]` -/
def parseSign (plus : Bool) : Utf16 → ℤ × Utf16
  | [] => (1, [])
  | c :: t => if c = unit '-' then (-1, t) else if plus ∧ c = unit '+' then (1, t) else (1, c :: t)

/-- `[ exp ]` -/
def parseExponent : Utf16 → Option (ℤ × Utf16)
  | [] => some (0, [])
  | c :: t =>
    if c = unit 'e' ∨ c = unit 'E' then do
      let (sign, t) := parseSign true t
      let (ds, t) ← parseDigits t
      pure (sign * value 10 ds, t)
    else some (0, c :: t)

/-- `n * 10 ^ e` -/
def scale (n e : ℤ) : ℚ := if 0 ≤ e then ↑(n * 10 ^ e.toNat) else mkRat n (10 ^ (-e).toNat)

/-- `[ minus ] int [ frac ] [ exp ]` -/
def parseNumber (t : Utf16) : Option (ℚ × Utf16) := do
  let (sign, t) := parseSign false t
  let (ds, t) ← parseInt t
  let (frac, t) ← parseFraction t
  let (exp, t) ← parseExponent t
  pure (scale (sign * value 10 (ds ++ frac)) (exp - frac.length), t)

/-- `string name-separator value` -/
def parseMember (value : Utf16 → Option (Json ℚ × Utf16)) (t : Utf16) :
    Option ((Utf16 × Json ℚ) × Utf16) :=
  match skipWs t with
  | [] => none
  | c :: t =>
    if c = unit '"' then do
      let (key, t) ← parseChars t
      match skipWs t with
      | [] => none
      | c :: t =>
        if c = unit ':' then do
          let (v, t) ← value t
          pure ((key, v), t)
        else none
    else none

mutual

/-- A value.  Every call has a shorter text, so its length is enough fuel. -/
def parseValue : ℕ → Utf16 → Option (Json ℚ × Utf16)
  | 0, _ => none
  | fuel + 1, t =>
    match skipWs t with
    | [] => none
    | c :: t =>
      if c = unit '"' then do
        let (s, t) ← parseChars t
        pure (string s, t)
      else if c = unit '[' then
        if (skipWs t).head? = some (unit ']') then some (array [], (skipWs t).tail)
        else do
          let (v, t) ← parseValue fuel t
          let (l, t) ← parseItems fuel t
          pure (array (v :: l), t)
      else if c = unit '{' then
        if (skipWs t).head? = some (unit '}') then some (object [], (skipWs t).tail)
        else do
          let (e, t) ← parseMember (parseValue fuel) t
          let (l, t) ← parseEntries fuel t
          pure (object (e :: l), t)
      else if (lit "null").isPrefixOf (c :: t) then some (null, t.drop 3)
      else if (lit "true").isPrefixOf (c :: t) then some (bool true, t.drop 3)
      else if (lit "false").isPrefixOf (c :: t) then some (bool false, t.drop 4)
      else do
        let (x, t) ← parseNumber (c :: t)
        pure (number x, t)

/-- What is behind a value of an array. -/
def parseItems : ℕ → Utf16 → Option (List (Json ℚ) × Utf16)
  | 0, _ => none
  | fuel + 1, t =>
    match skipWs t with
    | [] => none
    | c :: t =>
      if c = unit ']' then some ([], t)
      else if c = unit ',' then do
        let (v, t) ← parseValue fuel t
        let (l, t) ← parseItems fuel t
        pure (v :: l, t)
      else none

/-- What is behind an entry of an object. -/
def parseEntries : ℕ → Utf16 → Option (List (Utf16 × Json ℚ) × Utf16)
  | 0, _ => none
  | fuel + 1, t =>
    match skipWs t with
    | [] => none
    | c :: t =>
      if c = unit '}' then some ([], t)
      else if c = unit ',' then do
        let (e, t) ← parseMember (parseValue fuel) t
        let (l, t) ← parseEntries fuel t
        pure (e :: l, t)
      else none

end

/-- `ws value ws` -/
def parse (t : Utf16) : Option (Json ℚ) := do
  let (v, rest) ← parseValue (t.length + 1) t
  if skipWs rest = [] then pure v else none

/-- A raw control character is not allowed in a string. -/
example : (parse [unit '"', 0x09, unit '"']).isNone = true := by decide +kernel

end Json

end Bufi.Text
