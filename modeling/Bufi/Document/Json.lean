import Bufi.Text.Decimal
import Bufi.Js.Number

/-!
# JSON values of documents

The library of a subgraph gives a parsed document as values with a kind, and an accessor
for each kind that aborts the handler on a value of another one.  Casts of floats to
integers abort outside their range, and so does `fromString` on a text that is not a
number.  `Except Trap` is the result of a program that may be aborted.

The functions after that are those of the subgraph, which look at the kind before they
call an accessor.  How a float that is not a small integer is written is a parameter.
-/

namespace Bufi.Document

open Bufi.Text Bufi.Js Bufi.Digits

/-- What aborts a handler. -/
inductive Trap
  | kind
  | cast
  | fromString
  | stack
  deriving DecidableEq

/-! ### The library -/

inductive JSONValueKind
  | NULL
  | BOOL
  | NUMBER
  | STRING
  | ARRAY
  | OBJECT
  deriving DecidableEq

abbrev JSONValue := Json Number

/-- The entries of an object, in their order; a key may be there twice. -/
abbrev TypedMap := List (Utf16 × JSONValue)

namespace JSONValue

def kind : JSONValue → JSONValueKind
  | .null => .NULL
  | .bool _ => .BOOL
  | .number _ => .NUMBER
  | .string _ => .STRING
  | .array _ => .ARRAY
  | .object _ => .OBJECT

def isNull (value : JSONValue) : Bool := value.kind = .NULL

def toBool : JSONValue → Except Trap Bool
  | .bool b => .ok b
  | _ => .error .kind

def toF64 : JSONValue → Except Trap Number
  | .number x => .ok x
  | _ => .error .kind

def toString : JSONValue → Except Trap Utf16
  | .string s => .ok s
  | _ => .error .kind

def toArray : JSONValue → Except Trap (List JSONValue)
  | .array items => .ok items
  | _ => .error .kind

def toObject : JSONValue → Except Trap TypedMap
  | .object entries => .ok entries
  | _ => .error .kind

end JSONValue

/-- The value of the first entry with a key. -/
def TypedMap.get (obj : TypedMap) (key : String) : Option JSONValue :=
  (obj.find? (fun entry => entry.1 == lit key)).map Prod.snd

/-- The integer that a float is cut to; nothing is cut to one outside `[-bound, bound)`. -/
def truncate (bound : ℤ) : Number → Except Trap ℤ
  | .finite q =>
    let n := if 0 ≤ q then ⌊q⌋ else ⌈q⌉
    if -bound ≤ n ∧ n < bound then .ok n else .error .cast
  | _ => .error .cast

theorem truncate_ofInt {bound n : ℤ} (h : -bound ≤ n ∧ n < bound) :
    truncate bound (.ofInt n) = .ok n := by
  have hcut : (if 0 ≤ (n : ℚ) then ⌊(n : ℚ)⌋ else ⌈(n : ℚ)⌉) = n := by
    rw [Int.floor_intCast, Int.ceil_intCast, ite_self]
  rw [Number.ofInt, truncate]
  simp only [hcut, if_pos h]

/-- `x as i64` -/
def asI64 (x : Number) : Except Trap ℤ := truncate (2 ^ 63) x

/-- `x as i32` -/
def asI32 (x : Number) : Except Trap ℤ := truncate (2 ^ 31) x

/-- `BigInt.fromString(s)` -/
def bigIntFromString (s : Utf16) : Except Trap ℤ :=
  let (sign, digits) := Json.parseSign false s
  if digits ≠ [] ∧ digits.all Json.isDigit then
    .ok (sign * value 10 (digits.map Json.digitOf))
  else .error .fromString

/-- What `BigDecimal.fromString` reads: digits with at most one dot among them, and a minus
in front of them or not. -/
def IsBigDecimal (s : Utf16) : Prop :=
  let digits := (Json.parseSign false s).2
  digits.all (fun c => Json.isDigit c || c == unit '.') ∧ digits.count (unit '.') ≤ 1
    ∧ digits.any Json.isDigit

instance (s : Utf16) : Decidable (IsBigDecimal s) :=
  inferInstanceAs (Decidable (_ ∧ _ ∧ _))

/-! ### Guarded reads -/

def asObject (value : Option JSONValue) : Except Trap (Option TypedMap) :=
  match value with
  | none => pure none
  | some value =>
    if value.isNull ∨ value.kind ≠ .OBJECT then pure none
    else some <$> value.toObject

def asArray (value : Option JSONValue) : Except Trap (List JSONValue) :=
  match value with
  | none => pure []
  | some value =>
    if value.isNull ∨ value.kind ≠ .ARRAY then pure []
    else value.toArray

/-- An array of objects; an element that is not one is dropped. -/
def asObjectArray (value : Option JSONValue) : Except Trap (List TypedMap) := do
  let items ← asArray value
  items.foldlM (fun out item => do
    match ← asObject (some item) with
    | none => pure out
    | some obj => pure (out ++ [obj])) []

def asString (value : Option JSONValue) : Except Trap (Option Utf16) :=
  match value with
  | none => pure none
  | some value =>
    if value.isNull ∨ value.kind ≠ .STRING then pure none
    else some <$> value.toString

structure JsonBool where
  present : Bool
  value : Bool

structure JsonI32 where
  present : Bool
  value : ℤ

def asBool (value : Option JSONValue) : Except Trap JsonBool :=
  match value with
  | none => pure ⟨false, false⟩
  | some value =>
    if value.isNull ∨ value.kind ≠ .BOOL then pure ⟨false, false⟩
    else do pure ⟨true, ← value.toBool⟩

def asStringArray (value : Option JSONValue) : Except Trap (List Utf16) := do
  let items ← asArray value
  items.foldlM (fun out item => do
    match ← asString (some item) with
    | none => pure out
    | some item => pure (out ++ [item])) []

def asWholeBigInt (value : Option JSONValue) : Except Trap (Option ℤ) :=
  match value with
  | none => pure none
  | some value =>
    if value.isNull ∨ value.kind ≠ .NUMBER then pure none
    else do
      let asFloat ← value.toF64
      if asFloat.lt (.ofInt 0) ∨ ¬ asFloat.eq asFloat.floor
          ∨ Number.le (.ofInt 9223372036854775808) asFloat then pure none
      else
        let whole ← asI64 asFloat
        some <$> bigIntFromString (intDecimal whole)

def asWholeI32 (value : Option JSONValue) (min max : ℤ) : Except Trap JsonI32 :=
  match value with
  | none => pure ⟨false, 0⟩
  | some value =>
    if value.isNull ∨ value.kind ≠ .NUMBER then pure ⟨false, 0⟩
    else do
      let asFloat ← value.toF64
      if ¬ asFloat.eq asFloat.floor then pure ⟨false, 0⟩
      else if asFloat.lt (.ofInt min) ∨ Number.lt (.ofInt max) asFloat then pure ⟨false, 0⟩
      else do pure ⟨true, ← asI32 asFloat⟩

def asStringOrNumber (value : Option JSONValue) : Except Trap (Option Utf16) := do
  match ← asString value with
  | some asStringValue => pure (some asStringValue)
  | none => do
    match ← asWholeBigInt value with
    | none => pure none
    | some asNumber => pure (some (intDecimal asNumber))

/-! ### Values as text -/

inductive AgentServiceAttributeType
  | STRING
  | BOOLEAN
  | NUMBER
  | JSON
  deriving DecidableEq

structure JsonValueDescription where
  value : Utf16
  valueType : AgentServiceAttributeType

def quoteJsonString (value : Utf16) : Utf16 :=
  value.foldl (fun out c =>
    if c = unit '"' ∨ c = unit '\\' then out ++ [unit '\\', c]
    else if c = 0x0a then out ++ lit "\\n"
    else out ++ [c]) (lit "\"") ++ lit "\""

section

variable (f64Text : Number → Utf16)

def numberToText (value : JSONValue) : Except Trap Utf16 := do
  let asFloat ← value.toF64
  if Number.le (.ofInt (-9223372036854775808)) asFloat
      ∧ asFloat.lt (.ofInt 9223372036854775808) ∧ asFloat.eq asFloat.floor then
    return intDecimal (← asI64 asFloat)
  return f64Text asFloat

/-- The text of a value; the first argument is how deep it may be. -/
def toJsonText : ℕ → JSONValue → Except Trap Utf16
  | 0, _ => .error .stack
  | depth + 1, value =>
    if value.kind = .NULL then pure (lit "null")
    else if value.kind = .BOOL then do
      pure (if ← value.toBool then lit "true" else lit "false")
    else if value.kind = .STRING then do pure (quoteJsonString (← value.toString))
    else if value.kind = .NUMBER then numberToText f64Text value
    else if value.kind = .ARRAY then do
      let items ← value.toArray
      let out ← items.zipIdx.foldlM (fun out (item, i) => do
        let out := if 0 < i then out ++ lit "," else out
        pure (out ++ (← toJsonText depth item))) (lit "[")
      pure (out ++ lit "]")
    else do
      let entries ← value.toObject
      let out ← entries.zipIdx.foldlM (fun out (entry, i) => do
        let out := if 0 < i then out ++ lit "," else out
        pure (out ++ (quoteJsonString entry.1 ++ lit ":" ++ (← toJsonText depth entry.2))))
        (lit "\x7b")
      pure (out ++ lit "\x7d")

def describeJsonValue (value : JSONValue) : Except Trap JsonValueDescription := do
  if value.kind = .STRING then return ⟨← value.toString, .STRING⟩
  if value.kind = .BOOL then
    return ⟨if ← value.toBool then lit "true" else lit "false", .BOOLEAN⟩
  if value.kind = .NUMBER then return ⟨← numberToText f64Text value, .NUMBER⟩
  return ⟨← toJsonText f64Text value.depth value, .JSON⟩

end

/-! ### Decimal numbers -/

/-- The loop of `isDecimalString` from an index on. -/
def isDecimalLoop (sawDigit sawDot : Bool) : Utf16 → Bool
  | [] => sawDigit
  | c :: rest =>
    if c = unit '.' then if sawDot then false else isDecimalLoop sawDigit true rest
    else if c < unit '0' ∨ unit '9' < c then false
    else isDecimalLoop true sawDot rest

def isDecimalString (value : Utf16) : Bool :=
  if value.length = 0 then false
  else
    let index := if value.head? = some (unit '-') then 1 else 0
    if value.length ≤ index then false
    else isDecimalLoop false false (value.drop index)

end Bufi.Document
