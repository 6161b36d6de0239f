import Bufi.Evm.Hash
import Bufi.Js.Json
import Bufi.Text.Decode
import Bufi.Text.Hex

/-!
# Entity ids of the client

The client writes the ids of entities itself: the UTF-8 bytes of a chain id, an address and
more parts with colons between them, as hexadecimal text.  `decodeChainScopedEntityId` reads
an id.  The pattern of an id is a chain id in decimal, an address in lower case, and parts
that are not empty and have no colon (`execDecoded_iff`).

A part is a string, a number or a `bigint`, and is written as `String(part)`.
-/

namespace Bufi.Graph

open Bufi.Evm Bufi.Text Bufi.Js Bufi.Digits

inductive ChainScopedIdPart
  | text (s : Utf16)
  | number (x : Number)
  | bigint (n : ℤ)

structure DecodedChainScopedId where
  chainId : Number
  address : Utf16
  parts : List Utf16
  deriving DecidableEq

def isHexDigit (c : CodeUnit) : Bool := (Json.hexOf c).isSome

/-- `[0-9a-f]` -/
def isLowerHexDigit (c : CodeUnit) : Bool := Json.isDigit c || (unit 'a' ≤ c && c ≤ unit 'f')

/-- `/^0x[0-9a-fA-F]{40}$/` -/
def isAddress (s : Utf16) : Bool :=
  s.take 2 = lit "0x" && s.length = 42 && (s.drop 2).all isHexDigit

/-- `0x[0-9a-f]{40}` -/
def isLowerAddress (s : Utf16) : Bool :=
  s.take 2 = lit "0x" && s.length = 42 && (s.drop 2).all isLowerHexDigit

/-- The lower case of a character of an address. -/
def lowerUnit (c : CodeUnit) : CodeUnit := if unit 'A' ≤ c && c ≤ unit 'F' then c + 0x20 else c

/-- `address.toLowerCase()` -/
def toLowerCase (address : Utf16) : Utf16 := address.map lowerUnit

def utf8ToHex (text : Utf16) : Utf16 := bytesToHex (utf8 text)

/-- The digits of a hexadecimal text. -/
def hexBody (hex : Utf16) : Utf16 := if lit "0x" <+: hex then hex.drop 2 else hex

def hexToUtf8 (hex : Utf16) : Except Utf16 Utf16 :=
  match hexToBytes (hexBody hex) with
  | some bytes => pure (decodeUtf8 bytes)
  | none => throw (lit "Not a hex string: " ++ hex)

def requireAddress (address : Utf16) : Except Utf16 Utf16 :=
  if isAddress address then pure (toLowerCase address)
  else throw (lit "Not an EVM address: " ++ address)

section

variable (numberText : Number → Utf16)

/-- `String(part)` -/
def partText : ChainScopedIdPart → Utf16
  | .text s => s
  | .number x => finiteText numberText x
  | .bigint n => intDecimal n

def requireChainId (chainId : ChainScopedIdPart) : Except Utf16 Utf16 :=
  let text := partText numberText chainId
  if text ≠ [] ∧ text.all Json.isDigit then pure text
  else throw (lit "Not a chain id: " ++ text)

/-- The text of an id. -/
def idText (chainId address : Utf16) (parts : List Utf16) : Utf16 :=
  [unit ':'].intercalate (chainId :: address :: parts)

def chainScopedEntityId (chainId : ChainScopedIdPart) (address : Utf16)
    (parts : List ChainScopedIdPart) : Except Utf16 Utf16 := do
  let chainId ← requireChainId numberText chainId
  let address ← requireAddress address
  pure (lit "0x" ++ utf8ToHex (idText chainId address (parts.map (partText numberText))))

def registryEntityId (chainId : ChainScopedIdPart) (registry : Utf16) : Except Utf16 Utf16 :=
  chainScopedEntityId numberText chainId registry []

def agentEntityId (chainId : ChainScopedIdPart) (identityRegistry : Utf16)
    (agentId : ChainScopedIdPart) : Except Utf16 Utf16 :=
  chainScopedEntityId numberText chainId identityRegistry [agentId]

def feedbackEntityId (chainId : ChainScopedIdPart) (reputationRegistry : Utf16)
    (agentId : ChainScopedIdPart) (client : Utf16) (feedbackIndex : ChainScopedIdPart) :
    Except Utf16 Utf16 := do
  let client ← requireAddress client
  chainScopedEntityId numberText chainId reputationRegistry [agentId, .text client, feedbackIndex]

def jobEntityId (chainId : ChainScopedIdPart) (contract : Utf16) (jobId : ChainScopedIdPart) :
    Except Utf16 Utf16 :=
  chainScopedEntityId numberText chainId contract [jobId]

end

/-- `keccak256(concatHex([clientAgentId, providerAgentId]))` -/
def engagementEntityId {W : Type} (keccak : Keccak W) (clientAgentId providerAgentId : Utf16) :
    Option W :=
  (hexToBytes (hexBody clientAgentId ++ hexBody providerAgentId)).map keccak.hash

/-- `(?::[^:]+)*` -/
def isParts : Utf16 → Bool
  | [] => true
  | c :: rest => c = unit ':' && (rest.splitOn (unit ':')).all (fun part => part ≠ [])

/-- `DECODED_RE.exec(text)`, its three groups. -/
def execDecoded (text : Utf16) : Option (Utf16 × Utf16 × Utf16) :=
  let chainId := text.takeWhile Json.isDigit
  match text.dropWhile Json.isDigit with
  | [] => none
  | c :: tail =>
    if chainId ≠ [] ∧ c = unit ':' ∧ isLowerAddress (tail.take 42) ∧ isParts (tail.drop 42) then
      some (chainId, tail.take 42, tail.drop 42)
    else none

/-- `Number(digits)` -/
def numberOfDigits (digits : Utf16) : Number :=
  Number.round (value 10 (digits.map Json.digitOf) : ℕ)

/-- `rest ? rest.slice(1).split(':') : []` -/
def partsOf (rest : Utf16) : List Utf16 :=
  if rest = [] then [] else (rest.drop 1).splitOn (unit ':')

def decodeChainScopedEntityId (id : Utf16) : Except Utf16 DecodedChainScopedId := do
  let text ← hexToUtf8 id
  match execDecoded text with
  | none => throw (lit "Not a chain-scoped entity id: " ++ text)
  | some (chainId, address, rest) =>
    pure { chainId := numberOfDigits chainId, address := address, parts := partsOf rest }

/-! ### Parts -/

/-- Parts behind their colons. -/
def joined (parts : List Utf16) : Utf16 := parts.flatMap (fun part => unit ':' :: part)

theorem intercalate_eq (s : Utf16) (parts : List Utf16) :
    [unit ':'].intercalate (s :: parts) = s ++ joined parts := by
  induction parts generalizing s with
  | nil => rw [List.intercalate_singleton, joined, List.flatMap_nil, List.append_nil]
  | cons part parts ih =>
    rw [List.intercalate_cons_cons, ih]
    simp [joined]

theorem joined_cons (part : Utf16) (parts : List Utf16) :
    joined (part :: parts) = unit ':' :: [unit ':'].intercalate (part :: parts) := by
  rw [intercalate_eq, joined, List.flatMap_cons, ← joined, List.cons_append]

theorem not_mem_of_mem_splitOn {s part : Utf16} {c : CodeUnit} (h : part ∈ s.splitOn c) :
    c ∉ part := by
  induction s generalizing part with
  | nil =>
    rw [List.splitOn_nil, List.mem_singleton] at h
    rw [h]
    exact List.not_mem_nil
  | cons d s ih =>
    rw [List.splitOn_cons_eq_if_modifyHead] at h
    by_cases hd : (d == c) = true
    · rw [if_pos hd, List.mem_cons] at h
      rcases h with rfl | h
      · exact List.not_mem_nil
      · exact ih h
    · rw [if_neg hd] at h
      cases hsplit : s.splitOn c with
      | nil => exact absurd hsplit (List.splitOn_ne_nil c s)
      | cons part' rest =>
        rw [hsplit, List.modifyHead_cons, List.mem_cons] at h
        rcases h with rfl | h
        · have hne : d ≠ c := by simpa using hd
          rw [List.mem_cons, not_or]
          exact ⟨hne.symm, ih (hsplit ▸ List.mem_cons_self)⟩
        · exact ih (hsplit ▸ List.mem_cons_of_mem part' h)

theorem partsOf_joined {parts : List Utf16} (h : ∀ part ∈ parts, unit ':' ∉ part) :
    partsOf (joined parts) = parts := by
  cases parts with
  | nil => rfl
  | cons part parts =>
    rw [joined_cons, partsOf, if_neg (List.cons_ne_nil _ _), List.drop_one, List.tail_cons]
    exact List.splitOn_intercalate _ h (List.cons_ne_nil _ _)

/-- **What is behind an address**: parts that are not empty and have no colon. -/
theorem isParts_iff {rest : Utf16} : isParts rest = true
    ↔ joined (partsOf rest) = rest ∧ ∀ part ∈ partsOf rest, part ≠ [] ∧ unit ':' ∉ part := by
  cases rest with
  | nil => exact iff_of_true rfl ⟨rfl, by simp [partsOf]⟩
  | cons c rest =>
    rw [isParts, partsOf, if_neg (List.cons_ne_nil _ _), List.drop_one, List.tail_cons,
      Bool.and_eq_true, decide_eq_true_eq, List.all_eq_true]
    cases hsplit : rest.splitOn (unit ':') with
    | nil => exact absurd hsplit (List.splitOn_ne_nil _ _)
    | cons part parts =>
      rw [joined_cons, ← hsplit, List.intercalate_splitOn, List.cons.injEq, eq_comm (a := c),
        and_iff_left rfl]
      refine and_congr_right (fun _ => forall₂_congr (fun p hp => ?_))
      rw [decide_eq_true_eq]
      exact (and_iff_left (not_mem_of_mem_splitOn hp)).symm

theorem isParts_joined {parts : List Utf16} (h : ∀ part ∈ parts, part ≠ [] ∧ unit ':' ∉ part) :
    isParts (joined parts) = true := by
  have hparts := partsOf_joined (fun part hpart => (h part hpart).2)
  rw [isParts_iff, hparts]
  exact ⟨rfl, h⟩

/-! ### The pattern -/

theorem length_of_isLowerAddress {a : Utf16} (h : isLowerAddress a = true) : a.length = 42 := by
  simp only [isLowerAddress, Bool.and_eq_true, decide_eq_true_eq] at h
  exact h.1.2

/-- The groups of a text with a chain id and an address in front. -/
theorem execDecoded_eq {c a : Utf16} (hne : c ≠ []) (hdigits : ∀ u ∈ c, Json.isDigit u = true)
    (haddress : isLowerAddress a = true) (rest : Utf16) :
    execDecoded (c ++ unit ':' :: (a ++ rest))
      = if isParts rest = true then some (c, a, rest) else none := by
  have hlength := length_of_isLowerAddress haddress
  have htake : (c ++ unit ':' :: (a ++ rest)).takeWhile Json.isDigit = c := by
    rw [List.takeWhile_append_of_pos hdigits, List.takeWhile_cons_of_neg (by decide),
      List.append_nil]
  have hdrop : (c ++ unit ':' :: (a ++ rest)).dropWhile Json.isDigit = unit ':' :: (a ++ rest) := by
    rw [List.dropWhile_append_of_pos hdigits, List.dropWhile_cons_of_neg (by decide)]
  rw [execDecoded, htake, hdrop]
  simp only [List.take_left' hlength, List.drop_left' hlength, haddress, hne, ne_eq,
    not_false_eq_true, true_and]

/-- **What the pattern matches.** -/
theorem execDecoded_iff {text c a rest : Utf16} : execDecoded text = some (c, a, rest)
    ↔ text = c ++ unit ':' :: (a ++ rest) ∧ c ≠ [] ∧ (∀ u ∈ c, Json.isDigit u = true)
      ∧ isLowerAddress a = true ∧ isParts rest = true := by
  constructor
  · intro h
    have hsplit : text.takeWhile Json.isDigit ++ text.dropWhile Json.isDigit = text :=
      List.takeWhile_append_dropWhile
    rw [execDecoded] at h
    cases hdrop : text.dropWhile Json.isDigit with
    | nil =>
      rw [hdrop] at h
      cases h
    | cons d tail =>
      rw [hdrop] at h hsplit
      simp only [Option.ite_none_right_eq_some, Option.some.injEq, Prod.mk.injEq] at h
      obtain ⟨⟨hne, rfl, haddress, hparts⟩, rfl, rfl, rfl⟩ := h
      refine ⟨?_, hne, fun u hu => List.mem_takeWhile_imp hu, haddress, hparts⟩
      rw [List.take_append_drop, hsplit]
  · rintro ⟨rfl, hne, hdigits, haddress, hparts⟩
    rw [execDecoded_eq hne hdigits haddress, if_pos hparts]

end Bufi.Graph
