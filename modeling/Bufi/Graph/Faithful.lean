import Bufi.Graph.Ids
import Bufi.Logic.Total
import Bufi.Subgraph.Ids

/-!
# Ids are read back

An id is read back where its text is: a chain id in decimal, without zeros in front, that is a
double, and parts that are not empty, have no colon and no surrogate without its partner
(`decode_iff`).  Where the bytes are not those of an id, reading mostly fails; the exceptions
are texts that are not written the way the client writes them.  The indexer writes the same
ids (`agentEntityId_eq`, `feedbackEntityId_eq`, `jobEntityId_eq`).
-/

namespace Bufi.Graph

open Bufi.Evm Bufi.Text Bufi.Js Bufi.Digits Bufi.Logic

/-! ### Texts of ids -/

theorem idText_eq (c a : Utf16) (parts : List Utf16) :
    idText c a parts = c ++ unit ':' :: (a ++ joined parts) := by
  rw [idText, intercalate_eq]
  simp [joined]

theorem lt_of_isDigit {c : CodeUnit} (h : Json.isDigit c = true) : c < 0x80 := by
  rw [Json.isDigit, Bool.and_eq_true, decide_eq_true_iff, decide_eq_true_iff,
    UInt16.le_iff_toNat_le, UInt16.le_iff_toNat_le] at h
  obtain ⟨-, hhi⟩ : 48 ≤ c.toNat ∧ c.toNat ≤ 57 := h
  rw [UInt16.lt_iff_toNat_lt]
  show c.toNat < 128
  omega

theorem lt_of_isLowerHexDigit {c : CodeUnit} (h : isLowerHexDigit c = true) : c < 0x80 := by
  rw [isLowerHexDigit, Bool.or_eq_true] at h
  rcases h with h | h
  · exact lt_of_isDigit h
  · rw [Bool.and_eq_true, decide_eq_true_iff, decide_eq_true_iff, UInt16.le_iff_toNat_le,
      UInt16.le_iff_toNat_le] at h
    obtain ⟨-, hhi⟩ : 97 ≤ c.toNat ∧ c.toNat ≤ 102 := h
    rw [UInt16.lt_iff_toNat_lt]
    show c.toNat < 128
    omega

theorem lt_of_mem_lowerAddress {a : Utf16} (h : isLowerAddress a = true) : ∀ c ∈ a, c < 0x80 := by
  simp only [isLowerAddress, Bool.and_eq_true, decide_eq_true_eq, List.all_eq_true] at h
  intro c hc
  rw [← List.take_append_drop 2 a, h.1.1, List.mem_append] at hc
  rcases hc with hc | hc
  · have hprefix : ∀ c ∈ lit "0x", c < 0x80 := List.all_iff_forall_prop.mp (by decide)
    exact hprefix c hc
  · exact lt_of_isLowerHexDigit (h.2 c hc)

theorem wellFormed_of_lt {s : Utf16} (h : ∀ c ∈ s, c < 0x80) : WellFormed s :=
  .of_forall (fun c hc => not_surrogate_of_lt (h c hc))

/-- Parts are encoded one by one. -/
theorem toWellFormed_joined (s : Utf16) (parts : List Utf16) :
    toWellFormed (s ++ joined parts) = toWellFormed s ++ joined (parts.map toWellFormed) := by
  induction parts generalizing s with
  | nil => simp [joined]
  | cons part parts ih =>
    have hcons : joined (part :: parts) = unit ':' :: (part ++ joined parts) := rfl
    rw [hcons, toWellFormed_append_cons (by decide) (by decide), ih]
    rfl

/-- The text that the bytes of an id are read as. -/
theorem toWellFormed_idText {c a : Utf16} (hc : ∀ u ∈ c, u < 0x80) (ha : ∀ u ∈ a, u < 0x80)
    (parts : List Utf16) :
    toWellFormed (idText c a parts) = idText c a (parts.map toWellFormed) := by
  rw [idText_eq, idText_eq, toWellFormed_append_cons (by decide) (by decide), toWellFormed_joined,
    wellFormed_iff.mp (wellFormed_of_lt hc), wellFormed_iff.mp (wellFormed_of_lt ha)]

/-- **The bytes of a text that begins with a digit are read as the text.** -/
theorem hexToUtf8_utf8ToHex {c : CodeUnit} (hc : Json.isDigit c = true) (rest : Utf16) :
    hexToUtf8 (lit "0x" ++ utf8ToHex (c :: rest)) = .ok (toWellFormed (c :: rest)) := by
  have hbody : hexBody (lit "0x" ++ utf8ToHex (c :: rest)) = utf8ToHex (c :: rest) := by
    rw [hexBody, if_pos (List.prefix_append _ _)]
    rfl
  have hmark : ¬[0xef, 0xbb, 0xbf] <+: utf8 (c :: rest) := by
    rw [utf8_cons_of_lt (lt_of_isDigit hc), List.cons_prefix_cons]
    rintro ⟨hfirst, -⟩
    have hnat : c.toNat < 128 := UInt16.lt_iff_toNat_lt.mp (lt_of_isDigit hc)
    have hbyte : (UInt8.ofNat c.toNat).toNat = c.toNat :=
      UInt8.toNat_ofNat_of_lt (hnat.trans (by decide))
    have heq : (239 : ℕ) = (UInt8.ofNat c.toNat).toNat := congrArg UInt8.toNat hfirst
    omega
  rw [hexToUtf8, hbody, utf8ToHex, hexToBytes_bytesToHex]
  simp only [decodeUtf8_utf8 hmark]
  rfl

/-! ### Writing -/

section

variable (numberText : Number → Utf16)

/-- A chain id that is accepted. -/
theorem requireChainId_eq_ok_iff {chainId : ChainScopedIdPart} {c : Utf16} :
    requireChainId numberText chainId = .ok c
      ↔ partText numberText chainId = c ∧ c ≠ [] ∧ ∀ u ∈ c, Json.isDigit u = true := by
  rw [requireChainId]
  simp only [List.all_eq_true]
  constructor
  · intro h
    split at h
    · next hok =>
      rw [Logic.pure_eq_ok] at h
      rw [← h]
      exact ⟨rfl, hok⟩
    · cases h
  · rintro ⟨rfl, hok⟩
    exact if_pos hok

theorem lt_of_isHexDigit {c : CodeUnit} (h : isHexDigit c = true) : c.toNat < 128 := by
  rw [isHexDigit, Json.hexOf] at h
  split at h
  · next hdigit => exact UInt16.lt_iff_toNat_lt.mp (lt_of_isDigit hdigit)
  split at h
  · next hlower =>
    rw [Bool.and_eq_true, decide_eq_true_iff, decide_eq_true_iff, UInt16.le_iff_toNat_le,
      UInt16.le_iff_toNat_le] at hlower
    obtain ⟨-, hhi⟩ : 97 ≤ c.toNat ∧ c.toNat ≤ 102 := hlower
    omega
  split at h
  · next hupper =>
    rw [Bool.and_eq_true, decide_eq_true_iff, decide_eq_true_iff, UInt16.le_iff_toNat_le,
      UInt16.le_iff_toNat_le] at hupper
    obtain ⟨-, hhi⟩ : 65 ≤ c.toNat ∧ c.toNat ≤ 70 := hupper
    omega
  · cases h

theorem isLowerHexDigit_lowerUnit {c : CodeUnit} (h : isHexDigit c = true) :
    isLowerHexDigit (lowerUnit c) = true := by
  have hall : ∀ n < 128, isHexDigit (UInt16.ofNat n) = true →
      isLowerHexDigit (lowerUnit (UInt16.ofNat n)) = true := by decide +kernel
  have hc := hall c.toNat (lt_of_isHexDigit h)
  rw [UInt16.ofNat_toNat] at hc
  exact hc h

theorem requireAddress_eq_ok_iff {address a : Utf16} :
    requireAddress address = .ok a ↔ isAddress address = true ∧ toLowerCase address = a := by
  rw [requireAddress]
  constructor
  · intro h
    split at h
    · next hok =>
      rw [Logic.pure_eq_ok] at h
      exact ⟨hok, h⟩
    · cases h
  · rintro ⟨hok, rfl⟩
    exact if_pos hok

theorem isLowerAddress_toLowerCase {address : Utf16} (h : isAddress address = true) :
    isLowerAddress (toLowerCase address) = true := by
  simp only [isAddress, isLowerAddress, Bool.and_eq_true, decide_eq_true_eq,
    List.all_eq_true] at h ⊢
  obtain ⟨⟨htake, hlength⟩, hall⟩ := h
  rw [toLowerCase, ← List.map_take, htake, List.length_map, hlength, ← List.map_drop]
  refine ⟨⟨by decide, rfl⟩, List.forall_mem_map.mpr (fun c hc => ?_)⟩
  exact isLowerHexDigit_lowerUnit (hall c hc)

/-- The id that is written. -/
structure Written (chainId : ChainScopedIdPart) (address : Utf16) (parts : List ChainScopedIdPart)
    (id c a : Utf16) : Prop where
  chain : partText numberText chainId = c
  ne_nil : c ≠ []
  digits : ∀ u ∈ c, Json.isDigit u = true
  isAddress : isAddress address = true
  lower : toLowerCase address = a
  id : id = lit "0x" ++ utf8ToHex (idText c a (parts.map (partText numberText)))

theorem chainScopedEntityId_eq_ok_iff {chainId : ChainScopedIdPart} {address id : Utf16}
    {parts : List ChainScopedIdPart} :
    chainScopedEntityId numberText chainId address parts = .ok id
      ↔ ∃ c a, Written numberText chainId address parts id c a := by
  rw [chainScopedEntityId]
  simp only [Logic.bind_eq_ok, Logic.pure_eq_ok, requireChainId_eq_ok_iff, requireAddress_eq_ok_iff]
  constructor
  · rintro ⟨c, ⟨hc, hne, hdigits⟩, a, ⟨haddress, hlower⟩, rfl⟩
    exact ⟨c, a, hc, hne, hdigits, haddress, hlower, rfl⟩
  · rintro ⟨c, a, h⟩
    exact ⟨c, ⟨h.chain, h.ne_nil, h.digits⟩, a, ⟨h.isAddress, h.lower⟩, h.id.symm⟩

/-! ### Reading what was written -/

/-- What can be read back: a chain id without zeros in front that is a double, and parts that
are not empty, have no colon and no surrogate without its partner. -/
structure Canonical (chainId : ChainScopedIdPart) (parts : List ChainScopedIdPart) : Prop where
  chainId : ∃ n : ℕ, partText numberText chainId = decimal n ∧ Number.round n = .ofNat n
  parts : ∀ part ∈ parts, partText numberText part ≠ [] ∧ unit ':' ∉ partText numberText part
    ∧ WellFormed (partText numberText part)

/-- What was read is the chain id, the address in lower case and the parts as strings. -/
structure IsRead (d : DecodedChainScopedId) (chainId : ChainScopedIdPart) (address : Utf16)
    (parts : List ChainScopedIdPart) : Prop where
  chainId : ∃ n : ℕ, d.chainId = .ofNat n ∧ partText numberText chainId = decimal n
  address : d.address = toLowerCase address
  parts : d.parts = parts.map (partText numberText)

/-- **Reading an id**, by its parts. -/
theorem decode_written {chainId : ChainScopedIdPart} {address id c a : Utf16}
    {parts : List ChainScopedIdPart} (h : Written numberText chainId address parts id c a)
    {d : DecodedChainScopedId} :
    decodeChainScopedEntityId id = .ok d
      ↔ isParts (joined ((parts.map (partText numberText)).map toWellFormed)) = true
        ∧ d = ⟨numberOfDigits c, a,
          partsOf (joined ((parts.map (partText numberText)).map toWellFormed))⟩ := by
  have haddress : isLowerAddress a = true := h.lower ▸ isLowerAddress_toLowerCase h.isAddress
  have htext : hexToUtf8 id
      = .ok (idText c a ((parts.map (partText numberText)).map toWellFormed)) := by
    rw [← toWellFormed_idText (fun u hu => lt_of_isDigit (h.digits u hu))
      (lt_of_mem_lowerAddress haddress), h.id]
    cases hc : c with
    | nil => exact absurd hc h.ne_nil
    | cons u rest =>
      rw [idText_eq, List.cons_append]
      exact hexToUtf8_utf8ToHex (h.digits u (hc ▸ List.mem_cons_self)) _
  rw [decodeChainScopedEntityId, htext, idText_eq]
  generalize joined ((parts.map (partText numberText)).map toWellFormed) = rest
  rw [Logic.bind_eq_ok]
  simp only [Except.ok.injEq, exists_eq_left', execDecoded_eq h.ne_nil h.digits haddress]
  cases hparts : isParts rest with
  | false => exact iff_of_false (by intro hd; cases hd) (by simp)
  | true =>
    simp only [if_true, true_and, Logic.pure_eq_ok]
    exact eq_comm

/-- Parts that are read back are well formed. -/
theorem eq_of_joined_toWellFormed {parts : List Utf16}
    (h : joined (parts.map toWellFormed) = joined parts) : ∀ part ∈ parts, WellFormed part := by
  induction parts with
  | nil =>
    intro part hpart
    cases hpart
  | cons part parts ih =>
    have hcons : ∀ (p : Utf16) (l : List Utf16), joined (p :: l) = unit ':' :: (p ++ joined l) :=
      fun _ _ => rfl
    rw [List.map_cons, hcons, hcons, List.cons.injEq] at h
    obtain ⟨hpart, hrest⟩ := List.append_inj h.2 (length_toWellFormed part)
    exact List.forall_mem_cons.mpr ⟨wellFormed_iff.mpr hpart, ih hrest⟩

theorem map_toWellFormed {parts : List Utf16} (h : ∀ part ∈ parts, WellFormed part) :
    parts.map toWellFormed = parts :=
  (List.map_congr_left (fun part hpart => wellFormed_iff.mp (h part hpart))).trans (List.map_id _)

theorem numberOfDigits_decimal (n : ℕ) : numberOfDigits (decimal n) = Number.round n := by
  rw [numberOfDigits, map_digitOf_decimal, value_decimalDigits]

/-- **When an id is read back.** -/
theorem decode_iff {chainId : ChainScopedIdPart} {address id : Utf16}
    {parts : List ChainScopedIdPart}
    (h : chainScopedEntityId numberText chainId address parts = .ok id) :
    (∃ d, decodeChainScopedEntityId id = .ok d ∧ IsRead numberText d chainId address parts)
      ↔ Canonical numberText chainId parts := by
  obtain ⟨c, a, hwritten⟩ := (chainScopedEntityId_eq_ok_iff numberText).mp h
  simp only [decode_written numberText hwritten]
  constructor
  · rintro ⟨d, ⟨hparts, rfl⟩, ⟨n, hn, hchain⟩, -, hread⟩
    obtain ⟨hjoined, hall⟩ := isParts_iff.mp hparts
    dsimp only at hn hread
    rw [hread] at hjoined hall
    have hwell := eq_of_joined_toWellFormed hjoined.symm
    refine ⟨⟨n, hchain, ?_⟩, fun part hpart => ?_⟩
    · rw [← numberOfDigits_decimal, ← hchain, hwritten.chain, hn]
    · have hmem : partText numberText part ∈ parts.map (partText numberText) :=
        List.mem_map.mpr ⟨part, hpart, rfl⟩
      exact ⟨(hall _ hmem).1, (hall _ hmem).2, hwell _ hmem⟩
  · rintro ⟨⟨n, hchain, hround⟩, hparts⟩
    have hall : ∀ part ∈ parts.map (partText numberText),
        part ≠ [] ∧ unit ':' ∉ part ∧ WellFormed part := List.forall_mem_map.mpr hparts
    have hsame := map_toWellFormed (fun part hpart => (hall part hpart).2.2)
    rw [hsame]
    have hshape : ∀ part ∈ parts.map (partText numberText), part ≠ [] ∧ unit ':' ∉ part :=
      fun part hpart => ⟨(hall part hpart).1, (hall part hpart).2.1⟩
    refine ⟨_, ⟨isParts_joined hshape, rfl⟩, ⟨n, ?_, hchain⟩, hwritten.lower.symm,
      partsOf_joined (fun part hpart => (hshape part hpart).2)⟩
    rw [← hwritten.chain, hchain, numberOfDigits_decimal, hround]

/-- **Different ids**, where they can be read back. -/
theorem eq_of_chainScopedEntityId_eq {chainId chainId' : ChainScopedIdPart}
    {address address' id : Utf16} {parts parts' : List ChainScopedIdPart}
    (h : chainScopedEntityId numberText chainId address parts = .ok id)
    (h' : chainScopedEntityId numberText chainId' address' parts' = .ok id)
    (hcanonical : Canonical numberText chainId parts)
    (hcanonical' : Canonical numberText chainId' parts') :
    partText numberText chainId = partText numberText chainId'
      ∧ toLowerCase address = toLowerCase address'
      ∧ parts.map (partText numberText) = parts'.map (partText numberText) := by
  obtain ⟨d, hd, hread⟩ := (decode_iff numberText h).mpr hcanonical
  obtain ⟨d', hd', hread'⟩ := (decode_iff numberText h').mpr hcanonical'
  obtain rfl := Except.ok.inj (hd.symm.trans hd')
  obtain ⟨n, hn, hchain⟩ := hread.chainId
  obtain ⟨n', hn', hchain'⟩ := hread'.chainId
  have hnat : n = n' := by exact_mod_cast Number.ofInt_injective (hn.symm.trans hn')
  exact ⟨by rw [hchain, hchain', hnat], hread.address.symm.trans hread'.address,
    hread.parts.symm.trans hread'.parts⟩

/-! ### Reading anything -/

/-- A hexadecimal text that is read although the client does not write it: its text has the
pattern of an id, and is written in another way. -/
def Stray (hex : Utf16) : Prop :=
  ∃ text, hexToUtf8 hex = .ok text ∧ (execDecoded text).isSome = true
    ∧ hex ≠ lit "0x" ++ utf8ToHex text

theorem isHexDigit_of_isLowerHexDigit {c : CodeUnit} (h : isLowerHexDigit c = true) :
    isHexDigit c = true ∧ lowerUnit c = c := by
  have hall : ∀ n < 128, isLowerHexDigit (UInt16.ofNat n) = true →
      isHexDigit (UInt16.ofNat n) = true ∧ lowerUnit (UInt16.ofNat n) = UInt16.ofNat n := by
    decide +kernel
  have hc := hall c.toNat (UInt16.lt_iff_toNat_lt.mp (lt_of_isLowerHexDigit h))
  rw [UInt16.ofNat_toNat] at hc
  exact hc h

/-- A lower-case address is its own. -/
theorem requireAddress_of_isLowerAddress {a : Utf16} (h : isLowerAddress a = true) :
    requireAddress a = .ok a := by
  rw [requireAddress_eq_ok_iff]
  simp only [isAddress, isLowerAddress, Bool.and_eq_true, decide_eq_true_eq,
    List.all_eq_true] at h ⊢
  obtain ⟨⟨htake, hlength⟩, hall⟩ := h
  refine ⟨⟨⟨htake, hlength⟩, fun c hc => (isHexDigit_of_isLowerHexDigit (hall c hc)).1⟩, ?_⟩
  have hprefix : ∀ c ∈ lit "0x", lowerUnit c = c := List.all_iff_forall_prop.mp (by decide)
  rw [toLowerCase]
  refine (List.map_congr_left (fun c hc => ?_)).trans (List.map_id _)
  rw [← List.take_append_drop 2 a, htake, List.mem_append] at hc
  rcases hc with hc | hc
  · exact hprefix c hc
  · exact (isHexDigit_of_isLowerHexDigit (hall c hc)).2

/-- **What is read was written**, unless it is stray. -/
theorem exists_of_decode_iff {hex : Utf16} :
    (Returns (decodeChainScopedEntityId hex) →
        ∃ chainId address parts, chainScopedEntityId numberText chainId address parts = .ok hex)
      ↔ ¬Stray hex := by
  constructor
  · rintro hexists ⟨text, htext, hexec, hne⟩
    obtain ⟨⟨c, a, rest⟩, hgroups⟩ := Option.isSome_iff_exists.mp hexec
    obtain ⟨chainId, address, parts, hid⟩ := hexists ⟨_, by
      rw [decodeChainScopedEntityId, htext]
      simp only [bind, Except.bind, hgroups]
      rfl⟩
    obtain ⟨c', a', hwritten⟩ := (chainScopedEntityId_eq_ok_iff numberText).mp hid
    -- the text that was written has the bytes of the text that was read
    cases hc : c' with
    | nil => exact hwritten.ne_nil hc
    | cons u c'' =>
      have hread := hexToUtf8_utf8ToHex (hwritten.digits u (hc ▸ List.mem_cons_self))
        (c'' ++ unit ':' :: (a' ++ joined (parts.map (partText numberText))))
      have hidText : idText c' a' (parts.map (partText numberText))
          = u :: (c'' ++ unit ':' :: (a' ++ joined (parts.map (partText numberText)))) := by
        rw [idText_eq, hc, List.cons_append]
      rw [← hidText, ← hwritten.id, htext, Except.ok.injEq] at hread
      refine hne ?_
      rw [hwritten.id, hread, utf8ToHex, utf8ToHex, utf8_toWellFormed]
  · rintro hstray ⟨d, hd⟩
    rw [decodeChainScopedEntityId, Logic.bind_eq_ok] at hd
    obtain ⟨text, htext, hd⟩ := hd
    cases hexec : execDecoded text with
    | none =>
      rw [hexec] at hd
      cases hd
    | some groups =>
      obtain ⟨c, a, rest⟩ := groups
      obtain ⟨htextEq, hne, hdigits, haddress, hparts⟩ := execDecoded_iff.mp hexec
      have hhex : hex = lit "0x" ++ utf8ToHex text := by
        by_contra hnot
        exact hstray ⟨text, htext, by rw [hexec]; rfl, hnot⟩
      have hmap : ((partsOf rest).map ChainScopedIdPart.text).map (partText numberText)
          = partsOf rest := by
        rw [List.map_map]
        exact List.map_id _
      refine ⟨.text c, a, (partsOf rest).map .text, ?_⟩
      rw [chainScopedEntityId_eq_ok_iff]
      obtain ⟨hok, hlower⟩ :=
        requireAddress_eq_ok_iff.mp (requireAddress_of_isLowerAddress haddress)
      refine ⟨c, a, rfl, hne, hdigits, hok, hlower, ?_⟩
      rw [hmap, idText_eq, (isParts_iff.mp hparts).1, ← htextEq]
      exact hhex

/-! ### The ids of the indexer -/

/-- A natural number as it is given: a `bigint`, its decimal text, or a number. -/
inductive Spells : ChainScopedIdPart → ℕ → Prop
  | bigint (n : ℕ) : Spells (.bigint n) n
  | text (n : ℕ) : Spells (.text (decimal n)) n
  | number (n : ℕ) (h : n < 2 ^ 53) : Spells (.number (.ofNat n)) n

/-- An address as it is given, in any case. -/
structure SpellsAddress (s : Utf16) (a : Address) : Prop where
  isAddress : isAddress s = true
  lower : toLowerCase s = asciiText (Subgraph.hexText a)

theorem partText_of_spells {part : ChainScopedIdPart} {n : ℕ} (h : Spells part n) :
    partText numberText part = decimal n := by
  have hint : intDecimal n = decimal n := by
    rw [intDecimal, if_neg (by omega), Int.natAbs_natCast]
  cases h with
  | bigint => exact hint
  | text => rfl
  | number _ hlt =>
    have habs : |(n : ℤ)| < 2 ^ 53 := by
      rw [Nat.abs_cast]
      exact_mod_cast hlt
    rw [partText, Number.ofNat, finiteText_ofInt numberText habs]
    exact hint

theorem asciiText_append (a b : Bytes) : asciiText (a ++ b) = asciiText a ++ asciiText b :=
  List.map_append

theorem digitChar_toNat : ∀ d < 10,
    UInt16.ofNat (UInt8.ofNat (Nat.digitChar d).toNat).toNat = digit d := by
  decide +kernel

theorem asciiText_toDigits (n : ℕ) :
    asciiText ((Nat.toDigits 10 n).map (fun c => UInt8.ofNat c.toNat))
      = (decimalDigits n).map digit := by
  induction n using Nat.strong_induction_on with
  | _ n ih =>
    by_cases hlt : n < 10
    · rw [Nat.toDigits_of_lt_base hlt]
      have hdigits : decimalDigits n = [n] := by
        rw [decimalDigits]
        split
        · next hzero => rw [hzero]
        · next hzero =>
          rw [numeral_eq_append (by decide) (by omega), Nat.div_eq_of_lt hlt, numeral_zero,
            Nat.mod_eq_of_lt hlt, List.nil_append]
      rw [hdigits]
      simp only [asciiText, List.map_cons, List.map_nil, digitChar_toNat n hlt]
    · have hdigits : decimalDigits n = decimalDigits (n / 10) ++ [n % 10] := by
        rw [decimalDigits, if_neg (by omega), decimalDigits, if_neg (by omega),
          numeral_eq_append (by decide) (by omega)]
      rw [Nat.toDigits_of_base_le (by decide) (by omega), List.map_append, asciiText_append,
        ih (n / 10) (by omega), hdigits, List.map_append]
      simp only [asciiText, List.map_cons, List.map_nil,
        digitChar_toNat (n % 10) (Nat.mod_lt _ (by decide))]

/-- Both write a number in the same way. -/
theorem asciiText_decimal (n : ℕ) : asciiText (Subgraph.decimal n) = decimal n := by
  rw [Subgraph.decimal, asciiText_toDigits, decimal_eq]

theorem lt_of_mem_decimal {n : ℕ} : ∀ c ∈ Subgraph.decimal n, c < 0x80 := by
  intro c hc
  obtain ⟨ch, hch, rfl⟩ := List.mem_map.mp hc
  have hdigit := Subgraph.digit_toNat hch
  rw [UInt8.lt_iff_toNat_lt, Subgraph.toNat_ofNat_digit hch]
  show ch.toNat < 128
  omega

theorem hexDigit_lt : ∀ n < 16, Subgraph.hexDigit n < 0x80 := by decide

theorem lt_of_mem_hexText {a : Address} : ∀ c ∈ Subgraph.hexText a, c < 0x80 := by
  intro c hc
  rw [Subgraph.hexText, List.mem_cons, List.mem_cons] at hc
  rcases hc with rfl | rfl | hc
  · decide
  · decide
  · obtain ⟨i, -, rfl⟩ := List.mem_map.mp hc
    exact hexDigit_lt _ (Nat.mod_lt _ (by decide))

/-- A byte string as the gateway takes it. -/
def bytesValue (b : Bytes) : Utf16 := lit "0x" ++ bytesToHex b

/-- The client writes the bytes of the indexer. -/
theorem chainScopedEntityId_eq {chainId : ChainScopedIdPart} {registry : Utf16} {n : ℕ}
    {contract : Address} {parts : List ChainScopedIdPart} (bytes : List Bytes)
    (hchain : Spells chainId n) (hregistry : SpellsAddress registry contract)
    (hparts : parts.map (partText numberText) = bytes.map asciiText)
    (hlt : ∀ b ∈ bytes, ∀ c ∈ b, c < 0x80) :
    chainScopedEntityId numberText chainId registry parts = .ok
      (bytesValue (Subgraph.registryEntityId n contract
        ++ bytes.flatMap (fun b => Subgraph.colon :: b))) := by
  have htext : idText (decimal n) (asciiText (Subgraph.hexText contract)) (bytes.map asciiText)
      = asciiText (Subgraph.registryEntityId n contract
        ++ bytes.flatMap (fun b => Subgraph.colon :: b)) := by
    rw [idText_eq, Subgraph.registryEntityId, asciiText_append, asciiText_append, asciiText_decimal,
      joined, List.flatMap_map, asciiText, asciiText, asciiText, List.map_flatMap]
    simp only [List.map_cons, List.append_assoc, List.cons_append]
    rfl
  have hascii : ∀ c ∈ Subgraph.registryEntityId n contract
      ++ bytes.flatMap (fun b => Subgraph.colon :: b), c < 0x80 := by
    intro c hc
    rw [Subgraph.registryEntityId, List.mem_append, List.mem_append, List.mem_cons] at hc
    rcases hc with (hc | rfl | hc) | hc
    · exact lt_of_mem_decimal c hc
    · decide
    · exact lt_of_mem_hexText c hc
    · obtain ⟨b, hb, hc⟩ := List.mem_flatMap.mp hc
      rcases List.mem_cons.mp hc with rfl | hc
      · decide
      · exact hlt b hb c hc
  rw [chainScopedEntityId_eq_ok_iff]
  refine ⟨decimal n, asciiText (Subgraph.hexText contract), partText_of_spells numberText hchain,
    ?_, fun u hu => isDigit_of_mem_decimal hu, hregistry.isAddress, hregistry.lower, ?_⟩
  · obtain ⟨u, rest, hcons, -⟩ := decimal_cons n
    rw [hcons]
    exact List.cons_ne_nil u rest
  · rw [hparts, htext, utf8ToHex, utf8_asciiText hascii]
    rfl

variable {W : Type} (D : Subgraph.Deployment W)

theorem agentEntityId_eq {chainId agentId : ChainScopedIdPart} {registry : Utf16} {n : ℕ}
    (hchain : Spells chainId D.chainId) (hregistry : SpellsAddress registry D.identityRegistry)
    (hagent : Spells agentId n) : agentEntityId numberText chainId registry agentId
      = .ok (bytesValue (Subgraph.agentEntityId D n)) := by
  rw [agentEntityId, chainScopedEntityId_eq numberText [Subgraph.decimal n] hchain hregistry]
  · rw [Subgraph.agentEntityId, List.flatMap_singleton]
  · rw [List.map_singleton, List.map_singleton, partText_of_spells numberText hagent,
      asciiText_decimal]
  · exact List.forall_mem_singleton.mpr lt_of_mem_decimal

theorem jobEntityId_eq {chainId jobId : ChainScopedIdPart} {contract : Utf16} {n : ℕ}
    (hchain : Spells chainId D.chainId) (hcontract : SpellsAddress contract D.agenticCommerce)
    (hjob : Spells jobId n) : jobEntityId numberText chainId contract jobId
      = .ok (bytesValue (Subgraph.jobEntityId D n)) := by
  rw [jobEntityId, chainScopedEntityId_eq numberText [Subgraph.decimal n] hchain hcontract]
  · rw [Subgraph.jobEntityId, List.flatMap_singleton]
  · rw [List.map_singleton, List.map_singleton, partText_of_spells numberText hjob,
      asciiText_decimal]
  · exact List.forall_mem_singleton.mpr lt_of_mem_decimal

theorem feedbackEntityId_eq {chainId agentId feedbackIndex : ChainScopedIdPart}
    {registry clientText : Utf16} {client : Address} {n k : ℕ}
    (hchain : Spells chainId D.chainId) (hregistry : SpellsAddress registry D.reputationRegistry)
    (hagent : Spells agentId n) (hclient : SpellsAddress clientText client)
    (hindex : Spells feedbackIndex k) :
    feedbackEntityId numberText chainId registry agentId clientText feedbackIndex
      = .ok (bytesValue (Subgraph.feedbackEntityId D n client k)) := by
  have haddress : requireAddress clientText = .ok (asciiText (Subgraph.hexText client)) :=
    requireAddress_eq_ok_iff.mpr ⟨hclient.isAddress, hclient.lower⟩
  rw [feedbackEntityId, haddress]
  refine (chainScopedEntityId_eq numberText
    [Subgraph.decimal n, Subgraph.hexText client, Subgraph.decimal k] hchain hregistry
    ?_ ?_).trans ?_
  · simp only [List.map_cons, List.map_nil, partText_of_spells numberText hagent,
      partText_of_spells numberText hindex, asciiText_decimal]
    rfl
  · simp only [List.forall_mem_cons]
    exact ⟨lt_of_mem_decimal, lt_of_mem_hexText, lt_of_mem_decimal, List.forall_mem_nil _⟩
  · rw [Subgraph.feedbackEntityId]
    simp

theorem engagementEntityId_eq (a b : Bytes) :
    engagementEntityId D.keccak (bytesValue a) (bytesValue b)
      = some (Subgraph.engagementId D a b) := by
  have hbody : ∀ b, hexBody (bytesValue b) = bytesToHex b := by
    intro b
    rw [hexBody, bytesValue, if_pos (List.prefix_append _ _)]
    rfl
  rw [engagementEntityId, hbody, hbody, ← bytesToHex_append, hexToBytes_bytesToHex]
  rfl

/-- The client writes the ids of the indexer. -/
structure SameIds : Prop where
  agent : ∀ chainId registry agentId n, Spells chainId D.chainId →
    SpellsAddress registry D.identityRegistry → Spells agentId n →
    agentEntityId numberText chainId registry agentId
      = .ok (bytesValue (Subgraph.agentEntityId D n))
  job : ∀ chainId contract jobId n, Spells chainId D.chainId →
    SpellsAddress contract D.agenticCommerce → Spells jobId n →
    jobEntityId numberText chainId contract jobId = .ok (bytesValue (Subgraph.jobEntityId D n))
  feedback : ∀ chainId registry agentId n clientText client feedbackIndex k,
    Spells chainId D.chainId → SpellsAddress registry D.reputationRegistry → Spells agentId n →
    SpellsAddress clientText client → Spells feedbackIndex k →
    feedbackEntityId numberText chainId registry agentId clientText feedbackIndex
      = .ok (bytesValue (Subgraph.feedbackEntityId D n client k))
  engagement : ∀ m n, engagementEntityId D.keccak (bytesValue (Subgraph.agentEntityId D m))
      (bytesValue (Subgraph.agentEntityId D n))
    = some (Subgraph.engagementId D (Subgraph.agentEntityId D m) (Subgraph.agentEntityId D n))

/-- **When ids are faithful.**  What was written is read back exactly if it is canonical;
canonical ids are different; what is read was written, unless it is stray; and the client
writes the ids of the indexer. -/
theorem chainScopedEntityId_faithful_iff :
    (∀ chainId address parts id, chainScopedEntityId numberText chainId address parts = .ok id →
        ((∃ d, decodeChainScopedEntityId id = .ok d
            ∧ IsRead numberText d chainId address parts)
          ↔ Canonical numberText chainId parts))
      ∧ (∀ chainId chainId' address address' parts parts' id,
        chainScopedEntityId numberText chainId address parts = .ok id →
        chainScopedEntityId numberText chainId' address' parts' = .ok id →
        Canonical numberText chainId parts → Canonical numberText chainId' parts' →
        partText numberText chainId = partText numberText chainId'
          ∧ toLowerCase address = toLowerCase address'
          ∧ parts.map (partText numberText) = parts'.map (partText numberText))
      ∧ (∀ hex, (Returns (decodeChainScopedEntityId hex) → ∃ chainId address parts,
          chainScopedEntityId numberText chainId address parts = .ok hex) ↔ ¬Stray hex)
      ∧ SameIds numberText D := by
  refine ⟨?_, ?_, ?_, ?_⟩
  · intro chainId address parts id h
    exact decode_iff numberText h
  · intro chainId chainId' address address' parts parts' id h h' hcanonical hcanonical'
    exact eq_of_chainScopedEntityId_eq numberText h h' hcanonical hcanonical'
  · intro hex
    exact exists_of_decode_iff numberText
  · exact
      { agent := fun _ _ _ _ => agentEntityId_eq numberText D
        job := fun _ _ _ _ => jobEntityId_eq numberText D
        feedback := fun _ _ _ _ _ _ _ _ => feedbackEntityId_eq numberText D
        engagement := fun _ _ => engagementEntityId_eq D _ _ }

end

/-! ### A part with a colon -/

def zeroAddress : Utf16 := lit "0x0000000000000000000000000000000000000000"

/-- A part with a colon is read as two parts, whose id is the same. -/
theorem chainScopedEntityId_colon :
    chainScopedEntityId (fun _ => []) (.bigint 1) zeroAddress [.text (lit "a:b")]
        = chainScopedEntityId (fun _ => []) (.bigint 1) zeroAddress
          [.text (lit "a"), .text (lit "b")]
      ∧ (chainScopedEntityId (fun _ => []) (.bigint 1) zeroAddress [.text (lit "a:b")]).bind
          decodeChainScopedEntityId
        = .ok ⟨.ofInt 1, zeroAddress, [lit "a", lit "b"]⟩ := by
  decide +kernel

end Bufi.Graph
