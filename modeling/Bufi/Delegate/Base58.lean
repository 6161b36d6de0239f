import Bufi.Delegate.Codec
import Bufi.Text.Digits
import Mathlib.Data.Bool.AllAny

/-!
# Base58 keys

`base58ToBytes32` and `bytesToBase58` of the treasury server.  The encoder writes a `1`
for each zero byte in front and then the number of the rest; the decoder reads one number
and fills it up to 32 bytes.  So a key is read back (`base58ToBytes32_bytesToBase58`), but
ones in front are not counted: a text is the encoding of the key that it is read as
exactly if it stands for 32 bytes (`base58_canonical_iff`).
-/

namespace Bufi.Delegate

open Bufi.Evm Bufi.Js Bufi.Digits

def B58 : List Char := "123456789ABCDEFGHJKLMNPQRSTUVWXYZabcdefghijkmnopqrstuvwxyz".toList

inductive Base58Error
  | badBase58 (s : String)
  | notKey (s : String)
  deriving DecidableEq

def Base58Error.text : Base58Error → String
  | badBase58 s => "bad base58: " ++ s
  | notKey s => "not a 32-byte key: " ++ s

/-- The loop over the characters of `s`; `B58.indexOf(c)` is negative for a character
that is not in the alphabet. -/
def base58Number (s : String) : List Char → ℕ → Except Base58Error ℕ
  | [], n => pure n
  | c :: rest, n => do
    require (c ∈ B58) (.badBase58 s)
    base58Number s rest (n * 58 + B58.idxOf c)

def base58ToBytes32 (s : String) : Except Base58Error Bytes := do
  let n ← base58Number s s.toList 0
  -- `n.toString(16).padStart(64, '0')`
  let hex := (Nat.toDigits 16 n).leftpad 64 '0'
  require (hex.length = 64) (.notKey s)
  pure (bufferFromHex hex)

/-- `while (n > 0n)`; every turn makes `n` smaller, so `n` turns are enough. -/
def base58Loop : ℕ → ℕ → List Char → List Char
  | 0, _, out => out
  | fuel + 1, n, out =>
    if 0 < n then base58Loop fuel (n / 58) (B58.getD (n % 58) '1' :: out) else out

/-- `for (const byte of b)` -/
def leadingOnes : Bytes → List Char → List Char
  | [], out => out
  | byte :: b, out => if byte ≠ 0 then out else leadingOnes b ('1' :: out)

/-- The number is that of the bytes, `` BigInt(`0x${b.toString('hex') || '0'}`) ``. -/
def bytesToBase58 (b : Bytes) : String :=
  let n := beNat b
  String.ofList (leadingOnes b (base58Loop n n []))

/-! ### Digits -/

/-- The digit of a character. -/
def digit58 (c : Char) : ℕ := B58.idxOf c

/-- The character of a digit. -/
def char58 (d : ℕ) : Char := B58.getD d '1'

theorem digit58_char58 : ∀ d < 58, digit58 (char58 d) = d := by decide

theorem char58_digit58 : ∀ c ∈ B58, char58 (digit58 c) = c :=
  List.all_iff_forall_prop.mp (by decide)

theorem digit58_lt : ∀ c ∈ B58, digit58 c < 58 :=
  List.all_iff_forall_prop.mp (by decide)

theorem char58_mem : ∀ d < 58, char58 d ∈ B58 := by decide

/-- **The number of a text.** -/
theorem base58Number_eq_ok {s : String} {l : List Char} {n m : ℕ} :
    base58Number s l n = .ok m
      ↔ (∀ c ∈ l, c ∈ B58) ∧ m = (l.map digit58).foldl (fun n d => n * 58 + d) n := by
  induction l generalizing n with
  | nil =>
    rw [base58Number, pure_eq_ok]
    simp
  | cons c l ih =>
    simp only [base58Number, bind_eq_ok, require_eq_ok, exists_const, ih, List.forall_mem_cons,
      List.map_cons, List.foldl_cons, and_assoc]
    rfl

theorem base58Loop_eq (fuel n : ℕ) (out : List Char) (h : n ≤ fuel) :
    base58Loop fuel n out = (numeral 58 n).map char58 ++ out := by
  induction fuel generalizing n out with
  | zero =>
    obtain rfl : n = 0 := by omega
    simp [base58Loop]
  | succ fuel ih =>
    rw [base58Loop]
    by_cases hn : 0 < n
    · rw [if_pos hn, ih _ _ (by omega), numeral_eq_append (by decide) hn, List.map_append,
        List.append_assoc]
      rfl
    · obtain rfl : n = 0 := by omega
      simp

theorem leadingOnes_eq (b : Bytes) (out : List Char) :
    leadingOnes b out = List.replicate (b.takeWhile (· == 0)).length '1' ++ out := by
  induction b generalizing out with
  | nil => rfl
  | cons byte b ih =>
    rw [leadingOnes]
    by_cases hb : byte = 0
    · rw [if_neg (by simp [hb]), ih, List.takeWhile_cons_of_pos (by simp [hb]), List.length_cons,
        List.replicate_succ', List.append_assoc]
      rfl
    · rw [if_pos hb, List.takeWhile_cons_of_neg (by simpa using hb)]
      rfl

/-! ### Bytes -/

theorem beNat_eq_value (b : Bytes) : beNat b = value 256 (b.map UInt8.toNat) := by
  rw [beNat, value, List.foldl_map]

theorem hexValue_digitChar : ∀ d < 16, hexValue d.digitChar = d := by decide

theorem hexValue_toDigits (n : ℕ) : ∀ c ∈ Nat.toDigits 16 n, hexValue c < 16 := by
  induction n using Nat.strong_induction_on with
  | _ n ih =>
    by_cases hn : n < 16
    · rw [Nat.toDigits_of_lt_base hn]
      intro c hc
      rw [List.mem_singleton.mp hc, hexValue_digitChar n hn]
      exact hn
    · rw [Nat.toDigits_of_base_le (by decide) (by omega)]
      intro c hc
      obtain hc | hc := List.mem_append.mp hc
      · exact ih (n / 16) (by omega) c hc
      · rw [List.mem_singleton.mp hc, hexValue_digitChar _ (Nat.mod_lt n (by decide))]
        exact Nat.mod_lt n (by decide)

theorem value_toDigits (n : ℕ) : value 16 ((Nat.toDigits 16 n).map hexValue) = n := by
  induction n using Nat.strong_induction_on with
  | _ n ih =>
    by_cases hn : n < 16
    · rw [Nat.toDigits_of_lt_base hn, List.map_singleton, hexValue_digitChar n hn]
      simp [value]
    · rw [Nat.toDigits_of_base_le (by decide) (by omega), List.map_append, List.map_singleton,
        value_concat, ih (n / 16) (by omega), hexValue_digitChar _ (Nat.mod_lt n (by decide))]
      omega

theorem bufferFromHex_spec {ds : List Char} (h : ∀ c ∈ ds, hexValue c < 16)
    (heven : ds.length % 2 = 0) :
    (bufferFromHex ds).length = ds.length / 2
      ∧ beNat (bufferFromHex ds) = value 16 (ds.map hexValue) := by
  fun_induction bufferFromHex ds with
  | case1 a b rest hab ih =>
    obtain ⟨hlen, hval⟩ := ih (fun c hc => h c (by simp [hc])) (by simp at heven; omega)
    have hpow : 256 ^ (rest.length / 2) = 16 ^ rest.length := by
      rw [show (256 : ℕ) = 16 ^ 2 by rfl, ← pow_mul]
      congr 1
      simp at heven
      omega
    constructor
    · rw [List.length_cons, hlen, List.length_cons, List.length_cons]
      omega
    · rw [beNat_cons, hlen, hval, hpow, UInt8.toNat_ofNat_of_lt' (by show _ < 256; omega),
        List.map_cons, List.map_cons, value_cons, value_cons, List.length_cons, List.length_map,
        pow_succ]
      ring
  | case2 a b rest hab =>
    exact absurd ⟨h a (by simp), h b (by simp)⟩ hab
  | case3 ds hds =>
    cases ds with
    | nil => exact ⟨rfl, rfl⟩
    | cons a rest =>
      cases rest with
      | nil => simp at heven
      | cons b rest => exact absurd rfl (hds a b rest)

/-- The number of a text whose characters are in the alphabet. -/
def number58 (s : String) : ℕ := value 58 (s.toList.map digit58)

/-- **What the decoder accepts, and what it gives.** -/
theorem base58ToBytes32_eq_ok {s : String} {key : Bytes} :
    base58ToBytes32 s = .ok key
      ↔ (∀ c ∈ s.toList, c ∈ B58) ∧ number58 s < 256 ^ 32 ∧ key = beBytes 32 (number58 s) := by
  have hlength : ∀ n, ((Nat.toDigits 16 n).leftpad 64 '0').length = 64 ↔ n < 256 ^ 32 := by
    intro n
    rw [List.length_leftpad, show (256 : ℕ) ^ 32 = 16 ^ 64 by rfl,
      ← Nat.length_toDigits_le_iff (by decide) (by decide)]
    omega
  have hhex : ∀ n < 256 ^ 32,
      bufferFromHex ((Nat.toDigits 16 n).leftpad 64 '0') = beBytes 32 n := by
    intro n hlt
    have hpad := (hlength n).mpr hlt
    have hdigits : ∀ c ∈ (Nat.toDigits 16 n).leftpad 64 '0', hexValue c < 16 := by
      intro c hc
      obtain hc | hc := List.mem_append.mp hc
      · rw [List.eq_of_mem_replicate hc]
        decide
      · exact hexValue_toDigits n c hc
    have hval : value 16 (((Nat.toDigits 16 n).leftpad 64 '0').map hexValue) = n := by
      rw [List.leftpad, List.map_append, List.map_replicate]
      exact (value_replicate_append _ _).trans (value_toDigits n)
    obtain ⟨hl, hv⟩ := bufferFromHex_spec hdigits (by rw [hpad])
    refine beNat_inj ?_ ?_
    · rw [hl, hpad, beBytes_length]
    · rw [hv, hval, beNat_beBytes, Nat.mod_eq_of_lt hlt]
  simp only [base58ToBytes32, bind_eq_ok, base58Number_eq_ok, require_eq_ok, exists_const, pure_eq_ok]
  constructor
  · rintro ⟨_, ⟨hall, rfl⟩, hlen, rfl⟩
    exact ⟨hall, (hlength _).mp hlen, hhex _ ((hlength _).mp hlen)⟩
  · rintro ⟨hall, hlt, rfl⟩
    exact ⟨_, ⟨hall, rfl⟩, (hlength _).mpr hlt, (hhex _ hlt).symm⟩

/-! ### The two ways -/

theorem bytesToBase58_eq (b : Bytes) :
    (bytesToBase58 b).toList = List.replicate (b.takeWhile (· == 0)).length '1'
      ++ (numeral 58 (beNat b)).map char58 := by
  rw [bytesToBase58, String.toList_ofList, base58Loop_eq _ _ _ le_rfl, List.append_nil,
    leadingOnes_eq]

/-- **A key is read back.** -/
theorem base58ToBytes32_bytesToBase58 {b : Bytes} (hb : b.length = 32) :
    base58ToBytes32 (bytesToBase58 b) = .ok b := by
  have hdigits : ∀ d ∈ numeral 58 (beNat b), d < 58 := fun d => lt_of_mem_numeral (by decide)
  have hnumber : number58 (bytesToBase58 b) = beNat b := by
    have hmap : ((numeral 58 (beNat b)).map char58).map digit58 = numeral 58 (beNat b) := by
      rw [List.map_map]
      exact (List.map_congr_left (fun d hd => digit58_char58 d (hdigits d hd))).trans (List.map_id _)
    rw [number58, bytesToBase58_eq, List.map_append, List.map_replicate, hmap]
    exact (value_replicate_append _ _).trans (value_numeral _)
  rw [base58ToBytes32_eq_ok, hnumber]
  refine ⟨?_, hb ▸ beNat_lt b, ?_⟩
  · intro c hc
    rw [bytesToBase58_eq] at hc
    obtain hc | hc := List.mem_append.mp hc
    · rw [List.eq_of_mem_replicate hc]
      decide
    · obtain ⟨d, hd, rfl⟩ := List.mem_map.mp hc
      exact char58_mem d (hdigits d hd)
  · have hself := beBytes_beNat b
    rw [hb] at hself
    exact hself.symm

/-- How many bytes a text stands for: one for each `1` in front, and those of the
number. -/
def base58Length (s : String) : ℕ :=
  (s.toList.takeWhile (· == '1')).length + (numeral 256 (number58 s)).length

theorem takeWhile_one {l : List Char} (h : ∀ c ∈ l, c ∈ B58) :
    (l.takeWhile (· == '1')).length = ((l.map digit58).takeWhile (· == 0)).length := by
  have hzero : ∀ c ∈ B58, (digit58 c == 0) = (c == '1') :=
    List.all_iff_forall_prop.mp (by decide)
  induction l with
  | nil => rfl
  | cons c l ih =>
    obtain ⟨hc, hl⟩ := List.forall_mem_cons.mp h
    rw [List.map_cons, List.takeWhile_cons, List.takeWhile_cons, hzero c hc]
    cases c == '1' with
    | false => rfl
    | true => exact congrArg Nat.succ (ih hl)

/-- A text is its ones and the digits of its number. -/
theorem toList_eq_of_mem {s : String} (h : ∀ c ∈ s.toList, c ∈ B58) :
    s.toList = List.replicate (s.toList.takeWhile (· == '1')).length '1'
      ++ (numeral 58 (number58 s)).map char58 := by
  have hlt : ∀ d ∈ s.toList.map digit58, d < 58 := by
    intro d hd
    obtain ⟨c, hc, rfl⟩ := List.mem_map.mp hd
    exact digit58_lt c (h c hc)
  have hback : (s.toList.map digit58).map char58 = s.toList := by
    rw [List.map_map]
    exact (List.map_congr_left (fun c hc => char58_digit58 c (h c hc))).trans (List.map_id _)
  have hsplit := congrArg (List.map char58) (replicate_append_numeral (by decide) hlt)
  rw [hback, List.map_append, List.map_replicate, ← takeWhile_one h] at hsplit
  exact hsplit.symm

/-- The zero bytes in front of a number that is filled up. -/
theorem takeWhile_beBytes {n : ℕ} (h : n < 256 ^ 32) :
    ((beBytes 32 n).takeWhile (· == 0)).length + (numeral 256 n).length = 32 := by
  have hlt : ∀ d ∈ (beBytes 32 n).map UInt8.toNat, d < 256 := by
    intro d hd
    obtain ⟨c, -, rfl⟩ := List.mem_map.mp hd
    exact c.toNat_lt
  have hcount := length_takeWhile_zero (by decide) hlt
  have hzero : ∀ c : UInt8, (c.toNat == 0) = (c == 0) := by
    intro c
    rw [Bool.eq_iff_iff, beq_iff_eq, beq_iff_eq, ← UInt8.toNat_inj]
    rfl
  rw [← beNat_eq_value, beNat_beBytes, Nat.mod_eq_of_lt h, List.length_map, beBytes_length,
    List.takeWhile_map, List.length_map] at hcount
  simpa only [Function.comp_def, hzero] using hcount

/-- **The codec of keys.**  A key is read back; a text that is read is the encoding of
its key exactly if it stands for 32 bytes. -/
theorem base58_canonical_iff {b : Bytes} (hb : b.length = 32) {s : String} {key : Bytes}
    (hs : base58ToBytes32 s = .ok key) :
    base58ToBytes32 (bytesToBase58 b) = .ok b
      ∧ (bytesToBase58 key = s ↔ base58Length s = 32) := by
  refine ⟨base58ToBytes32_bytesToBase58 hb, ?_⟩
  obtain ⟨hall, hlt, rfl⟩ := base58ToBytes32_eq_ok.mp hs
  have hzeros := takeWhile_beBytes hlt
  rw [← String.toList_inj, bytesToBase58_eq, beNat_beBytes, Nat.mod_eq_of_lt hlt, base58Length]
  constructor
  · intro heq
    have hlen := congrArg List.length (heq.trans (toList_eq_of_mem hall))
    rw [List.length_append, List.length_append, List.length_replicate, List.length_replicate] at hlen
    omega
  · intro hlen
    rw [toList_eq_of_mem hall]
    congr 2
    omega

/-- Keys that are zero but for the last byte. -/
theorem base58_canonical_iff_key :
    base58ToBytes32 (bytesToBase58 (beBytes 32 1)) = .ok (beBytes 32 1)
      ∧ (bytesToBase58 (beBytes 32 57) = "1111111111111111111111111111111z"
        ↔ base58Length "1111111111111111111111111111111z" = 32) :=
  base58_canonical_iff (beBytes_length 32 1) (by decide +kernel)

/-- A single `1` is read as the key of 32 zero bytes, whose text has 32 of them. -/
theorem base58ToBytes32_one :
    base58ToBytes32 "1" = .ok (List.replicate 32 0)
      ∧ bytesToBase58 (List.replicate 32 0) ≠ "1"
      ∧ base58ToBytes32 (bytesToBase58 (List.replicate 32 0)) = .ok (List.replicate 32 0) := by
  decide +kernel

end Bufi.Delegate
