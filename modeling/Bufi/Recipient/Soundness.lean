import Bufi.Recipient.Hook
import Bufi.Session.Access

/-!
# What a call that passes the recipient hook may do

`RecipientAddressLib` knows the transfers and approvals of three token standards.  A
standard is its selectors together with the argument that names the recipient or the
spender, which may be missing when the calldata is too short (`TokenStandard`); a
reader returns that argument, and zero for calldata that it does not know or cannot
read (`Reads`).  So zero stands for three things: a foreign selector, arguments that
are cut off, and an argument that is zero.

A call that carries value is a plain transfer to a listed address.  A call without
value whose recipient one of the readers finds is judged by the recipient; when none
of them finds one it is judged by its target, and this includes the calls with a
selector of a token and arguments that are cut off (`not_sound_truncated`).
-/

namespace Bufi.Recipient

open Bufi.Evm Bufi.Session

/-- The selectors that name a recipient or a spender, and the reading of that argument. -/
structure TokenStandard where
  recognises : Bytes4 → Bool
  recipient : Bytes → Option Address

/-- What a reader for the standard returns. -/
def TokenStandard.read (std : TokenStandard) (data : Bytes) : Address :=
  if std.recognises (selectorOf data) then (std.recipient data).getD 0 else 0

structure TokenStandards where
  erc20 : TokenStandard
  erc1155 : TokenStandard
  erc721 : TokenStandard

namespace TokenStandards

variable (S : TokenStandards)

def all : List TokenStandard := [S.erc20, S.erc1155, S.erc721]

/-- The selector is one of a token. -/
def Recognised (data : Bytes) : Prop := ∃ std ∈ S.all, std.recognises (selectorOf data) = true

/-- The selector is one of a token, and the argument for the recipient is `r`. -/
def Names (data : Bytes) (r : Address) : Prop :=
  ∃ std ∈ S.all, std.recognises (selectorOf data) = true ∧ std.recipient data = some r

instance (data : Bytes) : Decidable (S.Recognised data) :=
  inferInstanceAs (Decidable (∃ std ∈ S.all, _))

instance (data : Bytes) (r : Address) : Decidable (S.Names data r) :=
  inferInstanceAs (Decidable (∃ std ∈ S.all, _))

end TokenStandards

/-- The library reads the three standards. -/
structure RecipientAddressLib.Reads (lib : RecipientAddressLib) (S : TokenStandards) : Prop where
  erc20 : ∀ data, lib.getERC20TokenRecipient data = S.erc20.read data
  erc1155 : ∀ data, lib.getERC1155TokenRecipient data = S.erc1155.read data
  erc721 : ∀ data, lib.getERC721TokenRecipient data = S.erc721.read data

/-! ### What is checked of a call -/

section

variable (S : TokenStandards) (codeLength : Address → ℕ) (allowed : List Address) (call : Call)

/-- A native transfer to a listed address. -/
def NativeTransfer : Prop := call.value ≠ 0 ∧ call.data = [] ∧ call.target ∈ allowed

/-- A call of a token, with a listed recipient or spender. -/
def TokenTransfer : Prop :=
  call.value = 0 ∧ codeLength call.target ≠ 0 ∧ ∃ r, S.Names call.data r ∧ r ∈ allowed

/-- A call of a listed contract with a selector that is not one of a token. -/
def OtherCall : Prop := call.value = 0 ∧ ¬ S.Recognised call.data ∧ call.target ∈ allowed

/-- A call of a listed contract from which no recipient can be read. -/
def UnreadableCall : Prop :=
  call.value = 0 ∧ codeLength call.target ≠ 0 ∧ (∀ r, ¬ S.Names call.data r)
    ∧ call.target ∈ allowed

end

/-! ### The recipient the hook finds -/

variable {lib : RecipientAddressLib} {S : TokenStandards} {codeLength : Address → ℕ}
  {account : Address}

theorem TokenStandard.names_of_read {std : TokenStandard} {data : Bytes} (h : std.read data ≠ 0) :
    std.recognises (selectorOf data) = true ∧ std.recipient data = some (std.read data) := by
  rw [TokenStandard.read] at h ⊢
  split at h
  · rename_i hsel
    refine ⟨hsel, ?_⟩
    rw [if_pos hsel]
    cases hr : std.recipient data with
    | none => rw [hr] at h; exact absurd rfl h
    | some r => rfl
  · exact absurd rfl h

theorem TokenStandard.eq_zero_of_read {std : TokenStandard} {data : Bytes} {r : Address}
    (h : std.read data = 0) (hsel : std.recognises (selectorOf data) = true)
    (hr : std.recipient data = some r) : r = 0 := by
  rw [TokenStandard.read, if_pos hsel, hr] at h
  exact h

/-- The three readers in turn: a recipient that is not zero, or the target when all of
them return zero. -/
theorem recipientOf_cases (hlib : lib.Reads S) (target : Address) (data : Bytes) :
    S.Names data (recipientOf lib target data) ∨
      (recipientOf lib target data = target ∧ ∀ std ∈ S.all, std.read data = 0) := by
  rw [recipientOf, hlib.erc20, hlib.erc1155, hlib.erc721]
  by_cases h20 : S.erc20.read data = 0
  · by_cases h1155 : S.erc1155.read data = 0
    · by_cases h721 : S.erc721.read data = 0
      · right
        refine ⟨by simp [h20, h1155, h721], ?_⟩
        simp [TokenStandards.all, h20, h1155, h721]
      · left
        simp only [h20, h1155, h721, if_true, if_false]
        exact ⟨S.erc721, by simp [TokenStandards.all], TokenStandard.names_of_read h721⟩
    · left
      simp only [h20, h1155, if_true, if_false]
      exact ⟨S.erc1155, by simp [TokenStandards.all], TokenStandard.names_of_read h1155⟩
  · left
    simp only [h20, if_false]
    exact ⟨S.erc20, by simp [TokenStandards.all], TokenStandard.names_of_read h20⟩

/-- A call without value goes to code. -/
theorem code_of_verifyRecipient {allowed : List Address} {call : Call} {u : Unit}
    (h : verifyRecipient lib codeLength account allowed call = .ok u) (hvalue : call.value = 0) :
    codeLength call.target ≠ 0 := by
  simp only [verifyRecipient, bind_eq_ok, require_eq_ok] at h
  obtain ⟨recipient, hrecipient, -⟩ := h
  rw [getTargetOrRecipient, if_neg (not_not.mpr hvalue)] at hrecipient
  simp only [bind_eq_ok, require_eq_ok, exists_const] at hrecipient
  exact hrecipient.1

/-- **A turn of the loop.**  The recipient that is zero stays out: the readers cannot
tell it from one that they do not find. -/
theorem judged_of_verifyRecipient {allowed : List Address} {call : Call} {u : Unit}
    (hlib : lib.Reads S) (h : verifyRecipient lib codeLength account allowed call = .ok u)
    (hzero : ¬ S.Names call.data 0) :
    NativeTransfer allowed call ∨ TokenTransfer S codeLength allowed call ∨
      UnreadableCall S codeLength allowed call := by
  by_cases hvalue : call.value = 0
  · right
    have hcode := code_of_verifyRecipient h hvalue
    have hmem := mem_of_verifyRecipient h hvalue
    rcases recipientOf_cases hlib call.target call.data with hnames | ⟨htarget, hnone⟩
    · exact .inl ⟨hvalue, hcode, _, hnames, hmem⟩
    · right
      rw [htarget] at hmem
      refine ⟨hvalue, hcode, ?_, hmem⟩
      intro r hr
      obtain ⟨std, hstd, hsel, hrecipient⟩ := hr
      obtain rfl := TokenStandard.eq_zero_of_read (hnone std hstd) hsel hrecipient
      exact hzero ⟨std, hstd, hsel, hrecipient⟩
  · left
    exact ⟨hvalue, data_of_verifyRecipient h hvalue⟩

/-! ### The two hooks -/

/-- One of the hooks lets the calldata through. -/
def Accepts (lib : RecipientAddressLib) (codeLength : Address → ℕ) (account addressBook : Address)
    (allowed : List Address) (userOp : PackedUserOperation) : Prop :=
  preUserOpValidationHook lib codeLength account addressBook allowed 0 userOp = .ok 0 ∨
    preRuntimeValidationHook lib codeLength account addressBook allowed 1 userOp.callData = .ok ()

theorem verified_of_accepts {addressBook : Address} {allowed : List Address}
    {userOp : PackedUserOperation} (h : Accepts lib codeLength account addressBook allowed userOp) :
    ∃ calls key, decodeExecute userOp.callData = some (calls, key)
      ∧ ∀ call ∈ calls, verifyRecipient lib codeLength account allowed call = .ok () := by
  rcases h with h | h
  · exact verified_of_hook h
  · simp only [preRuntimeValidationHook, verifyRecipients, bind_eq_ok, require_eq_ok, exists_const,
      orRevert_eq_ok, Prod.exists] at h
    obtain ⟨-, -, calls, key, hdecode, hcalls⟩ := h
    exact ⟨calls, key, hdecode, forM_eq_ok.mp hcalls⟩

/-- **Recipients.**  In a batch that a hook accepts every call is a plain transfer of
value to a listed address, or a call of a token with a listed recipient or spender, or
a call of a listed contract from which no recipient can be read.  A call with a
recipient that can be read, and is not zero, is never judged by its target. -/
theorem recipients_allowed {addressBook : Address} {allowed : List Address}
    {userOp : PackedUserOperation} (hlib : lib.Reads S)
    (h : Accepts lib codeLength account addressBook allowed userOp) :
    ∃ calls key, decodeExecute userOp.callData = some (calls, key) ∧
      ∀ call ∈ calls, ¬ S.Names call.data 0 →
        NativeTransfer allowed call ∨ TokenTransfer S codeLength allowed call ∨
          UnreadableCall S codeLength allowed call := by
  obtain ⟨calls, key, hdecode, hcalls⟩ := verified_of_accepts h
  refine ⟨calls, key, hdecode, ?_⟩
  intro call hcall hzero
  exact judged_of_verifyRecipient hlib (hcalls call hcall) hzero

/-! ### A transfer and a transfer that is cut off -/

/-- The `i`-th of `n` arguments, an address. -/
def argument (n i : ℕ) (data : Bytes) : Option Address :=
  if data.length < 4 + 32 * n then none else Abi.address (data.drop 4) (32 * i)

/-- `transfer`, `approve` and `transferFrom`, with the recipient, the spender and `to`. -/
def erc20 : TokenStandard where
  recognises selector := selector == selTransfer || selector == selApprove || selector == 0x23b872dd
  recipient data := if selectorOf data == 0x23b872dd then argument 3 1 data else argument 2 0 data

/-- `safeTransferFrom` with an id and an amount. -/
def erc1155 : TokenStandard where
  recognises selector := selector == 0xf242432a
  recipient := argument 5 1

/-- `safeTransferFrom`. -/
def erc721 : TokenStandard where
  recognises selector := selector == 0x42842e0e
  recipient := argument 3 1

def tokens : TokenStandards := ⟨erc20, erc1155, erc721⟩

def tokenLib : RecipientAddressLib := ⟨erc20.read, erc1155.read, erc721.read⟩

theorem tokenLib_reads : tokenLib.Reads tokens :=
  ⟨fun _ => rfl, fun _ => rfl, fun _ => rfl⟩

/-- An operation of one call of the token. -/
def tokenOp (data : Bytes) : PackedUserOperation where
  nonce := 0
  callData := encodeCall 0x31d99c2c
    [0x40, agent.toNat, 1, 0x20, token.toNat, 0, 0x60, data.length] ++ data ++ List.replicate 28 0
  accountGasLimits := 0
  preVerificationGas := 0
  gasFees := 0
  paymasterAndData := []
  signature := []

/-- Everything is code, and the hook is that of the wallet. -/
abbrev AcceptsToken (allowed : List Address) (userOp : PackedUserOperation) : Prop :=
  Accepts tokenLib (fun _ => 1) wallet 0x500 allowed userOp

/-- A transfer to a listed address, of a token that is not on the list. -/
theorem recipients_allowed_transfer :
    ∃ calls key, decodeExecute (tokenOp (encodeCall selTransfer [nextAgent.toNat, 60])).callData
        = some (calls, key) ∧
      ∀ call ∈ calls, ¬ tokens.Names call.data 0 →
        NativeTransfer [nextAgent] call ∨ TokenTransfer tokens (fun _ => 1) [nextAgent] call ∨
          UnreadableCall tokens (fun _ => 1) [nextAgent] call := by
  have h : AcceptsToken [nextAgent] (tokenOp (encodeCall selTransfer [nextAgent.toNat, 60])) :=
    Or.inl (toOption_eq_some.mp (by decide +kernel))
  exact recipients_allowed tokenLib_reads h

/-- `transfer` with one argument, to a token on the list. -/
theorem not_sound_truncated :
    tokenLib.Reads tokens ∧
      AcceptsToken [token] (tokenOp (encodeCall selTransfer [nextAgent.toNat])) ∧
      ∃ call key, decodeExecute (tokenOp (encodeCall selTransfer [nextAgent.toNat])).callData
          = some ([call], key) ∧ tokens.Recognised call.data ∧
        ¬ (NativeTransfer [token] call ∨ TokenTransfer tokens (fun _ => 1) [token] call ∨
          OtherCall tokens [token] call) := by
  refine ⟨tokenLib_reads, Or.inl (toOption_eq_some.mp (by decide +kernel)),
    ⟨token, 0, encodeCall selTransfer [nextAgent.toNat]⟩, agent, by decide +kernel,
    by decide +kernel, ?_⟩
  intro h
  rcases h with h | h | h
  · exact h.1 rfl
  · obtain ⟨-, -, r, ⟨std, hstd, hsel, hrecipient⟩, -⟩ := h
    revert hrecipient
    rcases List.mem_cons.mp hstd with rfl | hstd
    · intro hrecipient
      have hnone : erc20.recipient (encodeCall selTransfer [nextAgent.toNat]) = none := by
        decide +kernel
      rw [show tokens.erc20 = erc20 from rfl, hnone] at hrecipient
      cases hrecipient
    · have hother : ∀ std ∈ [erc1155, erc721],
          std.recognises (selectorOf (encodeCall selTransfer [nextAgent.toNat])) = false := by
        decide +kernel
      rw [hother std hstd] at hsel
      cases hsel
  · exact h.2.1 (by decide +kernel)

end Bufi.Recipient
