import Bufi.Session.Plugin

/-!
# The recipient hook

`BufiSessionRecipientHookPlugin.sol`: before the session key plugin validates an
operation, every call of it must have a recipient on the address book of the account.
The recipient of a transfer or an approval is read off its calldata by
`RecipientAddressLib`, which is outside the repository; a call it does not read is
judged by its target.
-/

namespace Bufi.Recipient

open Bufi.Evm Bufi.Session

/-- The readers of `RecipientAddressLib`; zero is calldata they do not read. -/
structure RecipientAddressLib where
  getERC20TokenRecipient : Bytes → Address
  getERC1155TokenRecipient : Bytes → Address
  getERC721TokenRecipient : Bytes → Address

inductive HookRevert
  | notInitialized
  | callDataIsNotEmpty (account target : Address) (value : Uint256) (data : Bytes)
  | unauthorizedRecipient (account recipient : Address)
  | invalidTargetCodeLength (account target : Address) (value : Uint256) (data : Bytes)
  | notImplemented (functionId : Uint8)
  | badArguments
  deriving DecidableEq

section

variable (lib : RecipientAddressLib) (codeLength : Address → ℕ) (account : Address)

/-- The first reader that knows the calldata, or the target. -/
def recipientOf (target : Address) (data : Bytes) : Address :=
  let recipient := lib.getERC20TokenRecipient data
  let recipient := if recipient = 0 then lib.getERC1155TokenRecipient data else recipient
  let recipient := if recipient = 0 then lib.getERC721TokenRecipient data else recipient
  if recipient = 0 then target else recipient

/-- `_getTargetOrRecipient`. -/
def getTargetOrRecipient (call : Call) : Except HookRevert Address :=
  if call.value ≠ 0 then do
    require (call.data.length = 0)
      (.callDataIsNotEmpty account call.target call.value call.data)
    require (call.target ≠ 0) (.unauthorizedRecipient account call.target)
    pure call.target
  else do
    require (codeLength call.target ≠ 0)
      (.invalidTargetCodeLength account call.target call.value call.data)
    pure (recipientOf lib call.target call.data)

/-- A turn of the loop over the calls. -/
def verifyRecipient (allowed : List Address) (call : Call) : Except HookRevert Unit := do
  let recipient ← getTargetOrRecipient lib codeLength account call
  require (recipient ∈ allowed) (.unauthorizedRecipient account recipient)

/-- `_verifyRecipients`: `addressBook` is the one the account has bound, and
`getAllowedRecipients` what it lists for the account. -/
def verifyRecipients (addressBook : Address) (getAllowedRecipients : List Address)
    (callData : Bytes) : Except HookRevert Unit := do
  require (addressBook ≠ 0) .notInitialized
  let (calls, _) ← orRevert (decodeExecute callData) .badArguments
  calls.forM (verifyRecipient lib codeLength account getAllowedRecipients)

/-- Success without time bounds is zero. -/
def preUserOpValidationHook (addressBook : Address) (getAllowedRecipients : List Address)
    (functionId : Uint8) (userOp : PackedUserOperation) : Except HookRevert Uint256 := do
  require (functionId = 0) (.notImplemented functionId)
  verifyRecipients lib codeLength account addressBook getAllowedRecipients userOp.callData
  pure 0

def preRuntimeValidationHook (addressBook : Address) (getAllowedRecipients : List Address)
    (functionId : Uint8) (data : Bytes) : Except HookRevert Unit := do
  require (functionId = 1) (.notImplemented functionId)
  verifyRecipients lib codeLength account addressBook getAllowedRecipients data

end

variable {lib : RecipientAddressLib} {codeLength : Address → ℕ} {account : Address}

/-- A call that passes has its recipient on the list. -/
theorem mem_of_verifyRecipient {allowed : List Address} {call : Call} {u : Unit}
    (h : verifyRecipient lib codeLength account allowed call = .ok u) (hvalue : call.value = 0) :
    recipientOf lib call.target call.data ∈ allowed := by
  simp only [verifyRecipient, bind_eq_ok, require_eq_ok] at h
  obtain ⟨recipient, hrecipient, hmem⟩ := h
  rw [getTargetOrRecipient, if_neg (not_not.mpr hvalue)] at hrecipient
  simp only [bind_eq_ok, require_eq_ok, exists_const, pure_eq_ok] at hrecipient
  rw [← hrecipient.2]
  exact hmem

/-- A call with a value has no calldata, and its target is on the list. -/
theorem data_of_verifyRecipient {allowed : List Address} {call : Call} {u : Unit}
    (h : verifyRecipient lib codeLength account allowed call = .ok u) (hvalue : call.value ≠ 0) :
    call.data = [] ∧ call.target ∈ allowed := by
  simp only [verifyRecipient, bind_eq_ok, require_eq_ok] at h
  obtain ⟨recipient, hrecipient, hmem⟩ := h
  rw [getTargetOrRecipient, if_pos hvalue] at hrecipient
  simp only [bind_eq_ok, require_eq_ok, exists_const, pure_eq_ok] at hrecipient
  obtain ⟨hdata, -, rfl⟩ := hrecipient
  exact ⟨List.length_eq_zero_iff.mp hdata, hmem⟩

/-- **What the hook has checked.** -/
theorem verified_of_hook {addressBook : Address} {allowed : List Address} {functionId : Uint8}
    {userOp : PackedUserOperation} {v : Uint256}
    (h : preUserOpValidationHook lib codeLength account addressBook allowed functionId userOp
      = .ok v) :
    ∃ calls key, decodeExecute userOp.callData = some (calls, key)
      ∧ ∀ call ∈ calls, verifyRecipient lib codeLength account allowed call = .ok () := by
  simp only [preUserOpValidationHook, verifyRecipients, bind_eq_ok, require_eq_ok, exists_const,
    orRevert_eq_ok, Prod.exists] at h
  obtain ⟨-, u, ⟨-, calls, key, hdecode, hcalls⟩, -⟩ := h
  exact ⟨calls, key, hdecode, forM_eq_ok.mp hcalls⟩

end Bufi.Recipient
