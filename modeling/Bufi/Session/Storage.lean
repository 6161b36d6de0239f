import Bufi.Evm.Hash
import Bufi.Evm.LinkedSet
import Bufi.Session.Permissions

/-!
# The storage of the session key plugin

All accounts share one plugin.  What is stored for an account is found under
hashes of the account, a prefix and the key of the entry; for a function entry
the selector is or-ed into the word of the contract address.  `Slot` lists the
entries, `Slot.words` is the pre-image of each, and `pointer_inj` says that no
two entries meet: this is where the injectivity of keccak is used, and the
only place where the layout of the keys matters.

`permissionsOf account id` collects what is stored under one key id.  The
lemmas after it say what every write does to it and to the key ids.
-/

namespace Bufi.Session

open Bufi.Evm

/-! ### Slots -/

/-- `bytes4(keccak256("SessionKeyId"))`. -/
def SESSION_KEY_ID_PREFIX : Bytes4 := 0x1a01dae4
/-- `bytes4(keccak256("SessionKeyData"))`. -/
def SESSION_KEY_DATA_PREFIX : Bytes4 := 0x16bff296
/-- `bytes4(keccak256("ContractData"))`. -/
def CONTRACT_DATA_PREFIX : Bytes4 := 0x634c29f5
/-- `bytes4(keccak256("FunctionData"))`. -/
def FUNCTION_DATA_PREFIX : Bytes4 := 0xd50536f0

/-- `bytes32(b)` of a `bytes4`, which stands on the left. -/
def bytes4Word (b : Bytes4) : Bytes32 := b.setWidth 256 <<< 224

/-- The second key of a function entry, `bytes32(selector) | bytes32(uint256(uint160(c)))`. -/
def functionKey (c : Address) (selector : Bytes4) : Bytes32 := bytes4Word selector ||| toBytes32 c

theorem toNat_bytes4Word (b : Bytes4) : (bytes4Word b).toNat = 2 ^ 224 * b.toNat := by
  have hb := b.isLt
  rw [bytes4Word, BitVec.toNat_shiftLeft, BitVec.toNat_setWidth, Nat.shiftLeft_eq,
    Nat.mod_eq_of_lt (a := b.toNat) (by omega), Nat.mod_eq_of_lt (by omega), Nat.mul_comm]

theorem toNat_functionKey (c : Address) (selector : Bytes4) :
    (functionKey c selector).toNat = 2 ^ 224 * selector.toNat + c.toNat := by
  have hc := c.isLt
  rw [functionKey, BitVec.toNat_or, toNat_bytes4Word, toNat_toBytes32,
    Nat.two_pow_add_eq_or_of_lt (by omega)]

/-- The selector and the address do not overlap. -/
theorem functionKey_inj {c c' : Address} {selector selector' : Bytes4}
    (h : functionKey c selector = functionKey c' selector') : c = c' ∧ selector = selector' := by
  have he := congrArg BitVec.toNat h
  rw [toNat_functionKey, toNat_functionKey] at he
  have hc := c.isLt
  have hc' := c'.isLt
  exact ⟨BitVec.eq_of_toNat_eq (by omega), BitVec.eq_of_toNat_eq (by omega)⟩

/-- An entry of the associated storage. -/
inductive Slot
  | keyId (account sessionKey : Address)
  | keyData (account : Address) (id : Bytes32)
  | contractData (account : Address) (id : Bytes32) (contractAddress : Address)
  | functionData (account : Address) (id : Bytes32) (contractAddress : Address) (selector : Bytes4)
  deriving DecidableEq

section Pointers

variable {W : Type} (K : Keccak W)

/-- The words that `PluginStorageLib` hashes. -/
def Slot.words : Slot → List W
  | keyId account sessionKey =>
    [K.addr account, K.word (bytes4Word SESSION_KEY_ID_PREFIX), K.addr sessionKey]
  | keyData account id =>
    [K.addr account, K.word (bytes4Word SESSION_KEY_DATA_PREFIX), K.word id]
  | contractData account id c =>
    [K.addr account, K.word (bytes4Word CONTRACT_DATA_PREFIX), K.word id, K.addr c]
  | functionData account id c selector =>
    [K.addr account, K.word (bytes4Word FUNCTION_DATA_PREFIX), K.word id,
      K.word (functionKey c selector)]

def pointer (slot : Slot) : W := K.hashWords (slot.words K)

theorem bytes4Word_inj {a b : Bytes4} (h : K.word (bytes4Word a) = K.word (bytes4Word b)) :
    a = b := by
  have he := congrArg BitVec.toNat (K.word_inj h)
  rw [toNat_bytes4Word, toNat_bytes4Word] at he
  exact BitVec.eq_of_toNat_eq (by omega)

/-- **No two entries share a slot.** -/
theorem pointer_inj {s t : Slot} (h : pointer K s = pointer K t) : s = t := by
  have hw := K.hashWords_inj h
  cases s with
  | keyId a k =>
    cases t with
    | keyId a' k' =>
      simp only [Slot.words, List.cons.injEq, and_true] at hw
      rw [K.addr_inj hw.1, K.addr_inj hw.2.2]
    | keyData a' i' =>
      simp only [Slot.words, List.cons.injEq] at hw
      exact absurd (bytes4Word_inj K hw.2.1) (by decide)
    | contractData a' i' c' => simp [Slot.words] at hw
    | functionData a' i' c' f' => simp [Slot.words] at hw
  | keyData a i =>
    cases t with
    | keyId a' k' =>
      simp only [Slot.words, List.cons.injEq] at hw
      exact absurd (bytes4Word_inj K hw.2.1) (by decide)
    | keyData a' i' =>
      simp only [Slot.words, List.cons.injEq, and_true] at hw
      rw [K.addr_inj hw.1, K.word_inj hw.2.2]
    | contractData a' i' c' => simp [Slot.words] at hw
    | functionData a' i' c' f' => simp [Slot.words] at hw
  | contractData a i c =>
    cases t with
    | keyId a' k' => simp [Slot.words] at hw
    | keyData a' i' => simp [Slot.words] at hw
    | contractData a' i' c' =>
      simp only [Slot.words, List.cons.injEq, and_true] at hw
      rw [K.addr_inj hw.1, K.word_inj hw.2.2.1, K.addr_inj hw.2.2.2]
    | functionData a' i' c' f' =>
      simp only [Slot.words, List.cons.injEq] at hw
      exact absurd (bytes4Word_inj K hw.2.1) (by decide)
  | functionData a i c f =>
    cases t with
    | keyId a' k' => simp [Slot.words] at hw
    | keyData a' i' => simp [Slot.words] at hw
    | contractData a' i' c' =>
      simp only [Slot.words, List.cons.injEq] at hw
      exact absurd (bytes4Word_inj K hw.2.1) (by decide)
    | functionData a' i' c' f' =>
      simp only [Slot.words, List.cons.injEq, and_true] at hw
      obtain ⟨hc, hf⟩ := functionKey_inj (K.word_inj hw.2.2.2)
      rw [K.addr_inj hw.1, K.word_inj hw.2.2.1, hc, hf]

theorem update_pointer [DecidableEq W] {α : Type} (m : W → α) (s t : Slot) (x : α) :
    Function.update m (pointer K s) x (pointer K t) = if t = s then x else m (pointer K t) := by
  by_cases h : t = s
  · rw [if_pos h, h, Function.update_self]
  · rw [if_neg h, Function.update_of_ne (fun he => h (pointer_inj K he))]

end Pointers

/-! ### State -/

/-- The storage of the plugin; `S` is the set of an account's keys. -/
structure State (W S : Type) where
  sessionKeys : Address → S
  keyIdCounter : Address → Uint256
  keyIds : W → Bytes32
  keyData : W → SessionKeyData
  contractData : W → ContractData
  functionData : W → FunctionData

namespace State

variable {W S : Type}

/-- The storage of a new plugin. -/
def initial (L : LinkedSet S) : State W S where
  sessionKeys _ := L.empty
  keyIdCounter _ := 0
  keyIds _ := 0
  keyData _ := .default
  contractData _ := .default
  functionData _ := ⟨false⟩

variable (K : Keccak W) (s : State W S)

def sessionKeyIdOf (account sessionKey : Address) : Bytes32 :=
  s.keyIds (pointer K (.keyId account sessionKey))

def sessionKeyDataOf (account : Address) (id : Bytes32) : SessionKeyData :=
  s.keyData (pointer K (.keyData account id))

def contractDataOf (account : Address) (id : Bytes32) (contractAddress : Address) : ContractData :=
  s.contractData (pointer K (.contractData account id contractAddress))

def functionDataOf (account : Address) (id : Bytes32) (contractAddress : Address)
    (selector : Bytes4) : FunctionData :=
  s.functionData (pointer K (.functionData account id contractAddress selector))

/-- Everything stored under a key id. -/
def permissionsOf (account : Address) (id : Bytes32) : Permissions where
  key := s.sessionKeyDataOf K account id
  contracts := s.contractDataOf K account id
  functions := s.functionDataOf K account id

variable [DecidableEq W]

def updateSessionKeyId (account sessionKey : Address) (newId : Bytes32) : State W S :=
  { s with keyIds := Function.update s.keyIds (pointer K (.keyId account sessionKey)) newId }

def setKeyData (account : Address) (id : Bytes32) (d : SessionKeyData) : State W S :=
  { s with keyData := Function.update s.keyData (pointer K (.keyData account id)) d }

def setContractData (account : Address) (id : Bytes32) (c : Address) (d : ContractData) :
    State W S :=
  { s with contractData :=
      Function.update s.contractData (pointer K (.contractData account id c)) d }

def setFunctionData (account : Address) (id : Bytes32) (c : Address) (selector : Bytes4)
    (d : FunctionData) : State W S :=
  { s with functionData :=
      Function.update s.functionData (pointer K (.functionData account id c selector)) d }

/-! ### Reads after writes -/

theorem sessionKeyIdOf_update (account sessionKey a k : Address) (newId : Bytes32) :
    (s.updateSessionKeyId K account sessionKey newId).sessionKeyIdOf K a k =
      if a = account ∧ k = sessionKey then newId else s.sessionKeyIdOf K a k := by
  simp only [sessionKeyIdOf, updateSessionKeyId, update_pointer, Slot.keyId.injEq]

/-- A write to the data of a key id reaches the permissions of that id only. -/
theorem permissionsOf_setKeyData (account a : Address) (id i : Bytes32) (d : SessionKeyData) :
    (s.setKeyData K account id d).permissionsOf K a i =
      if a = account ∧ i = id then (s.permissionsOf K account id).mapKey (fun _ => d)
      else s.permissionsOf K a i := by
  have hread : (s.setKeyData K account id d).sessionKeyDataOf K a i =
      if a = account ∧ i = id then d else s.sessionKeyDataOf K a i := by
    simp only [sessionKeyDataOf, setKeyData, update_pointer, Slot.keyData.injEq]
  by_cases h : a = account ∧ i = id
  · obtain ⟨rfl, rfl⟩ := h
    rw [if_pos ⟨rfl, rfl⟩] at hread ⊢
    exact Permissions.ext hread rfl rfl
  · rw [if_neg h] at hread ⊢
    exact Permissions.ext hread rfl rfl

theorem contractDataOf_setContractData (account a : Address) (id i : Bytes32) (c x : Address)
    (d : ContractData) :
    (s.setContractData K account id c d).contractDataOf K a i x =
      if a = account ∧ i = id ∧ x = c then d else s.contractDataOf K a i x := by
  simp only [contractDataOf, setContractData, update_pointer, Slot.contractData.injEq]

theorem permissionsOf_setContractData (account a : Address) (id i : Bytes32) (c : Address)
    (d : ContractData) :
    (s.setContractData K account id c d).permissionsOf K a i =
      if a = account ∧ i = id then (s.permissionsOf K account id).mapContract c (fun _ => d)
      else s.permissionsOf K a i := by
  have hread := fun x => s.contractDataOf_setContractData K account a id i c x d
  by_cases h : a = account ∧ i = id
  · obtain ⟨rfl, rfl⟩ := h
    rw [if_pos ⟨rfl, rfl⟩]
    refine Permissions.ext rfl (funext fun x => ?_) rfl
    rw [Permissions.contracts_mapContract]
    refine (hread x).trans ?_
    simp only [true_and]
    rfl
  · rw [if_neg h]
    refine Permissions.ext rfl (funext fun x => ?_) rfl
    exact (hread x).trans (if_neg (fun hx => h ⟨hx.1, hx.2.1⟩))

theorem permissionsOf_setFunctionData (account a : Address) (id i : Bytes32) (c : Address)
    (selector : Bytes4) (d : FunctionData) :
    (s.setFunctionData K account id c selector d).permissionsOf K a i =
      if a = account ∧ i = id then (s.permissionsOf K account id).setFunction c selector d
      else s.permissionsOf K a i := by
  have hread : ∀ x f, (s.setFunctionData K account id c selector d).functionDataOf K a i x f =
      if a = account ∧ i = id ∧ x = c ∧ f = selector then d else s.functionDataOf K a i x f := by
    intro x f
    simp only [functionDataOf, setFunctionData, update_pointer, Slot.functionData.injEq]
  by_cases h : a = account ∧ i = id
  · obtain ⟨rfl, rfl⟩ := h
    rw [if_pos ⟨rfl, rfl⟩]
    refine Permissions.ext rfl rfl (funext fun x => funext fun f => ?_)
    rw [Permissions.functions_setFunction]
    refine (hread x f).trans ?_
    simp only [true_and]
    rfl
  · rw [if_neg h]
    refine Permissions.ext rfl rfl (funext fun x => funext fun f => ?_)
    exact (hread x f).trans (if_neg (fun hx => h ⟨hx.1, hx.2.1⟩))

end State

end Bufi.Session
