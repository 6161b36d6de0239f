import Bufi.Evm.AbiWords
import Bufi.Guard.Parity
import Bufi.Guard.Trailer

/-!
# One guard, two accounts

The guard is packaged twice.  `GatewayIntentGuardModule.sol` is a validation hook of an
ERC-6900 v0.8 account, which hands it a segment of its own with the envelope.
`GatewayIntentGuardPlugin.sol` stands before `isValidSignature` of a v0.7 account and gets
the whole call; it looks for the envelope behind the multisig's signature.

`hooks_agree` says that the two decide alike, errors included, and that a v0.7 call is
accepted exactly if it carries such an envelope.  Nobody signs the envelope, and nobody
needs to: `trailer_binding` says that a hash is accepted for one account and one intent
only, whatever is put behind the signature and however the accounts are configured.

`digestOf` is the digest that a word of calldata stands for.
-/

namespace Bufi.Guard

open Bufi.Evm Bufi.Gateway

/-- The errors of the hooks.  `msg.sig` of `NotImplemented` is always the hook's own. -/
inductive HookRevert (W : Type)
  | notImplemented (functionId : Uint8)
  | badArguments
  | missingIntentEnvelope
  | intent (r : Revert W)

/-- `IERC1271.isValidSignature.selector` -/
def isValidSignatureSelector : Bytes4 := 0x1626ba7e

/-- `abi.decode(envelope, (uint8, bytes))` -/
def decodeKindPayload (envelope : Bytes) : Option (Uint8 × MemBytes) := do
  let kind ← Abi.uint 8 envelope 0
  let payload ← Abi.bytes envelope (← Abi.tail envelope 0 32)
  return (kind, payload)

/-- `abi.decode(data[4:], (bytes32, bytes))` -/
def decodeHashSignature (arguments : Bytes) : Option (Bytes32 × MemBytes) := do
  let hash ← Abi.word arguments 0
  let signature ← Abi.bytes arguments (← Abi.tail arguments 0 32)
  return (hash, signature)

def decodeEnvelope {W : Type} (envelope : Bytes) : Except (HookRevert W) (Uint8 × MemBytes) := do
  require (¬ envelope.length < 96) .missingIntentEnvelope
  orRevert (decodeKindPayload envelope) .badArguments

section Hooks

variable {W : Type} [DecidableEq W] (K : Keccak W) (env : Env W) (block : Block) (s : State W)
  (account : Address)

/-- `preSignatureValidationHook` of the v0.8 module, called by `account`. -/
def preSignatureValidationHook (_entityId : Uint32) (sender : Address) (hash : W)
    (signature : Bytes) : Except (HookRevert W) Unit := do
  let (kind, payload) ← decodeEnvelope signature
  (checkIntent K env block s account sender hash kind payload.data).mapError .intent

/-- `preRuntimeValidationHook` of the v0.7 plugin, called by `account`; the signature is
copied to memory, with `beyond` behind it. -/
def preRuntimeValidationHook (digestOf : Bytes32 → W) (beyond : Memory) (functionId : Uint8)
    (sender : Address) (_value : Uint256) (data : Bytes) : Except (HookRevert W) Unit := do
  require (functionId = 0) (.notImplemented functionId)
  require (¬ (data.length < 4
    ∨ BitVec.ofNat 32 (beNat (data.take 4)) ≠ isValidSignatureSelector))
    (.notImplemented functionId)
  let (hash, signature) ← orRevert (decodeHashSignature (data.drop 4)) .badArguments
  let envelope ← (trailerOf beyond signature.data).mapError (fun _ => .missingIntentEnvelope)
  let (kind, payload) ← decodeEnvelope envelope
  (checkIntent K env block s account sender (digestOf hash) kind payload.data).mapError .intent

end Hooks

/-! ### Calls and envelopes -/

/-- The call `isValidSignature(hash, signature)`, with `pad` behind the arguments. -/
def isValidSignatureCall (hash : Bytes32) (signature pad : Bytes) : Bytes :=
  beBytes 4 isValidSignatureSelector.toNat
    ++ (beBytes 32 hash.toNat ++ (beBytes 32 64
      ++ (beBytes 32 signature.length ++ (signature ++ pad))))

/-- The intent an envelope carries. -/
inductive Intent
  | burn (intent : BurnIntent)
  | auth (auth : ReceiveAuth)
  deriving DecidableEq

def intentOf (envelope : Bytes) : Option Intent := do
  let (kind, payload) ← decodeKindPayload envelope
  if kind = 0 then (decodeBurnIntent payload.data).map .burn
  else if kind = 1 then (decodeReceiveAuth payload.data).map .auth
  else none

theorem decodeHashSignature_call (hash : Bytes32) (signature : MemBytes) (pad : Bytes) :
    decodeHashSignature ((isValidSignatureCall hash signature.data pad).drop 4)
      = some (hash, signature) := by
  have htail : Abi.tail (beBytes 32 hash.toNat ++ (beBytes 32 64
      ++ (beBytes 32 signature.data.length ++ (signature.data ++ pad)))) 0 (0 + 32) = some 64 := by
    rw [Abi.tail_skip, Abi.tail_front (by decide)]
  have hbytes : Abi.bytes (beBytes 32 hash.toNat ++ (beBytes 32 64
      ++ (beBytes 32 signature.data.length ++ (signature.data ++ pad)))) (0 + 32 + 32)
        = some signature := by
    rw [Abi.bytes_skip, Abi.bytes_skip, Abi.bytes_front]
  rw [isValidSignatureCall, List.drop_left' (beBytes_length 4 _), decodeHashSignature,
    Abi.word_front]
  simp only [Nat.zero_add] at htail hbytes
  simp only [htail, hbytes, Option.bind_eq_bind, Option.bind_some, Option.pure_def]

theorem selector_call (hash : Bytes32) (signature pad : Bytes) :
    ¬ ((isValidSignatureCall hash signature pad).length < 4
      ∨ BitVec.ofNat 32 (beNat ((isValidSignatureCall hash signature pad).take 4))
        ≠ isValidSignatureSelector) := by
  rw [isValidSignatureCall, List.take_left' (beBytes_length 4 _), beNat_beBytes, not_or]
  constructor
  · simp
  · decide

/-! ### The hooks -/

section

variable {W : Type} [DecidableEq W] {K : Keccak W} {env : Env W} {block : Block} {s : State W}
  {account : Address} {digestOf : Bytes32 → W} {beyond : Memory}

theorem preSignatureValidationHook_eq_ok {entityId : Uint32} {sender : Address} {hash : W}
    {signature : Bytes} :
    preSignatureValidationHook K env block s account entityId sender hash signature = .ok ()
      ↔ 96 ≤ signature.length ∧ ∃ kind payload,
        decodeKindPayload signature = some (kind, payload)
          ∧ checkIntent K env block s account sender hash kind payload.data = .ok () := by
  rw [preSignatureValidationHook, decodeEnvelope]
  simp only [bind_eq_ok, require_eq_ok, orRevert_eq_ok, exists_const, Nat.not_lt]
  constructor
  · rintro ⟨⟨kind, payload⟩, ⟨hlen, hdec⟩, h⟩
    refine ⟨hlen, kind, payload, hdec, ?_⟩
    cases hc : checkIntent K env block s account sender hash kind payload.data with
    | error r =>
      rw [hc] at h
      cases h
    | ok u => rfl
  · rintro ⟨hlen, kind, payload, hdec, hc⟩
    refine ⟨(kind, payload), ⟨hlen, hdec⟩, ?_⟩
    rw [hc]
    rfl

/-- The v0.7 hook, once the call is taken apart, is the v0.8 hook on the envelope. -/
theorem preRuntimeValidationHook_of_decode {functionId : Uint8} {sender : Address}
    {value : Uint256} {data : Bytes} {hash : Bytes32} {signature : MemBytes} {envelope : Bytes}
    (entityId : Uint32) (hid : functionId = 0)
    (hsel : ¬ (data.length < 4
      ∨ BitVec.ofNat 32 (beNat (data.take 4)) ≠ isValidSignatureSelector))
    (hdec : decodeHashSignature (data.drop 4) = some (hash, signature))
    (htrailer : trailerOf beyond signature.data = .ok envelope) :
    preRuntimeValidationHook K env block s account digestOf beyond functionId sender value data
      = preSignatureValidationHook K env block s account entityId sender (digestOf hash)
          envelope := by
  rw [preRuntimeValidationHook, require_of hid, ok_bind, require_of hsel, ok_bind, hdec]
  change (Except.mapError _ (trailerOf beyond signature.data) >>= _) = _
  rw [htrailer]
  rfl

omit [DecidableEq W] in
theorem exists_frame_of_trailerOf {sig e : Bytes} (h : trailerOf beyond sig = .ok e) :
    ∃ p, sig = frame p e := by
  obtain ⟨hlen, hmagic, hle, -⟩ := trailerOf_eq_ok.mp h
  obtain ⟨p, e', he', rfl⟩ := eq_frame hlen hmagic hle
  have hbound : e'.length < 2 ^ 256 := he' ▸ BitVec.isLt _
  rw [trailerOf_frame beyond hbound] at h
  exact ⟨p, congrArg (frame p) (Except.ok.inj h)⟩

/-- On a call that carries an envelope the v0.7 hook is the v0.8 hook. -/
theorem preRuntimeValidationHook_frame (entityId : Uint32) {sender : Address} {value : Uint256}
    {p e : Bytes} (hash : Bytes32) (pad : Bytes) (hlen : (frame p e).length < 2 ^ 64) :
    preRuntimeValidationHook K env block s account digestOf beyond 0 sender value
        (isValidSignatureCall hash (frame p e) pad)
      = preSignatureValidationHook K env block s account entityId sender (digestOf hash) e := by
  have he : e.length < 2 ^ 256 := by
    rw [frame_length] at hlen
    omega
  exact preRuntimeValidationHook_of_decode entityId rfl (selector_call hash _ pad)
    (decodeHashSignature_call hash ⟨frame p e, hlen⟩ pad) (trailerOf_frame beyond he)

/-- A call that the v0.7 hook accepts is one it can take apart. -/
theorem exists_of_preRuntimeValidationHook {functionId : Uint8} {sender : Address}
    {value : Uint256} {data : Bytes}
    (h : preRuntimeValidationHook K env block s account digestOf beyond functionId sender value data
      = .ok ()) :
    functionId = 0
      ∧ ¬ (data.length < 4
        ∨ BitVec.ofNat 32 (beNat (data.take 4)) ≠ isValidSignatureSelector)
      ∧ ∃ hash signature envelope, decodeHashSignature (data.drop 4) = some (hash, signature)
        ∧ trailerOf beyond signature.data = .ok envelope := by
  rw [preRuntimeValidationHook] at h
  simp only [bind_eq_ok, require_eq_ok, orRevert_eq_ok, exists_const] at h
  obtain ⟨hid, hsel, ⟨hash, signature⟩, hdec, envelope, htrailer, -⟩ := h
  refine ⟨hid, hsel, hash, signature, envelope, hdec, ?_⟩
  dsimp only at htrailer
  cases ht : trailerOf beyond signature.data with
  | error r =>
    rw [ht] at htrailer
    cases htrailer
  | ok e =>
    rw [ht] at htrailer
    exact congrArg Except.ok (Except.ok.inj htrailer)

theorem installed_of_checkIntent {caller : Address} {hash : W} {kind : Uint8} {payload : Bytes}
    (h : checkIntent K env block s account caller hash kind payload = .ok ()) :
    (s.limits account).gatewayWallet ≠ 0 := by
  rw [checkIntent, bind_eq_ok] at h
  obtain ⟨u, hi, _⟩ := h
  exact require_eq_ok.mp hi

/-- A hash that the v0.8 hook accepts is the digest of the intent in the envelope. -/
theorem intentOf_of_accepted {entityId : Uint32} {sender : Address} {hash : W}
    {signature : Bytes}
    (h : preSignatureValidationHook K env block s account entityId sender hash signature = .ok ()) :
    (∃ intent, intentOf signature = some (.burn intent) ∧ burnIntentDigest K intent = hash
        ∧ intent.spec.sourceDepositor = toBytes32 account)
      ∨ ∃ auth name version, intentOf signature = some (.auth auth)
        ∧ receiveWithAuthorizationDigest K name version block.chainid sender auth = hash
        ∧ auth.fromAddr = account := by
  obtain ⟨-, kind, payload, hdec, hc⟩ := preSignatureValidationHook_eq_ok.mp h
  have hallowed := (checkIntent_iff (installed_of_checkIntent hc)).mp hc
  rcases hallowed with ⟨hk, intent, hpay, hdig, ha⟩ | ⟨hk, auth, hpay, hdig, ha⟩
  · left
    refine ⟨intent, ?_, hdig, ha.shape.sourceDepositor⟩
    rw [intentOf, hdec]
    simp [hk, hpay]
  · right
    refine ⟨auth, _, _, ?_, hdig, ha.fromAddr⟩
    rw [intentOf, hdec]
    simp [hk, hpay]

/-- **The two packagings decide alike.**  On a call whose signature carries an envelope
behind the multisig's part, the v0.7 hook gives the v0.8 hook's answer on the envelope, with
the same error; and it accepts a call exactly if it is one of `isValidSignature` with such a
signature, the guard is installed, and the envelope holds an intent that the policy of the
account allows under the hash. -/
theorem hooks_agree (K : Keccak W) (env : Env W) (block : Block) (s : State W) (account : Address)
    (digestOf : Bytes32 → W) (beyond : Memory) (entityId : Uint32) (sender : Address)
    (value : Uint256) :
    (∀ hash p e pad, (frame p e).length < 2 ^ 64 →
      preRuntimeValidationHook K env block s account digestOf beyond 0 sender value
          (isValidSignatureCall hash (frame p e) pad)
        = preSignatureValidationHook K env block s account entityId sender (digestOf hash) e)
    ∧ ∀ functionId data,
      preRuntimeValidationHook K env block s account digestOf beyond functionId sender value data
          = .ok ()
        ↔ functionId = 0
          ∧ ¬ (data.length < 4
            ∨ BitVec.ofNat 32 (beNat (data.take 4)) ≠ isValidSignatureSelector)
          ∧ (s.limits account).gatewayWallet ≠ 0
          ∧ ∃ hash signature p e kind payload,
            decodeHashSignature (data.drop 4) = some (hash, signature)
              ∧ signature.data = frame p e ∧ 96 ≤ e.length
              ∧ decodeKindPayload e = some (kind, payload)
              ∧ IntentAllowed K (s.policy K env account) block sender (digestOf hash) kind
                  payload.data := by
  constructor
  · intro hash p e pad hlen
    exact preRuntimeValidationHook_frame entityId hash pad hlen
  · intro functionId data
    constructor
    · intro h
      obtain ⟨hid, hsel, hash, signature, e, hdec, htrailer⟩ :=
        exists_of_preRuntimeValidationHook h
      rw [preRuntimeValidationHook_of_decode entityId hid hsel hdec htrailer] at h
      obtain ⟨hlen, kind, payload, hkp, hc⟩ := preSignatureValidationHook_eq_ok.mp h
      have hi := installed_of_checkIntent hc
      obtain ⟨p, hframe⟩ := exists_frame_of_trailerOf htrailer
      exact ⟨hid, hsel, hi, hash, signature, p, e, kind, payload, hdec, hframe, hlen, hkp,
        (checkIntent_iff hi).mp hc⟩
    · rintro ⟨hid, hsel, hi, hash, signature, p, e, kind, payload, hdec, hframe, hlen, hkp, ha⟩
      have he : e.length < 2 ^ 256 := by
        have hs := signature.size_lt
        rw [hframe, frame_length] at hs
        omega
      have htrailer : trailerOf beyond signature.data = .ok e := by
        rw [hframe, trailerOf_frame beyond he]
      rw [preRuntimeValidationHook_of_decode entityId hid hsel hdec htrailer]
      exact preSignatureValidationHook_eq_ok.mpr
        ⟨hlen, kind, payload, hkp, (checkIntent_iff hi).mpr ha⟩

end

/-! ### What a hash commits to -/

/-- One hash, accepted by the v0.8 hooks of two accounts, is for one account and one intent. -/
theorem envelope_binding {W : Type} [DecidableEq W] {K : Keccak W} {env env' : Env W}
    {block block' : Block} {s s' : State W} {account account' : Address}
    {entityId entityId' : Uint32} {sender sender' : Address} {hash : W} {e e' : Bytes}
    (h : preSignatureValidationHook K env block s account entityId sender hash e = .ok ())
    (h' : preSignatureValidationHook K env' block' s' account' entityId' sender' hash e'
      = .ok ()) :
    account = account' ∧ ∃ intent, intentOf e = some intent ∧ intentOf e' = some intent
      ∧ ∀ auth, intent = .auth auth → sender = sender' ∧ block.chainid = block'.chainid := by
  rcases intentOf_of_accepted h with ⟨i, hi, hd, ha⟩ | ⟨a, n, v, hi, hd, ha⟩
  · rcases intentOf_of_accepted h' with ⟨i', hi', hd', ha'⟩ | ⟨a', n', v', -, hd', -⟩
    · obtain rfl := burnIntentDigest_inj K (hd.trans hd'.symm)
      refine ⟨toBytes32_injective (ha.symm.trans ha'), .burn i, hi, hi', ?_⟩
      intro auth hauth
      cases hauth
    · exact absurd (hd.trans hd'.symm) (burnIntentDigest_ne_receive K i n' v' _ _ a')
  · rcases intentOf_of_accepted h' with ⟨i', -, hd', -⟩ | ⟨a', n', v', hi', hd', ha'⟩
    · exact absurd (hd'.trans hd.symm) (burnIntentDigest_ne_receive K i' n v _ _ a)
    · obtain ⟨-, -, hchain, hsender, rfl⟩ :=
        receiveWithAuthorizationDigest_inj K (hd.trans hd'.symm)
      exact ⟨ha.symm.trans ha', .auth a, hi, hi', fun _ _ => ⟨hsender, hchain⟩⟩

/-- **The trailer is bound by the hash.**  Two calls that v0.7 hooks accept under one digest,
on whatever accounts, configurations and chains and with whatever signed, carry one intent of
one account, and an authorization is for one token on one chain. -/
theorem trailer_binding {W : Type} [DecidableEq W] {K : Keccak W} {env env' : Env W}
    {block block' : Block} {s s' : State W} {account account' : Address}
    {digestOf : Bytes32 → W} {beyond beyond' : Memory} {functionId functionId' : Uint8}
    {sender sender' : Address} {value value' : Uint256} {data data' : Bytes}
    {hash hash' : Bytes32} {signature signature' : MemBytes}
    (hdec : decodeHashSignature (data.drop 4) = some (hash, signature))
    (hdec' : decodeHashSignature (data'.drop 4) = some (hash', signature'))
    (hhash : digestOf hash = digestOf hash')
    (h : preRuntimeValidationHook K env block s account digestOf beyond functionId sender value data
      = .ok ())
    (h' : preRuntimeValidationHook K env' block' s' account' digestOf beyond' functionId' sender'
      value' data' = .ok ()) :
    account = account' ∧ ∃ p e p' e' intent, signature.data = frame p e
      ∧ signature'.data = frame p' e' ∧ intentOf e = some intent ∧ intentOf e' = some intent
      ∧ ∀ auth, intent = .auth auth → sender = sender' ∧ block.chainid = block'.chainid := by
  obtain ⟨hid, hsel, _, _, e, hd, ht⟩ := exists_of_preRuntimeValidationHook h
  obtain ⟨hid', hsel', _, _, e', hd', ht'⟩ := exists_of_preRuntimeValidationHook h'
  rw [hdec, Option.some.injEq, Prod.mk.injEq] at hd
  rw [hdec', Option.some.injEq, Prod.mk.injEq] at hd'
  obtain ⟨rfl, rfl⟩ := hd
  obtain ⟨rfl, rfl⟩ := hd'
  rw [preRuntimeValidationHook_of_decode 0 hid hsel hdec ht] at h
  rw [preRuntimeValidationHook_of_decode 0 hid' hsel' hdec' ht', ← hhash] at h'
  obtain ⟨haccount, intent, hi, hi', hauth⟩ := envelope_binding h h'
  obtain ⟨p, hp⟩ := exists_frame_of_trailerOf ht
  obtain ⟨p', hp'⟩ := exists_frame_of_trailerOf ht'
  exact ⟨haccount, p, e, p', e', intent, hp, hp', hi, hi', hauth⟩

/-- An envelope with the deposit `soleAuth`. -/
def soleEnvelope : Bytes :=
  beBytes 32 1 ++ beBytes 32 64 ++ beBytes 32 192 ++ Treasury.soleAuthPayload

/-- A call with an envelope that carries `soleAuth` is accepted, whatever else is in it. -/
theorem soleCall_accepted {p e : Bytes} (hframe : (frame p e).length < 2 ^ 64)
    (hlen : 96 ≤ e.length)
    (hdec : (decodeKindPayload e).map (fun x => (x.1, x.2.data))
      = some (1, Treasury.soleAuthPayload)) :
    preRuntimeValidationHook Keccak.symbolic noBook ⟨10, 1⟩ mirrorState 2
      (fun _ => Treasury.soleAuthHash) (fun _ => 0) 0 4 0 (isValidSignatureCall 77 (frame p e) [])
      = .ok () := by
  rw [preRuntimeValidationHook_frame 0 77 [] hframe]
  obtain ⟨⟨kind, payload⟩, hkp, hx⟩ := Option.map_eq_some_iff.mp hdec
  rw [Prod.mk.injEq] at hx
  dsimp only at hx
  refine preSignatureValidationHook_eq_ok.mpr ⟨hlen, kind, payload, hkp, ?_⟩
  rw [hx.1, hx.2, checkIntent_iff mirror_corresponds.installed]
  exact .auth rfl Treasury.soleAuth (by decide +kernel) rfl ⟨by decide +kernel, rfl, rfl⟩

/-- The same deposit with a byte more behind it, and another signature in front. -/
theorem trailer_binding_sole :
    (2 : Address) = 2 ∧ ∃ p e p' e' intent, frame [] soleEnvelope = frame p e
      ∧ frame [7] (soleEnvelope ++ [9]) = frame p' e' ∧ intentOf e = some intent
      ∧ intentOf e' = some intent
      ∧ ∀ auth, intent = .auth auth → (4 : Address) = 4 ∧ (1 : Uint256) = 1 :=
  trailer_binding
    (decodeHashSignature_call 77 ⟨frame [] soleEnvelope, by decide +kernel⟩ [])
    (decodeHashSignature_call 77 ⟨frame [7] (soleEnvelope ++ [9]), by decide +kernel⟩ []) rfl
    (soleCall_accepted (by decide +kernel) (by decide +kernel) (by decide +kernel))
    (soleCall_accepted (by decide +kernel) (by decide +kernel) (by decide +kernel))

end Bufi.Guard
