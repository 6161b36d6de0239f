import Bufi.Evm.AbiEncode
import Bufi.Session.Plugin

/-!
# The call data of the session key plugin

The account passes call data on to the plugin, which dispatches it by its selector to one
of the five execution functions of its manifest and decodes the arguments.  What was
encoded is read back: a key, a tag, the updates of a key (`reads_bytesArray`) and the
calls of a batch (`reads_call`).
-/

namespace Bufi.Session

open Bufi.Evm

/-! ### Dispatch -/

def selExecuteWithSessionKey : Bytes4 := 0x31d99c2c
def selAddSessionKey : Bytes4 := 0x9aa74d23
def selRemoveSessionKey : Bytes4 := 0x64b2bd25
def selRotateSessionKey : Bytes4 := 0x85cb6e95
def selUpdateKeyPermissions : Bytes4 := 0xbb319893

/-- A `bytes[]`. -/
def bytesArray : Bytes → ℕ → Option (List Bytes) :=
  Abi.dynArray (fun d p => (Abi.bytes d p).map MemBytes.data)

def decodeAdd (a : Bytes) : Option Action := do
  let sessionKey ← Abi.address a 0
  let tag ← Abi.word a 32
  let permissionUpdates ← bytesArray a (← Abi.tail a 0 64)
  return .addSessionKey sessionKey tag permissionUpdates

def decodeRemove (a : Bytes) : Option Action := do
  return .removeSessionKey (← Abi.address a 0) (← Abi.word a 32)

def decodeRotate (a : Bytes) : Option Action := do
  return .rotateSessionKey (← Abi.address a 0) (← Abi.word a 32) (← Abi.address a 64)

def decodeUpdateKeyPermissions (a : Bytes) : Option Action := do
  let sessionKey ← Abi.address a 0
  let updates ← bytesArray a (← Abi.tail a 0 32)
  return .updateKeyPermissions sessionKey updates

/-- The execution function that call data reaches, and its arguments. -/
def decodeCallData (callsReturn : Bool) (callData : Bytes) : Option Action :=
  let selector := BitVec.ofNat 32 (beNat (callData.take 4))
  if callData.length < 4 then none
  else if selector = selExecuteWithSessionKey then
    (decodeExecute callData).map (fun e => .executeWithSessionKey e.1 e.2 callsReturn)
  else if selector = selAddSessionKey then decodeAdd (callData.drop 4)
  else if selector = selRemoveSessionKey then decodeRemove (callData.drop 4)
  else if selector = selRotateSessionKey then decodeRotate (callData.drop 4)
  else if selector = selUpdateKeyPermissions then decodeUpdateKeyPermissions (callData.drop 4)
  else none

/-- A call of the plugin by the account. -/
def execCallData {W S : Type} [DecidableEq W] (E : Env W S) (timestamp : Uint256)
    (account : Address) (s : State W S) (callsReturn : Bool) (callData : Bytes) :
    Except Revert (State W S) := do
  let action ← orRevert (decodeCallData callsReturn callData) .badArguments
  exec E s ⟨account, timestamp, action⟩

/-! ### Encoding -/

/-- A selector and the arguments. -/
def encodeFunction (selector : Bytes4) (args : List Abi.Part) : Bytes :=
  beBytes 4 selector.toNat ++ Abi.encodeTuple args

def encodeBytesArray (updates : List Bytes) : Bytes :=
  Abi.encodeArray (updates.map (fun update => .tail (Abi.encodeBytes update)))

def encodeCallTuple (call : Call) : Bytes :=
  Abi.encodeTuple
    [.word call.target.toNat, .word call.value.toNat, .tail (Abi.encodeBytes call.data)]

theorem drop_encodeFunction (selector : Bytes4) (args : List Abi.Part) :
    (encodeFunction selector args).drop 4 = Abi.encodeTuple args := by
  rw [encodeFunction, List.drop_left' (beBytes_length 4 _)]

theorem selector_encodeFunction (selector : Bytes4) (args : List Abi.Part) :
    BitVec.ofNat 32 (beNat ((encodeFunction selector args).take 4)) = selector := by
  rw [encodeFunction, List.take_left' (beBytes_length 4 _), beNat_beBytes, Nat.mod_eq_of_lt]
  · exact BitVec.eq_of_toNat_eq (by simp)
  · exact selector.isLt.trans_eq (by norm_num)

theorem four_le_encodeFunction (selector : Bytes4) (args : List Abi.Part) :
    ¬ (encodeFunction selector args).length < 4 := by
  rw [encodeFunction, List.length_append, beBytes_length]
  omega

/-- The components of encoded arguments stand where they are looked for. -/
theorem laid_encodeTuple {args : List Abi.Part} (h : (Abi.encodeTuple args).length < 2 ^ 64) :
    Abi.Laid (Abi.encodeTuple args) 0 0 args :=
  Abi.laid_of_at (Abi.At.refl _) h

/-! ### Round trips -/

theorem reads_bytesArray (updates : List Bytes) :
    Abi.Reads bytesArray (encodeBytesArray updates) updates := by
  have h : Abi.Reads bytesArray (encodeBytesArray updates) (updates.map id) :=
    Abi.Reads.dynArray (fun update _ => Abi.Reads.bytes update)
  rwa [List.map_id] at h

theorem reads_call (call : Call) : Abi.Reads decodeCall (encodeCallTuple call) call := by
  intro d p hat hsize
  obtain ⟨htarget, hvalue, ⟨n, hn, hhead, hbody, hlen⟩, -⟩ := Abi.laid_of_at hat hsize
  have hdata : call.data.length < 2 ^ 64 := by
    rw [Abi.encodeBytes, List.length_append, List.length_append] at hlen
    omega
  have hread := Abi.Reads.memBytes ⟨call.data, hdata⟩ d _ hbody hlen
  simp only [decodeCall, htarget.address, hvalue.word_eq, hhead.tail hn, hread,
    Option.bind_eq_bind, Option.bind_some]
  rfl

theorem decodeExecute_encode {calls : List Call} {sessionKey : Address} {args : List Abi.Part}
    (hargs : args = [.tail (Abi.encodeArray (calls.map (fun call => .tail (encodeCallTuple call)))),
      .word sessionKey.toNat]) (h : (Abi.encodeTuple args).length < 2 ^ 64) :
    decodeExecute (encodeFunction selExecuteWithSessionKey args) = some (calls, sessionKey) := by
  have hlaid := laid_encodeTuple h
  rw [hargs] at hlaid
  obtain ⟨⟨n, hn, hhead, hbody, hlen⟩, hkey, -⟩ := hlaid
  have hcalls : Abi.Reads (Abi.dynArray decodeCall)
      (Abi.encodeArray (calls.map (fun call => .tail (encodeCallTuple call)))) (calls.map id) :=
    Abi.Reads.dynArray (fun call _ => reads_call call)
  have hread := hcalls _ _ hbody hlen
  rw [List.map_id] at hread
  have hfour : 4 ≤ (encodeFunction selExecuteWithSessionKey args).length :=
    Nat.le_of_not_lt (four_le_encodeFunction _ _)
  rw [← hargs] at hhead hkey hread
  simp only [decodeExecute, drop_encodeFunction, hfour, guard_true, hhead.tail hn, hread,
    hkey.address, Option.bind_eq_bind, Option.bind_some, Option.pure_def]

theorem decodeAdd_encode {sessionKey : Address} {tag : Bytes32} {updates : List Bytes}
    {args : List Abi.Part} (hargs : args = [.word sessionKey.toNat, .word tag.toNat,
      .tail (encodeBytesArray updates)]) (h : (Abi.encodeTuple args).length < 2 ^ 64) :
    decodeAdd (Abi.encodeTuple args) = some (.addSessionKey sessionKey tag updates) := by
  have hlaid := laid_encodeTuple h
  rw [hargs] at hlaid
  obtain ⟨hkey, htag, ⟨n, hn, hhead, hbody, hlen⟩, -⟩ := hlaid
  have hread := reads_bytesArray updates _ _ hbody hlen
  rw [← hargs] at hkey htag hhead hread
  simp only [decodeAdd, hkey.address, htag.word_eq, hhead.tail hn, hread, Option.bind_eq_bind,
    Option.bind_some, Option.pure_def]

theorem decodeRemove_encode (sessionKey : Address) (predecessor : Bytes32) :
    decodeRemove (Abi.encodeTuple [.word sessionKey.toNat, .word predecessor.toNat])
      = some (.removeSessionKey sessionKey predecessor) := by
  have hsize : (Abi.encodeTuple [.word sessionKey.toNat, .word predecessor.toNat]).length
      < 2 ^ 64 := by
    rw [Abi.encodeTuple_length]
    show 64 < 2 ^ 64
    decide
  obtain ⟨hkey, hpredecessor, -⟩ := laid_encodeTuple hsize
  simp only [decodeRemove, hkey.address, hpredecessor.word_eq, Option.bind_eq_bind,
    Option.bind_some, Option.pure_def]

theorem decodeRotate_encode (oldSessionKey : Address) (predecessor : Bytes32)
    (newSessionKey : Address) :
    decodeRotate (Abi.encodeTuple
        [.word oldSessionKey.toNat, .word predecessor.toNat, .word newSessionKey.toNat])
      = some (.rotateSessionKey oldSessionKey predecessor newSessionKey) := by
  have hsize : (Abi.encodeTuple
      [.word oldSessionKey.toNat, .word predecessor.toNat, .word newSessionKey.toNat]).length
      < 2 ^ 64 := by
    rw [Abi.encodeTuple_length]
    show 96 < 2 ^ 64
    decide
  obtain ⟨hold, hpredecessor, hnew, -⟩ := laid_encodeTuple hsize
  simp only [decodeRotate, hold.address, hpredecessor.word_eq, hnew.address,
    Option.bind_eq_bind, Option.bind_some, Option.pure_def]

theorem decodeUpdateKeyPermissions_encode {sessionKey : Address} {updates : List Bytes}
    {args : List Abi.Part} (hargs : args = [.word sessionKey.toNat,
      .tail (encodeBytesArray updates)]) (h : (Abi.encodeTuple args).length < 2 ^ 64) :
    decodeUpdateKeyPermissions (Abi.encodeTuple args)
      = some (.updateKeyPermissions sessionKey updates) := by
  have hlaid := laid_encodeTuple h
  rw [hargs] at hlaid
  obtain ⟨hkey, ⟨n, hn, hhead, hbody, hlen⟩, -⟩ := hlaid
  have hread := reads_bytesArray updates _ _ hbody hlen
  rw [← hargs] at hkey hhead hread
  simp only [decodeUpdateKeyPermissions, hkey.address, hhead.tail hn, hread,
    Option.bind_eq_bind, Option.bind_some, Option.pure_def]

theorem decodeInstall_encode {sessionKeys : List Address} {tags : List Bytes32}
    {permissionUpdates : List (List Bytes)} {args : List Abi.Part}
    (hargs : args = [.tail (Abi.encodeArray (sessionKeys.map (fun key => .word key.toNat))),
      .tail (Abi.encodeArray (tags.map (fun tag => .word tag.toNat))),
      .tail (Abi.encodeArray
        (permissionUpdates.map (fun updates => .tail (encodeBytesArray updates))))])
    (h : (Abi.encodeTuple args).length < 2 ^ 64) :
    decodeInstall (Abi.encodeTuple args) = some (sessionKeys, tags, permissionUpdates) := by
  have hlaid := laid_encodeTuple h
  rw [hargs] at hlaid
  obtain ⟨⟨i, hi, hkeysAt, hkeys, hkeysLen⟩, ⟨j, hj, htagsAt, htags, htagsLen⟩,
    ⟨k, hk, hupdatesAt, hupdates, hupdatesLen⟩, -⟩ := hlaid
  have hreadKeys : Abi.Reads (Abi.array Abi.address)
      (Abi.encodeArray (sessionKeys.map (fun key => .word key.toNat))) (sessionKeys.map id) :=
    Abi.Reads.array (fun key _ => Abi.Reads.address key)
  have hreadTags : Abi.Reads (Abi.array Abi.word)
      (Abi.encodeArray (tags.map (fun tag => .word tag.toNat))) (tags.map id) :=
    Abi.Reads.array (fun tag _ => Abi.Reads.word tag)
  have hreadUpdates : Abi.Reads (Abi.dynArray bytesArray)
      (Abi.encodeArray
        (permissionUpdates.map (fun updates => .tail (encodeBytesArray updates))))
      (permissionUpdates.map id) :=
    Abi.Reads.dynArray (fun updates _ => reads_bytesArray updates)
  have hkeysRead := hreadKeys _ _ hkeys hkeysLen
  have htagsRead := hreadTags _ _ htags htagsLen
  have hupdatesRead := hreadUpdates _ _ hupdates hupdatesLen
  rw [← hargs] at hkeysAt htagsAt hupdatesAt hkeysRead htagsRead hupdatesRead
  rw [List.map_id] at hkeysRead htagsRead hupdatesRead
  change (do
    let keys ← Abi.array Abi.address (Abi.encodeTuple args) (← Abi.tail (Abi.encodeTuple args) 0 0)
    let tags ← Abi.array Abi.word (Abi.encodeTuple args) (← Abi.tail (Abi.encodeTuple args) 0 32)
    let updates ← Abi.dynArray bytesArray (Abi.encodeTuple args)
      (← Abi.tail (Abi.encodeTuple args) 0 64)
    return (keys, tags, updates)) = _
  simp only [hkeysAt.tail hi, htagsAt.tail hj, hupdatesAt.tail hk, hkeysRead, htagsRead,
    hupdatesRead, Option.bind_eq_bind, Option.bind_some, Option.pure_def]

/-! ### Dispatch of encoded calls -/

/-- The call data of an execution function, as an encoder of the plugin's ABI writes it. -/
inductive Encoded (callsReturn : Bool) : Bytes → Action → Prop
  | executeWithSessionKey (calls : List Call) (sessionKey : Address) :
    Encoded callsReturn (encodeFunction selExecuteWithSessionKey
        [.tail (Abi.encodeArray (calls.map (fun call => .tail (encodeCallTuple call)))),
          .word sessionKey.toNat])
      (.executeWithSessionKey calls sessionKey callsReturn)
  | addSessionKey (sessionKey : Address) (tag : Bytes32) (permissionUpdates : List Bytes) :
    Encoded callsReturn (encodeFunction selAddSessionKey
        [.word sessionKey.toNat, .word tag.toNat, .tail (encodeBytesArray permissionUpdates)])
      (.addSessionKey sessionKey tag permissionUpdates)
  | removeSessionKey (sessionKey : Address) (predecessor : Bytes32) :
    Encoded callsReturn (encodeFunction selRemoveSessionKey
        [.word sessionKey.toNat, .word predecessor.toNat])
      (.removeSessionKey sessionKey predecessor)
  | rotateSessionKey (oldSessionKey : Address) (predecessor : Bytes32) (newSessionKey : Address) :
    Encoded callsReturn (encodeFunction selRotateSessionKey
        [.word oldSessionKey.toNat, .word predecessor.toNat, .word newSessionKey.toNat])
      (.rotateSessionKey oldSessionKey predecessor newSessionKey)
  | updateKeyPermissions (sessionKey : Address) (updates : List Bytes) :
    Encoded callsReturn (encodeFunction selUpdateKeyPermissions
        [.word sessionKey.toNat, .tail (encodeBytesArray updates)])
      (.updateKeyPermissions sessionKey updates)

theorem decodeCallData_encodeFunction (callsReturn : Bool) (selector : Bytes4)
    (args : List Abi.Part) :
    decodeCallData callsReturn (encodeFunction selector args)
      = if selector = selExecuteWithSessionKey then
          (decodeExecute (encodeFunction selector args)).map
            (fun e => .executeWithSessionKey e.1 e.2 callsReturn)
        else if selector = selAddSessionKey then decodeAdd (Abi.encodeTuple args)
        else if selector = selRemoveSessionKey then decodeRemove (Abi.encodeTuple args)
        else if selector = selRotateSessionKey then decodeRotate (Abi.encodeTuple args)
        else if selector = selUpdateKeyPermissions then
          decodeUpdateKeyPermissions (Abi.encodeTuple args)
        else none := by
  simp only [decodeCallData, selector_encodeFunction, drop_encodeFunction, if_false,
    four_le_encodeFunction]

/-- **Encoded call data reaches its function with its arguments.** -/
theorem decodeCallData_of_encoded {callsReturn : Bool} {callData : Bytes} {action : Action}
    (h : Encoded callsReturn callData action) (hsize : callData.length < 2 ^ 64) :
    decodeCallData callsReturn callData = some action := by
  have hargs : ∀ selector args, (encodeFunction selector args).length < 2 ^ 64 →
      (Abi.encodeTuple args).length < 2 ^ 64 := by
    intro selector args hlt
    rw [encodeFunction, List.length_append] at hlt
    omega
  cases h with
  | executeWithSessionKey calls sessionKey =>
    rw [decodeCallData_encodeFunction, if_pos rfl, decodeExecute_encode rfl (hargs _ _ hsize)]
    rfl
  | addSessionKey sessionKey tag permissionUpdates =>
    rw [decodeCallData_encodeFunction, if_neg (by decide), if_pos rfl,
      decodeAdd_encode rfl (hargs _ _ hsize)]
  | removeSessionKey sessionKey predecessor =>
    rw [decodeCallData_encodeFunction, if_neg (by decide), if_neg (by decide), if_pos rfl,
      decodeRemove_encode]
  | rotateSessionKey oldSessionKey predecessor newSessionKey =>
    rw [decodeCallData_encodeFunction, if_neg (by decide), if_neg (by decide),
      if_neg (by decide), if_pos rfl, decodeRotate_encode]
  | updateKeyPermissions sessionKey updates =>
    rw [decodeCallData_encodeFunction, if_neg (by decide), if_neg (by decide),
      if_neg (by decide), if_neg (by decide), if_pos rfl,
      decodeUpdateKeyPermissions_encode rfl (hargs _ _ hsize)]

/-- The validation reads the calls that the execution makes. -/
theorem decodeExecute_of_encoded {callsReturn : Bool} {callData : Bytes} {calls : List Call}
    {sessionKey : Address}
    (h : Encoded callsReturn callData (.executeWithSessionKey calls sessionKey callsReturn))
    (hsize : callData.length < 2 ^ 64) : decodeExecute callData = some (calls, sessionKey) := by
  cases h with
  | executeWithSessionKey =>
    refine decodeExecute_encode rfl ?_
    rw [encodeFunction, List.length_append] at hsize
    omega

end Bufi.Session
