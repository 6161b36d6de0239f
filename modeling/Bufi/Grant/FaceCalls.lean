import Bufi.Grant.Meaning
import Bufi.Session.Calldata

/-!
# The calls of an agent face

`buildAgentFaceCalls.ts`: an account becomes the face of its agents either by the call that
installs the session key plugin with all their keys, or, where the plugin is installed,
by a call of `addSessionKey` for each of them.  The encoders of the plugin's functions are
the SDK's, with viem's checks of their arguments.

What the SDK encodes is what the plugin reads (`plugin_calls_read`), and the two ways of
adding the agents come to the same (`face_calls_agree`).
-/

namespace Bufi.Grant

open Bufi.Evm Bufi.Js Bufi.Session

/-! ### Encoders -/

structure SessionKeyRegistration where
  sessionKey : String
  tag : Option Bytes32
  permissionUpdates : List Bytes
  deriving DecidableEq

/-- A call of a batch, as the SDK takes it. -/
structure SdkCall where
  target : String
  value : ℤ
  data : Bytes
  deriving DecidableEq

/-- A call to submit as a user operation. -/
structure EncodedCall where
  to' : String
  value : ℤ
  data : Bytes
  deriving DecidableEq

structure FunctionReference where
  plugin : String
  functionId : Uint8
  deriving DecidableEq

structure PluginDeployment where
  address : String
  manifestHash : Bytes32
  deriving DecidableEq

/-- The addresses of a stack that the session key plugin is installed with. -/
structure StackDeployment where
  weightedWebauthnMultisig : PluginDeployment
  bufiSessionKey : Option PluginDeployment
  deriving DecidableEq

inductive FaceError
  | noSessionKeyPlugin
  | encoding (e : GrantError)
  deriving DecidableEq

def FaceError.text : FaceError → Option String
  | noSessionKeyPlugin => some "The stack deployment has no BUFI session key plugin."
  | encoding e => e.text

def WEIGHTED_MULTISIG_OWNER_USER_OP_VALIDATION_FUNCTION_ID : Uint8 := 0
def WEIGHTED_MULTISIG_UNIMPLEMENTED_RUNTIME_VALIDATION_FUNCTION_ID : Uint8 := 1

/-- The manifest's two owner validations, the first bound to a function that the weighted
plugin does not implement. -/
def sessionKeyDependencies (weightedPluginAddress : String) : List FunctionReference :=
  [⟨weightedPluginAddress, WEIGHTED_MULTISIG_UNIMPLEMENTED_RUNTIME_VALIDATION_FUNCTION_ID⟩,
    ⟨weightedPluginAddress, WEIGHTED_MULTISIG_OWNER_USER_OP_VALIDATION_FUNCTION_ID⟩]

def selInstallPlugin : Bytes4 := 0xf85730f4

section

variable (checksumAddress : String → String)

def encodeAddSessionKey (r : SessionKeyRegistration) : Except GrantError Bytes := do
  let sessionKey ← encodeAddress checksumAddress r.sessionKey
  pure (encodeFunction selAddSessionKey
    [.word sessionKey.toNat, .word (r.tag.getD 0).toNat,
      .tail (encodeBytesArray r.permissionUpdates)])

def encodeRemoveSessionKey (sessionKey : String) (predecessor : Bytes32) :
    Except GrantError Bytes := do
  let sessionKey ← encodeAddress checksumAddress sessionKey
  pure (encodeFunction selRemoveSessionKey [.word sessionKey.toNat, .word predecessor.toNat])

def encodeRotateSessionKey (oldSessionKey : String) (predecessor : Bytes32)
    (newSessionKey : String) : Except GrantError Bytes := do
  let oldSessionKey ← encodeAddress checksumAddress oldSessionKey
  let newSessionKey ← encodeAddress checksumAddress newSessionKey
  pure (encodeFunction selRotateSessionKey
    [.word oldSessionKey.toNat, .word predecessor.toNat, .word newSessionKey.toNat])

def encodeUpdateKeyPermissions (sessionKey : String) (updates : List Bytes) :
    Except GrantError Bytes := do
  let sessionKey ← encodeAddress checksumAddress sessionKey
  pure (encodeFunction selUpdateKeyPermissions
    [.word sessionKey.toNat, .tail (encodeBytesArray updates)])

/-- The `Call` struct of a call of a batch. -/
def encodeSdkCall (call : SdkCall) : Except GrantError Bytes := do
  let target ← encodeAddress checksumAddress call.target
  let value ← encodeBigInt 256 call.value
  pure (encodeCallTuple ⟨target, value, call.data⟩)

def encodeExecuteWithSessionKey (calls : List SdkCall) (sessionKey : String) :
    Except GrantError Bytes := do
  let tuples ← calls.mapM (encodeSdkCall checksumAddress)
  let sessionKey ← encodeAddress checksumAddress sessionKey
  pure (encodeFunction selExecuteWithSessionKey
    [.tail (Abi.encodeArray (tuples.map .tail)), .word sessionKey.toNat])

def encodeSessionKeyInstallData (registrations : List SessionKeyRegistration) :
    Except GrantError Bytes := do
  let sessionKeys ← registrations.mapM (fun r => encodeAddress checksumAddress r.sessionKey)
  pure (Abi.encodeTuple
    [.tail (Abi.encodeArray (sessionKeys.map (fun key => .word key.toNat))),
      .tail (Abi.encodeArray (registrations.map (fun r => .word (r.tag.getD 0).toNat))),
      .tail (Abi.encodeArray
        (registrations.map (fun r => .tail (encodeBytesArray r.permissionUpdates))))])

/-- The two words of a dependency. -/
def encodeFunctionReference (dependency : FunctionReference) : Except GrantError (List ℕ) := do
  let plugin ← encodeAddress checksumAddress dependency.plugin
  pure [plugin.toNat, dependency.functionId.toNat]

def encodeInstallPlugin (account plugin : String) (manifestHash : Bytes32)
    (pluginInstallData : Bytes) (dependencies : List FunctionReference) :
    Except GrantError EncodedCall := do
  let plugin ← encodeAddress checksumAddress plugin
  let references ← dependencies.mapM (encodeFunctionReference checksumAddress)
  pure ⟨account, 0, encodeFunction selInstallPlugin
    [.word plugin.toNat, .word manifestHash.toNat, .tail (Abi.encodeBytes pluginInstallData),
      .tail (beBytes 32 references.length ++ references.flatten.flatMap (beBytes 32))]⟩

def encodeInstallSessionKeyPlugin (account : String)
    (registrations : List SessionKeyRegistration) (deployment : StackDeployment) :
    Except FaceError EncodedCall := do
  let bufiSessionKey ← orRevert deployment.bufiSessionKey .noSessionKeyPlugin
  let pluginInstallData ←
    (encodeSessionKeyInstallData checksumAddress registrations).mapError .encoding
  (encodeInstallPlugin checksumAddress account bufiSessionKey.address bufiSessionKey.manifestHash
    pluginInstallData (sessionKeyDependencies deployment.weightedWebauthnMultisig.address)).mapError
      .encoding

/-! ### An agent face -/

structure AgentGrant where
  sessionKey : String
  tag : Option Bytes32
  grant : BufiGrant
  deriving DecidableEq

structure AgentFaceCalls where
  installSessionKeyPlugin : EncodedCall
  addSessionKeys : List EncodedCall
  registrations : List SessionKeyRegistration
  deriving DecidableEq

/-- The registration of an agent. -/
def registrationOf (agent : AgentGrant) : Except GrantError SessionKeyRegistration := do
  let permissionUpdates ← buildBufiGrant checksumAddress agent.grant
  pure ⟨agent.sessionKey, some (agent.tag.getD 0), permissionUpdates⟩

def addSessionKeyCall (account : String) (registration : SessionKeyRegistration) :
    Except GrantError EncodedCall := do
  let data ← encodeAddSessionKey checksumAddress registration
  pure ⟨account, 0, data⟩

def buildAgentFaceCalls (account : String) (agents : List AgentGrant)
    (deployment : StackDeployment) : Except FaceError AgentFaceCalls := do
  let registrations ← (agents.mapM (registrationOf checksumAddress)).mapError .encoding
  let installSessionKeyPlugin ←
    encodeInstallSessionKeyPlugin checksumAddress account registrations deployment
  let addSessionKeys ←
    (registrations.mapM (addSessionKeyCall checksumAddress account)).mapError .encoding
  pure ⟨installSessionKeyPlugin, addSessionKeys, registrations⟩

/-- What the plugin manager of the account reads of an `installPlugin` call. -/
def decodeInstallPlugin (callData : Bytes) : Option (Address × Bytes32 × MemBytes) := do
  let a := callData.drop 4
  let plugin ← Abi.address a 0
  let manifestHash ← Abi.word a 32
  let pluginInstallData ← Abi.bytes a (← Abi.tail a 0 64)
  return (plugin, manifestHash, pluginInstallData)

/-! ### What the plugin reads -/

/-- A call of one of the plugin's functions, as the SDK takes it. -/
inductive PluginCall
  | addSessionKey (registration : SessionKeyRegistration)
  | removeSessionKey (sessionKey : String) (predecessor : Bytes32)
  | rotateSessionKey (oldSessionKey : String) (predecessor : Bytes32) (newSessionKey : String)
  | updateKeyPermissions (sessionKey : String) (updates : List Bytes)
  | executeWithSessionKey (calls : List SdkCall) (sessionKey : String)

def PluginCall.encode : PluginCall → Except GrantError Bytes
  | .addSessionKey registration => encodeAddSessionKey checksumAddress registration
  | .removeSessionKey sessionKey predecessor =>
    encodeRemoveSessionKey checksumAddress sessionKey predecessor
  | .rotateSessionKey oldSessionKey predecessor newSessionKey =>
    encodeRotateSessionKey checksumAddress oldSessionKey predecessor newSessionKey
  | .updateKeyPermissions sessionKey updates =>
    encodeUpdateKeyPermissions checksumAddress sessionKey updates
  | .executeWithSessionKey calls sessionKey =>
    encodeExecuteWithSessionKey checksumAddress calls sessionKey

/-- A call of a batch, its address and its amount read. -/
structure SdkCall.Means (call : SdkCall) (c : Session.Call) : Prop where
  target : addressOf call.target = some c.target
  value : call.value = c.value.toNat
  data : call.data = c.data

/-- The action that a call asks for. -/
inductive PluginCall.Means (callsReturn : Bool) : PluginCall → Action → Prop
  | addSessionKey {r : SessionKeyRegistration} {key : Address}
      (hkey : addressOf r.sessionKey = some key) :
    PluginCall.Means callsReturn (.addSessionKey r)
      (.addSessionKey key (r.tag.getD 0) r.permissionUpdates)
  | removeSessionKey {sessionKey : String} {key : Address} {predecessor : Bytes32}
      (hkey : addressOf sessionKey = some key) :
    PluginCall.Means callsReturn (.removeSessionKey sessionKey predecessor)
      (.removeSessionKey key predecessor)
  | rotateSessionKey {oldSessionKey newSessionKey : String} {oldKey newKey : Address}
      {predecessor : Bytes32} (hold : addressOf oldSessionKey = some oldKey)
      (hnew : addressOf newSessionKey = some newKey) :
    PluginCall.Means callsReturn (.rotateSessionKey oldSessionKey predecessor newSessionKey)
      (.rotateSessionKey oldKey predecessor newKey)
  | updateKeyPermissions {sessionKey : String} {key : Address} {updates : List Bytes}
      (hkey : addressOf sessionKey = some key) :
    PluginCall.Means callsReturn (.updateKeyPermissions sessionKey updates)
      (.updateKeyPermissions key updates)
  | executeWithSessionKey {calls : List SdkCall} {cs : List Session.Call} {sessionKey : String}
      {key : Address} (hcalls : List.Forall₂ SdkCall.Means calls cs)
      (hkey : addressOf sessionKey = some key) :
    PluginCall.Means callsReturn (.executeWithSessionKey calls sessionKey)
      (.executeWithSessionKey cs key callsReturn)

end

section

variable {checksumAddress : String → String}

theorem SdkCall.Means.eq {call : SdkCall} {c c' : Session.Call} (h : call.Means c)
    (h' : call.Means c') : c = c' := by
  have htarget : c.target = c'.target := Option.some.inj (h.target.symm.trans h'.target)
  have hvalue : c.value = c'.value :=
    BitVec.eq_of_toNat_eq (Int.ofNat_inj.mp (h.value.symm.trans h'.value))
  have hdata : c.data = c'.data := h.data.symm.trans h'.data
  cases c with
  | mk target value data =>
    obtain rfl := htarget
    obtain rfl := hvalue
    obtain rfl := hdata
    rfl

theorem encodeSdkCall_means {call : SdkCall} {b : Bytes}
    (h : encodeSdkCall checksumAddress call = .ok b) :
    ∃ c : Session.Call, b = encodeCallTuple c ∧ call.Means c := by
  simp only [encodeSdkCall, bind_eq_ok, pure_eq_ok] at h
  obtain ⟨target, htarget, value, hvalue, rfl⟩ := h
  exact ⟨_, rfl, encodeAddress_eq_ok htarget, encodeBigInt_eq_ok hvalue, rfl⟩

theorem mapM_encodeSdkCall {calls : List SdkCall} {tuples : List Bytes}
    (h : calls.mapM (encodeSdkCall checksumAddress) = .ok tuples) :
    ∃ cs : List Session.Call, tuples = cs.map encodeCallTuple
      ∧ List.Forall₂ SdkCall.Means calls cs := by
  induction mapM_eq_ok.mp h with
  | nil => exact ⟨[], rfl, .nil⟩
  | @cons call b calls tuples hb htuples ih =>
    obtain ⟨cs, rfl, hcs⟩ := ih (mapM_eq_ok.mpr htuples)
    obtain ⟨c, rfl, hc⟩ := encodeSdkCall_means hb
    exact ⟨c :: cs, rfl, .cons hc hcs⟩

/-- An encoded call is the call data of the action it asks for. -/
theorem encoded_of_encode {callsReturn : Bool} {call : PluginCall} {data : Bytes}
    (h : call.encode checksumAddress = .ok data) :
    ∃ action, call.Means callsReturn action ∧ Encoded callsReturn data action := by
  cases call with
  | addSessionKey r =>
    simp only [PluginCall.encode, encodeAddSessionKey, bind_eq_ok, pure_eq_ok] at h
    obtain ⟨key, hkey, rfl⟩ := h
    exact ⟨_, .addSessionKey (encodeAddress_eq_ok hkey), .addSessionKey _ _ _⟩
  | removeSessionKey sessionKey predecessor =>
    simp only [PluginCall.encode, encodeRemoveSessionKey, bind_eq_ok, pure_eq_ok] at h
    obtain ⟨key, hkey, rfl⟩ := h
    exact ⟨_, .removeSessionKey (encodeAddress_eq_ok hkey), .removeSessionKey _ _⟩
  | rotateSessionKey oldSessionKey predecessor newSessionKey =>
    simp only [PluginCall.encode, encodeRotateSessionKey, bind_eq_ok, pure_eq_ok] at h
    obtain ⟨oldKey, hold, newKey, hnew, rfl⟩ := h
    exact ⟨_, .rotateSessionKey (encodeAddress_eq_ok hold) (encodeAddress_eq_ok hnew),
      .rotateSessionKey _ _ _⟩
  | updateKeyPermissions sessionKey updates =>
    simp only [PluginCall.encode, encodeUpdateKeyPermissions, bind_eq_ok, pure_eq_ok] at h
    obtain ⟨key, hkey, rfl⟩ := h
    exact ⟨_, .updateKeyPermissions (encodeAddress_eq_ok hkey), .updateKeyPermissions _ _⟩
  | executeWithSessionKey calls sessionKey =>
    simp only [PluginCall.encode, encodeExecuteWithSessionKey, bind_eq_ok, pure_eq_ok] at h
    obtain ⟨tuples, htuples, key, hkey, rfl⟩ := h
    obtain ⟨cs, rfl, hcs⟩ := mapM_encodeSdkCall htuples
    refine ⟨_, .executeWithSessionKey hcs (encodeAddress_eq_ok hkey), ?_⟩
    rw [List.map_map]
    exact .executeWithSessionKey _ _

/-- **The plugin reads what the SDK encodes**: the call reaches its function with the
arguments that were given, and the validation sees the batch that is executed. -/
theorem plugin_calls_read {callsReturn : Bool} {call : PluginCall} {data : Bytes}
    (h : call.encode checksumAddress = .ok data) (hsize : data.length < 2 ^ 64) :
    ∃ action, call.Means callsReturn action ∧ decodeCallData callsReturn data = some action
      ∧ ∀ calls key, action = .executeWithSessionKey calls key callsReturn →
        decodeExecute data = some (calls, key) := by
  obtain ⟨action, hmeans, hencoded⟩ := encoded_of_encode h
  refine ⟨action, hmeans, decodeCallData_of_encoded hencoded hsize, ?_⟩
  rintro calls key rfl
  exact decodeExecute_of_encoded hencoded hsize

end

/-- The agent sends 7 of the token to an account. -/
def transferPluginCall : PluginCall :=
  .executeWithSessionKey [⟨tokenText, 0, encodeCall selTransfer [0x500, 7]⟩]
    "0x0000000000000000000000000000000000000200"

theorem transferPluginCall_encodes :
    (transferPluginCall.encode id).toOption.map (fun data => decide (data.length < 2 ^ 64))
      = some true := by
  decide +kernel

theorem plugin_calls_read_transfer :
    ∃ data, transferPluginCall.encode id = .ok data
      ∧ decodeExecute data = some ([⟨0x400, 0, encodeCall selTransfer [0x500, 7]⟩], 0x200) := by
  obtain ⟨data, hdata, hsize⟩ := Option.map_eq_some_iff.mp transferPluginCall_encodes
  have hencode : transferPluginCall.encode id = .ok data := toOption_eq_some.mp hdata
  have hmeant : ∃ action, transferPluginCall.Means true action
      ∧ decodeCallData true data = some action
      ∧ ∀ calls key, action = .executeWithSessionKey calls key true →
        decodeExecute data = some (calls, key) :=
    plugin_calls_read hencode (of_decide_eq_true hsize)
  obtain ⟨action, hmeans, -, hread⟩ := hmeant
  have hkey : addressOf "0x0000000000000000000000000000000000000200" = some 0x200 := by
    decide +kernel
  have htoken : addressOf tokenText = some 0x400 := by
    decide +kernel
  refine ⟨data, hencode, hread _ _ ?_⟩
  cases hmeans with
  | executeWithSessionKey hcalls hagent =>
    cases hcalls with
    | cons hcall hnil =>
      cases hnil
      obtain rfl := Option.some.inj (hkey.symm.trans hagent)
      have hmeant : SdkCall.Means ⟨tokenText, 0, encodeCall selTransfer [0x500, 7]⟩
          ⟨0x400, 0, encodeCall selTransfer [0x500, 7]⟩ := ⟨htoken, rfl, rfl⟩
      rw [hcall.eq hmeant]

/-! ### Two ways to the same face -/

namespace SessionKeyRegistration

/-- The key of an accepted registration. -/
def key (r : SessionKeyRegistration) : Address := (addressOf r.sessionKey).getD 0

def args (r : SessionKeyRegistration) : List Abi.Part :=
  [.word r.key.toNat, .word (r.tag.getD 0).toNat, .tail (encodeBytesArray r.permissionUpdates)]

/-- What the installation adds for it. -/
def entry (r : SessionKeyRegistration) : Address × Bytes32 × List Bytes :=
  (r.key, r.tag.getD 0, r.permissionUpdates)

end SessionKeyRegistration

/-- The arguments of the installation of registrations. -/
def installArgs (registrations : List SessionKeyRegistration) : List Abi.Part :=
  [.tail (Abi.encodeArray
      ((registrations.map SessionKeyRegistration.key).map (fun key => .word key.toNat))),
    .tail (Abi.encodeArray
      ((registrations.map (fun r => r.tag.getD 0)).map (fun tag => .word tag.toNat))),
    .tail (Abi.encodeArray ((registrations.map (·.permissionUpdates)).map
      (fun updates => .tail (encodeBytesArray updates))))]

section

variable {checksumAddress : String → String}

theorem encodeAddSessionKey_eq_ok {r : SessionKeyRegistration} {data : Bytes}
    (h : encodeAddSessionKey checksumAddress r = .ok data) :
    addressOf r.sessionKey = some r.key ∧ data = encodeFunction selAddSessionKey r.args := by
  simp only [encodeAddSessionKey, bind_eq_ok, pure_eq_ok] at h
  obtain ⟨key, hkey, rfl⟩ := h
  have hr : key = r.key := address_of_ok hkey
  rw [← hr]
  refine ⟨encodeAddress_eq_ok hkey, ?_⟩
  rw [SessionKeyRegistration.args, ← hr]

theorem encodeSessionKeyInstallData_eq_ok {registrations : List SessionKeyRegistration}
    {data : Bytes} (h : encodeSessionKeyInstallData checksumAddress registrations = .ok data) :
    data = Abi.encodeTuple (installArgs registrations) := by
  simp only [encodeSessionKeyInstallData, bind_eq_ok, pure_eq_ok] at h
  obtain ⟨keys, hkeys, rfl⟩ := h
  have hmap : keys = registrations.map SessionKeyRegistration.key :=
    eq_map_of_mapM (fun r key hr => address_of_ok hr) hkeys
  rw [installArgs, hmap, List.map_map, List.map_map, List.map_map]
  rfl

theorem decodeInstall_installArgs {registrations : List SessionKeyRegistration}
    (h : (Abi.encodeTuple (installArgs registrations)).length < 2 ^ 64) :
    decodeInstall (Abi.encodeTuple (installArgs registrations))
      = some (registrations.map SessionKeyRegistration.key,
        registrations.map (fun r => r.tag.getD 0), registrations.map (·.permissionUpdates)) :=
  decodeInstall_encode rfl h

/-- The call that adds a key is no longer than the data that installs it. -/
theorem length_le_installArgs {registrations : List SessionKeyRegistration}
    {r : SessionKeyRegistration} (hr : r ∈ registrations) :
    (encodeFunction selAddSessionKey r.args).length
      ≤ (Abi.encodeTuple (installArgs registrations)).length := by
  have hadd : (encodeFunction selAddSessionKey r.args).length
      = 4 + (32 * 3 + (encodeBytesArray r.permissionUpdates ++ []).length) := by
    rw [encodeFunction, List.length_append, beBytes_length, Abi.encodeTuple_length]
    rfl
  have hinner : Abi.Part.tail (encodeBytesArray r.permissionUpdates)
      ∈ (registrations.map (·.permissionUpdates)).map
        (fun updates => Abi.Part.tail (encodeBytesArray updates)) := by
    rw [List.map_map]
    exact List.mem_map_of_mem hr
  have harray : Abi.Part.tail (Abi.encodeArray ((registrations.map (·.permissionUpdates)).map
      (fun updates => .tail (encodeBytesArray updates)))) ∈ installArgs registrations :=
    List.mem_cons_of_mem _ (List.mem_cons_of_mem _ (List.mem_singleton_self _))
  have houter := Abi.length_le_encodeTuple harray
  have hbody := Abi.length_le_encodeTuple hinner
  have hthree : (installArgs registrations).length = 3 := rfl
  rw [Abi.encodeArray, List.length_append, beBytes_length, hthree] at houter
  rw [List.append_nil] at hadd
  omega

/-- The parts of an agent face: the registrations of the agents, the call that installs
them and the calls that add them. -/
structure FaceParts (checksumAddress : String → String) (account : String)
    (agents : List AgentGrant) (deployment : StackDeployment) (calls : AgentFaceCalls) : Prop where
  registered : agents.mapM (registrationOf checksumAddress) = .ok calls.registrations
  added : calls.registrations.mapM (addSessionKeyCall checksumAddress account)
    = .ok calls.addSessionKeys
  installed : ∃ deployed data references, deployment.bufiSessionKey = some deployed
    ∧ encodeSessionKeyInstallData checksumAddress calls.registrations = .ok data
    ∧ encodeInstallPlugin checksumAddress account deployed.address deployed.manifestHash data
        references = .ok calls.installSessionKeyPlugin

theorem faceParts_of_build {account : String} {agents : List AgentGrant}
    {deployment : StackDeployment} {calls : AgentFaceCalls}
    (h : buildAgentFaceCalls checksumAddress account agents deployment = .ok calls) :
    FaceParts checksumAddress account agents deployment calls := by
  simp only [buildAgentFaceCalls, encodeInstallSessionKeyPlugin, bind_eq_ok, mapError_eq_ok,
    orRevert_eq_ok, pure_eq_ok] at h
  obtain ⟨registrations, hregistrations, install, ⟨deployed, hdeployed, data, hdata, hinstall⟩,
    adds, hadds, rfl⟩ := h
  exact ⟨hregistrations, hadds, deployed, data, _, hdeployed, hdata, hinstall⟩

/-- The account reads the plugin and the install data of an `installPlugin` call. -/
theorem decodeInstallPlugin_of_encode {account plugin : String} {manifestHash : Bytes32}
    {data : Bytes} {references : List FunctionReference} {call : EncodedCall}
    (h : encodeInstallPlugin checksumAddress account plugin manifestHash data references
      = .ok call) (hsize : call.data.length < 2 ^ 64) :
    ∃ (target : Address) (b : MemBytes), addressOf plugin = some target ∧ b.data = data
      ∧ decodeInstallPlugin call.data = some (target, manifestHash, b) := by
  simp only [encodeInstallPlugin, bind_eq_ok, pure_eq_ok] at h
  obtain ⟨target, htarget, words, -, rfl⟩ := h
  have hargs : ∀ selector args, (encodeFunction selector args).length < 2 ^ 64 →
      (Abi.encodeTuple args).length < 2 ^ 64 := by
    intro selector args hlt
    rw [encodeFunction, List.length_append] at hlt
    omega
  obtain ⟨hplugin, hhash, ⟨n, hn, hhead, hbody, hlen⟩, -⟩ :=
    laid_encodeTuple (hargs _ _ hsize)
  have hdata : data.length < 2 ^ 64 := by
    rw [Abi.encodeBytes, List.length_append, List.length_append] at hlen
    omega
  have hread := Abi.Reads.memBytes ⟨data, hdata⟩ _ _ hbody hlen
  refine ⟨target, ⟨data, hdata⟩, encodeAddress_eq_ok htarget, rfl, ?_⟩
  simp only [decodeInstallPlugin, drop_encodeFunction, hplugin.address, hhash.word_eq,
    hhead.tail hn, hread, Option.bind_eq_bind, Option.bind_some, Option.pure_def]

variable {W S : Type} [DecidableEq W] (E : Env W S) (timestamp : Uint256) (face : Address)

theorem execCallData_addSessionKey {r : SessionKeyRegistration}
    (hsize : (encodeFunction selAddSessionKey r.args).length < 2 ^ 64) (s : State W S) :
    execCallData E timestamp face s true (encodeFunction selAddSessionKey r.args)
      = addEntry E timestamp face s r.entry := by
  have hencoded : Encoded true (encodeFunction selAddSessionKey r.args)
      (.addSessionKey r.key (r.tag.getD 0) r.permissionUpdates) := .addSessionKey _ _ _
  rw [execCallData, decodeCallData_of_encoded hencoded hsize]
  rfl

/-- Registrations added one after another, by calls or by entries. -/
theorem foldlM_execCallData {account : String} {registrations : List SessionKeyRegistration}
    {adds : List EncodedCall}
    (h : registrations.mapM (addSessionKeyCall checksumAddress account) = .ok adds)
    (hsize : ∀ r ∈ registrations, (encodeFunction selAddSessionKey r.args).length < 2 ^ 64)
    (s : State W S) :
    adds.foldlM (fun s call => execCallData E timestamp face s true call.data) s
      = (registrations.map SessionKeyRegistration.entry).foldlM (addEntry E timestamp face) s := by
  induction mapM_eq_ok.mp h generalizing s with
  | nil => rfl
  | @cons r call registrations adds hcall hadds ih =>
    have hdata : call.data = encodeFunction selAddSessionKey r.args := by
      simp only [addSessionKeyCall, bind_eq_ok, pure_eq_ok] at hcall
      obtain ⟨data, hdata, rfl⟩ := hcall
      exact (encodeAddSessionKey_eq_ok hdata).2
    have hstep := execCallData_addSessionKey E timestamp face (hsize r List.mem_cons_self) s
    rw [List.map_cons, List.foldlM_cons, List.foldlM_cons, hdata, hstep]
    exact bind_congr (fun s' => ih (mapM_eq_ok.mpr hadds)
      (fun r' hr' => hsize r' (List.mem_cons_of_mem _ hr')) s')

theorem onInstall_installArgs {registrations : List SessionKeyRegistration} {s : State W S}
    (hempty : E.set.isEmpty (s.sessionKeys face) = true)
    (hsize : (Abi.encodeTuple (installArgs registrations)).length < 2 ^ 64) :
    onInstall E timestamp face s (Abi.encodeTuple (installArgs registrations))
      = (registrations.map SessionKeyRegistration.entry).foldlM (addEntry E timestamp face) s := by
  have hzip : (registrations.map SessionKeyRegistration.key).zip
      ((registrations.map (fun r => r.tag.getD 0)).zip (registrations.map (·.permissionUpdates)))
      = registrations.map SessionKeyRegistration.entry := by
    rw [List.zip_map', List.zip_map']
    rfl
  rw [onInstall, decodeInstall_installArgs hsize]
  simp only [hempty, require, orRevert, Option.elim, ok_bind, List.length_map, ne_eq, not_true,
    or_self, not_false_eq_true, if_true, hzip]

variable {account : String} {agents : List AgentGrant} {deployment : StackDeployment}
  {calls : AgentFaceCalls}

/-- The call of each agent adds its key, with its tag and the updates of its grant. -/
theorem added_of_faceParts (h : FaceParts checksumAddress account agents deployment calls)
    (hsize : ∀ r ∈ calls.registrations, (encodeFunction selAddSessionKey r.args).length < 2 ^ 64) :
    List.Forall₂ (fun agent call => ∃ key updates, addressOf agent.sessionKey = some key
      ∧ buildBufiGrant checksumAddress agent.grant = .ok updates
      ∧ decodeCallData true call.data
        = some (.addSessionKey key (agent.tag.getD 0) updates)) agents calls.addSessionKeys := by
  have hagents := mapM_eq_ok.mp h.registered
  have hadds := mapM_eq_ok.mp h.added
  clear h
  generalize calls.registrations = registrations at hagents hadds hsize
  generalize calls.addSessionKeys = adds at hadds
  induction hagents generalizing adds with
  | nil =>
    cases hadds
    exact .nil
  | @cons agent r agents registrations hr hrs ih =>
    cases hadds with
    | cons hcall hcalls =>
      refine .cons ?_ (ih (fun r' hr' => hsize r' (List.mem_cons_of_mem _ hr')) _ hcalls)
      simp only [registrationOf, bind_eq_ok, pure_eq_ok] at hr
      obtain ⟨updates, hupdates, rfl⟩ := hr
      simp only [addSessionKeyCall, bind_eq_ok, pure_eq_ok] at hcall
      obtain ⟨data, hdata, rfl⟩ := hcall
      obtain ⟨hkey, rfl⟩ := encodeAddSessionKey_eq_ok hdata
      refine ⟨_, updates, hkey, hupdates, ?_⟩
      exact decodeCallData_of_encoded (.addSessionKey _ _ _) (hsize _ List.mem_cons_self)

/-- **Installing the agents and adding them come to the same.**  The account reads the
deployment's plugin from the install call, and the plugin does with its install data what
it does with the calls of the agents one after another, on any account without keys. -/
theorem face_calls_agree
    (h : buildAgentFaceCalls checksumAddress account agents deployment = .ok calls)
    (hsize : calls.installSessionKeyPlugin.data.length < 2 ^ 64) :
    ∃ deployed plugin data, deployment.bufiSessionKey = some deployed
      ∧ addressOf deployed.address = some plugin
      ∧ decodeInstallPlugin calls.installSessionKeyPlugin.data
        = some (plugin, deployed.manifestHash, data)
      ∧ List.Forall₂ (fun agent call => ∃ key updates, addressOf agent.sessionKey = some key
        ∧ buildBufiGrant checksumAddress agent.grant = .ok updates
        ∧ decodeCallData true call.data
          = some (.addSessionKey key (agent.tag.getD 0) updates)) agents calls.addSessionKeys
      ∧ ∀ s : State W S, E.set.isEmpty (s.sessionKeys face) = true →
        onInstall E timestamp face s data.data = calls.addSessionKeys.foldlM
          (fun s call => execCallData E timestamp face s true call.data) s := by
  have hparts := faceParts_of_build h
  obtain ⟨deployed, data, references, hdeployed, hdata, hinstall⟩ := hparts.installed
  obtain ⟨plugin, b, hplugin, hb, hread⟩ := decodeInstallPlugin_of_encode hinstall hsize
  obtain rfl := encodeSessionKeyInstallData_eq_ok hdata
  have hbytes : (Abi.encodeTuple (installArgs calls.registrations)).length < 2 ^ 64 := by
    rw [← hb]
    exact b.size_lt
  have hadd : ∀ r ∈ calls.registrations,
      (encodeFunction selAddSessionKey r.args).length < 2 ^ 64 :=
    fun r hr => (length_le_installArgs hr).trans_lt hbytes
  refine ⟨deployed, plugin, b, hdeployed, hplugin, hread, added_of_faceParts hparts hadd, ?_⟩
  intro s hempty
  rw [hb, onInstall_installArgs E timestamp face hempty hbytes,
    foldlM_execCallData E timestamp face hparts.added hadd]

end

/-! ### A face of two agents -/

def pairAgents : List AgentGrant :=
  [⟨"0x0000000000000000000000000000000000000200", none, nativeGrantOf [transferEntry]⟩,
    ⟨"0x0000000000000000000000000000000000000300", some 5, nativeGrantOf [transferEntry]⟩]

def faceStack : StackDeployment where
  weightedWebauthnMultisig := ⟨"0x0000000000000000000000000000000000000700", 6⟩
  bufiSessionKey := some ⟨"0x0000000000000000000000000000000000000900", 7⟩

def pairFace : Except FaceError AgentFaceCalls :=
  buildAgentFaceCalls id "0x0000000000000000000000000000000000000100" pairAgents faceStack

theorem pairFace_builds :
    pairFace.toOption.map (fun calls =>
      decide (calls.installSessionKeyPlugin.data.length < 2 ^ 64)) = some true := by
  decide +kernel

/-- The account is installed with two agents as it is by adding them. -/
theorem face_calls_agree_pair :
    ∃ calls data, pairFace = .ok calls
      ∧ decodeInstallPlugin calls.installSessionKeyPlugin.data = some (0x900, 7, data)
      ∧ onInstall agentEnv 1000 wallet (State.initial agentEnv.set) data.data
        = calls.addSessionKeys.foldlM
          (fun s call => execCallData agentEnv 1000 wallet s true call.data)
          (State.initial agentEnv.set) := by
  obtain ⟨calls, hcalls, hsize⟩ := Option.map_eq_some_iff.mp pairFace_builds
  have hbuild : pairFace = .ok calls := toOption_eq_some.mp hcalls
  obtain ⟨deployed, plugin, data, hdeployed, hplugin, hread, -, hagree⟩ :=
    face_calls_agree agentEnv 1000 wallet hbuild (of_decide_eq_true hsize)
  obtain rfl := Option.some.inj hdeployed
  have haddress : addressOf "0x0000000000000000000000000000000000000900" = some 0x900 := by
    decide +kernel
  obtain rfl := Option.some.inj (haddress.symm.trans hplugin)
  exact ⟨calls, data, hbuild, hread, hagree _ rfl⟩

end Bufi.Grant
