import AsioUtils.Lib.UnorderedMap
import AsioUtils.Net.TCPSessionManager

/-!
# `ServiceKernel`: the connections of a server to other servers

A server keeps one entry for each service it connects to: the endpoint, the sid the central server gave that service,
and the session of the connection. Entries are keyed by the session's uuid.

* `checkConnectService`, `connectServiceSession` : scans of the entries, in the order the map has them;
* `addNewConnect`, `removeServiceSession` : a new service, a service that came back with another sid, a lost one. Both
  end in a call of the virtual `updateServiceConnect`, which is part of their result;
* `Connects`, `Renames`, `addNewConnect_cases` : what `addNewConnect` can do.
-/

namespace AsioUtils.Net

def INVALID_LID : Int := -1

/-- A service this server connects to; sids are values of an `int`. -/
structure ServiceConfig where
  type : Int16
  port : UInt16
  sid : Int
  ip : String
  session_ : TCPSessionPtr
  deriving DecidableEq, Repr

/-- `operator==`, against a config without a session. -/
def ServiceConfig.isAt (c : ServiceConfig) (type : Int16) (port : UInt16) (ip : String) : Bool :=
  c.type = type && c.port = port && c.ip = ip

/-- The second argument of `updateServiceConnect`. -/
inductive ServiceState
  | kConnect | kUpdate | kClose
  deriving DecidableEq, Repr

/-- `manager` is the server's session manager. `created` is where the next session is allocated, `logicID_` the member
of that name of every session. -/
structure ServiceKernel where
  manager : TCPSessionManager
  created : TCPSessionPtr := 0
  logicID_ : TCPSessionPtr → Int := fun _ => INVALID_LID
  connectServices_ : UnorderedMap Int32 ServiceConfig := ∅

namespace ServiceKernel

variable (k : ServiceKernel)

/-- The key of the first entry with this endpoint. -/
def checkConnectService (type : Int16) (port : UInt16) (ip : String) : Int32 :=
  match k.connectServices_.entries.find? fun e => e.2.isAt type port ip with
  | some e => e.1
  | none => INVALID_UUID

/-- The session of the first entry with this sid. -/
def connectServiceSession (sid : Int) : Option TCPSessionPtr :=
  (k.connectServices_.entries.find? fun e => e.2.sid = sid).map fun e => e.2.session_

def setLogicID (session : TCPSessionPtr) (sid : Int) : ServiceKernel :=
  { k with logicID_ := fun p => if p = session then sid else k.logicID_ p }

/-- `connectService`, which is the same in all kernels: `SessionManager.createConnector`. The session is allocated at
`k.created`. -/
def connectService (type : UInt16) : ServiceKernel :=
  { k with
    manager := k.manager.createConnector k.created type.toUInt8
    created := k.created + 1 }.setLogicID k.created INVALID_LID

/-- The uuid the session manager gives the next connection. -/
def newUuid (type : Int16) : Int32 := ((k.connectService type.toUInt16).manager.sessions k.created).uuid_

/-- `order` is the order of the map afterwards. Also the arguments of the call of `updateServiceConnect`. -/
def addNewConnect (type : Int16) (port : UInt16) (sid : Int) (ip : String) (order : List (Σ _ : Int32, ServiceConfig)) :
    ServiceKernel × TCPSessionPtr × ServiceState :=
  let uuid := k.checkConnectService type port ip
  if uuid = INVALID_UUID ∨ sid = INVALID_UUID.toInt then
    let session := k.created
    let k' := k.connectService type.toUInt16
    let config : ServiceConfig := ⟨type, port, sid, ip, session⟩
    let connectServices := UnorderedMap.assign k'.connectServices_ (k.newUuid type) config
    ({ k' with connectServices_ := UnorderedMap.reorder connectServices order }, session, .kConnect)
  else
    match k.connectServices_.lookup uuid with
    | some oldConfig =>
      let connectServices := UnorderedMap.assign k.connectServices_ uuid { oldConfig with sid := sid }
      ({ k with connectServices_ := connectServices }.setLogicID oldConfig.session_ sid, oldConfig.session_, .kUpdate)
    | none => (k, k.created, .kUpdate) -- not reached: `checkConnectService` returns keys

/-- Without an entry there is no call of `updateServiceConnect`. -/
def removeServiceSession (uuid : Int32) : ServiceKernel × Option (TCPSessionPtr × ServiceState) :=
  match k.connectServices_.lookup uuid with
  | none => (k, none)
  | some config =>
    ({ k with connectServices_ := k.connectServices_.erase uuid }, some (config.session_, .kClose))

/-! ## Lemmas -/

variable {k}

theorem mem_entries {uuid : Int32} {c : ServiceConfig} :
    (⟨uuid, c⟩ : Σ _ : Int32, ServiceConfig) ∈ k.connectServices_.entries ↔ k.connectServices_.lookup uuid = some c :=
  AList.mem_lookup_iff.symm

/-- A key that `checkConnectService` returns is that of an entry with the endpoint. -/
theorem checkConnectService_spec {type : Int16} {port : UInt16} {ip : String}
    (h : k.checkConnectService type port ip ≠ INVALID_UUID) :
    ∃ c, k.connectServices_.lookup (k.checkConnectService type port ip) = some c ∧ c.isAt type port ip = true := by
  unfold checkConnectService at h ⊢
  split at h
  · next e he =>
    have hat := List.find?_some he
    exact ⟨e.2, mem_entries.mp (List.mem_of_find?_eq_some he), hat⟩
  · exact absurd rfl h

/-- The session `connectServiceSession` returns is that of an entry with the sid. -/
theorem connectServiceSession_spec {sid : Int} {session : TCPSessionPtr} (h : k.connectServiceSession sid = some session) :
    ∃ uuid c, k.connectServices_.lookup uuid = some c ∧ c.sid = sid ∧ c.session_ = session := by
  obtain ⟨e, he, rfl⟩ := Option.map_eq_some_iff.mp h
  have hsid := List.find?_some he
  exact ⟨e.1, e.2, mem_entries.mp (List.mem_of_find?_eq_some he), of_decide_eq_true hsid, rfl⟩

/-- `k'` is `k` with a new connection. -/
structure Connects (k k' : ServiceKernel) (config : ServiceConfig) : Prop where
  manager : k'.manager = k.manager.createConnector k.created config.type.toUInt16.toUInt8
  created : k'.created = k.created + 1
  logicID : k'.logicID_ = fun p => if p = k.created then INVALID_LID else k.logicID_ p
  services : ∀ uuid, k'.connectServices_.lookup uuid =
    if uuid = k.newUuid config.type then some config else k.connectServices_.lookup uuid

/-- `k'` is `k` with another sid in the entry `old` of `uuid`. -/
structure Renames (k k' : ServiceKernel) (uuid : Int32) (old : ServiceConfig) (sid : Int) : Prop where
  manager : k'.manager = k.manager
  created : k'.created = k.created
  logicID : k'.logicID_ = fun p => if p = old.session_ then sid else k.logicID_ p
  services : ∀ u, k'.connectServices_.lookup u =
    if u = uuid then some { old with sid := sid } else k.connectServices_.lookup u

/-- `addNewConnect` makes a connection, or writes the sid of one to the same endpoint. -/
theorem addNewConnect_cases (k : ServiceKernel) (type : Int16) (port : UInt16) (sid : Int) (ip : String)
    (order : List (Σ _ : Int32, ServiceConfig)) :
    ((k.checkConnectService type port ip = INVALID_UUID ∨ sid = INVALID_UUID.toInt) ∧
      ∃ k', k.addNewConnect type port sid ip order = (k', k.created, .kConnect) ∧
        Connects k k' ⟨type, port, sid, ip, k.created⟩) ∨
    ((k.checkConnectService type port ip ≠ INVALID_UUID ∧ sid ≠ INVALID_UUID.toInt) ∧
      ∃ old, k.connectServices_.lookup (k.checkConnectService type port ip) = some old ∧
      old.isAt type port ip = true ∧ ∃ k', k.addNewConnect type port sid ip order = (k', old.session_, .kUpdate) ∧
        Renames k k' (k.checkConnectService type port ip) old sid) := by
  by_cases hnew : k.checkConnectService type port ip = INVALID_UUID ∨ sid = INVALID_UUID.toInt
  · refine .inl ⟨hnew, _, if_pos hnew, rfl, rfl, rfl, fun uuid => ?_⟩
    rw [UnorderedMap.lookup_reorder, UnorderedMap.lookup_assign]
    rfl
  · obtain ⟨huuid, hsid⟩ := not_or.mp hnew
    obtain ⟨old, hold, hat⟩ := checkConnectService_spec huuid
    set k' := { k with
      connectServices_ := UnorderedMap.assign k.connectServices_ (k.checkConnectService type port ip)
        { old with sid := sid } }.setLogicID old.session_ sid with hk'
    refine .inr ⟨⟨huuid, hsid⟩, old, hold, hat, k', ?_, rfl, rfl, rfl, fun u => ?_⟩
    · unfold addNewConnect
      rw [if_neg hnew]
      dsimp only
      rw [hold]
    · exact UnorderedMap.lookup_assign _ _ _ _

end ServiceKernel

end AsioUtils.Net
