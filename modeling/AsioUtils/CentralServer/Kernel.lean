import AsioUtils.Lib.UnorderedMap
import AsioUtils.MatchServer.DistributeCheck
import AsioUtils.Net.ServiceKernel

/-!
# `CSKernel`: the registry of the central server

Every server registers with the central server, which tells it whom to connect to and tells the others about it. The
registry `servers_` holds a pointer to a `ServerInfo` for each sid, and may hold null pointers.

* `CSKernel` : the kernel with the two singletons it works on, the session manager and the match manager;
* one definition for each member function; a result of `none` is a null pointer that is dereferenced or a failed
  `assert`, and what a function sends is part of its result;
* `Event`, `handle`, `step` : what a message, a close, a timer or a web request makes of it;
* `register_cases`, `onClose_some`, `Handled` : what they can do.
-/

namespace AsioUtils.CentralServer

open CPG Net

/-- A message of the central server. -/
inductive Msg
  | serverRegistRS (rs : ServerRegisterRS)
  | newConnServiceNotify (connServers : List ConnServer)
  | connectRS (result port : Int) (ip : String)
  | matchDistibuteNotify (notify : ServiceMatchDistibuteNotify)
  | allMatchDistributeNotify (notify : ServerAllMatchDistributeNotify)
  | checkMatchDistributeRS (rs : CheckMatchDistributeRS)

/-- A message and the session it is sent to. -/
structure Packet where
  session : TCPSessionPtr
  msg : Msg

/-- `servers_` is keyed by `uint32`. `created` is where the next session is allocated, `logicID_` the member of that
name of every session, `matches` is `CSMatchManager::instance()`. -/
structure CSKernel where
  manager : TCPSessionManager
  created : TCPSessionPtr := 0
  logicID_ : TCPSessionPtr → Int := fun _ => INVALID_LID
  servers_ : UnorderedMap Int (Option ServerInfo) := ∅
  matches_ : CSMatchManager

namespace CSKernel

def kCentralSid : Int := 100000000

def INT_MAX : Int := 2147483647

/-- `{static_cast<unsigned char>(type), static_cast<unsigned short>(port), ip}` -/
def listener (l : ServerInfo.Listener) : ServerInfo.Listener := ⟨l.type % 256, l.port % 65536, l.ip⟩

/-- The state after `start`, at `now`, with the given `listenInfos`. -/
def start (manager : TCPSessionManager) (matches_ : CSMatchManager) (listenInfos : List ServerInfo.Listener) (now : Int) :
    CSKernel where
  manager := manager
  matches_ := matches_
  servers_ := AList.singleton kCentralSid <| some
    { type := ServerType.CentralServer.toInt
      sid := kCentralSid
      connectTimes := now.toNat % 4294967296
      listeners := listenInfos.map listener }

variable (k : CSKernel)

def typeOf (session : TCPSessionPtr) : Int := (k.manager.sessions session).type.toNat

def uuidOf (session : TCPSessionPtr) : Int := (k.manager.sessions session).uuid_.toInt

def setLogicID (session : TCPSessionPtr) (sid : Int) : CSKernel :=
  { k with logicID_ := fun p => if p = session then sid else k.logicID_ p }

/-- Accepted and not closed yet. -/
def Open (session : TCPSessionPtr) : Prop := session < k.created ∧ (k.manager.sessions session).connected = true

instance (session : TCPSessionPtr) : Decidable (k.Open session) := inferInstanceAs (Decidable (_ ∧ _))

/-! What is read off the sessions alone. -/

theorem uuidOf_congr {k k' : CSKernel} (hmanager : k'.manager = k.manager) (p : TCPSessionPtr) : k'.uuidOf p = k.uuidOf p := by
  rw [uuidOf, uuidOf, hmanager]

theorem typeOf_congr {k k' : CSKernel} (hmanager : k'.manager = k.manager) (p : TCPSessionPtr) : k'.typeOf p = k.typeOf p := by
  rw [typeOf, typeOf, hmanager]

theorem open_congr {k k' : CSKernel} (hmanager : k'.manager = k.manager) (hcreated : k'.created = k.created)
    (p : TCPSessionPtr) : k'.Open p ↔ k.Open p := by
  rw [Open, Open, hmanager, hcreated]

/-- A message to a session, or to all sessions of a type. -/
def send (session : Option TCPSessionPtr) (msg : Msg) (stype : Int) : List Packet :=
  (k.manager.receivers session (UInt8.ofNat stype.toNat)).map fun p => ⟨p, msg⟩

/-- The default of the parameter `stype`. -/
def kDefaultType : Int := ServerType.Client.toInt

/-- A missing sid is inserted, with a service of sid 0. -/
def getService (sid : Int) : CSKernel × Option ServerInfo :=
  ({ k with servers_ := UnorderedMap.touch k.servers_ sid (some {}) },
    (UnorderedMap.touch k.servers_ sid (some {})).lookup sid |>.join)

def removeService (now sid : Int) : Option CSKernel :=
  match k.servers_.lookup sid with
  | none => some k
  | some none => none
  | some (some info) =>
    some
      { k with
        matches_ := if info.type = ServerType.MatchServer.toInt then k.matches_.removeMatchService now info else k.matches_
        servers_ := k.servers_.erase sid }

/-- A loop over `servers_` that reads every service. -/
def forServers {α : Type} (body : ServerInfo → List α) : Option (List α) :=
  if k.servers_.entries.all fun e => e.2.isSome then some (k.servers_.entries.flatMap fun e => e.2.elim [] body)
  else none

/-- The services of a type that listen to sessions of type `sessionType`. -/
def connServers (sessionType type : Int) (service : ServerInfo) : List ConnServer :=
  if service.type = type then
    (service.listeners.filter fun listen => sessionType = listen.type).map fun listen =>
      ⟨type, listen.port, service.sid, listen.ip⟩
  else []

/-- The reply, and a notify for each listener to all sessions of its type. -/
def serverRegistRS (session : TCPSessionPtr) (info : ServerInfo) : Option (List Packet) :=
  (info.connectTypes.mapM fun type => k.forServers (connServers (k.typeOf session) type)).map fun conns =>
    ⟨session, .serverRegistRS ⟨0, info.sid, conns.flatten⟩⟩ ::
      info.listeners.flatMap fun lis =>
        k.send none (.newConnServiceNotify [⟨info.type, lis.port, info.sid, lis.ip⟩]) lis.type

def sendAllDistributeMatchInfos (session : Option TCPSessionPtr) (stype : Int) : List Packet :=
  k.send session (.allMatchDistributeNotify (k.matches_.matchServices_.entries.map fun e => ⟨e.1.sid, e.2⟩)) stype

/-- `rq.sid()` is a sid to look up: a negative one is huge as a `size_t`. -/
def inRange (sid : Int) : Prop := sid ≠ INVALID_LID ∧ 0 ≤ sid ∧ sid < k.servers_.entries.length

instance (sid : Int) : Decidable (k.inRange sid) := inferInstanceAs (Decidable (_ ∧ _ ∧ _))

/-- The test `servers_[rq.sid()] == nullptr` inserts a null pointer for a missing sid. -/
def probe (sid : Int) : CSKernel × Option ServerInfo :=
  if k.inRange sid then
    ({ k with servers_ := UnorderedMap.touch k.servers_ (toUnsigned sid) none }, (k.servers_.lookup (toUnsigned sid)).join)
  else (k, none)

/-- The `ServerInfo` of a new service. -/
def newInfo (session : TCPSessionPtr) (rq : ServerRegisterRQ) : ServerInfo :=
  { sid := k.uuidOf session, listeners := rq.listeners.map listener, connectTypes := rq.connectTypes }

/-- What every registration writes to the service's `ServerInfo`. -/
def stamp (now : Int) (session : TCPSessionPtr) (info : ServerInfo) : ServerInfo :=
  { info with
    type := k.typeOf session
    connectTimes := (info.connectTimes + 1) % 4294967296
    lastHeartTimes := toUnsigned now }

/-- `serverRegistRQ` up to the reply: the registry, and the service that has registered. `order` is the order of
`servers_` afterwards. -/
def register (now : Int) (session : TCPSessionPtr) (rq : ServerRegisterRQ)
    (order : List (Σ _ : Int, Option ServerInfo)) : CSKernel × ServerInfo :=
  let (k', key, info) := match k.probe rq.sid with
    | (k', none) => (k'.setLogicID session (k.uuidOf session), toUnsigned (k.uuidOf session), k.newInfo session rq)
    | (k', some info) => (k', toUnsigned rq.sid, info)
  let info := k.stamp now session info
  ({ k' with servers_ := UnorderedMap.reorder (UnorderedMap.assign k'.servers_ key (some info)) order }, info)

/-- No `rq` is a packet that does not parse. -/
def serverRegistRQ (now : Int) (session : TCPSessionPtr) (rq : Option ServerRegisterRQ)
    (order : List (Σ _ : Int, Option ServerInfo)) : Option (CSKernel × List Packet) :=
  match rq with
  | none => some (k, k.send (some session) (.serverRegistRS ⟨-1, 0, []⟩) kDefaultType)
  | some rq =>
    let (k', info) := k.register now session rq order
    (k'.serverRegistRS session info).map fun sent =>
      (if k.typeOf session = ServerType.MatchServer.toInt then
          { k' with matches_ := k'.matches_.updateMatchService now info }
        else k',
        sent ++ if k.typeOf session = ServerType.GateServer.toInt then
          k'.sendAllDistributeMatchInfos (some session) ServerType.GateServer.toInt
        else [])

/-- The gate server with the smallest load, the first of them. -/
def smalleastLoadedGS (servers : List ServerInfo) : Option ServerInfo :=
  (servers.foldl (fun (best : Int × Option ServerInfo) service =>
    if service.type = ServerType.GateServer.toInt ∧ best.1 > service.loaded then (service.loaded, some service)
    else best) (INT_MAX, none)).2

/-- `parsed` tells whether the request parses. -/
def requestBestGateServer (session : TCPSessionPtr) (parsed : Bool) : Option (List Packet) :=
  if parsed then
    (k.forServers fun service => [service]).map fun servers =>
      match smalleastLoadedGS servers with
      | some service =>
        match service.listeners.find? fun lis => lis.type = ServerType.Client.toInt with
        | some lis => k.send (some session) (.connectRS 0 lis.port lis.ip) kDefaultType
        | none => k.send (some session) (.connectRS 0 0 "") kDefaultType
      | none => k.send (some session) (.connectRS (-1) 0 "") kDefaultType
  else some (k.send (some session) (.connectRS (-1) 0 "") kDefaultType)

/-- One round of the loop of `distributeMatch`: the list goes to the session whose uuid is the sid of the service. -/
def sendMatches (pair : Int × List Int) : Option (CSKernel × List Packet) :=
  let (k', info) := k.getService pair.1
  info.bind fun info => (k'.manager.getSession (Int32.ofInt info.sid)).map fun session =>
    (k', k'.send session (.matchDistibuteNotify ⟨toSigned pair.1, pair.2⟩) kDefaultType)

/-- The loop, with the packets of each round. -/
def sendAllMatches (k : CSKernel) : List (Int × List Int) → Option (CSKernel × List (List Packet))
  | [] => some (k, [])
  | pair :: pairs =>
    (k.sendMatches pair).bind fun r => (sendAllMatches r.1 pairs).map fun rs => (rs.1, r.2 :: rs.2)

/-- The change callback: what it sends to the services, list by list, and what it sends to the gates. -/
def distributeMatch (updateMap : ChangedMatchMap) : Option (CSKernel × List (List Packet) × List Packet) :=
  (k.sendAllMatches updateMap.entries).map fun r =>
    (r.1, r.2, r.1.sendAllDistributeMatchInfos none ServerType.GateServer.toInt)

/-- No `rq` is a packet that does not parse. -/
def checkMatchDistributeRQ (now : Int) (session : TCPSessionPtr) (rq : Option CheckMatchDistributeRQ) :
    CSKernel × List Packet :=
  match rq with
  | none => (k, [])
  | some rq =>
    let (matches_, rs) := AsioUtils.CSKernel.checkMatchDistributeRQ k.matches_ now (k.logicID_ session) (k.typeOf session) rq
    ({ k with matches_ := matches_ }, k.send (some session) (.checkMatchDistributeRS rs) kDefaultType)

/-! ## Events -/

/-- What comes in. Sessions are accepted by the listeners `start` creates, which are for the four types of
`sessionFactory`. -/
inductive Event
  | newSession (type : ServerType)
  | serverRegistRQ (session : TCPSessionPtr) (rq : Option ServerRegisterRQ) (now : Int)
    (order : List (Σ _ : Int, Option ServerInfo))
  | checkMatchDistributeRQ (session : TCPSessionPtr) (rq : Option CheckMatchDistributeRQ) (now : Int)
  | requestBestGateServer (session : TCPSessionPtr) (parsed : Bool)
  | onClose (session : TCPSessionPtr) (now : Int)
  | updateDistMatchServices (now : Int)
  | cancelMatch (mid reason : Int)
  | createdMatches (ms : List CPGMatchProfile) (now : Int)

/-- `sessionFactory` has a factory for it. -/
def accepts : ServerType → Bool
  | .GateServer | .LoginServer | .MatchServer | .BalanceServer => true
  | _ => false

/-- A listener's new session, which gets a uuid from the session manager. -/
def newSession (type : ServerType) : CSKernel :=
  { k with
    manager := k.manager.newSession k.created (UInt8.ofNat type.toInt.toNat)
    created := k.created + 1 }.setLogicID k.created INVALID_LID

/-- A session is lost: `onClose` of its class, then the close callback of the session manager. -/
def onClose (now : Int) (session : TCPSessionPtr) : Option CSKernel :=
  (k.removeService now (toUnsigned (k.logicID_ session))).map fun k =>
    { k with manager := k.manager.handClose (fun s => s) session }

/-- The map an event calls `distributeMatch` with, and the match manager at that moment. -/
def changedMatches : Event → Option (CSMatchManager × ChangedMatchMap)
  | .updateDistMatchServices now =>
    let r := k.matches_.updateDistMatchServices now
    r.2.map fun map => (r.1, map)
  | .cancelMatch mid reason =>
    let r := k.matches_.cancelMatch mid reason
    r.changed.map fun map => (r.manager, map)
  | _ => none

def setMatches (matches_ : CSMatchManager) : CSKernel := { k with matches_ := matches_ }

/-- The match manager has become `matches_`, and calls back with `changed` if there is something. -/
def callback (matches_ : CSMatchManager) (changed : Option ChangedMatchMap) : Option (CSKernel × List Packet) :=
  match changed with
  | some map => ((k.setMatches matches_).distributeMatch map).map fun r => (r.1, r.2.1.flatten ++ r.2.2)
  | none => some (k.setMatches matches_, [])

/-- What an event makes of the kernel and what is sent. Messages of sessions that are not open, or that the session's
class does not handle, are dropped. -/
def handle : Event → Option (CSKernel × List Packet)
  | .newSession type => if accepts type then some (k.newSession type, []) else some (k, [])
  | .serverRegistRQ session rq now order =>
    if k.Open session then k.serverRegistRQ now session rq order else some (k, [])
  | .checkMatchDistributeRQ session rq now =>
    if k.Open session ∧ k.typeOf session = ServerType.MatchServer.toInt then
      some (k.checkMatchDistributeRQ now session rq)
    else some (k, [])
  | .requestBestGateServer session parsed =>
    if k.Open session ∧ k.typeOf session = ServerType.BalanceServer.toInt then
      (k.requestBestGateServer session parsed).map fun sent => (k, sent)
    else some (k, [])
  | .onClose session now => if k.Open session then (k.onClose now session).map fun k => (k, []) else some (k, [])
  | .updateDistMatchServices now =>
    let r := k.matches_.updateDistMatchServices now
    k.callback r.1 r.2
  | .cancelMatch mid reason =>
    let r := k.matches_.cancelMatch mid reason
    k.callback r.manager r.changed
  | .createdMatches ms now => some (k.setMatches (k.matches_.createdMatches now ms), [])

/-- The kernel after an event, `none` once it has crashed. -/
def step (s : Option CSKernel) (e : Event) : Option CSKernel := s.bind fun k => (k.handle e).map Prod.fst

/-- The demands on a kernel, which a crash meets. -/
def OrCrashed (p : CSKernel → Prop) (s : Option CSKernel) : Prop := ∀ k ∈ s, p k

/-! ## Lemmas -/

variable {k}

/-- The registry holds no null pointer. -/
def NoNull (k : CSKernel) : Prop := ∀ sid, k.servers_.lookup sid ≠ some none

theorem noNull_iff : k.NoNull ↔ (k.servers_.entries.all fun e => e.2.isSome) = true := by
  rw [List.all_eq_true]
  constructor
  · intro h e he
    refine Option.isSome_iff_ne_none.mpr fun hnone => h e.1 ?_
    exact AList.mem_lookup_iff.mpr (hnone ▸ he)
  · intro h sid hsid
    have hmem := h ⟨sid, none⟩ (AList.mem_lookup_iff.mp hsid)
    cases hmem

theorem forServers_eq {α : Type} (h : k.NoNull) (body : ServerInfo → List α) :
    k.forServers body = some (k.servers_.entries.flatMap fun e => e.2.elim [] body) := if_pos (noNull_iff.mp h)

theorem forServers_none {α : Type} (h : ¬ k.NoNull) (body : ServerInfo → List α) : k.forServers body = none :=
  if_neg fun hall => h (noNull_iff.mpr hall)

/-- The test of a registration with `sid` puts a null pointer at `j`. -/
def Stray (k : CSKernel) (sid j : Int) : Prop := k.inRange sid ∧ j = toUnsigned sid ∧ k.servers_.lookup j = none

instance (sid j : Int) : Decidable (k.Stray sid j) := inferInstanceAs (Decidable (_ ∧ _ ∧ _))

theorem probe_old {sid : Int} {old : ServerInfo} (h : (k.probe sid).2 = some old) :
    k.inRange sid ∧ k.servers_.lookup (toUnsigned sid) = some (some old) := by
  unfold probe at h
  split_ifs at h with hr
  exact ⟨hr, Option.join_eq_some_iff.mp h⟩

theorem lookup_probe (sid j : Int) :
    (k.probe sid).1.servers_.lookup j = if k.Stray sid j then some none else k.servers_.lookup j := by
  unfold probe
  by_cases hr : k.inRange sid
  · rw [if_pos hr, UnorderedMap.lookup_touch]
    by_cases hj : j = toUnsigned sid
    · have hsame : k.servers_.lookup (toUnsigned sid) = k.servers_.lookup j := by rw [hj]
      rw [if_pos hj, hsame]
      rcases hlookup : k.servers_.lookup j with _ | v
      · rw [if_pos (show k.Stray sid j from ⟨hr, hj, hlookup⟩), Option.getD_none]
      · rw [if_neg fun hs : k.Stray sid j => Option.some_ne_none v (hlookup.symm.trans hs.2.2), Option.getD_some]
    · rw [if_neg hj, if_neg fun hs : k.Stray sid j => hj hs.2.1]
  · rw [if_neg hr, if_neg fun hs : k.Stray sid j => hr hs.1]

theorem probe_frame (k : CSKernel) (sid : Int) : (k.probe sid).1.manager = k.manager ∧
    (k.probe sid).1.created = k.created ∧ (k.probe sid).1.logicID_ = k.logicID_ ∧
    (k.probe sid).1.matches_ = k.matches_ := by
  unfold probe
  split_ifs
  · exact ⟨rfl, rfl, rfl, rfl⟩
  · exact ⟨rfl, rfl, rfl, rfl⟩

/-- `k'` is `k` with `info` for `key` and the null pointer that a registration with `sid` may leave. -/
structure Enters (k k' : CSKernel) (sid key : Int) (info : ServerInfo) : Prop where
  manager : k'.manager = k.manager
  created : k'.created = k.created
  matches_ : k'.matches_ = k.matches_
  servers : ∀ j, k'.servers_.lookup j =
    if j = key then some (some info) else if k.Stray sid j then some none else k.servers_.lookup j

namespace Enters

variable {k' : CSKernel} {sid key j : Int} {info x : ServerInfo}

theorem at_key (h : Enters k k' sid key info) : k'.servers_.lookup key = some (some info) := by
  rw [h.servers, if_pos rfl]

/-- Other services stay. -/
theorem stays (h : Enters k k' sid key info) (hj : k.servers_.lookup j = some (some x)) (hne : j ≠ key) :
    k'.servers_.lookup j = some (some x) := by
  have hstray : ¬ k.Stray sid j := fun hs => by simp [hs.2.2] at hj
  rw [h.servers, if_neg hne, if_neg hstray, hj]

/-- There are no other services. -/
theorem entry (h : Enters k k' sid key info) (hj : k'.servers_.lookup j = some (some x)) :
    (j = key ∧ x = info) ∨ (j ≠ key ∧ k.servers_.lookup j = some (some x)) := by
  rw [h.servers] at hj
  by_cases hkey : j = key
  · rw [if_pos hkey] at hj
    cases hj
    exact .inl ⟨hkey, rfl⟩
  · rw [if_neg hkey] at hj
    by_cases hs : k.Stray sid j
    · simp [if_pos hs] at hj
    · exact .inr ⟨hkey, by rwa [if_neg hs] at hj⟩

theorem typeOf (h : Enters k k' sid key info) (p : TCPSessionPtr) : k'.typeOf p = k.typeOf p := by
  rw [CSKernel.typeOf, h.manager, CSKernel.typeOf]

end Enters

section Register

variable (k) (now : Int) (session : TCPSessionPtr) (rq : ServerRegisterRQ) (order : List (Σ _ : Int, Option ServerInfo))

/-- A registration is that of a known service, whose entry is stamped, or of a new one, which gets the session's uuid
for its sid. -/
theorem register_cases : ∃ k' key info, k.register now session rq order = (k', info) ∧ Enters k k' rq.sid key info ∧
    ((∃ old, key = toUnsigned rq.sid ∧ k.inRange rq.sid ∧ k.servers_.lookup key = some (some old) ∧
        info = k.stamp now session old ∧ k'.logicID_ = k.logicID_) ∨
      (key = toUnsigned (k.uuidOf session) ∧ info = k.stamp now session (k.newInfo session rq) ∧
        (k.probe rq.sid).2 = none ∧
        k'.logicID_ = fun p => if p = session then k.uuidOf session else k.logicID_ p)) := by
  obtain ⟨hmanager, hcreated, hlogicID, hmatches⟩ := k.probe_frame rq.sid
  have hlookup := k.lookup_probe rq.sid
  have hold := @probe_old k rq.sid
  unfold register
  generalize k.probe rq.sid = p at hmanager hcreated hlogicID hmatches hlookup hold
  obtain ⟨k₁, _ | old⟩ := p
  · refine ⟨_, _, _, rfl, ⟨hmanager, hcreated, hmatches, fun j => ?_⟩, .inr ⟨rfl, rfl, rfl, ?_⟩⟩
    · rw [UnorderedMap.lookup_reorder, UnorderedMap.lookup_assign]
      exact congrArg (ite (j = toUnsigned (k.uuidOf session)) _) (hlookup j)
    · funext p
      show (if p = session then _ else k₁.logicID_ p) = _
      rw [show k₁.logicID_ = k.logicID_ from hlogicID]
  · obtain ⟨hr, hsome⟩ := hold rfl
    refine ⟨_, _, _, rfl, ⟨hmanager, hcreated, hmatches, fun j => ?_⟩, .inl ⟨old, rfl, hr, hsome, rfl, hlogicID⟩⟩
    rw [UnorderedMap.lookup_reorder, UnorderedMap.lookup_assign]
    exact congrArg (ite (j = toUnsigned rq.sid) _) (hlookup j)

end Register

/-- The reply lists the endpoints for sessions of its type, the notifies are for the types the service listens to. -/
theorem serverRegistRS_eq {session : TCPSessionPtr} {info : ServerInfo} (h : k.NoNull ∨ info.connectTypes = []) :
    k.serverRegistRS session info = some (⟨session, .serverRegistRS ⟨0, info.sid, info.connectTypes.flatMap fun type =>
        k.servers_.entries.flatMap fun e => e.2.elim [] (connServers (k.typeOf session) type)⟩⟩ ::
      info.listeners.flatMap fun lis =>
        k.send none (.newConnServiceNotify [⟨info.type, lis.port, info.sid, lis.ip⟩]) lis.type) := by
  unfold serverRegistRS
  have hmap : info.connectTypes.mapM (fun type => k.forServers (connServers (k.typeOf session) type)) =
      some (info.connectTypes.map fun type =>
        k.servers_.entries.flatMap fun e => e.2.elim [] (connServers (k.typeOf session) type)) := by
    rcases h with h | h
    · induction info.connectTypes with
      | nil => rfl
      | cons type types ih => rw [List.mapM_cons, ih, forServers_eq h]; rfl
    · rw [h]
      rfl
  rw [hmap, Option.map_some, List.flatMap_def (l := info.connectTypes)]

/-- The reply lists every endpoint for the session's type of a service of a type that the new one connects to. -/
theorem mem_reply {session : TCPSessionPtr} {connectTypes : List Int} {key : Int} {x : ServerInfo}
    {l : ServerInfo.Listener} (hx : k.servers_.lookup key = some (some x)) (hl : l ∈ x.listeners)
    (htype : l.type = k.typeOf session) (hconnect : x.type ∈ connectTypes) :
    (⟨x.type, l.port, x.sid, l.ip⟩ : ConnServer) ∈ connectTypes.flatMap fun type =>
      k.servers_.entries.flatMap fun e => e.2.elim [] (connServers (k.typeOf session) type) := by
  refine List.mem_flatMap.mpr ⟨x.type, hconnect, List.mem_flatMap.mpr ⟨⟨key, some x⟩, AList.mem_lookup_iff.mp hx, ?_⟩⟩
  show _ ∈ connServers (k.typeOf session) x.type x
  unfold connServers
  rw [if_pos rfl]
  exact List.mem_map.mpr ⟨l, List.mem_filter.mpr ⟨hl, decide_eq_true htype.symm⟩, rfl⟩

/-- A reply needs a registry without null pointers, unless the service connects to nothing. -/
theorem noNull_of_serverRegistRS {session : TCPSessionPtr} {info : ServerInfo} {rs : List Packet}
    (h : k.serverRegistRS session info = some rs) : k.NoNull ∨ info.connectTypes = [] := by
  by_contra hnot
  obtain ⟨hnull, hconnect⟩ := not_or.mp hnot
  obtain ⟨type, types, heq⟩ := List.exists_cons_of_ne_nil hconnect
  rw [serverRegistRS, heq, List.mapM_cons, forServers_none hnull] at h
  cases h

/-- What a registration leaves, if the kernel survives it. -/
theorem serverRegistRQ_some {k' : CSKernel} {now : Int} {session : TCPSessionPtr} {rq : ServerRegisterRQ}
    {order : List (Σ _ : Int, Option ServerInfo)} {sent : List Packet}
    (h : k.serverRegistRQ now session (some rq) order = some (k', sent)) :
    ∃ k₁ key info rs, k.register now session rq order = (k₁, info) ∧ Enters k k₁ rq.sid key info ∧
      ((∃ old, key = toUnsigned rq.sid ∧ k.inRange rq.sid ∧ k.servers_.lookup key = some (some old) ∧
          info = k.stamp now session old ∧ k₁.logicID_ = k.logicID_) ∨
        (key = toUnsigned (k.uuidOf session) ∧ info = k.stamp now session (k.newInfo session rq) ∧
          (k.probe rq.sid).2 = none ∧
          k₁.logicID_ = fun p => if p = session then k.uuidOf session else k.logicID_ p)) ∧
      k₁.serverRegistRS session info = some rs ∧
      (∃ toGate, sent = rs ++ toGate ∧ ∀ packet ∈ toGate, ∃ notify, packet.msg = .allMatchDistributeNotify notify) ∧
      k' = k₁.setMatches (if k.typeOf session = ServerType.MatchServer.toInt then
        k.matches_.updateMatchService now info else k.matches_) := by
  obtain ⟨k₁, key, info, heq, henters, hcase⟩ := k.register_cases now session rq order
  refine ⟨k₁, key, info, ?_⟩
  unfold serverRegistRQ at h
  dsimp only at h
  rw [heq] at h
  obtain ⟨rs, hrs, hk⟩ := Option.map_eq_some_iff.mp h
  obtain ⟨hk, hsent⟩ := Prod.mk.inj hk
  refine ⟨rs, heq, henters, hcase, hrs, ⟨_, hsent.symm, fun packet hpacket => ?_⟩, ?_⟩
  · split_ifs at hpacket
    · obtain ⟨p, -, rfl⟩ := List.mem_map.mp hpacket
      exact ⟨_, rfl⟩
    · cases hpacket
  rw [← hk, henters.matches_, setMatches]
  split_ifs
  · rfl
  · rw [← henters.matches_]

/-- What a close leaves, if the kernel survives it: the session's service is gone from the registry. -/
theorem onClose_some {k' : CSKernel} {now : Int} {session : TCPSessionPtr} (h : k.onClose now session = some k') :
    k'.manager = k.manager.handClose (fun s => s) session ∧ k'.created = k.created ∧ k'.logicID_ = k.logicID_ ∧
      ((k.servers_.lookup (toUnsigned (k.logicID_ session)) = none ∧ k'.servers_ = k.servers_ ∧
          k'.matches_ = k.matches_) ∨
        ∃ info, k.servers_.lookup (toUnsigned (k.logicID_ session)) = some (some info) ∧
          k'.servers_ = k.servers_.erase (toUnsigned (k.logicID_ session)) ∧
          k'.matches_ = if info.type = ServerType.MatchServer.toInt then k.matches_.removeMatchService now info
            else k.matches_) := by
  obtain ⟨k₁, hremove, rfl⟩ := Option.map_eq_some_iff.mp h
  unfold removeService at hremove
  rcases hlookup : k.servers_.lookup (toUnsigned (k.logicID_ session)) with _ | _ | info
  · rw [hlookup] at hremove
    cases hremove
    exact ⟨rfl, rfl, rfl, .inl ⟨rfl, rfl, rfl⟩⟩
  · rw [hlookup] at hremove
    cases hremove
  · rw [hlookup] at hremove
    cases hremove
    exact ⟨rfl, rfl, rfl, .inr ⟨info, rfl, rfl, rfl⟩⟩

/-- The entries a close leaves. -/
theorem onClose_lookup {k' : CSKernel} {now : Int} {session : TCPSessionPtr} (h : k.onClose now session = some k')
    {key : Int} {x : Option ServerInfo} : k'.servers_.lookup key = some x ↔
      key ≠ toUnsigned (k.logicID_ session) ∧ k.servers_.lookup key = some x := by
  obtain ⟨-, -, -, hcase⟩ := onClose_some h
  rcases hcase with ⟨hnone, hservers, -⟩ | ⟨info, -, hservers, -⟩
  · rw [hservers, iff_and_self]
    rintro hkey rfl
    rw [hnone] at hkey
    cases hkey
  · rw [hservers, UnorderedMap.lookup_erase_eq_some]

/-- A close changes no type and no uuid. -/
theorem onClose_typeOf {k' : CSKernel} {now : Int} {session : TCPSessionPtr} (h : k.onClose now session = some k')
    (p : TCPSessionPtr) : k'.typeOf p = k.typeOf p := by
  rw [typeOf, (onClose_some h).1, (k.manager.handClose_frame session p).1, typeOf]

theorem onClose_uuidOf {k' : CSKernel} {now : Int} {session : TCPSessionPtr} (h : k.onClose now session = some k')
    (p : TCPSessionPtr) : k'.uuidOf p = k.uuidOf p := by
  rw [uuidOf, (onClose_some h).1, (k.manager.handClose_frame session p).2.1, uuidOf]

/-! ### Sessions -/

theorem newSession_typeOf (type : ServerType) : (k.newSession type).typeOf k.created = type.toInt := by
  have htype := k.manager.newSession_type k.created (UInt8.ofNat type.toInt.toNat)
  unfold typeOf
  rw [show (k.newSession type).manager = k.manager.newSession k.created (UInt8.ofNat type.toInt.toNat) from rfl, htype]
  cases type <;> rfl

/-- A new session leaves the others alone. -/
theorem newSession_other (type : ServerType) {p : TCPSessionPtr} (hp : p < k.created) :
    (k.newSession type).manager.sessions p = k.manager.sessions p ∧ (k.newSession type).logicID_ p = k.logicID_ p :=
  ⟨(k.manager.newSession_adds k.created _).others p (Nat.ne_of_lt hp), if_neg (Nat.ne_of_lt hp)⟩

theorem Open.newSession {p : TCPSessionPtr} (hp : k.Open p) (type : ServerType) : (k.newSession type).Open p := by
  refine ⟨Nat.lt_succ_of_lt hp.1, ?_⟩
  rw [(newSession_other type hp.1).1]
  exact hp.2

/-- The only service of the first registry. -/
theorem lookup_start {manager : TCPSessionManager} {matches_ : CSMatchManager} {listenInfos : List ServerInfo.Listener}
    {now key : Int} {info : Option ServerInfo}
    (h : (start manager matches_ listenInfos now).servers_.lookup key = some info) :
    key = kCentralSid ∧ ∃ central, info = some central ∧ central.sid = kCentralSid ∧
      central.type = ServerType.CentralServer.toInt ∧ central.listeners = listenInfos.map listener ∧
      central.connectTypes = [] := by
  have hmem := AList.mem_lookup_iff.mp h
  cases List.mem_singleton.mp hmem
  exact ⟨rfl, _, rfl, rfl, rfl, rfl, rfl⟩

/-! ### Sending lists -/

/-- A round leaves what the lookup of the service leaves. -/
theorem sendMatches_eq {k' : CSKernel} {pair : Int × List Int} {sent : List Packet}
    (h : k.sendMatches pair = some (k', sent)) : k' = (k.getService pair.1).1 := by
  obtain ⟨info, -, h⟩ := Option.bind_eq_some_iff.mp h
  obtain ⟨session, -, h⟩ := Option.map_eq_some_iff.mp h
  exact (Prod.mk.inj h).1.symm

/-- The list of a service that is there leaves the registry alone. -/
theorem sendMatches_of_mem {k' : CSKernel} {pair : Int × List Int} {sent : List Packet} (hmem : pair.1 ∈ k.servers_)
    (h : k.sendMatches pair = some (k', sent)) : k' = k := by
  rw [sendMatches_eq h, getService, UnorderedMap.touch_of_mem hmem]

theorem sendAllMatches_of_mem {k' : CSKernel} {pairs : List (Int × List Int)} {sent : List (List Packet)}
    (hmem : ∀ pair ∈ pairs, pair.1 ∈ k.servers_) (h : k.sendAllMatches pairs = some (k', sent)) : k' = k := by
  induction pairs generalizing sent with
  | nil =>
    cases h
    rfl
  | cons pair pairs ih =>
    rw [sendAllMatches] at h
    obtain ⟨⟨k₁, sent₁⟩, h₁, hrest⟩ := Option.bind_eq_some_iff.mp h
    obtain ⟨⟨k₂, sent₂⟩, h₂, heq⟩ := Option.map_eq_some_iff.mp hrest
    obtain rfl := sendMatches_of_mem (hmem pair List.mem_cons_self) h₁
    obtain rfl : k₂ = k' := (Prod.mk.inj heq).1
    exact ih (fun pair hpair => hmem pair (List.mem_cons_of_mem _ hpair)) h₂

theorem callback_of_mem {k' : CSKernel} {m : CSMatchManager} {changed : Option ChangedMatchMap} {sent : List Packet}
    (hmem : ∀ map ∈ changed, ∀ pair ∈ map.entries, pair.1 ∈ k.servers_) (h : k.callback m changed = some (k', sent)) :
    k' = k.setMatches m := by
  unfold callback at h
  cases changed with
  | none =>
    cases h
    rfl
  | some map =>
    obtain ⟨r, hr, h⟩ := Option.map_eq_some_iff.mp h
    obtain ⟨⟨k₁, sent₁⟩, h₁, hr⟩ := Option.map_eq_some_iff.mp hr
    have hk := sendAllMatches_of_mem (k := k.setMatches m) (hmem map rfl) h₁
    cases hr
    cases h
    exact hk

/-! ### Sids -/

/-- The values of an `int`. -/
def IsInt (i : Int) : Prop := -2147483648 ≤ i ∧ i < 2147483648

instance (i : Int) : Decidable (IsInt i) := inferInstanceAs (Decidable (_ ∧ _))

theorem isInt_toInt (i : Int32) : IsInt i.toInt := ⟨Int32.le_toInt i, Int32.toInt_lt i⟩

theorem isInt_invalid : IsInt INVALID_LID := by decide

theorem toUnsigned_inj {i j : Int} (hi : IsInt i) (hj : IsInt j) (h : toUnsigned i = toUnsigned j) : i = j := by
  unfold toUnsigned IsInt at *
  omega

theorem toSigned_toUnsigned {i : Int} (hi : IsInt i) : toSigned (toUnsigned i) = i := by
  unfold toSigned toUnsigned IsInt at *
  rw [Int.bmod_def]
  omega

/-! ### What an event can do -/

/-- The kernel `k'` after an event, and what it has sent. -/
inductive Handled (k : CSKernel) : Event → CSKernel → List Packet → Prop
  | idle {e : Event} {sent : List Packet} : Handled k e k sent
  | newSession {type : ServerType} : accepts type = true → Handled k (.newSession type) (k.newSession type) []
  | serverRegistRQ {session : TCPSessionPtr} {rq : ServerRegisterRQ} {now : Int}
      {order : List (Σ _ : Int, Option ServerInfo)} {k' : CSKernel} {sent : List Packet} : k.Open session →
      k.serverRegistRQ now session (some rq) order = some (k', sent) →
      Handled k (.serverRegistRQ session (some rq) now order) k' sent
  | checkMatchDistributeRQ {session : TCPSessionPtr} {rq : CheckMatchDistributeRQ} {now : Int} : k.Open session →
      k.typeOf session = ServerType.MatchServer.toInt →
      Handled k (.checkMatchDistributeRQ session (some rq) now) (k.checkMatchDistributeRQ now session (some rq)).1
        (k.checkMatchDistributeRQ now session (some rq)).2
  | onClose {session : TCPSessionPtr} {now : Int} {k' : CSKernel} : k.Open session →
      k.onClose now session = some k' → Handled k (.onClose session now) k' []
  | updateDistMatchServices {now : Int} {k' : CSKernel} {sent : List Packet} :
      k.callback (k.matches_.updateDistMatchServices now).1 (k.matches_.updateDistMatchServices now).2 = some (k', sent) →
      Handled k (.updateDistMatchServices now) k' sent
  | cancelMatch {mid reason : Int} {k' : CSKernel} {sent : List Packet} :
      k.callback (k.matches_.cancelMatch mid reason).manager (k.matches_.cancelMatch mid reason).changed =
        some (k', sent) → Handled k (.cancelMatch mid reason) k' sent
  | createdMatches {ms : List CPGMatchProfile} {now : Int} :
      Handled k (.createdMatches ms now) (k.setMatches (k.matches_.createdMatches now ms)) []

theorem handled {e : Event} {k' : CSKernel} {sent : List Packet} (h : k.handle e = some (k', sent)) :
    Handled k e k' sent := by
  cases e with
  | newSession type =>
    rcases ite_eq_iff.mp h with ⟨haccepts, h⟩ | ⟨-, h⟩
    · cases h
      exact .newSession haccepts
    · cases h
      exact .idle
  | serverRegistRQ session rq now order =>
    rcases ite_eq_iff.mp h with ⟨hopen, hrq⟩ | ⟨-, h⟩
    · cases rq with
      | none =>
        cases hrq
        exact .idle
      | some rq => exact .serverRegistRQ hopen hrq
    · cases h
      exact .idle
  | checkMatchDistributeRQ session rq now =>
    rcases ite_eq_iff.mp h with ⟨hopen, hcheck⟩ | ⟨-, h⟩
    · have hcheck := Option.some.inj hcheck
      cases rq with
      | none =>
        cases hcheck
        exact .idle
      | some rq =>
        cases hcheck
        exact .checkMatchDistributeRQ hopen.1 hopen.2
    · cases h
      exact .idle
  | requestBestGateServer session parsed =>
    rcases ite_eq_iff.mp h with ⟨-, hrequest⟩ | ⟨-, h⟩
    · obtain ⟨_, -, heq⟩ := Option.map_eq_some_iff.mp hrequest
      cases heq
      exact .idle
    · cases h
      exact .idle
  | onClose session now =>
    rcases ite_eq_iff.mp h with ⟨hopen, hclosed⟩ | ⟨-, h⟩
    · obtain ⟨k₁, hclose, heq⟩ := Option.map_eq_some_iff.mp hclosed
      cases heq
      exact .onClose hopen hclose
    · cases h
      exact .idle
  | updateDistMatchServices now => exact .updateDistMatchServices h
  | cancelMatch mid reason => exact .cancelMatch h
  | createdMatches ms now =>
    cases h
    exact .createdMatches

theorem mem_step {e : Event} {k' : CSKernel} (h : k' ∈ step (some k) e) : ∃ sent, Handled k e k' sent := by
  obtain ⟨⟨k₁, sent⟩, heq, rfl⟩ := Option.map_eq_some_iff.mp h
  exact ⟨sent, handled heq⟩

end CSKernel

end AsioUtils.CentralServer
