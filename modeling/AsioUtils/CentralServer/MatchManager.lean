import AsioUtils.CentralServer.MatchDistribution
import AsioUtils.Lib.Runs

/-!
# `CSMatchManager`: which match server runs which match

The central server's match manager. `time(NULL)` is an argument (`now`) of the functions that read it; the change
callback, which `CSKernel::start` installs, and the message for the database thread are results of the functions that
call and send them.

* `CSMatchManager` : the state, under the names of its members;
* one definition for each member function, in the order of the source;
* `Call`, `step` : a call at a time, and the state after it.
-/

namespace AsioUtils.CentralServer

open AsioUtils.CPG StdList

inductive ChangedService.Type
  | added | update | removed
  deriving DecidableEq, Repr

structure ChangedService where
  type : ChangedService.Type
  service : MatchDisService
  stamp : Int
  deriving DecidableEq, Repr

/-- `std::map<unsigned int, std::list<int>>`: the new match list of every changed service. -/
abbrev ChangedMatchMap := OrderedMap Int (List Int) id

/-- `int` to `unsigned int` -/
def toUnsigned (i : Int) : Int := i % 4294967296

/-- `unsigned int` to `int` -/
def toSigned (i : Int) : Int := i.bmod 4294967296

inductive CheckError
  | ErrorNo | ErrorMatchServerMore | ErrorMatchServerLess | ErrorNoMatch | ErrorReconnect
  deriving DecidableEq, Repr

def CheckError.toInt : CheckError → Int
  | ErrorNo => 0
  | ErrorMatchServerMore => 1
  | ErrorMatchServerLess => 2
  | ErrorNoMatch => 3
  | ErrorReconnect => 4

/-- `CPGServer::CancelMatchRQ` -/
structure CancelMatchRQ where
  mid : Int
  reason : Int
  deriving DecidableEq, Repr

structure CSMatchManager where
  matchServices_ : ServiceMap := .empty
  matches_ : MatchMap := .empty
  changedServices_ : List ChangedService := []
  undistMatches_ : List Int := []
  /-- whether a check timer is armed -/
  timer_ : Bool := false
  matchLatestUpdateTime_ : Int
  deriving DecidableEq

/-- What `cancelMatch` returns, passes to the change callback and sends to the database thread. -/
structure CancelResult where
  manager : CSMatchManager
  code : Int
  changed : Option ChangedMatchMap := none
  request : Option CancelMatchRQ := none

namespace CSMatchManager

def updateDuration : Int := 25

/-- `initialize`, with the matches the database and the match file hold; the 20-second timer it creates is a later
call of `updateDistMatchServices`. -/
def initializeWith (s : CSMatchManager) (stored : MatchMap) : CSMatchManager :=
  { s with matches_ := stored, undistMatches_ := stored.keys }

/-- The state right after the constructor, which ran at `now`, and `initialize`. -/
def initialized (now : Int) (stored : MatchMap) : CSMatchManager :=
  initializeWith { matchLatestUpdateTime_ := now } stored

def getDistMatch (matchServices : ServiceMap) (sid : Int) : List Int :=
  match matchServices.find? sid with
  | some e => e.2
  | none => []

/-- The service that runs `mid`, `-1` when it waits in the pool or is nowhere. -/
def getService (s : CSMatchManager) (mid : Int) : Int :=
  if s.undistMatches_.length > 0 ∧ mid ∈ s.undistMatches_ then -1
  else
    match s.matchServices_.entries.find? fun e => mid ∈ e.2 with
    | some e => e.1.sid
    | none => -1

def startTimerCheckDistMatchServices (s : CSMatchManager) : CSMatchManager := { s with timer_ := true }

def stopTimerCheckDistMatchServices (s : CSMatchManager) : CSMatchManager := { s with timer_ := false }

def updateMatchesOrService (s : CSMatchManager) (now : Int) : CSMatchManager :=
  startTimerCheckDistMatchServices { s with matchLatestUpdateTime_ := now }

def addUndistriteMatches (s : CSMatchManager) (now : Int) (mids : List Int) : CSMatchManager :=
  updateMatchesOrService { s with undistMatches_ := unique (sort (merge s.undistMatches_ mids)) } now

def updateMatchService (s : CSMatchManager) (now : Int) (service : ServerInfo) : CSMatchManager :=
  let serviceKey : MatchDisService := ⟨service.sid, service.loaded⟩
  let type := if s.matchServices_.find? serviceKey.sid = none then ChangedService.Type.added else .update
  let changed := s.changedServices_.filter fun c => c.service.sid ≠ serviceKey.sid
  updateMatchesOrService { s with changedServices_ := changed ++ [⟨type, serviceKey, now⟩] } now

/-- A service that was only just added and is lost again leaves no trace. -/
def removeMatchService (s : CSMatchManager) (now : Int) (service : ServerInfo) : CSMatchManager :=
  let serviceKey : MatchDisService := ⟨service.sid, service.loaded⟩
  let requireAdded := !s.changedServices_.any fun c => c.service.sid = serviceKey.sid ∧ c.type = .added
  let changed := s.changedServices_.filter fun c => c.service.sid ≠ serviceKey.sid
  let changed := if requireAdded then changed ++ [⟨.removed, serviceKey, now⟩] else changed
  updateMatchesOrService { s with changedServices_ := changed } now

def checkDistMatchServices (s : CSMatchManager) (now : Int) : Bool :=
  updateDuration ≤ now - s.matchLatestUpdateTime_

/-! ## `updateDistMatchServices` -/

/-- Part ①: the lost services leave the map, their matches gather in `undistriMatches`. -/
def removeServices : List ChangedService → List Int → ServiceMap → List Int × ServiceMap
  | [], undistriMatches, ms => (undistriMatches, ms)
  | changed :: cs, undistriMatches, ms =>
    if changed.type = .removed then
      removeServices cs (merge undistriMatches (getDistMatch ms changed.service.sid)) (ms.erase changed.service.sid)
    else removeServices cs undistriMatches ms

/-- Part ②: an updated service gets its new key. -/
def updateServices : List ChangedService → ServiceMap → ServiceMap
  | [], ms => ms
  | changed :: cs, ms =>
    if changed.type = .update then
      match ms.find? changed.service.sid with
      | none => updateServices cs ms
      | some e => updateServices cs ((ms.erase changed.service.sid).insert (changed.service, e.2))
    else updateServices cs ms

/-- Part ③: what is left in the log are new services. -/
def addServices : List ChangedService → ServiceMap → ServiceMap
  | [], ms => ms
  | srv :: cs, ms =>
    match ms.find? srv.service.sid with
    | none => addServices cs (ms.assign srv.service [])
    | some e => addServices cs (if e.2.length = 0 then ms.assign srv.service [] else ms)

/-- `changedMap[sid] = getDistMatch(sid)` for every changed service -/
def changedMatchMap (matchServices : ServiceMap) (changedServers : List Int) : ChangedMatchMap :=
  changedServers.foldl (fun map sid => map.assign (toUnsigned sid)
    (getDistMatch matchServices (toSigned (toUnsigned sid)))) .empty

/-- The body of `updateDistMatchServices` behind its time gate. -/
def applyChanges (s : CSMatchManager) : CSMatchManager × ChangedMatchMap :=
  let r := removeServices s.changedServices_ [] s.matchServices_
  let undist := merge s.undistMatches_ r.1
  let undistriMatches : List Int := [] -- `std::list::merge` empties its argument
  let changed := s.changedServices_.filter fun c => c.type ≠ .removed
  let ms := updateServices changed r.2
  let changed := changed.filter fun c => c.type ≠ .update
  let ms := addServices changed ms
  let p := MatchDistribution.redistribute ms s.matches_ undist
  let s := { s with matchServices_ := p.matchServices, undistMatches_ := p.undistMatches, changedServices_ := [] }
  (if undistriMatches.length > 0 then startTimerCheckDistMatchServices s else s,
    changedMatchMap p.matchServices p.changedServices)

/-- The second component is the call of the change callback. -/
def updateDistMatchServices (s : CSMatchManager) (now : Int) : CSMatchManager × Option ChangedMatchMap :=
  let s := stopTimerCheckDistMatchServices s
  if checkDistMatchServices s now then ((applyChanges s).1, some (applyChanges s).2)
  else (startTimerCheckDistMatchServices s, none)

/-! ## Checking a report, cancelling, creating -/

/-- The invalid matches, and the list without them: the source's body is `return {};`. -/
def filterValidMatch (mids : List Int) : List Int × List Int := ([], mids)

/-- The last component is the caller's list, which is passed by reference. -/
def checkServiceDistMap (s : CSMatchManager) (now : Int) (service : MatchDisService) (mids : List Int) :
    CSMatchManager × CheckError × List Int :=
  let mids := (filterValidMatch mids).2
  match s.matchServices_.find? service.sid with
  | some e =>
    let mids := (filterValidMatch mids).2
    let distMids := sort e.2
    let mids := sort mids
    let res := if (setDifference distMids mids).length > 0 then CheckError.ErrorMatchServerLess else .ErrorNo
    let res := if (setDifference mids distMids).length > 0 then CheckError.ErrorMatchServerMore else res
    ({ s with matchServices_ := s.matchServices_.modify service.sid sort }, res, mids)
  | none =>
    if mids.length > 0 then
      ({ s with
          matchServices_ := s.matchServices_.assign service mids
          undistMatches_ := mids.foldl (fun undist mid => undist.filter (· ≠ mid)) s.undistMatches_
          changedServices_ := s.changedServices_.filter fun c => c.service.sid ≠ service.sid },
        .ErrorReconnect, mids)
    else (updateMatchesOrService s now, .ErrorNoMatch, mids)

def getMatch (s : CSMatchManager) (mid : Int) : Option CPGMatchProfile := (s.matches_.find? mid).map Prod.snd

def cancelMatch (s : CSMatchManager) (mid reason : Int) : CancelResult :=
  match getMatch s mid with
  | none => { manager := s, code := kManager_MatchNotFound }
  | some m =>
    if m.match_state > ENUM_STATE_READY then { manager := s, code := kManager_MatchCancel_StartedError }
    else
      let sid := getService s mid
      let owner := if sid > 0 then s.matchServices_.find? sid else none
      let ms := if owner.isSome then s.matchServices_.modify sid (·.filter (· ≠ mid)) else s.matchServices_
      { manager := { s with matchServices_ := ms, undistMatches_ := s.undistMatches_.filter (· ≠ mid) }
        code := kNoneError
        changed := owner.map fun e => OrderedMap.empty.assign (toUnsigned sid) (e.2.filter (· ≠ mid))
        request := some ⟨mid, reason⟩ }

def createdMatches (s : CSMatchManager) (now : Int) (ms : List CPGMatchProfile) : CSMatchManager :=
  addUndistriteMatches { s with matches_ := ms.foldl (fun map m => map.assign m.mid m) s.matches_ } now (ms.map (·.mid))

/-! ## Runs -/

/-- A call of the manager. -/
inductive Call
  | createdMatches (ms : List CPGMatchProfile)
  | addUndistriteMatches (mids : List Int)
  | updateMatchService (service : ServerInfo)
  | removeMatchService (service : ServerInfo)
  | checkServiceDistMap (service : MatchDisService) (mids : List Int)
  | cancelMatch (mid reason : Int)
  | updateDistMatchServices

/-- A call and what `time(NULL)` is during it. -/
structure TimedCall where
  now : Int
  call : Call

/-- The state after a call. -/
def step (s : CSMatchManager) (c : TimedCall) : CSMatchManager :=
  match c.call with
  | .createdMatches ms => createdMatches s c.now ms
  | .addUndistriteMatches mids => addUndistriteMatches s c.now mids
  | .updateMatchService service => updateMatchService s c.now service
  | .removeMatchService service => removeMatchService s c.now service
  | .checkServiceDistMap service mids => (checkServiceDistMap s c.now service mids).1
  | .cancelMatch mid reason => (cancelMatch s mid reason).manager
  | .updateDistMatchServices => (updateDistMatchServices s c.now).1

end CSMatchManager

end AsioUtils.CentralServer
