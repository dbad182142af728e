import AsioUtils.GateWay.Relay
import AsioUtils.Lib.Runs
import AsioUtils.Net.ServiceKernel

/-!
# The match routes of the gateway

The gateway keeps, for each match, the session of the server that runs it, in `matchesServices_`. The central server
announces the matches of all services at once; a lost match server takes its routes along.

* `GSKernel` : the gateway's kernel;
* `distibuteMatchesNotify_iff` : when the routes are those of the announcement: a route of a match that is announced no
  more, or only under a service that is not connected, stays;
* `Routed`, `routed_always` : over any run, every route is the session of a connected service.
-/

namespace AsioUtils.GateWay

open Net CPG OrderedMap

structure GSKernel extends ServiceKernel, Routes where
  matchesDistriMaps_ : OrderedMap Int (List Int) id := .empty

namespace GSKernel

variable (k : GSKernel)

def typeOf (session : TCPSessionPtr) : Int := (k.manager.sessions session).type.toNat

def matchServiceSession (mid : Int) : Option TCPSessionPtr := (k.matchesServices_.find? mid).map Prod.snd

/-- `matchDistr`: of a sid that comes again only the last list is kept. -/
def matchDistr (notify : ServerAllMatchDistributeNotify) : OrderedMap Int (List Int) id :=
  notify.foldl (fun distr service => (distr.erase service.sid).assign service.sid service.mid) .empty

/-- One round of the second loop of `distibuteMatchesNotify`. -/
def addService (routes : OrderedMap Int TCPSessionPtr id) (pair : Int × List Int) : OrderedMap Int TCPSessionPtr id :=
  match k.connectServiceSession pair.1 with
  | some session => pair.2.foldl (fun routes mid => routes.assign mid session) routes
  | none => routes

def distibuteMatchesNotify (notify : ServerAllMatchDistributeNotify) : GSKernel :=
  { k with
    matchesServices_ := (matchDistr notify).entries.foldl k.addService k.matchesServices_
    matchesDistriMaps_ := matchDistr notify }

def removeConnectMatchService (session : TCPSessionPtr) : GSKernel :=
  let k' := if k.typeOf session = ServerType.MatchServer.toInt then
      { k with matchesServices_ := k.matchesServices_.filter fun e => e.2 ≠ session }
    else k
  if k.loginSession_ = some session then { k' with loginSession_ := none }
  else if k.centralSession_ = some session then { k' with centralSession_ := none }
  else k'

def updateServiceConnect (session : TCPSessionPtr) (state : ServiceState) : GSKernel :=
  if state = .kClose then k.removeConnectMatchService session
  else if k.typeOf session = ServerType.LoginServer.toInt then { k with loginSession_ := some session }
  else if k.typeOf session = ServerType.CentralServer.toInt then { k with centralSession_ := some session }
  else k

def addNewConnect (type : Int16) (port : UInt16) (sid : Int) (ip : String) (order : List (Σ _ : Int32, ServiceConfig)) :
    GSKernel :=
  let (k', session, state) := k.toServiceKernel.addNewConnect type port sid ip order
  { k with toServiceKernel := k' }.updateServiceConnect session state

def removeServiceSession (uuid : Int32) : GSKernel :=
  match k.toServiceKernel.removeServiceSession uuid with
  | (_, none) => k
  | (k', some (session, state)) => { k.updateServiceConnect session state with toServiceKernel := k' }

/-! ## What the loops do -/

section Notify

variable (notify : ServerAllMatchDistributeNotify) (mid : Int)

/-- Some entry for `sid` lists `mid`. -/
def Lists (sid : Int) : Prop := ∃ service ∈ notify, service.sid = sid ∧ mid ∈ service.mid

/-- The last entry for `sid` lists `mid`. -/
def LastLists (sid : Int) : Prop :=
  ∃ service, notify.reverse.find? (fun service => service.sid = sid) = some service ∧ mid ∈ service.mid

/-- Every mid is listed under one service at most. -/
def OneService : Prop := ∀ mid sid sid', Lists notify mid sid → Lists notify mid sid' → sid = sid'

/-- `mid` is listed under a service whose connection is `session`. -/
def Announced (session : TCPSessionPtr) : Prop :=
  ∃ sid, Lists notify mid sid ∧ k.connectServiceSession sid = some session

variable {notify mid}

theorem LastLists.lists {sid : Int} (h : LastLists notify mid sid) : Lists notify mid sid := by
  obtain ⟨service, hfind, hmid⟩ := h
  have hsid := List.find?_some hfind
  exact ⟨service, List.mem_reverse.mp (List.mem_of_find?_eq_some hfind), of_decide_eq_true hsid, hmid⟩

theorem find?_matchDistr (notify : ServerAllMatchDistributeNotify) (sid : Int) :
    (matchDistr notify).find? sid =
      (notify.reverse.find? fun service => service.sid = sid).map fun service => (sid, service.mid) := by
  induction notify using List.reverseRecOn with
  | nil => rfl
  | append_singleton notify service ih =>
    have happend : matchDistr (notify ++ [service]) =
        ((matchDistr notify).erase service.sid).assign service.sid service.mid := List.foldl_append
    rw [happend, find?_assign, find?_erase, List.reverse_append, List.reverse_singleton, List.singleton_append,
      List.find?_cons]
    by_cases hsid : sid = service.sid
    · simp [hsid]
    · simp [hsid, Ne.symm hsid, ih]

theorem lastLists_iff {sid : Int} :
    LastLists notify mid sid ↔ ∃ mids, (sid, mids) ∈ (matchDistr notify).entries ∧ mid ∈ mids := by
  constructor
  · rintro ⟨service, hfind, hmid⟩
    refine ⟨service.mid, mem_of_find? (i := sid) ?_, hmid⟩
    rw [find?_matchDistr, hfind]
    rfl
  · rintro ⟨mids, hmem, hmid⟩
    have hfind := find?_of_mem hmem
    rw [find?_matchDistr] at hfind
    obtain ⟨service, hservice, heq⟩ := Option.map_eq_some_iff.mp hfind
    exact ⟨service, hservice, (Prod.mk.inj heq).2 ▸ hmid⟩

theorem find?_assign_all (mids : List Int) (session : TCPSessionPtr) (routes : OrderedMap Int TCPSessionPtr id)
    (mid : Int) :
    ((mids.foldl (fun routes mid => routes.assign mid session) routes).find? mid).map Prod.snd =
      if mid ∈ mids then some session else (routes.find? mid).map Prod.snd := by
  induction mids generalizing routes with
  | nil => rfl
  | cons m mids ih =>
    rw [List.foldl_cons, ih, find?_assign]
    by_cases hm : mid = m
    · simp [hm]
    · simp [hm]

/-- A mid gets the connection of a service of the loop that lists it; else its route is the old one. -/
theorem foldl_addService_cases (distr : List (Int × List Int)) (routes : OrderedMap Int TCPSessionPtr id) (mid : Int) :
    (∃ pair ∈ distr, mid ∈ pair.2 ∧ ∃ session, k.connectServiceSession pair.1 = some session ∧
      ((distr.foldl k.addService routes).find? mid).map Prod.snd = some session) ∨
    ((∀ pair ∈ distr, mid ∈ pair.2 → k.connectServiceSession pair.1 = none) ∧
      ((distr.foldl k.addService routes).find? mid).map Prod.snd = (routes.find? mid).map Prod.snd) := by
  induction distr generalizing routes with
  | nil => exact .inr ⟨by simp, rfl⟩
  | cons pair distr ih =>
    rw [List.foldl_cons]
    rcases ih (k.addService routes pair) with ⟨pair', hpair', hmid, session, hsession, hroute⟩ | ⟨hnone, hroute⟩
    · exact .inl ⟨pair', List.mem_cons_of_mem _ hpair', hmid, session, hsession, hroute⟩
    · rw [hroute, addService]
      cases hsession : k.connectServiceSession pair.1 with
      | none =>
        refine .inr ⟨?_, rfl⟩
        rintro pair' (_ | ⟨_, hpair'⟩) hmid
        · exact hsession
        · exact hnone pair' hpair' hmid
      | some session =>
        dsimp only
        rw [find?_assign_all]
        split_ifs with hmid
        · exact .inl ⟨pair, List.mem_cons_self, hmid, session, hsession, rfl⟩
        · refine .inr ⟨?_, rfl⟩
          rintro pair' (_ | ⟨_, hpair'⟩) hmid'
          · exact absurd hmid' hmid
          · exact hnone pair' hpair' hmid'

/-- The route of a mid after a notify: the connection of a service whose last entry lists it, or the one before. -/
theorem matchServiceSession_distibute (k : GSKernel) (notify : ServerAllMatchDistributeNotify) (mid : Int) :
    (∃ sid session, LastLists notify mid sid ∧ k.connectServiceSession sid = some session ∧
      (k.distibuteMatchesNotify notify).matchServiceSession mid = some session) ∨
    ((∀ sid, LastLists notify mid sid → k.connectServiceSession sid = none) ∧
      (k.distibuteMatchesNotify notify).matchServiceSession mid = k.matchServiceSession mid) := by
  rcases k.foldl_addService_cases (matchDistr notify).entries k.matchesServices_ mid with
    ⟨pair, hpair, hmid, session, hsession, hroute⟩ | ⟨hnone, hroute⟩
  · exact .inl ⟨pair.1, session, lastLists_iff.mpr ⟨pair.2, hpair, hmid⟩, hsession, hroute⟩
  · refine .inr ⟨fun sid hlast => ?_, hroute⟩
    obtain ⟨mids, hmem, hmid⟩ := lastLists_iff.mp hlast
    exact hnone (sid, mids) hmem hmid

end Notify

/-! ## The routes and the announcement -/

/-- The routes are the announced ones. -/
def RoutesAre (k k' : GSKernel) (notify : ServerAllMatchDistributeNotify) : Prop :=
  ∀ mid session, k'.matchServiceSession mid = some session ↔ Announced k notify mid session

/-- What the routes before a notify must be for the routes after it to be the announced ones. -/
structure Fits (k : GSKernel) (notify : ServerAllMatchDistributeNotify) : Prop where
  /-- a mid that has a route is announced -/
  routed : ∀ mid, k.matchServiceSession mid ≠ none → ∃ session, Announced k notify mid session
  /-- a mid that is listed under a connected service, but not in its last entry, has its route already -/
  repeated : ∀ mid sid session, Lists notify mid sid → k.connectServiceSession sid = some session →
    ¬ LastLists notify mid sid → k.matchServiceSession mid = some session

/-- **After a notify the routes are the announced ones exactly if no route was left over from before.** -/
theorem distibuteMatchesNotify_iff (k : GSKernel) (notify : ServerAllMatchDistributeNotify) (h : OneService notify) :
    RoutesAre k (k.distibuteMatchesNotify notify) notify ↔ Fits k notify := by
  constructor
  · intro hroutes
    refine ⟨fun mid hmid => ?_, fun mid sid session hlists hsession hlast => ?_⟩
    · rcases matchServiceSession_distibute k notify mid with ⟨sid, session, hlast, hsession, -⟩ | ⟨-, hold⟩
      · exact ⟨session, sid, hlast.lists, hsession⟩
      · obtain ⟨session, hsession⟩ := Option.ne_none_iff_exists'.mp hmid
        exact ⟨session, (hroutes mid session).mp (hold.trans hsession)⟩
    · rcases matchServiceSession_distibute k notify mid with ⟨sid', session', hlast', -, -⟩ | ⟨-, hold⟩
      · exact absurd (h mid sid' sid hlast'.lists hlists ▸ hlast') hlast
      · rw [← hold]
        exact (hroutes mid session).mpr ⟨sid, hlists, hsession⟩
  · intro hfits mid session
    rcases matchServiceSession_distibute k notify mid with ⟨sid, session', hlast, hsession', hnew⟩ | ⟨hnone, hold⟩
    · rw [hnew, Option.some.injEq]
      constructor
      · rintro rfl
        exact ⟨sid, hlast.lists, hsession'⟩
      · rintro ⟨sid', hlists, hsession⟩
        rw [h mid sid' sid hlists hlast.lists, hsession', Option.some.injEq] at hsession
        exact hsession
    · have hrepeated : ∀ sid session', Lists notify mid sid → k.connectServiceSession sid = some session' →
          k.matchServiceSession mid = some session' := fun sid session' hlists hsession' =>
        hfits.repeated mid sid session' hlists hsession' fun hlast => by simp [hnone sid hlast] at hsession'
      rw [hold]
      constructor
      · intro hsession
        obtain ⟨session', sid, hlists, hsession'⟩ := hfits.routed mid (by simp [hsession])
        have heq := (hrepeated sid session' hlists hsession').symm.trans hsession
        exact ⟨sid, hlists, hsession'.trans heq⟩
      · rintro ⟨sid, hlists, hsession⟩
        exact hrepeated sid session hlists hsession

/-- The gateway before it has connected to anything. -/
def start (manager : TCPSessionManager) (created : TCPSessionPtr) : GSKernel := { manager, created }

/-- Connected to the match server 5, which listens at port 9000. -/
def sampleConnected : GSKernel := (start .empty 0).addNewConnect 3 9000 5 "10.0.0.5" []

theorem sample_oneService : OneService [⟨5, [7]⟩] := by
  rintro mid sid sid' ⟨service, hservice, rfl, -⟩ ⟨service', hservice', rfl, -⟩
  rw [List.mem_singleton.mp hservice, List.mem_singleton.mp hservice']

/-- The first announcement of a match. -/
theorem distibuteMatchesNotify_iff_first :
    OneService [⟨5, [7]⟩] ∧ RoutesAre sampleConnected (sampleConnected.distibuteMatchesNotify [⟨5, [7]⟩]) [⟨5, [7]⟩] := by
  refine ⟨sample_oneService, (distibuteMatchesNotify_iff sampleConnected _ sample_oneService).mpr ⟨?_, ?_⟩⟩
  · exact fun mid hmid => absurd rfl hmid
  · rintro mid sid session ⟨service, hservice, hsid, hmid⟩ - hlast
    rw [List.mem_singleton.mp hservice] at hsid hmid
    exact absurd ⟨⟨5, [7]⟩, List.find?_cons_of_pos (decide_eq_true hsid), hmid⟩ hlast

/-- Match 7 is cancelled: the next announcement lists no match, and its route stays. -/
theorem distibuteMatchesNotify_keeps_cancelled :
    let k := sampleConnected.distibuteMatchesNotify [⟨5, [7]⟩]
    OneService [⟨5, []⟩] ∧ ¬ RoutesAre k (k.distibuteMatchesNotify [⟨5, []⟩]) [⟨5, []⟩] := by
  intro k
  have hnone : ∀ mid sid, ¬ Lists [⟨5, []⟩] mid sid := fun mid sid ⟨service, hservice, _, hmid⟩ => by
    rw [List.mem_singleton.mp hservice] at hmid
    cases hmid
  refine ⟨fun mid sid sid' hlists => absurd hlists (hnone mid sid), fun hroutes => ?_⟩
  have hroute : (k.distibuteMatchesNotify [⟨5, []⟩]).matchServiceSession 7 = some 0 := by decide
  obtain ⟨sid, hlists, -⟩ := (hroutes 7 0).mp hroute
  exact hnone 7 sid hlists

/-! ## Runs -/

/-- What happens to the kernel. `sessions` is anything that goes on in the session manager meanwhile. -/
inductive Event
  | addNewConnect (type : Int16) (port : UInt16) (sid : Int) (ip : String) (order : List (Σ _ : Int32, ServiceConfig))
  | distibuteMatchesNotify (notify : ServerAllMatchDistributeNotify)
  | removeServiceSession (uuid : Int32)
  | sessions (manager : TCPSessionManager) (created : TCPSessionPtr)

def step (k : GSKernel) : Event → GSKernel
  | .addNewConnect type port sid ip order => k.addNewConnect type port sid ip order
  | .distibuteMatchesNotify notify => k.distibuteMatchesNotify notify
  | .removeServiceSession uuid => k.removeServiceSession uuid
  | .sessions manager created => { k with manager, created }

/-- A new connection gets a uuid no connection has, a sid that is announced is that of a match server if it is one of a
connection, and the type of a session is never written. -/
def Valid (k : GSKernel) : Event → Prop
  | .addNewConnect type port sid ip _ =>
    k.checkConnectService type port ip = INVALID_UUID ∨ sid = INVALID_UUID.toInt → k.newUuid type ∉ k.connectServices_
  | .distibuteMatchesNotify notify => ∀ service ∈ notify, ∀ session ∈ k.connectServiceSession service.sid,
      k.typeOf session = ServerType.MatchServer.toInt
  | .removeServiceSession _ => True
  | .sessions manager created => k.created ≤ created ∧
      ∀ p, p < k.created → (manager.sessions p).type_ = (k.manager.sessions p).type_

/-- `session` is that of an entry of `connectServices_`. -/
def Connected (k : GSKernel) (session : TCPSessionPtr) : Prop :=
  ∃ uuid c, k.connectServices_.lookup uuid = some c ∧ c.session_ = session

/-- Every route is the session of a connected service. -/
def Routed (k : GSKernel) : Prop := ∀ mid session, k.matchServiceSession mid = some session → k.Connected session

/-- What the steps keep: sessions are below the next one, routes are sessions of connected match servers. -/
structure RoutedTo (k : GSKernel) : Prop where
  below : ∀ uuid c, k.connectServices_.lookup uuid = some c → c.session_ < k.created
  connected : k.Routed
  matchServer : ∀ mid session, k.matchServiceSession mid = some session →
    k.typeOf session = ServerType.MatchServer.toInt

theorem updateServiceConnect_frame (k : GSKernel) (session : TCPSessionPtr) (state : ServiceState) :
    (k.updateServiceConnect session state).toServiceKernel = k.toServiceKernel ∧
      (state ≠ .kClose → (k.updateServiceConnect session state).matchesServices_ = k.matchesServices_) := by
  unfold updateServiceConnect removeConnectMatchService
  split_ifs <;> simp_all

theorem addNewConnect_connects (k : GSKernel) (type : Int16) (port : UInt16) (sid : Int) (ip : String)
    (order : List (Σ _ : Int32, ServiceConfig)) :
    (k.addNewConnect type port sid ip order).toServiceKernel =
        (k.toServiceKernel.addNewConnect type port sid ip order).1 ∧
      (k.addNewConnect type port sid ip order).matchesServices_ = k.matchesServices_ := by
  unfold addNewConnect
  rcases k.toServiceKernel.addNewConnect_cases type port sid ip order with ⟨-, k', heq, -⟩ | ⟨-, old, -, -, k', heq, -⟩
  · rw [heq]
    have hframe := updateServiceConnect_frame { k with toServiceKernel := k' } k.created .kConnect
    exact ⟨hframe.1, hframe.2 (by decide)⟩
  · rw [heq]
    have hframe := updateServiceConnect_frame { k with toServiceKernel := k' } old.session_ .kUpdate
    exact ⟨hframe.1, hframe.2 (by decide)⟩

/-- Routes that were there before are still good when their sessions keep type and connection. -/
theorem RoutedTo.of_routes {k k' : GSKernel} (hk : RoutedTo k)
    (hbelow : ∀ uuid c, k'.connectServices_.lookup uuid = some c → c.session_ < k'.created)
    (hroutes : ∀ mid session, k'.matchServiceSession mid = some session →
      k.matchServiceSession mid = some session ∧ (k.Connected session → k'.Connected session))
    (htype : ∀ p, p < k.created → k'.typeOf p = k.typeOf p) : RoutedTo k' := by
  refine ⟨hbelow, fun mid session hroute => ?_, fun mid session hroute => ?_⟩
  · obtain ⟨hold, hconnected⟩ := hroutes mid session hroute
    exact hconnected (hk.connected mid session hold)
  · obtain ⟨hold, -⟩ := hroutes mid session hroute
    obtain ⟨uuid, c, hc, rfl⟩ := hk.connected mid session hold
    rw [htype _ (hk.below uuid c hc)]
    exact hk.matchServer mid _ hold

theorem addNewConnect_routedTo {k : GSKernel} (hk : RoutedTo k) {type : Int16} {port : UInt16} {sid : Int} {ip : String}
    {order : List (Σ _ : Int32, ServiceConfig)} (hv : Valid k (.addNewConnect type port sid ip order)) :
    RoutedTo (k.addNewConnect type port sid ip order) := by
  obtain ⟨hbase, hroutes⟩ := k.addNewConnect_connects type port sid ip order
  set k₁ := k.addNewConnect type port sid ip order with hk₁
  have hroute : ∀ mid, k₁.matchServiceSession mid = k.matchServiceSession mid := fun mid =>
    congrArg (fun routes => (routes.find? mid).map Prod.snd) hroutes
  rcases k.toServiceKernel.addNewConnect_cases type port sid ip order with
    ⟨hnew, k', heq, hconn⟩ | ⟨hsid, old, hold, hat, k', heq, hren⟩
  · rw [heq] at hbase
    have hfresh := hv hnew
    refine hk.of_routes (fun uuid c hc => ?_) (fun mid session hsession => ⟨hroute mid ▸ hsession, ?_⟩) fun p hp => ?_
    · rw [hbase, hconn.services] at hc
      rw [hbase, hconn.created]
      split at hc
      · cases hc
        exact Nat.lt_succ_self _
      · exact Nat.lt_succ_of_lt (hk.below uuid c hc)
    · rintro ⟨uuid, c, hc, hsession⟩
      have hne : uuid ≠ k.newUuid type := fun h => hfresh (AList.lookup_isSome.mp (by rw [← h, hc]; rfl))
      refine ⟨uuid, c, ?_, hsession⟩
      rw [hbase, hconn.services, if_neg hne, hc]
    · have hothers := (k.manager.createConnector_adds k.created type.toUInt16.toUInt8).others p (Nat.ne_of_lt hp)
      unfold typeOf
      rw [hbase, hconn.manager, hothers]
  · rw [heq] at hbase
    refine hk.of_routes (fun uuid c hc => ?_) (fun mid session hsession => ⟨hroute mid ▸ hsession, ?_⟩) fun p _ => ?_
    · rw [hbase, hren.services] at hc
      rw [hbase, hren.created]
      split at hc
      · cases hc
        exact hk.below _ old hold
      · exact hk.below uuid c hc
    · rintro ⟨uuid, c, hc, hsession⟩
      by_cases huuid : uuid = k.checkConnectService type port ip
      · rw [huuid, hold, Option.some.injEq] at hc
        refine ⟨uuid, { old with sid := sid }, ?_, hc ▸ hsession⟩
        rw [hbase, hren.services, if_pos huuid]
      · refine ⟨uuid, c, ?_, hsession⟩
        rw [hbase, hren.services, if_neg huuid, hc]
    · unfold typeOf
      rw [hbase, hren.manager]

theorem distibuteMatchesNotify_routedTo {k : GSKernel} (hk : RoutedTo k) {notify : ServerAllMatchDistributeNotify}
    (hv : Valid k (.distibuteMatchesNotify notify)) : RoutedTo (k.distibuteMatchesNotify notify) := by
  have hroute : ∀ mid session, (k.distibuteMatchesNotify notify).matchServiceSession mid = some session →
      k.Connected session ∧ k.typeOf session = ServerType.MatchServer.toInt := fun mid session hsession => by
    rcases matchServiceSession_distibute k notify mid with ⟨sid, session', hlast, hsession', hnew⟩ | ⟨-, hold⟩
    · cases hnew.symm.trans hsession
      obtain ⟨service, hservice, rfl, -⟩ := hlast.lists
      obtain ⟨uuid, c, hc, -, heq⟩ := ServiceKernel.connectServiceSession_spec hsession'
      exact ⟨⟨uuid, c, hc, heq⟩, hv service hservice session hsession'⟩
    · rw [hold] at hsession
      exact ⟨hk.connected mid session hsession, hk.matchServer mid session hsession⟩
  exact ⟨hk.below, fun mid session h => (hroute mid session h).1, fun mid session h => (hroute mid session h).2⟩

/-- No route to a match server is left once its session is removed. -/
theorem matchServiceSession_removed {k : GSKernel} {session s : TCPSessionPtr} {mid : Int}
    (h : (k.updateServiceConnect session .kClose).matchServiceSession mid = some s) :
    k.matchServiceSession mid = some s ∧ (k.typeOf session = ServerType.MatchServer.toInt → s ≠ session) := by
  have hmap : (k.updateServiceConnect session .kClose).matchesServices_ =
      if k.typeOf session = ServerType.MatchServer.toInt then k.matchesServices_.filter fun e => e.2 ≠ session
      else k.matchesServices_ := by
    unfold updateServiceConnect removeConnectMatchService
    split_ifs <;> simp_all
  unfold matchServiceSession at h ⊢
  rw [hmap] at h
  split_ifs at h with htype
  · rw [find?_filter] at h
    obtain ⟨e, he, rfl⟩ := Option.map_eq_some_iff.mp h
    obtain ⟨he, hne⟩ := Option.filter_eq_some_iff.mp he
    exact ⟨by rw [he]; rfl, fun _ => of_decide_eq_true hne⟩
  · exact ⟨h, fun htype' => absurd htype' htype⟩

theorem removeServiceSession_routedTo {k : GSKernel} (hk : RoutedTo k) (uuid : Int32) :
    RoutedTo (k.removeServiceSession uuid) := by
  unfold removeServiceSession ServiceKernel.removeServiceSession
  cases hconfig : k.connectServices_.lookup uuid with
  | none => exact hk
  | some config =>
    dsimp only
    refine hk.of_routes (fun u c hc => ?_) (fun mid s hroute => ?_) fun p _ => rfl
    · have hne : u ≠ uuid := by
        rintro rfl
        rw [AList.lookup_erase] at hc
        cases hc
      rw [AList.lookup_erase_ne hne] at hc
      exact hk.below u c hc
    · obtain ⟨hold, hs⟩ := matchServiceSession_removed hroute
      refine ⟨hold, fun ⟨u, c, hc, hcs⟩ => ?_⟩
      -- the entry of a route is not the one that is erased: its session would be a match server's
      have hne : u ≠ uuid := by
        rintro rfl
        cases hc.symm.trans hconfig
        exact hs (hcs ▸ hk.matchServer mid s hold) hcs.symm
      exact ⟨u, c, (AList.lookup_erase_ne hne).trans hc, hcs⟩

theorem step_routedTo {k : GSKernel} (e : Event) (hk : RoutedTo k) (hv : Valid k e) : RoutedTo (k.step e) := by
  cases e with
  | addNewConnect type port sid ip order => exact addNewConnect_routedTo hk hv
  | distibuteMatchesNotify notify => exact distibuteMatchesNotify_routedTo hk hv
  | removeServiceSession uuid => exact removeServiceSession_routedTo hk uuid
  | sessions manager created =>
    obtain ⟨hcreated, htype⟩ := hv
    refine hk.of_routes (fun uuid c hc => Nat.lt_of_lt_of_le (hk.below uuid c hc) hcreated)
      (fun mid session hroute => ⟨hroute, id⟩) fun p hp => ?_
    show ((manager.sessions p).type.toNat : Int) = k.typeOf p
    rw [typeOf, Session.type, htype p hp]
    rfl

/-- **Whatever the order of announcing, connecting and closing, every route is the session of a connected service.** -/
theorem routed_always (manager : TCPSessionManager) (created : TCPSessionPtr) (es : List Event)
    (hv : Runs.Along step Valid (start manager created) es) : Runs.Always step Routed (start manager created) es := by
  have h0 : RoutedTo (start manager created) := by
    refine ⟨fun uuid c hc => ?_, fun mid session hroute => ?_, fun mid session hroute => ?_⟩
    · cases hc
    · cases hroute
    · cases hroute
  exact (Runs.inv_always (fun k e => step_routedTo e) h0 hv).mono fun _ hk => hk.connected

/-- Connecting to a match server, its match, and its loss. -/
theorem routed_always_lost :
    let es := [.addNewConnect 3 9000 5 "10.0.0.5" [], .distibuteMatchesNotify [⟨5, [7]⟩], .removeServiceSession 0]
    Runs.Along step Valid (start .empty 0) es ∧ Runs.Always step Routed (start .empty 0) es := by
  intro es
  have hv : Runs.Along step Valid (start .empty 0) es := by
    refine ⟨fun _ => List.not_mem_nil, ?_, trivial, trivial⟩
    show ∀ service ∈ [(⟨5, [7]⟩ : ServiceMatchDistibuteNotify)], _
    decide
  exact ⟨hv, routed_always .empty 0 es hv⟩

end GSKernel

end AsioUtils.GateWay
