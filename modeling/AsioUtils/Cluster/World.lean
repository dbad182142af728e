import AsioUtils.CentralServer.Delivery
import AsioUtils.CentralServer.Notified
import AsioUtils.CentralServer.Sessions

/-!
# The cluster: the central server and what is connected to it

The central server sends on its sessions, each of which keeps the order; at the other end a match server or a gate
handles one message at a time.

* `World` : the central server, the messages on the way, what every match server runs and what every gate was last told;
* `Event`, `step` : an event of the central server, or the next message of a session is handled;
* `settled`, `told` : what the other end of a session comes to when it has handled all that is on the way;
* `Wired`, `handle_wired` : what the central server keeps, as long as it names no service that is gone.
-/

namespace AsioUtils.Cluster

open CPG CentralServer CentralServer.CSMatchManager CentralServer.CSKernel MatchServer
open Net hiding Packet

/-- `inbox`, `servers` and `gates` are by session: what the central server has sent and the other end has not handled,
the match server there, and the distribution the gate there was last told. -/
structure World where
  central : Option CSKernel
  inbox : TCPSessionPtr → List Msg := fun _ => []
  servers : TCPSessionPtr → MSMatchManager
  gates : TCPSessionPtr → Option ServerAllMatchDistributeNotify := fun _ => none

/-- `M2CSession::handlerMsg`, for the messages about matches. -/
def M2CSession.handlerMsg (m : MSMatchManager) : Msg → MSMatchManager
  | .checkMatchDistributeRS rs => MSKernel.checkMatchDistributeRS m rs
  | .matchDistibuteNotify notify => m.updateMatches notify.mid
  | _ => m

/-- `G2CSession::handlerMsg`, for the same: which distribution was handled last. It replaces `matchesDistriMaps_`;
`matchesServices_`, into which it is merged, is in `GateWay.GSKernel`. -/
def G2CSession.handlerMsg (told : Option ServerAllMatchDistributeNotify) : Msg → Option ServerAllMatchDistributeNotify
  | .allMatchDistributeNotify notify => some notify
  | _ => told

/-- The messages for one session. -/
def toSession (p : TCPSessionPtr) (sent : List Packet) : List Msg :=
  (sent.filter fun packet => packet.session = p).map Packet.msg

inductive Event
  | central (e : CSKernel.Event)
  | receives (p : TCPSessionPtr)

namespace World

/-- The central server starts, and `others` runs what will be connected, session by session. -/
def start (others : TCPSessionPtr → MSMatchManager) (k : CSKernel) : World := { central := some k, servers := others }

/-- The central server is `r.1`, and has sent `r.2`. -/
def after (w : World) (r : CSKernel × List Packet) : World :=
  { w with central := some r.1, inbox := fun p => w.inbox p ++ toSession p r.2 }

/-- The other end of `p` handles `msg`. -/
def receive (w : World) (p : TCPSessionPtr) (msg : Msg) (rest : List Msg) : World :=
  { w with
    inbox := fun q => if q = p then rest else w.inbox q
    servers := fun q => if q = p then M2CSession.handlerMsg (w.servers q) msg else w.servers q
    gates := fun q => if q = p then G2CSession.handlerMsg (w.gates q) msg else w.gates q }

def step (w : World) : Event → World
  | .central e => ((w.central.bind fun k => k.handle e).map w.after).getD { w with central := none }
  | .receives p =>
    match w.inbox p with
    | [] => w
    | msg :: rest => w.receive p msg rest

/-- The match server at `p` once it has handled all that is on the way. -/
def settled (w : World) (p : TCPSessionPtr) : MSMatchManager := (w.inbox p).foldl M2CSession.handlerMsg (w.servers p)

/-- The distribution the gate at `p` knows then. -/
def told (w : World) (p : TCPSessionPtr) : Option ServerAllMatchDistributeNotify :=
  (w.inbox p).foldl G2CSession.handlerMsg (w.gates p)

/-! ## What a step does -/

/-- Handling a message changes nothing that is settled. -/
theorem receives_frame (w : World) (p : TCPSessionPtr) : (w.step (.receives p)).central = w.central ∧
    ∀ q, (w.step (.receives p)).settled q = w.settled q ∧ (w.step (.receives p)).told q = w.told q := by
  rw [step]
  rcases hinbox : w.inbox p with _ | ⟨msg, rest⟩
  · exact ⟨rfl, fun q => ⟨rfl, rfl⟩⟩
  · refine ⟨rfl, fun q => ?_⟩
    unfold settled told receive
    dsimp only
    split_ifs with hq
    · rw [hq, hinbox]
      exact ⟨rfl, rfl⟩
    · exact ⟨rfl, rfl⟩

theorem central_step (w : World) (e : CSKernel.Event) : (w.step (.central e)).central = CSKernel.step w.central e := by
  rw [step, CSKernel.step]
  cases w.central with
  | none => rfl
  | some k =>
    rw [Option.bind_some, Option.bind_some]
    cases k.handle e <;> rfl

/-- An event of the central server that it survives. -/
theorem step_central {w : World} {k k' : CSKernel} {e : CSKernel.Event} {sent : List Packet} (hw : w.central = some k)
    (h : k.handle e = some (k', sent)) : w.step (.central e) = w.after (k', sent) := by
  rw [step, hw, Option.bind_some, h]
  rfl

theorem settled_after (w : World) (r : CSKernel × List Packet) (p : TCPSessionPtr) :
    (w.after r).settled p = (toSession p r.2).foldl M2CSession.handlerMsg (w.settled p) := List.foldl_append

theorem told_after (w : World) (r : CSKernel × List Packet) (p : TCPSessionPtr) :
    (w.after r).told p = (toSession p r.2).foldl G2CSession.handlerMsg (w.told p) := List.foldl_append

end World

/-! ## Messages -/

/-- A message that no match server acts on. -/
def Quiet (msg : Msg) : Prop := ∀ m, M2CSession.handlerMsg m msg = m

/-- A message that tells a gate nothing. -/
def Silent (msg : Msg) : Prop := ∀ notify, msg ≠ .allMatchDistributeNotify notify

theorem toSession_append (p : TCPSessionPtr) (sent more : List Packet) :
    toSession p (sent ++ more) = toSession p sent ++ toSession p more := by
  rw [toSession, List.filter_append, List.map_append]
  rfl

theorem mem_toSession {p : TCPSessionPtr} {sent : List Packet} {msg : Msg} :
    msg ∈ toSession p sent ↔ ⟨p, msg⟩ ∈ sent := by
  unfold toSession
  rw [List.mem_map]
  constructor
  · rintro ⟨⟨q, msg⟩, hmem, rfl⟩
    obtain ⟨hin, hq⟩ := List.mem_filter.mp hmem
    obtain rfl : q = p := of_decide_eq_true hq
    exact hin
  · intro hmem
    exact ⟨⟨p, msg⟩, List.mem_filter.mpr ⟨hmem, decide_eq_true rfl⟩, rfl⟩

theorem foldl_quiet {msgs : List Msg} (h : ∀ msg ∈ msgs, Quiet msg) (m : MSMatchManager) :
    msgs.foldl M2CSession.handlerMsg m = m := by
  induction msgs with
  | nil => rfl
  | cons msg msgs ih =>
    obtain ⟨hmsg, hmsgs⟩ := List.forall_mem_cons.mp h
    rw [List.foldl_cons, hmsg, ih hmsgs]

/-- What is sent in a registration. -/
theorem serverRegistRS_quiet {k : CSKernel} {session : TCPSessionPtr} {info : ServerInfo} {rs : List Packet}
    (h : k.serverRegistRS session info = some rs) : ∀ packet ∈ rs, Quiet packet.msg ∧ Silent packet.msg := by
  obtain ⟨conns, -, rfl⟩ := Option.map_eq_some_iff.mp h
  intro packet hpacket
  rcases List.mem_cons.mp hpacket with rfl | hpacket
  · exact ⟨fun _ => rfl, nofun⟩
  · obtain ⟨lis, -, hpacket⟩ := List.mem_flatMap.mp hpacket
    obtain ⟨p, -, rfl⟩ := List.mem_map.mp hpacket
    exact ⟨fun _ => rfl, nofun⟩

theorem mem_send {k : CSKernel} {session : Option TCPSessionPtr} {msg : Msg} {stype : Int} :
    ∀ packet ∈ k.send session msg stype, packet.msg = msg := by
  intro packet hpacket
  obtain ⟨p, -, rfl⟩ := List.mem_map.mp hpacket
  rfl

/-- The distribution for the gates. -/
theorem sendAll_quiet {k : CSKernel} {session : Option TCPSessionPtr} {stype : Int} :
    ∀ packet ∈ k.sendAllDistributeMatchInfos session stype, Quiet packet.msg := by
  intro packet hpacket
  rw [mem_send packet hpacket]
  exact fun _ => rfl

/-- The reply to a client that looks for a gate. -/
theorem requestBestGateServer_msg {k : CSKernel} {session : TCPSessionPtr} {parsed : Bool} {sent : List Packet}
    (h : k.requestBestGateServer session parsed = some sent) :
    ∀ packet ∈ sent, ∃ result port ip, packet.msg = .connectRS result port ip := by
  intro packet hpacket
  unfold requestBestGateServer at h
  split_ifs at h
  · obtain ⟨servers, -, rfl⟩ := Option.map_eq_some_iff.mp h
    revert hpacket
    cases smalleastLoadedGS servers with
    | none => exact fun hpacket => ⟨_, _, _, mem_send packet hpacket⟩
    | some service =>
      dsimp only
      cases service.listeners.find? fun lis => lis.type = ServerType.Client.toInt with
      | none => exact fun hpacket => ⟨_, _, _, mem_send packet hpacket⟩
      | some lis => exact fun hpacket => ⟨_, _, _, mem_send packet hpacket⟩
  · cases h
    exact ⟨_, _, _, mem_send packet hpacket⟩

/-! ## What an event does and sends -/

/-- The central server does not act on the event, whatever it answers. -/
def Dropped (k : CSKernel) : CSKernel.Event → Prop
  | .newSession _ | .requestBestGateServer .. | .onClose .. => True
  | .serverRegistRQ session rq _ _ => k.Open session → rq = none
  | .checkMatchDistributeRQ session rq _ => k.Open session → k.typeOf session = ServerType.MatchServer.toInt → rq = none
  | .createdMatches .. | .updateDistMatchServices _ | .cancelMatch .. => False

/-- `Handled`, with what a dropped event is and what is sent then. -/
inductive Acts (k : CSKernel) : CSKernel.Event → CSKernel → List Packet → Prop
  | dropped {e : CSKernel.Event} {sent : List Packet} : Dropped k e →
      (∀ packet ∈ sent, Quiet packet.msg ∧ Silent packet.msg) → Acts k e k sent
  | newSession {type : ServerType} : accepts type = true → Acts k (.newSession type) (k.newSession type) []
  | serverRegistRQ {session : TCPSessionPtr} {rq : ServerRegisterRQ} {now : Int}
      {order : List (Σ _ : Int, Option ServerInfo)} {k' : CSKernel} {sent : List Packet} : k.Open session →
      k.serverRegistRQ now session (some rq) order = some (k', sent) →
      Acts k (.serverRegistRQ session (some rq) now order) k' sent
  | checkMatchDistributeRQ {session : TCPSessionPtr} {rq : CheckMatchDistributeRQ} {now : Int} {k' : CSKernel}
      {sent : List Packet} : k.Open session → k.typeOf session = ServerType.MatchServer.toInt →
      k.checkMatchDistributeRQ now session (some rq) = (k', sent) →
      Acts k (.checkMatchDistributeRQ session (some rq) now) k' sent
  | onClose {session : TCPSessionPtr} {now : Int} {k' : CSKernel} : k.Open session →
      k.onClose now session = some k' → Acts k (.onClose session now) k' []
  | updateDistMatchServices {now : Int} {k' : CSKernel} {sent : List Packet} :
      k.callback (k.matches_.updateDistMatchServices now).1 (k.matches_.updateDistMatchServices now).2 = some (k', sent) →
      Acts k (.updateDistMatchServices now) k' sent
  | cancelMatch {mid reason : Int} {k' : CSKernel} {sent : List Packet} :
      k.callback (k.matches_.cancelMatch mid reason).manager (k.matches_.cancelMatch mid reason).changed =
        some (k', sent) → Acts k (.cancelMatch mid reason) k' sent
  | createdMatches {ms : List CPGMatchProfile} {now : Int} :
      Acts k (.createdMatches ms now) (k.setMatches (k.matches_.createdMatches now ms)) []

theorem acts {k k' : CSKernel} {e : CSKernel.Event} {sent : List Packet} (h : k.handle e = some (k', sent)) :
    Acts k e k' sent := by
  have hnothing : ∀ packet ∈ ([] : List Packet), Quiet packet.msg ∧ Silent packet.msg := by simp
  cases e with
  | newSession type =>
    rcases ite_eq_iff.mp h with ⟨haccepts, h⟩ | ⟨-, h⟩
    · cases h
      exact .newSession haccepts
    · cases h
      exact .dropped trivial hnothing
  | serverRegistRQ session rq now order =>
    rcases ite_eq_iff.mp h with ⟨hopen, hrq⟩ | ⟨hclosed, h⟩
    · cases rq with
      | none =>
        cases hrq
        refine .dropped (fun _ => rfl) fun packet hpacket => ?_
        rw [mem_send packet hpacket]
        exact ⟨fun _ => rfl, nofun⟩
      | some rq => exact .serverRegistRQ hopen hrq
    · cases h
      exact .dropped (fun hopen => absurd hopen hclosed) hnothing
  | checkMatchDistributeRQ session rq now =>
    rcases ite_eq_iff.mp h with ⟨⟨hopen, htype⟩, hcheck⟩ | ⟨hother, h⟩
    · cases rq with
      | none =>
        cases hcheck
        exact .dropped (fun _ _ => rfl) hnothing
      | some rq => exact .checkMatchDistributeRQ hopen htype (Option.some.inj hcheck)
    · cases h
      exact .dropped (fun hopen htype => absurd ⟨hopen, htype⟩ hother) hnothing
  | requestBestGateServer session parsed =>
    rcases ite_eq_iff.mp h with ⟨-, hrequest⟩ | ⟨-, h⟩
    · obtain ⟨out, hout, heq⟩ := Option.map_eq_some_iff.mp hrequest
      cases heq
      refine .dropped trivial fun packet hpacket => ?_
      obtain ⟨result, port, ip, hmsg⟩ := requestBestGateServer_msg hout packet hpacket
      rw [hmsg]
      exact ⟨fun _ => rfl, nofun⟩
    · cases h
      exact .dropped trivial hnothing
  | onClose session now =>
    rcases ite_eq_iff.mp h with ⟨hopen, hclosed⟩ | ⟨-, h⟩
    · obtain ⟨k₁, hclose, heq⟩ := Option.map_eq_some_iff.mp hclosed
      cases heq
      exact .onClose hopen hclose
    · cases h
      exact .dropped trivial hnothing
  | updateDistMatchServices now => exact .updateDistMatchServices h
  | cancelMatch mid reason => exact .cancelMatch h
  | createdMatches ms now =>
    cases h
    exact .createdMatches

/-! ## What the central server keeps -/

/-- Session `p` is that of a server of this type, under the sid that is its uuid. -/
def RegisteredAs (type : ServerType) (k : CSKernel) (p : TCPSessionPtr) : Prop :=
  k.Open p ∧ k.typeOf p = type.toInt ∧ k.logicID_ p = k.uuidOf p

/-- `Known`, and the sids that have lists are `int`s too. -/
structure KnownKeys (s : CSMatchManager) : Prop extends Known s where
  keys : ∀ sid ∈ s.matchServices_, IsInt sid

/-- Sessions have uuids of their own, every service is that of a session, and the next pass leaves every match server
that is there among the services. -/
structure Wired (k : CSKernel) : Prop where
  pooled : Pooled k
  tied : Tied k
  known : KnownKeys k.matches_
  logicID : ∀ p, k.Open p → k.logicID_ p = INVALID_LID ∨ k.logicID_ p = k.uuidOf p
  served : ∀ p, RegisteredAs .MatchServer k p → WillServe (k.uuidOf p) k.matches_

/-- A new session gets a uuid of its own. -/
def FreshSession (k : CSKernel) : CSKernel.Event → Prop
  | .newSession type => accepts type = true → k.FreshUuid type
  | _ => True

/-- A new session gets a uuid that no open session has (`FreshSession`), every list that is sent is that of a service that
is there (`ReachesAll`), and the central server survives. -/
def Regular (s : Option CSKernel) (e : CSKernel.Event) : Prop :=
  (∀ k ∈ s, FreshSession k e) ∧ ReachesAll s e ∧ (CSKernel.step s e).isSome = true

instance (k : CSKernel) : (e : CSKernel.Event) → Decidable (FreshSession k e)
  | .newSession type => inferInstanceAs (Decidable (accepts type = true → k.FreshUuid type))
  | .serverRegistRQ .. | .checkMatchDistributeRQ .. | .requestBestGateServer .. | .onClose .. | .createdMatches ..
  | .updateDistMatchServices _ | .cancelMatch .. => .isTrue trivial

instance (k : CSKernel) (sid : Int) : Decidable (k.Reaches sid) :=
  decidable_of_iff (∃ session < k.created, (k.Open session ∧ k.logicID_ session = toSigned sid ∧
      (k.servers_.lookup sid).join.isSome = true) ∧
      k.manager.getSession (Int32.ofInt (toSigned sid)) = some (some session)) <| by
    refine exists_congr fun session => ⟨fun h => ⟨⟨h.2.1.1, h.2.1.2.1, ?_⟩, h.2.2⟩,
      fun h => ⟨h.1.1.1, ⟨h.1.1, h.1.2.1, ?_⟩, h.2⟩⟩
    · obtain ⟨info, hinfo⟩ := Option.isSome_iff_exists.mp h.2.1.2.2
      exact ⟨info, Option.join_eq_some_iff.mp hinfo⟩
    · obtain ⟨info, hinfo⟩ := h.1.2.2
      rw [hinfo]
      rfl

instance (s : Option CSKernel) (e : CSKernel.Event) : Decidable (ReachesAll s e) :=
  inferInstanceAs (Decidable (∀ k ∈ s, ∀ c ∈ k.changedMatches e, ∀ pair ∈ c.2.entries, k.Reaches pair.1))

instance (s : Option CSKernel) (e : CSKernel.Event) : Decidable (Regular s e) := inferInstanceAs (Decidable (_ ∧ _ ∧ _))

theorem knownKeys_initialized (now : Int) (stored : MatchMap) : KnownKeys (initialized now stored) :=
  ⟨known_initialized now stored, fun sid hsid => absurd hsid (OrderedMap.not_mem_empty sid)⟩

theorem knownKeys_step {s : CSMatchManager} (h : KnownKeys s) {c : TimedCall} (hint : IntSids c.call) :
    KnownKeys (CSMatchManager.step s c) := by
  refine ⟨known_step h.toKnown hint, fun sid hsid => ?_⟩
  obtain ⟨now, call⟩ := c
  cases call with
  | createdMatches ms => exact h.keys sid hsid
  | addUndistriteMatches mids => exact h.keys sid hsid
  | updateMatchService service => exact h.keys sid hsid
  | removeMatchService service => exact h.keys sid hsid
  | checkServiceDistMap service mids =>
    change sid ∈ (checkServiceDistMap s now service mids).1.matchServices_ at hsid
    cases hf : s.matchServices_.find? service.sid with
    | some e =>
      rw [checkServiceDistMap_known hf] at hsid
      exact h.keys sid (OrderedMap.mem_modify.mp hsid)
    | none =>
      by_cases hm : mids = []
      · rw [hm, checkServiceDistMap_noMatch hf] at hsid
        exact h.keys sid hsid
      · rw [checkServiceDistMap_adopt hf now hm] at hsid
        rcases OrderedMap.mem_assign.mp hsid with heq | hold
        · exact (show sid = service.sid from heq) ▸ hint
        · exact h.keys sid hold
  | cancelMatch mid reason =>
    change sid ∈ (cancelMatch s mid reason).manager.matchServices_ at hsid
    rcases cancelMatch_cases s mid reason with ⟨-, hs⟩ | ⟨-, ms, rfl | ⟨owner, rfl⟩, hs⟩
    · exact h.keys sid (hs ▸ hsid)
    · rw [hs] at hsid
      exact h.keys sid hsid
    · rw [hs] at hsid
      exact h.keys sid (OrderedMap.mem_modify.mp hsid)
  | updateDistMatchServices =>
    by_cases hpass : checkDistMatchServices s now = true
    · exact h.ints sid ((mem_services_pass hpass sid).mp hsid)
    · rcases updateDistMatchServices_cases s now with ⟨hgate, -⟩ | ⟨-, hs⟩
      · exact absurd hgate hpass
      · change sid ∈ (updateDistMatchServices s now).1.matchServices_ at hsid
        rw [hs] at hsid
        exact h.keys sid hsid

section Wired

variable {k k' : CSKernel}

theorem Wired.nonneg (h : Wired k) {p : TCPSessionPtr} (hp : k.Open p) : 0 ≤ k.uuidOf p := by
  rw [h.pooled.uuid hp]
  exact Int.natCast_nonneg _

/-- A `logicID` that is a uuid is that of its own session. -/
theorem Wired.session_eq (h : Wired k) {p q : TCPSessionPtr} (hp : k.Open p) (hq : k.Open q)
    (hid : k.logicID_ p = k.uuidOf q) : p = q := by
  have hnonneg := h.nonneg hq
  rcases h.logicID p hp with hinvalid | huuid
  · rw [← hid, hinvalid] at hnonneg
    exact absurd hnonneg (by decide)
  · exact h.pooled.uuid_inj hp hq (huuid.symm.trans hid)

/-- The sid of a service is an `int`. -/
theorem isInt_of_tied (h : Tied k) {key : Int} (info : ServerInfo) (hkey : k.servers_.lookup key = some (some info)) :
    IsInt info.sid := by
  rcases h.services key info hkey with ⟨-, hsid⟩ | ⟨-, p, -, hsid, -⟩
  · rw [hsid]
    decide
  · rw [← hsid]
    exact isInt_toInt _

theorem isInt_uuidOf (k : CSKernel) (p : TCPSessionPtr) : IsInt (k.uuidOf p) := isInt_toInt _

theorem isInt_logicID (h : Wired k) {p : TCPSessionPtr} (hp : k.Open p) : IsInt (k.logicID_ p) := by
  rcases h.logicID p hp with hid | hid
  · rw [hid]
    exact isInt_invalid
  · rw [hid]
    exact isInt_toInt _

/-- The sessions, their ids and the registry are as before, and every service stays one. -/
theorem Wired.congr (h : Wired k) (hmanager : k'.manager = k.manager) (hcreated : k'.created = k.created)
    (hlogicID : k'.logicID_ = k.logicID_) (hservers : k'.servers_ = k.servers_) (hknown : KnownKeys k'.matches_)
    (hserved : ∀ sid, WillServe sid k.matches_ → WillServe sid k'.matches_) : Wired k' := by
  have hopen := open_congr hmanager hcreated
  refine ⟨h.pooled.congr hmanager hcreated, h.tied.congr hmanager hcreated hlogicID hservers, hknown, fun p hp => ?_,
    fun p hp => ?_⟩
  · rw [hlogicID, uuidOf_congr hmanager]
    exact h.logicID p ((hopen p).mp hp)
  · obtain ⟨hp, htype, hid⟩ := hp
    rw [hlogicID, uuidOf_congr hmanager] at hid
    rw [typeOf_congr hmanager] at htype
    rw [uuidOf_congr hmanager]
    exact hserved _ (h.served p ⟨(hopen p).mp hp, htype, hid⟩)

/-- A call that removes another service, or none, leaves `sid` served. -/
theorem willServe_kept {s : CSMatchManager} (h : AddedNew s) {c : TimedCall} {sid : Int}
    (hother : ∀ service, c.call = .removeMatchService service → service.sid ≠ sid) (hsid : WillServe sid s) :
    WillServe sid (CSMatchManager.step s c) := by
  by_cases hno : NoPass s c
  · refine (willServe_step h hno sid).2.mpr ?_
    cases he : eventOf sid s c with
    | none => exact hsid
    | some e =>
      rintro rfl
      obtain ⟨now, call⟩ := c
      cases call <;> simp only [eventOf, reduceCtorEq] at he
      all_goals split_ifs at he with hcase
      · cases he
      · exact hother _ rfl hcase
      · cases he
  · obtain ⟨now, call⟩ := c
    cases call <;> try exact absurd trivial hno
    have hpass : checkDistMatchServices s now = true := Bool.of_not_eq_false hno
    refine .inl ⟨(mem_services_pass hpass sid).mpr hsid, fun c hc => ?_⟩
    rw [changedServices_pass hpass] at hc
    cases hc

/-- A new session is not registered: its `logicID` is no uuid. -/
theorem newSession_registered (h : Pooled k) {type : ServerType} (hfresh : k.FreshUuid type) {t : ServerType}
    {p : TCPSessionPtr} (hp : RegisteredAs t (k.newSession type) p) :
    RegisteredAs t k p ∧ (k.newSession type).uuidOf p = k.uuidOf p := by
  obtain ⟨hopen, htype, hid⟩ := hp
  rcases Nat.lt_succ_iff_lt_or_eq.mp hopen.1 with hlt | rfl
  · obtain ⟨hsession, hlogicID⟩ := newSession_other type hlt
    have huuid : (k.newSession type).uuidOf p = k.uuidOf p := by rw [uuidOf, hsession, uuidOf]
    rw [hlogicID, huuid] at hid
    rw [typeOf, hsession] at htype
    exact ⟨⟨⟨hlt, hsession ▸ hopen.2⟩, htype, hid⟩, huuid⟩
  · have hnonneg : 0 ≤ (k.newSession type).uuidOf k.created := by
      rw [(newSession_pooled h hfresh).uuid hopen]
      exact Int.natCast_nonneg _
    rw [← hid, show (k.newSession type).logicID_ k.created = INVALID_LID from if_pos rfl] at hnonneg
    exact absurd hnonneg (by decide)

theorem newSession_wired (h : Wired k) {type : ServerType} (haccepts : accepts type = true) (hfresh : k.FreshUuid type) :
    Wired (k.newSession type) := by
  refine ⟨newSession_pooled h.pooled hfresh, newSession_tied h.tied haccepts, h.known, fun p hp => ?_, fun p hp => ?_⟩
  · rcases Nat.lt_succ_iff_lt_or_eq.mp hp.1 with hlt | rfl
    · obtain ⟨hsession, hlogicID⟩ := newSession_other type hlt
      rw [hlogicID, uuidOf, hsession]
      exact h.logicID p ⟨hlt, hsession ▸ hp.2⟩
    · exact .inl (if_pos rfl)
  · obtain ⟨hp, huuid⟩ := newSession_registered h.pooled hfresh hp
    rw [huuid]
    exact h.served p hp

theorem serverRegistRQ_wired (h : Wired k) {now : Int} {session : TCPSessionPtr} {rq : ServerRegisterRQ}
    {order : List (Σ _ : Int, Option ServerInfo)} {sent : List Packet} (hopen : k.Open session)
    (heq : k.serverRegistRQ now session (some rq) order = some (k', sent)) : Wired k' := by
  have htied := serverRegistRQ_tied h.tied hopen heq
  obtain ⟨k₁, key, info, rs, -, henters, hcase, -, -, rfl⟩ := serverRegistRQ_some heq
  have hint : IsInt info.sid := by
    rcases hcase with ⟨old, -, -, hold, rfl, -⟩ | ⟨-, rfl, -, -⟩
    · exact isInt_of_tied h.tied old hold
    · exact isInt_toInt _
  have hid : ∀ p, k₁.logicID_ p = k.logicID_ p ∨ (p = session ∧ k₁.logicID_ p = k.uuidOf session ∧
      info.sid = k.uuidOf session) := fun p => by
    rcases hcase with ⟨-, -, -, -, -, hid⟩ | ⟨-, rfl, -, hid⟩
    · exact .inl (congrFun hid p)
    · rw [hid]
      dsimp only
      split_ifs with hp
      · exact .inr ⟨hp, rfl, rfl⟩
      · exact .inl rfl
  have hopens : ∀ p, k₁.Open p ↔ k.Open p := open_congr henters.manager henters.created
  refine ⟨h.pooled.congr henters.manager henters.created, htied, ?_, fun p hp => ?_, fun p hp => ?_⟩
  · show KnownKeys (if _ then _ else _)
    split_ifs
    · exact knownKeys_step (c := ⟨now, .updateMatchService info⟩) h.known hint
    · exact h.known
  · show k₁.logicID_ p = _ ∨ k₁.logicID_ p = k₁.uuidOf p
    rw [uuidOf_congr henters.manager]
    rcases hid p with hsame | ⟨rfl, hnew, -⟩
    · rw [hsame]
      exact h.logicID p ((hopens p).mp hp)
    · exact .inr hnew
  · obtain ⟨hp, htype, hlogicID⟩ := hp
    change k₁.typeOf p = _ at htype
    change k₁.logicID_ p = k₁.uuidOf p at hlogicID
    rw [uuidOf_congr henters.manager] at hlogicID
    rw [henters.typeOf] at htype
    show WillServe (k₁.uuidOf p) (if _ then _ else _)
    rw [uuidOf_congr henters.manager]
    rcases hid p with hsame | ⟨rfl, -, hsid⟩
    · have hold := h.served p ⟨(hopens p).mp hp, htype, hsame ▸ hlogicID⟩
      split_ifs
      · exact (willServe_update now info _).mpr (.inr hold)
      · exact hold
    · rw [if_pos htype]
      exact (willServe_update now info _).mpr (.inl hsid)

/-- Who is registered after a session has closed was so before. -/
theorem onClose_registered (h : Pooled k) {now : Int} {session : TCPSessionPtr} (hopen : k.Open session)
    (heq : k.onClose now session = some k') {t : ServerType} {p : TCPSessionPtr} (hp : RegisteredAs t k' p) :
    p ≠ session ∧ RegisteredAs t k p := by
  obtain ⟨hmanager, hcreated, hid, -⟩ := onClose_some heq
  obtain ⟨-, hopens⟩ := handClose_pooled h hopen hmanager hcreated
  obtain ⟨hp, htype, hlogicID⟩ := hp
  obtain ⟨hne, hp⟩ := (hopens p).mp hp
  rw [hid, onClose_uuidOf heq] at hlogicID
  rw [onClose_typeOf heq] at htype
  exact ⟨hne, hp, htype, hlogicID⟩

theorem onClose_wired (h : Wired k) {now : Int} {session : TCPSessionPtr} (hopen : k.Open session)
    (heq : k.onClose now session = some k') : Wired k' := by
  have htied := onClose_tied h.tied heq
  obtain ⟨hmanager, hcreated, hid, hcase⟩ := onClose_some heq
  obtain ⟨hpooled, hopens⟩ := handClose_pooled h.pooled hopen hmanager hcreated
  have huuid : ∀ p, k'.uuidOf p = k.uuidOf p := onClose_uuidOf heq
  have hmatches : k'.matches_ = k.matches_ ∨ ∃ info, k.servers_.lookup (toUnsigned (k.logicID_ session)) = some (some info) ∧
      k'.matches_ = k.matches_.removeMatchService now info := by
    rcases hcase with ⟨-, -, hm⟩ | ⟨info, hinfo, -, hm⟩
    · exact .inl hm
    · split_ifs at hm
      · exact .inr ⟨info, hinfo, hm⟩
      · exact .inl hm
  refine ⟨hpooled, htied, ?_, fun p hp => ?_, fun p hp => ?_⟩
  · rcases hmatches with hm | ⟨info, hinfo, hm⟩
    · rw [hm]
      exact h.known
    · rw [hm]
      exact knownKeys_step (c := ⟨now, .removeMatchService info⟩) h.known (isInt_of_tied h.tied info hinfo)
  · rw [hid, huuid]
    exact h.logicID p ((hopens p).mp hp).2
  · obtain ⟨hne, hp, htype, hlogicID⟩ := onClose_registered h.pooled hopen heq hp
    rw [huuid]
    have hold := h.served p ⟨hp, htype, hlogicID⟩
    rcases hmatches with hm | ⟨info, hinfo, hm⟩
    · exact hm ▸ hold
    · rw [hm]
      refine (willServe_remove now info h.known.addedNew _).mpr ⟨fun hsid => ?_, hold⟩
      -- the service that is removed is that of the session that closes
      rcases h.tied.services _ info hinfo with ⟨-, hcentral⟩ | ⟨hkey, -⟩
      · have hbound := (h.pooled.slot p hp).1
        rw [h.pooled.uuid hp, hcentral] at hsid
        have hsize : OB_MAX < 100000000 := by decide
        unfold kCentralSid at hsid
        omega
      · rw [hsid] at hkey
        have hsame := toUnsigned_inj (isInt_uuidOf k p) (isInt_logicID h hopen) hkey
        exact hne (h.session_eq hopen hp hsame.symm).symm

theorem check_wired (h : Wired k) (now : Int) {session : TCPSessionPtr} (hopen : k.Open session)
    (rq : CheckMatchDistributeRQ) : Wired (k.checkMatchDistributeRQ now session (some rq)).1 := by
  have hmatches : (k.checkMatchDistributeRQ now session (some rq)).1 = k.setMatches
      (checkServiceDistMap k.matches_ now ⟨k.logicID_ session, CSMatchLoadedEvaluation.evaluate (k.logicID_ session) rq.mids⟩
        rq.mids).1 := rfl
  rw [hmatches]
  refine h.congr rfl rfl rfl rfl ?_ fun sid hsid => ?_
  · exact knownKeys_step (c := ⟨now, .checkServiceDistMap ⟨k.logicID_ session, _⟩ rq.mids⟩) h.known (isInt_logicID h hopen)
  · exact willServe_kept (c := ⟨now, .checkServiceDistMap ⟨k.logicID_ session, _⟩ rq.mids⟩) h.known.addedNew nofun hsid

/-- A callback that reaches everyone changes the match manager only. -/
theorem callback_wired (h : Wired k) {m : CSMatchManager} {changed : Option ChangedMatchMap} {sent : List Packet}
    (hreach : ∀ map ∈ changed, ∀ pair ∈ map.entries, k.Reaches pair.1) (heq : k.callback m changed = some (k', sent))
    {c : TimedCall} (hint : IntSids c.call) (hm : m = CSMatchManager.step k.matches_ c)
    (hother : ∀ service, c.call ≠ .removeMatchService service) : Wired k' := by
  obtain rfl := callback_of_mem (fun map hmap pair hpair => (hreach map hmap pair hpair).mem) heq
  subst hm
  exact h.congr rfl rfl rfl rfl (knownKeys_step h.known hint) fun sid hsid =>
    willServe_kept h.known.addedNew (fun service hcall => absurd hcall (hother service)) hsid

/-- A regular event keeps the wiring. -/
theorem handle_wired (h : Wired k) {e : CSKernel.Event} (hregular : Regular (some k) e) {sent : List Packet}
    (heq : k.handle e = some (k', sent)) : Wired k' := by
  obtain ⟨hfresh, hreaches, -⟩ := hregular
  have hreach := hreaches k rfl
  cases acts heq with
  | dropped _ _ => exact h
  | newSession haccepts => exact newSession_wired h haccepts (hfresh k rfl haccepts)
  | serverRegistRQ hopen hrq => exact serverRegistRQ_wired h hopen hrq
  | @checkMatchDistributeRQ session rq now _ _ hopen _ hcheck =>
    have hwired := check_wired h now hopen rq
    rwa [hcheck] at hwired
  | onClose hopen hclose => exact onClose_wired h hopen hclose
  | @updateDistMatchServices now _ _ hcall =>
    exact callback_wired h (c := ⟨now, .updateDistMatchServices⟩)
      (fun map hmap => hreach (_, map) (Option.mem_map_of_mem _ hmap)) hcall trivial rfl nofun
  | @cancelMatch mid reason _ _ hcall =>
    exact callback_wired h (c := ⟨0, .cancelMatch mid reason⟩)
      (fun map hmap => hreach (_, map) (Option.mem_map_of_mem _ hmap)) hcall trivial rfl nofun
  | @createdMatches ms now =>
    exact h.congr rfl rfl rfl rfl (knownKeys_step (c := ⟨now, .createdMatches ms⟩) h.known trivial) fun sid hsid =>
      willServe_kept (c := ⟨now, .createdMatches ms⟩) h.known.addedNew nofun hsid

end Wired

theorem start_wired (now : Int) (stored : MatchMap) (listenInfos : List ServerInfo.Listener) :
    Wired (.start .empty (.initialized now stored) listenInfos now) :=
  ⟨start_pooled _ listenInfos now, start_tied .empty _ listenInfos now, knownKeys_initialized now stored,
    fun p hp => absurd hp.1 (Nat.not_lt_zero p), fun p hp => absurd hp.1.1 (Nat.not_lt_zero p)⟩

end AsioUtils.Cluster
