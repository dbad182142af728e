import AsioUtils.CentralServer.Kernel
import AsioUtils.Lib.Runs

/-!
# The sid of a service

A service that connects to the central server registers there without a sid, gets one in the reply, and connects to the
servers the reply lists. The central server lists itself too, with its own sid, and `addNewConnect` takes an endpoint
that is connected already for a service that came back with another sid.

* `CPGToCentralSession.serverRegistRS` : what the service makes of the reply;
* `ServiceKernel.Call` : what else happens to the service's connections;
* `OneCentral`, `OneType` : what holds of all reachable states of the two sides;
* `settles_iff` : the service ends with the sid it was given exactly if no entry of the reply finds its session.
-/

namespace AsioUtils.CPG

open AsioUtils.CentralServer AsioUtils.CentralServer.CSKernel
open Net hiding Packet

/-! ## The service -/

namespace CPGToCentralSession

/-- The call of `addNewConnect` for the `c.2`-th entry of a reply; `orders` has the order of the map after each. -/
def connect (orders : Nat → List (Σ _ : Int32, ServiceConfig)) (k : ServiceKernel) (c : ConnServer × Nat) :
    ServiceKernel :=
  (k.addNewConnect (Int16.ofInt c.1.type) (UInt16.ofInt c.1.port) c.1.sid c.1.ip (orders c.2)).1

/-- What the kernel of the service is after the reply to `session`. -/
def serverRegistRS (k : ServiceKernel) (session : TCPSessionPtr) (rs : ServerRegisterRS)
    (orders : Nat → List (Σ _ : Int32, ServiceConfig)) : ServiceKernel :=
  if rs.result = 0 then Runs.run (connect orders) (k.setLogicID session rs.sid) rs.connServers.zipIdx else k

/-- The entry is for an endpoint whose first connection is that of `session`, so that session gets the entry's sid. -/
def Finds (k : ServiceKernel) (session : TCPSessionPtr) (c : ConnServer) : Prop :=
  c.sid ≠ INVALID_LID ∧
    k.checkConnectService (Int16.ofInt c.type) (UInt16.ofInt c.port) c.ip ≠ INVALID_UUID ∧
    ∃ old, k.connectServices_.lookup (k.checkConnectService (Int16.ofInt c.type) (UInt16.ofInt c.port) c.ip) = some old ∧
      old.session_ = session

end CPGToCentralSession

/-- What goes on in the kernel of a service. `sessions` is anything the session manager does. -/
inductive Call
  | addNewConnect (type : Int16) (port : UInt16) (sid : Int) (ip : String) (order : List (Σ _ : Int32, ServiceConfig))
  | removeServiceSession (uuid : Int32)
  | setLogicID (session : TCPSessionPtr) (sid : Int)
  | sessions (manager : TCPSessionManager)

def Call.step (k : ServiceKernel) : Call → ServiceKernel
  | .addNewConnect type port sid ip order => (k.addNewConnect type port sid ip order).1
  | .removeServiceSession uuid => (k.removeServiceSession uuid).1
  | .setLogicID session sid => k.setLogicID session sid
  | .sessions manager => { k with manager }

/-- `session` was made by the kernel, and its connections are of type `type`. -/
structure OfType (k : ServiceKernel) (session : TCPSessionPtr) (type : Int16) : Prop where
  below : session < k.created
  type : ∀ uuid c, k.connectServices_.lookup uuid = some c → c.session_ = session → c.type = type

/-- A session is that of connections of one type only. -/
def OneType (k : ServiceKernel) : Prop := ∀ uuid c, k.connectServices_.lookup uuid = some c → OfType k c.session_ c.type

section Service

variable {k k' : ServiceKernel}

/-- A new connection is one of another session. -/
theorem OfType.connects {session : TCPSessionPtr} {type : Int16} {config : ServiceConfig} (h : OfType k session type)
    (hk' : ServiceKernel.Connects k k' config) (hsession : config.session_ = k.created) : OfType k' session type := by
  refine ⟨hk'.created ▸ Nat.lt_succ_of_lt h.below, fun uuid c hc hsame => ?_⟩
  rw [hk'.services] at hc
  split_ifs at hc
  · cases hc
    rw [hsession] at hsame
    exact absurd h.below (hsame ▸ Nat.lt_irrefl _)
  · exact h.type uuid c hc hsame

theorem OfType.renames {session : TCPSessionPtr} {type : Int16} {uuid : Int32} {old : ServiceConfig} {sid : Int}
    (h : OfType k session type) (hk' : ServiceKernel.Renames k k' uuid old sid)
    (hold : k.connectServices_.lookup uuid = some old) : OfType k' session type := by
  refine ⟨hk'.created ▸ h.below, fun u c hc hsame => ?_⟩
  rw [hk'.services] at hc
  split_ifs at hc
  · cases hc
    exact h.type uuid old hold hsame
  · exact h.type u c hc hsame

theorem OfType.addNewConnect {session : TCPSessionPtr} {t : Int16} (h : OfType k session t) (type : Int16) (port : UInt16)
    (sid : Int) (ip : String) (order : List (Σ _ : Int32, ServiceConfig)) :
    OfType (k.addNewConnect type port sid ip order).1 session t := by
  rcases k.addNewConnect_cases type port sid ip order with ⟨-, k', heq, hk'⟩ | ⟨-, old, hold, -, k', heq, hk'⟩
  · rw [heq]
    exact h.connects hk' rfl
  · rw [heq]
    exact h.renames hk' hold

theorem OneType.addNewConnect (h : OneType k) (type : Int16) (port : UInt16) (sid : Int) (ip : String)
    (order : List (Σ _ : Int32, ServiceConfig)) : OneType (k.addNewConnect type port sid ip order).1 := by
  rcases k.addNewConnect_cases type port sid ip order with ⟨-, k', heq, hk'⟩ | ⟨-, old, hold, -, k', heq, hk'⟩
  · rw [heq]
    intro uuid c hc
    rw [hk'.services] at hc
    split_ifs at hc
    · cases hc
      refine ⟨hk'.created ▸ Nat.lt_succ_self _, fun u c' hc' hsame => ?_⟩
      rw [hk'.services] at hc'
      split_ifs at hc'
      · cases hc'
        rfl
      · exact absurd (h u c' hc').below (hsame ▸ Nat.lt_irrefl _)
    · exact (h uuid c hc).connects hk' rfl
  · rw [heq]
    intro u c hc
    have hofType : OfType k c.session_ c.type := by
      rw [hk'.services] at hc
      split_ifs at hc
      · cases hc
        exact h _ old hold
      · exact h u c hc
    exact hofType.renames hk' hold

theorem OneType.removeServiceSession (h : OneType k) (uuid : Int32) : OneType (k.removeServiceSession uuid).1 := by
  unfold ServiceKernel.removeServiceSession
  cases hfind : k.connectServices_.lookup uuid with
  | none => exact h
  | some config =>
    have hlookup : ∀ {u c}, (k.connectServices_.erase uuid).lookup u = some c → k.connectServices_.lookup u = some c :=
      fun hc => (UnorderedMap.lookup_erase_eq_some.mp hc).2
    intro u c hc
    obtain ⟨hbelow, htype⟩ := h u c (hlookup hc)
    exact ⟨hbelow, fun u' c' hc' => htype u' c' (hlookup hc')⟩

end Service

theorem step_oneType {k : ServiceKernel} (call : Call) (h : OneType k) : OneType (Call.step k call) := by
  cases call with
  | addNewConnect type port sid ip order => exact h.addNewConnect type port sid ip order
  | removeServiceSession uuid => exact h.removeServiceSession uuid
  | setLogicID session sid => exact fun uuid c hc => ⟨(h uuid c hc).below, (h uuid c hc).type⟩
  | sessions manager => exact fun uuid c hc => ⟨(h uuid c hc).below, (h uuid c hc).type⟩

/-- What calls make of a kernel without connections. -/
theorem oneType_run (manager : TCPSessionManager) (created : TCPSessionPtr) (calls : List Call) :
    OneType (Runs.run Call.step { manager, created } calls) := by
  have h0 : OneType { manager, created } := fun uuid c hc => by cases hc
  exact Runs.inv_run (q := OneType) (fun k call => step_oneType call) h0 calls

/-! ## The central server -/

/-- An entry of a reply: that of the central server, or one of another type. -/
def Listed (c : ConnServer) : Prop :=
  (c.type = ServerType.CentralServer.toInt ∧ c.sid = kCentralSid) ∨
    (0 ≤ c.type ∧ c.type < ServerType.CentralServer.toInt)

/-- Nobody but the central server has its type or its sid. -/
structure OneCentral (k : CSKernel) : Prop where
  service : ∀ key info, k.servers_.lookup key = some (some info) →
    (info.type = ServerType.CentralServer.toInt ∧ info.sid = kCentralSid) ∨
      (0 ≤ info.type ∧ info.type < ServerType.CentralServer.toInt)
  session : ∀ p, p < k.created → k.typeOf p < ServerType.CentralServer.toInt ∧ k.uuidOf p < kCentralSid

section Central

variable {k k' : CSKernel}

theorem OneCentral.congr (h : OneCentral k) (hmanager : k'.manager = k.manager) (hcreated : k'.created = k.created)
    (hservers : ∀ key info, k'.servers_.lookup key = some (some info) →
      k.servers_.lookup key = some (some info) ∨ (0 ≤ info.type ∧ info.type < ServerType.CentralServer.toInt)) :
    OneCentral k' := by
  refine ⟨fun key info hkey => ?_, fun p hp => ?_⟩
  · rcases hservers key info hkey with hold | hnew
    · exact h.service key info hold
    · exact .inr hnew
  · rw [typeOf, uuidOf, hmanager]
    exact h.session p (hcreated ▸ hp)

theorem OneCentral.newSession (h : OneCentral k) {type : ServerType} (haccepts : accepts type = true) :
    OneCentral (k.newSession type) := by
  refine ⟨h.service, fun p hp => ?_⟩
  rcases Nat.lt_succ_iff_lt_or_eq.mp hp with hp | rfl
  · rw [typeOf, uuidOf, (newSession_other type hp).1]
    exact h.session p hp
  · refine ⟨?_, ?_⟩
    · rw [newSession_typeOf]
      revert haccepts
      cases type <;> decide
    · -- a uuid is the index of a slot, or invalid
      show ((k.manager.newSession k.created (UInt8.ofNat type.toInt.toNat)).sessions k.created).uuid_.toInt < kCentralSid
      rcases (k.manager.newSession_adds k.created (UInt8.ofNat type.toInt.toNat)).slot with
        ⟨-, huuid⟩ | ⟨index, hindex, huuid, -⟩
      · rw [huuid]
        decide
      · rw [huuid, toInt_toInt32 hindex, kCentralSid]
        have hmax : OB_MAX = 10000 := rfl
        omega

theorem OneCentral.getService (h : OneCentral k) (sid : Int) : OneCentral (k.getService sid).1 := by
  refine h.congr rfl rfl fun key info hkey => ?_
  rw [show (k.getService sid).1.servers_ = UnorderedMap.touch k.servers_ sid (some {}) from rfl,
    UnorderedMap.lookup_touch] at hkey
  split_ifs at hkey with hsame
  · rcases hold : k.servers_.lookup sid with _ | v
    · rw [hold] at hkey
      cases hkey
      exact .inr (by decide)
    · rw [hold] at hkey
      exact .inl (hsame ▸ hold.trans hkey)
  · exact .inl hkey

theorem OneCentral.sendAllMatches (h : OneCentral k) {pairs : List (Int × List Int)} {sent : List (List Packet)}
    (heq : k.sendAllMatches pairs = some (k', sent)) : OneCentral k' := by
  induction pairs generalizing k sent with
  | nil =>
    cases heq
    exact h
  | cons pair pairs ih =>
    rw [CSKernel.sendAllMatches] at heq
    obtain ⟨⟨k₁, sent₁⟩, h₁, hrest⟩ := Option.bind_eq_some_iff.mp heq
    obtain ⟨⟨k₂, sent₂⟩, h₂, heq⟩ := Option.map_eq_some_iff.mp hrest
    obtain rfl : k₂ = k' := (Prod.mk.inj heq).1
    exact ih (sendMatches_eq h₁ ▸ h.getService pair.1) h₂

theorem OneCentral.callback (h : OneCentral k) {m : CSMatchManager} {changed : Option ChangedMatchMap}
    {sent : List Packet} (heq : k.callback m changed = some (k', sent)) : OneCentral k' := by
  have hm : OneCentral (k.setMatches m) := h.congr rfl rfl fun _ _ => .inl
  cases changed with
  | none =>
    cases heq
    exact hm
  | some map =>
    obtain ⟨r, hr, heq⟩ := Option.map_eq_some_iff.mp heq
    obtain ⟨⟨k₁, sent₁⟩, h₁, hr⟩ := Option.map_eq_some_iff.mp hr
    cases hr
    cases heq
    exact hm.sendAllMatches h₁

theorem OneCentral.serverRegistRQ (h : OneCentral k) {now : Int} {session : TCPSessionPtr} {rq : ServerRegisterRQ}
    {order : List (Σ _ : Int, Option ServerInfo)} {sent : List Packet} (hopen : k.Open session)
    (heq : k.serverRegistRQ now session (some rq) order = some (k', sent)) : OneCentral k' := by
  obtain ⟨k₁, key, info, rs, -, henters, hcase, -, -, rfl⟩ := serverRegistRQ_some heq
  have htype : info.type = k.typeOf session := by
    rcases hcase with ⟨old, -, -, -, rfl, -⟩ | ⟨-, rfl, -⟩ <;> rfl
  refine h.congr henters.manager henters.created fun j x hj => ?_
  rcases henters.entry hj with ⟨-, rfl⟩ | ⟨-, hold⟩
  · rw [htype]
    exact .inr ⟨Int.natCast_nonneg _, (h.session session hopen.1).1⟩
  · exact .inl hold

theorem OneCentral.onClose (h : OneCentral k) {now : Int} {session : TCPSessionPtr}
    (heq : k.onClose now session = some k') : OneCentral k' := by
  obtain ⟨-, hcreated, -, -⟩ := onClose_some heq
  refine ⟨fun key info hkey => h.service key info ((onClose_lookup heq).mp hkey).2, fun p hp => ?_⟩
  rw [onClose_typeOf heq, onClose_uuidOf heq]
  exact h.session p (hcreated ▸ hp)

theorem step_oneCentral (s : Option CSKernel) (e : Event) (hs : OrCrashed OneCentral s) :
    OrCrashed OneCentral (CSKernel.step s e) := by
  intro k' hk'
  cases s with
  | none => cases hk'
  | some k =>
    have h := hs k rfl
    obtain ⟨sent, hhandled⟩ := mem_step hk'
    cases hhandled with
    | idle => exact h
    | newSession haccepts => exact h.newSession haccepts
    | serverRegistRQ hopen heq => exact h.serverRegistRQ hopen heq
    | checkMatchDistributeRQ _ _ => exact h.congr rfl rfl fun _ _ => .inl
    | onClose _ heq => exact h.onClose heq
    | updateDistMatchServices heq => exact h.callback heq
    | cancelMatch heq => exact h.callback heq
    | createdMatches => exact h.congr rfl rfl fun _ _ => .inl

/-- Every state the central server reaches. -/
theorem oneCentral_run (manager : TCPSessionManager) (matches_ : CSMatchManager)
    (listenInfos : List ServerInfo.Listener) (now : Int) (es : List Event) :
    OrCrashed OneCentral (Runs.run CSKernel.step (some (start manager matches_ listenInfos now)) es) := by
  have h0 : OrCrashed OneCentral (some (start manager matches_ listenInfos now)) := by
    intro k hk
    cases hk
    refine ⟨fun key info hkey => ?_, fun p hp => absurd hp (Nat.not_lt_zero p)⟩
    obtain ⟨-, central, heq, hsid, htype, -⟩ := lookup_start hkey
    cases heq
    exact .inl ⟨htype, hsid⟩
  exact Runs.inv_run step_oneCentral h0 es

/-- The type and the sid of an entry of a reply are those of a service. -/
theorem OneCentral.listed (h : OneCentral k) {session : TCPSessionPtr} {connectTypes : List Int} {c : ConnServer}
    (hc : c ∈ connectTypes.flatMap fun type =>
      k.servers_.entries.flatMap fun e => e.2.elim [] (connServers (k.typeOf session) type)) :
    Listed c := by
  obtain ⟨type, -, hc⟩ := List.mem_flatMap.mp hc
  obtain ⟨⟨key, entry⟩, hentry, hc⟩ := List.mem_flatMap.mp hc
  cases entry with
  | none => cases hc
  | some x =>
    have hx := h.service key x (AList.mem_lookup_iff.mpr hentry)
    change c ∈ connServers (k.typeOf session) type x at hc
    unfold connServers at hc
    split_ifs at hc with htype
    · obtain ⟨l, -, rfl⟩ := List.mem_map.mp hc
      exact htype ▸ hx
    · cases hc

end Central

/-! ## The two sides -/

/-- The `logicID` of the service's session is the sid of the service the central server has entered for `p`. -/
def Settles (k : CSKernel) (p : TCPSessionPtr) (service : ServiceKernel) (session : TCPSessionPtr) : Prop :=
  ∃ info, k.servers_.lookup (toUnsigned (k.logicID_ p)) = some (some info) ∧ service.logicID_ session = info.sid

/-- What a first registration makes of the registry, and the reply to it. -/
theorem first_reply {k k' : CSKernel} {now : Int} {p : TCPSessionPtr} {rq : ServerRegisterRQ}
    {order : List (Σ _ : Int, Option ServerInfo)} {sent : List CentralServer.Packet} {rs : ServerRegisterRS}
    (hfirst : rq.sid = INVALID_LID) (hrq : k.serverRegistRQ now p (some rq) order = some (k', sent))
    (hrs : ⟨p, .serverRegistRS rs⟩ ∈ sent) :
    (∃ info, k'.servers_.lookup (toUnsigned (k'.logicID_ p)) = some (some info) ∧ info.sid = rs.sid) ∧
      rs = ⟨0, k.uuidOf p, rq.connectTypes.flatMap fun type =>
        k'.servers_.entries.flatMap fun e => e.2.elim [] (connServers (k'.typeOf p) type)⟩ := by
  obtain ⟨k₁, key, info, packets, -, henters, hcase, hpackets, ⟨toGate, rfl, hgate⟩, rfl⟩ := serverRegistRQ_some hrq
  rcases hcase with ⟨-, -, hr, -⟩ | ⟨rfl, rfl, -, hid⟩
  · exact absurd hfirst hr.1
  · rw [serverRegistRS_eq (noNull_of_serverRegistRS hpackets)] at hpackets
    obtain rfl := Option.some.inj hpackets
    -- no other packet is a reply
    have hreply : rs = ⟨0, k.uuidOf p, rq.connectTypes.flatMap fun type =>
        k₁.servers_.entries.flatMap fun e => e.2.elim [] (connServers (k₁.typeOf p) type)⟩ := by
      rcases List.mem_append.mp hrs with hrs | hrs
      · rcases List.mem_cons.mp hrs with heq | hrs
        · exact Msg.serverRegistRS.inj (CentralServer.Packet.mk.inj heq).2
        · obtain ⟨l, -, hrs⟩ := List.mem_flatMap.mp hrs
          obtain ⟨q, -, heq⟩ := List.mem_map.mp hrs
          cases (CentralServer.Packet.mk.inj heq).2
      · obtain ⟨notify, heq⟩ := hgate _ hrs
        cases heq
    have hlogicID : k₁.logicID_ p = k.uuidOf p := by
      rw [hid]
      exact if_pos rfl
    refine ⟨⟨k.stamp now p (k.newInfo p rq), ?_, by rw [hreply]; rfl⟩, hreply⟩
    show k₁.servers_.lookup (toUnsigned (k₁.logicID_ p)) = _
    rw [hlogicID]
    exact henters.at_key

namespace CPGToCentralSession

variable {orders : Nat → List (Σ _ : Int32, ServiceConfig)} {k : ServiceKernel} {session : TCPSessionPtr} {type : Int16}

/-- An entry that finds the session writes its sid to it. -/
theorem logicID_connect_of_finds {c : ConnServer × Nat} (h : Finds k session c.1) :
    (connect orders k c).logicID_ session = c.1.sid := by
  obtain ⟨hsid, hkey, old, hold, hsession⟩ := h
  rcases k.addNewConnect_cases (Int16.ofInt c.1.type) (UInt16.ofInt c.1.port) c.1.sid c.1.ip (orders c.2) with
    ⟨hnew, -⟩ | ⟨-, old', hold', -, k', heq, hk'⟩
  · rcases hnew with hnew | hnew
    · exact absurd hnew hkey
    · exact absurd hnew hsid
  · obtain rfl := Option.some.inj (hold.symm.trans hold')
    rw [connect, heq, hk'.logicID, hsession]
    exact if_pos rfl

/-- Other entries do not write to it. -/
theorem logicID_connect_of_not_finds (h : OfType k session type) {c : ConnServer × Nat} (hfinds : ¬ Finds k session c.1) :
    (connect orders k c).logicID_ session = k.logicID_ session := by
  rcases k.addNewConnect_cases (Int16.ofInt c.1.type) (UInt16.ofInt c.1.port) c.1.sid c.1.ip (orders c.2) with
    ⟨-, k', heq, hk'⟩ | ⟨⟨hkey, hsid⟩, old, hold, -, k', heq, hk'⟩
  · rw [connect, heq, hk'.logicID]
    exact if_neg (Nat.ne_of_lt h.below)
  · have hother : session ≠ old.session_ := fun hsame => hfinds ⟨hsid, hkey, old, hold, hsame.symm⟩
    rw [connect, heq, hk'.logicID]
    exact if_neg hother

/-- An entry for the type of the central server is that of the central server. -/
theorem sid_of_listed {c : ConnServer} (hc : Listed c)
    (htype : Int16.ofInt c.type = Int16.ofInt ServerType.CentralServer.toInt) : c.sid = kCentralSid := by
  rcases hc with ⟨-, hsid⟩ | ⟨hnonneg, hlt⟩
  · exact hsid
  · have hcentral := congrArg Int16.toInt htype
    have hfive : ServerType.CentralServer.toInt = 5 := rfl
    have hsize : Int16.size = 65536 := rfl
    rw [Int16.toInt_ofInt, Int16.toInt_ofInt, hsize, Int.bmod_def, Int.bmod_def] at hcentral
    omega

/-- An entry that finds a connection to the central server is that of the central server. -/
theorem Finds.sid_eq (h : OfType k session (Int16.ofInt ServerType.CentralServer.toInt)) {c : ConnServer}
    (hfinds : Finds k session c) (hc : Listed c) : c.sid = kCentralSid := by
  obtain ⟨-, hkey, old, hold, hsession⟩ := hfinds
  obtain ⟨old', hold', hat⟩ := ServiceKernel.checkConnectService_spec hkey
  obtain rfl := Option.some.inj (hold.symm.trans hold')
  have htype : old.type = Int16.ofInt c.type := by
    simp only [ServiceConfig.isAt, Bool.and_eq_true, decide_eq_true_eq] at hat
    exact hat.1.1
  exact sid_of_listed hc (htype.symm.trans (h.type _ old hold hsession))

/-- The entries of a reply leave the session its sid exactly if none of them finds it; else it ends with the sid of the
central server. -/
theorem logicID_run (orders : Nat → List (Σ _ : Int32, ServiceConfig)) (cs : List (ConnServer × Nat))
    (h : OfType k session (Int16.ofInt ServerType.CentralServer.toInt))
    (hcs : ∀ c ∈ cs, Listed c.1) :
    (Runs.Along (connect orders) (fun k c => ¬ Finds k session c.1) k cs →
      (Runs.run (connect orders) k cs).logicID_ session = k.logicID_ session) ∧
    (¬ Runs.Along (connect orders) (fun k c => ¬ Finds k session c.1) k cs ∨ k.logicID_ session = kCentralSid →
      (Runs.run (connect orders) k cs).logicID_ session = kCentralSid) := by
  induction cs generalizing k with
  | nil => exact ⟨fun _ => rfl, fun hor => hor.resolve_left (not_not_intro trivial)⟩
  | cons c cs ih =>
    have hnext : OfType (connect orders k c) session (Int16.ofInt ServerType.CentralServer.toInt) := h.addNewConnect _ _ _ _ _
    obtain ⟨hkeep, hclobber⟩ := ih hnext fun c' hc' => hcs c' (List.mem_cons_of_mem _ hc')
    rw [Runs.run_cons]
    by_cases hfinds : Finds k session c.1
    · have hcentral : (connect orders k c).logicID_ session = kCentralSid := by
        rw [logicID_connect_of_finds hfinds]
        exact hfinds.sid_eq h (hcs c List.mem_cons_self)
      exact ⟨fun halong => absurd hfinds halong.1, fun _ => hclobber (.inr hcentral)⟩
    · have hsame : (connect orders k c).logicID_ session = k.logicID_ session := logicID_connect_of_not_finds h hfinds
      rw [hsame] at hkeep hclobber
      exact ⟨fun halong => hkeep halong.2, fun hor => hclobber (hor.imp_left fun hnot halong => hnot ⟨hfinds, halong⟩)⟩

end CPGToCentralSession

/-- **A service that registers for the first time ends with the sid it was given exactly if no entry of the reply finds
its session for its endpoint.** -/
theorem settles_iff {manager : TCPSessionManager} {matches_ : CSMatchManager} {listenInfos : List ServerInfo.Listener}
    {now : Int} {es : List Event} {k k' : CSKernel} {p : TCPSessionPtr} {rq : ServerRegisterRQ} {now' : Int}
    {order : List (Σ _ : Int, Option ServerInfo)} {sent : List CentralServer.Packet} {rs : ServerRegisterRS}
    {manager' : TCPSessionManager} {created : TCPSessionPtr} {calls : List Call} {service : ServiceKernel} {uuid : Int32}
    {config : ServiceConfig}
    (hk : k ∈ Runs.run CSKernel.step (some (start manager matches_ listenInfos now)) es) (hopen : k.Open p)
    (hfirst : rq.sid = INVALID_LID) (hrq : k.serverRegistRQ now' p (some rq) order = some (k', sent))
    (hrs : ⟨p, .serverRegistRS rs⟩ ∈ sent)
    (hservice : service = Runs.run Call.step { manager := manager', created } calls)
    (hconnection : service.connectServices_.lookup uuid = some config)
    (htype : config.type = Int16.ofInt ServerType.CentralServer.toInt)
    (orders : Nat → List (Σ _ : Int32, ServiceConfig)) :
    Settles k' p (CPGToCentralSession.serverRegistRS service config.session_ rs orders) config.session_ ↔
      Runs.Along (CPGToCentralSession.connect orders) (fun k c => ¬ CPGToCentralSession.Finds k config.session_ c.1)
        (service.setLogicID config.session_ rs.sid) rs.connServers.zipIdx := by
  have hone : OneCentral k := oneCentral_run manager matches_ listenInfos now es k hk
  obtain ⟨⟨info, hinfo, hsid⟩, hreply⟩ := first_reply hfirst hrq hrs
  have hother : rs.sid ≠ kCentralSid := by
    rw [hreply]
    exact Int.ne_of_lt (hone.session p hopen.1).2
  have hresult : rs.result = 0 := by rw [hreply]
  have hofType : OfType service config.session_ (Int16.ofInt ServerType.CentralServer.toInt) :=
    htype ▸ hservice ▸ oneType_run manager' created calls uuid config (hservice ▸ hconnection)
  have hlist : ∀ c ∈ rs.connServers.zipIdx, Listed c.1 :=
    fun c hc => (hone.serverRegistRQ hopen hrq).listed (hreply ▸ List.fst_mem_of_mem_zipIdx hc)
  obtain ⟨hkeep, hclobber⟩ := CPGToCentralSession.logicID_run orders rs.connServers.zipIdx
    (show OfType (service.setLogicID config.session_ rs.sid) config.session_ _ from ⟨hofType.below, hofType.type⟩) hlist
  have hset : (service.setLogicID config.session_ rs.sid).logicID_ config.session_ = rs.sid := if_pos rfl
  rw [hset] at hkeep hclobber
  unfold Settles CPGToCentralSession.serverRegistRS
  rw [if_pos hresult, hinfo]
  constructor
  · rintro ⟨_, heq, hsettled⟩
    cases heq
    by_contra halong
    exact hother (by rw [← hsid, ← hsettled, hclobber (.inl halong)])
  · intro halong
    exact ⟨info, rfl, (hkeep halong).trans hsid.symm⟩

/-- A central server that listens for gate servers, and its first session. -/
def sampleCentral : CSKernel := (start .empty (.initialized 0 .empty) [⟨1, 7000, "10.0.0.1"⟩] 0).newSession .GateServer

def sampleRQ : ServerRegisterRQ := ⟨-1, [5], []⟩

/-- The gate server at the other end of that session. -/
def sampleGate : ServiceKernel := Runs.run Call.step { manager := .empty } [.addNewConnect 5 7000 (-1) "10.0.0.1" []]

def sampleRS : ServerRegisterRS := ⟨0, 0, [⟨5, 7000, 100000000, "10.0.0.1"⟩]⟩

theorem sampleRQ_reply : ∃ k' sent, sampleCentral.serverRegistRQ 1 0 (some sampleRQ) [] = some (k', sent) ∧
    ⟨0, .serverRegistRS sampleRS⟩ ∈ sent := ⟨_, _, rfl, List.mem_cons_self⟩

theorem settles_iff_gate : ∃ k' sent, sampleCentral.serverRegistRQ 1 0 (some sampleRQ) [] = some (k', sent) ∧
    (Settles k' 0 (CPGToCentralSession.serverRegistRS sampleGate 0 sampleRS fun _ => []) 0 ↔
      Runs.Along (CPGToCentralSession.connect fun _ => []) (fun k c => ¬ CPGToCentralSession.Finds k 0 c.1)
        (sampleGate.setLogicID 0 0) sampleRS.connServers.zipIdx) := by
  obtain ⟨k', sent, hrq, hrs⟩ := sampleRQ_reply
  have hk : sampleCentral ∈ Runs.run CSKernel.step (some (start .empty (.initialized 0 .empty)
      [⟨1, 7000, "10.0.0.1"⟩] 0)) [.newSession .GateServer] := rfl
  have hconnection : sampleGate.connectServices_.lookup 0 = some ⟨5, 7000, -1, "10.0.0.1", 0⟩ := rfl
  have hservice : sampleGate =
      Runs.run Call.step { manager := .empty, created := 0 } [.addNewConnect 5 7000 (-1) "10.0.0.1" []] := rfl
  exact ⟨k', sent, hrq, settles_iff hk (by decide) rfl hrq hrs hservice hconnection rfl _⟩

/-- The gate server is given sid 0 and takes that of the central server. -/
theorem sampleGate_clobbered : ∃ k' sent, sampleCentral.serverRegistRQ 1 0 (some sampleRQ) [] = some (k', sent) ∧
    ⟨0, .serverRegistRS sampleRS⟩ ∈ sent ∧
    ¬ Settles k' 0 (CPGToCentralSession.serverRegistRS sampleGate 0 sampleRS fun _ => []) 0 := by
  obtain ⟨k', sent, hrq, hrs⟩ := sampleRQ_reply
  refine ⟨k', sent, hrq, hrs, fun ⟨info, hinfo, hsettled⟩ => ?_⟩
  obtain ⟨⟨info', hinfo', hsid⟩, -⟩ := first_reply rfl hrq hrs
  cases hinfo.symm.trans hinfo'
  have hclobbered : (CPGToCentralSession.serverRegistRS sampleGate 0 sampleRS fun _ => []).logicID_ 0 = 100000000 := by
    decide
  rw [hclobbered, hsid] at hsettled
  cases hsettled

/-! ## One connection to the central server -/

/-- The connection under `uuid`, that of `session`, is the only one to its endpoint. -/
structure Only (k : ServiceKernel) (uuid : Int32) (session : TCPSessionPtr) (type : Int16) (port : UInt16) (ip : String) :
    Prop where
  entry : ∃ c, k.connectServices_.lookup uuid = some c ∧ c.session_ = session ∧ c.isAt type port ip = true
  only : ∀ u c, k.connectServices_.lookup u = some c → c.isAt type port ip = true → u = uuid

namespace CPGToCentralSession

variable {orders : Nat → List (Σ _ : Int32, ServiceConfig)} {k : ServiceKernel} {uuid : Int32} {session : TCPSessionPtr}
  {type : Int16} {port : UInt16} {ip : String}

/-- The scan ends at the only connection. -/
theorem checkConnectService_only (h : Only k uuid session type port ip) : k.checkConnectService type port ip = uuid := by
  obtain ⟨config, hconfig, -, hat⟩ := h.entry
  unfold ServiceKernel.checkConnectService
  cases hfind : k.connectServices_.entries.find? fun e => e.2.isAt type port ip with
  | none =>
    have hnot := List.find?_eq_none.mp hfind ⟨uuid, config⟩ (ServiceKernel.mem_entries.mpr hconfig)
    exact absurd hat hnot
  | some e =>
    have hate := List.find?_some hfind
    exact h.only e.1 e.2 (ServiceKernel.mem_entries.mp (List.mem_of_find?_eq_some hfind)) hate

theorem finds_of_only {c : ConnServer} (h : Only k uuid session (Int16.ofInt c.type) (UInt16.ofInt c.port) c.ip)
    (huuid : uuid ≠ INVALID_UUID) (hsid : c.sid ≠ INVALID_LID) : Finds k session c := by
  obtain ⟨config, hconfig, hsession, -⟩ := h.entry
  have hkey := checkConnectService_only h
  exact ⟨hsid, hkey ▸ huuid, config, hkey ▸ hconfig, hsession⟩

/-- The only connection stays the only one, unless it is found. -/
theorem Only.connect (h : Only k uuid session type port ip) (huuid : uuid ≠ INVALID_UUID) {c : ConnServer × Nat}
    (hfresh : k.newUuid (Int16.ofInt c.1.type) ∉ k.connectServices_)
    (hsid : Int16.ofInt c.1.type = type → c.1.sid ≠ INVALID_LID)
    (hfinds : ¬ Finds k session c.1) : Only (connect orders k c) uuid session type port ip := by
  obtain ⟨config, hconfig, hsession, hat⟩ := h.entry
  rcases k.addNewConnect_cases (Int16.ofInt c.1.type) (UInt16.ofInt c.1.port) c.1.sid c.1.ip (orders c.2) with
    ⟨-, k', heq, hk'⟩ | ⟨⟨hkey, hnew⟩, old, hold, hatold, k', heq, hk'⟩
  · rw [CPGToCentralSession.connect, heq]
    refine ⟨⟨config, ?_, hsession, hat⟩, fun u c' hc' hat' => ?_⟩
    · have hne : uuid ≠ k.newUuid (Int16.ofInt c.1.type) := fun hsame =>
        hfresh (hsame ▸ AList.lookup_isSome.mp (by rw [hconfig]; rfl))
      rw [hk'.services]
      exact (if_neg hne).trans hconfig
    · rw [hk'.services] at hc'
      split_ifs at hc'
      · -- the new connection is to another endpoint
        cases hc'
        simp only [ServiceConfig.isAt, Bool.and_eq_true, decide_eq_true_eq] at hat'
        obtain ⟨⟨rfl, rfl⟩, rfl⟩ := hat'
        exact absurd (finds_of_only h huuid (hsid rfl)) hfinds
      · exact h.only u c' hc' hat'
  · rw [CPGToCentralSession.connect, heq]
    have hne : uuid ≠ k.checkConnectService (Int16.ofInt c.1.type) (UInt16.ofInt c.1.port) c.1.ip := fun hsame => by
      rw [← hsame, hconfig] at hold
      exact hfinds ⟨hnew, hkey, config, hsame ▸ hconfig, hsession⟩
    refine ⟨⟨config, ?_, hsession, hat⟩, fun u c' hc' hat' => ?_⟩
    · rw [hk'.services]
      exact (if_neg hne).trans hconfig
    · rw [hk'.services] at hc'
      split_ifs at hc' with hu
      · cases hc'
        exact h.only u old (hu ▸ hold) hat'
      · exact h.only u c' hc' hat'

/-- An entry for the endpoint of the only connection finds it. -/
theorem not_along_of_only {cs : List (ConnServer × Nat)} (h : Only k uuid session type port ip) (huuid : uuid ≠ INVALID_UUID)
    (hfresh : Runs.Along (connect orders) (fun k c => k.newUuid (Int16.ofInt c.1.type) ∉ k.connectServices_) k cs)
    (hsid : ∀ c ∈ cs, Int16.ofInt c.1.type = type → c.1.sid ≠ INVALID_LID)
    (hmem : ∃ c ∈ cs, Int16.ofInt c.1.type = type ∧ UInt16.ofInt c.1.port = port ∧ c.1.ip = ip) :
    ¬ Runs.Along (connect orders) (fun k c => ¬ Finds k session c.1) k cs := by
  induction cs generalizing k with
  | nil =>
    obtain ⟨c, hc, -⟩ := hmem
    cases hc
  | cons c cs ih =>
    rintro ⟨hfinds, halong⟩
    obtain ⟨c₀, hc₀, htype, hport, hip⟩ := hmem
    rcases List.mem_cons.mp hc₀ with rfl | hc₀
    · subst htype hport hip
      exact hfinds (finds_of_only h huuid (hsid c₀ List.mem_cons_self rfl))
    · have hnext : Only (connect orders k c) uuid session type port ip :=
        Only.connect h huuid hfresh.1 (hsid c List.mem_cons_self) hfinds
      exact ih hnext hfresh.2 (fun c' hc' => hsid c' (List.mem_cons_of_mem _ hc')) ⟨c₀, hc₀, htype, hport, hip⟩ halong

end CPGToCentralSession

/-- With one connection to the central server, to an endpoint that is in the registry, the service never ends with the
sid it was given. -/
theorem clobbered_of_only {manager : TCPSessionManager} {matches_ : CSMatchManager} {listenInfos : List ServerInfo.Listener}
    {now : Int} {es : List Event} {k k' : CSKernel} {p : TCPSessionPtr} {rq : ServerRegisterRQ} {now' : Int}
    {order : List (Σ _ : Int, Option ServerInfo)} {sent : List CentralServer.Packet} {rs : ServerRegisterRS}
    {service : ServiceKernel} {uuid : Int32} {session : TCPSessionPtr} {central : ServerInfo} {l : ServerInfo.Listener}
    (hk : k ∈ Runs.run CSKernel.step (some (start manager matches_ listenInfos now)) es) (hopen : k.Open p)
    (hfirst : rq.sid = INVALID_LID) (hrq : k.serverRegistRQ now' p (some rq) order = some (k', sent))
    (hrs : ⟨p, .serverRegistRS rs⟩ ∈ sent) (hconnect : ServerType.CentralServer.toInt ∈ rq.connectTypes)
    (hcentral : k'.servers_.lookup kCentralSid = some (some central)) (htype : central.type = ServerType.CentralServer.toInt)
    (hl : l ∈ central.listeners) (hlistens : l.type = k'.typeOf p)
    (hofType : OfType service session (Int16.ofInt ServerType.CentralServer.toInt))
    (honly : Only service uuid session (Int16.ofInt ServerType.CentralServer.toInt) (UInt16.ofInt l.port) l.ip)
    (huuid : uuid ≠ INVALID_UUID) (orders : Nat → List (Σ _ : Int32, ServiceConfig))
    (hfresh : Runs.Along (CPGToCentralSession.connect orders)
      (fun k c => k.newUuid (Int16.ofInt c.1.type) ∉ k.connectServices_) (service.setLogicID session rs.sid)
      rs.connServers.zipIdx) :
    (CPGToCentralSession.serverRegistRS service session rs orders).logicID_ session = kCentralSid := by
  have hone : OneCentral k' := (oneCentral_run manager matches_ listenInfos now es k hk).serverRegistRQ hopen hrq
  obtain ⟨-, hreply⟩ := first_reply hfirst hrq hrs
  have hlist : ∀ c ∈ rs.connServers.zipIdx, Listed c.1 :=
    fun c hc => hone.listed (hreply ▸ List.fst_mem_of_mem_zipIdx hc)
  have hofType' : OfType (service.setLogicID session rs.sid) session (Int16.ofInt ServerType.CentralServer.toInt) :=
    ⟨hofType.below, hofType.type⟩
  have hsid : ∀ c ∈ rs.connServers.zipIdx,
      Int16.ofInt c.1.type = Int16.ofInt ServerType.CentralServer.toInt → c.1.sid ≠ INVALID_LID := by
    intro c hc htype
    rw [CPGToCentralSession.sid_of_listed (hlist c hc) htype]
    decide
  have hentry : (⟨central.type, l.port, central.sid, l.ip⟩ : ConnServer) ∈ rs.connServers := by
    rw [hreply]
    exact mem_reply hcentral hl hlistens (htype ▸ hconnect)
  have hmem : ∃ c ∈ rs.connServers.zipIdx, Int16.ofInt c.1.type = Int16.ofInt ServerType.CentralServer.toInt ∧
      UInt16.ofInt c.1.port = UInt16.ofInt l.port ∧ c.1.ip = l.ip := by
    rw [← List.zipIdx_map_fst 0 rs.connServers] at hentry
    obtain ⟨c, hc, heq⟩ := List.mem_map.mp hentry
    exact ⟨c, hc, by rw [heq, htype], by rw [heq], by rw [heq]⟩
  have hnot := CPGToCentralSession.not_along_of_only (k := service.setLogicID session rs.sid)
    ⟨honly.entry, honly.only⟩ huuid hfresh hsid hmem
  unfold CPGToCentralSession.serverRegistRS
  rw [if_pos (show rs.result = 0 by rw [hreply])]
  exact (CPGToCentralSession.logicID_run orders rs.connServers.zipIdx hofType' hlist).2 (.inl hnot)

end AsioUtils.CPG
