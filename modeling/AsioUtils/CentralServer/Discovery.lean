import AsioUtils.CentralServer.Registry
import AsioUtils.CentralServer.Sessions

/-!
# Who is told about whom

A server that registers is told the servers that listen to its type, and what it listens to is told to all sessions of
that type. Between the two, everyone is to know whom to connect to, whoever comes first.

* `World`, `step` : the kernel and everything it has sent;
* `Discovered` : every registered server has been sent the endpoints of the servers it connects to;
* `discovered_always` : so it is after every run of first registrations and closes.
-/

namespace AsioUtils.CentralServer.Discovery

open CPG Net AsioUtils.CentralServer.CSKernel

/-- The kernel, `none` once it has crashed, and the packets sent so far. -/
structure World where
  kernel : Option CSKernel
  sent : List Packet

def step (w : World) (e : Event) : World :=
  let r := w.kernel.bind fun k => k.handle e
  ⟨r.map Prod.fst, w.sent ++ r.elim [] Prod.snd⟩

/-- `session` has been sent the endpoint, in its reply or in a notify. -/
def Told (sent : List Packet) (session : TCPSessionPtr) (c : ConnServer) : Prop :=
  (∃ rs, ⟨session, .serverRegistRS rs⟩ ∈ sent ∧ c ∈ rs.connServers) ∨
    ∃ cs, ⟨session, .newConnServiceNotify cs⟩ ∈ sent ∧ c ∈ cs

/-- The session that `removeService` is called for with the sid `key`. -/
def HasSession (k : CSKernel) (key : Int) (session : TCPSessionPtr) : Prop :=
  k.Open session ∧ toUnsigned (k.logicID_ session) = key

/-- Of two registered servers `A` and `B`, `B` has been told every endpoint of `A` that is for it. -/
def Discovered (w : World) : Prop :=
  ∃ k, w.kernel = some k ∧ ∀ a A b B, k.servers_.lookup a = some (some A) → k.servers_.lookup b = some (some B) →
    ∀ l ∈ A.listeners, l.type = B.type → A.type ∈ B.connectTypes →
      (∃ session, HasSession k b session) ∧
        ∀ session, HasSession k b session → Told w.sent session ⟨A.type, l.port, A.sid, l.ip⟩

/-- First registrations, of sessions with distinct uuids; no match lists are sent. -/
def First (k : CSKernel) : Event → Prop
  | .newSession type => accepts type = true → k.FreshUuid type
  | .serverRegistRQ _ (some rq) _ _ => rq.sid = INVALID_LID
  | .updateDistMatchServices _ | .cancelMatch _ _ => False
  | _ => True

instance (k : CSKernel) : ∀ e, Decidable (First k e)
  | .newSession type => inferInstanceAs (Decidable (accepts type = true → k.FreshUuid type))
  | .serverRegistRQ _ (some rq) _ _ => inferInstanceAs (Decidable (rq.sid = INVALID_LID))
  | .serverRegistRQ _ none _ _ | .checkMatchDistributeRQ .. | .requestBestGateServer .. | .onClose ..
  | .createdMatches .. => .isTrue trivial
  | .updateDistMatchServices _ | .cancelMatch .. => .isFalse id

/-! ## The invariant -/

/-- What such runs keep; a session stands for the service under its uuid. -/
structure Discovering (k : CSKernel) (sent : List Packet) : Prop where
  pooled : Pooled k
  logicID : ∀ p, k.Open p → k.logicID_ p = INVALID_LID ∨ k.logicID_ p = k.uuidOf p
  /-- the central server connects to nobody, the others are there with their sessions -/
  services : ∀ key info, k.servers_.lookup key = some (some info) → info.connectTypes = [] ∨
    ∃ p, k.Open p ∧ k.logicID_ p = k.uuidOf p ∧ toUnsigned (k.uuidOf p) = key ∧ info.type = k.typeOf p
  nonNull : k.NoNull
  told : ∀ a A b B, k.servers_.lookup a = some (some A) → k.servers_.lookup b = some (some B) →
    ∀ l ∈ A.listeners, l.type = B.type → A.type ∈ B.connectTypes →
      ∀ p, k.Open p → toUnsigned (k.uuidOf p) = b → Told sent p ⟨A.type, l.port, A.sid, l.ip⟩

variable {k k' : CSKernel} {sent : List Packet}

theorem Told.mono {session : TCPSessionPtr} {c : ConnServer} (h : Told sent session c) (more : List Packet) :
    Told (sent ++ more) session c := by
  rcases h with ⟨rs, hrs, hc⟩ | ⟨cs, hcs, hc⟩
  · exact .inl ⟨rs, List.mem_append_left _ hrs, hc⟩
  · exact .inr ⟨cs, List.mem_append_left _ hcs, hc⟩

theorem Told.after {session : TCPSessionPtr} {c : ConnServer} {more : List Packet} (h : Told more session c) :
    Told (sent ++ more) session c := by
  rcases h with ⟨rs, hrs, hc⟩ | ⟨cs, hcs, hc⟩
  · exact .inl ⟨rs, List.mem_append_right _ hrs, hc⟩
  · exact .inr ⟨cs, List.mem_append_right _ hcs, hc⟩

/-- The invariant implies `Discovered`. -/
theorem Discovering.discovered (h : Discovering k sent) : Discovered ⟨some k, sent⟩ := by
  refine ⟨k, rfl, fun a A b B hA hB l hl htype hconnect => ?_⟩
  rcases h.services b B hB with hnone | ⟨p, hopen, hid, hkey, -⟩
  · rw [hnone] at hconnect
    cases hconnect
  · refine ⟨⟨p, hopen, hid ▸ hkey⟩, fun q hq => h.told a A b B hA hB l hl htype hconnect q hq.1 ?_⟩
    rcases h.logicID q hq.1 with hinvalid | huuid
    · -- a session without a `logicID` stands for no service
      exfalso
      have hsame : toUnsigned INVALID_LID = toUnsigned (k.uuidOf p) := by rw [hkey, ← hinvalid, hq.2]
      have hbad : INVALID_LID = k.uuidOf p := toUnsigned_inj isInt_invalid (isInt_toInt _) hsame
      rw [h.pooled.uuid hopen] at hbad
      cases hbad
    · exact huuid ▸ hq.2

theorem Discovering.session_unique (h : Discovering k sent) {p q : TCPSessionPtr} (hp : k.Open p) (hq : k.Open q)
    (hsame : toUnsigned (k.uuidOf p) = toUnsigned (k.uuidOf q)) : p = q :=
  h.pooled.uuid_inj hp hq (toUnsigned_inj (isInt_toInt _) (isInt_toInt _) hsame)

/-! ## The steps -/

/-- Steps that leave sessions and services alone. -/
theorem Discovering.congr (h : Discovering k sent) (hmanager : k'.manager = k.manager) (hcreated : k'.created = k.created)
    (hlogicID : k'.logicID_ = k.logicID_) (hservers : k'.servers_ = k.servers_) {more : List Packet} :
    Discovering k' (sent ++ more) := by
  have hopen := open_congr hmanager hcreated
  have huuid := uuidOf_congr hmanager
  have htype := typeOf_congr hmanager
  refine ⟨h.pooled.congr hmanager hcreated, fun p hp => ?_, fun key info hkey => ?_, fun key => ?_, ?_⟩
  · rw [hlogicID, huuid]
    exact h.logicID p ((hopen p).mp hp)
  · simp only [hopen, huuid, htype, hlogicID]
    exact h.services key info (hservers ▸ hkey)
  · rw [hservers]
    exact h.nonNull key
  · intro a A b B hA hB l hl hlistens hconnect p hp hkey
    rw [huuid] at hkey
    exact (h.told a A b B (hservers ▸ hA) (hservers ▸ hB) l hl hlistens hconnect p ((hopen p).mp hp) hkey).mono more

theorem newSession_discovering (h : Discovering k sent) {type : ServerType} (hfresh : k.FreshUuid type)
    (more : List Packet) : Discovering (k.newSession type) (sent ++ more) := by
  have hpooled := newSession_pooled h.pooled hfresh
  have huuid : ∀ p, p < k.created → (k.newSession type).uuidOf p = k.uuidOf p := fun p hp => by
    rw [uuidOf, (newSession_other type hp).1, uuidOf]
  have hopen : ∀ p, (k.newSession type).Open p → p ≠ k.created → k.Open p := fun p hp hne => by
    have hlt : p < k.created := Nat.lt_of_le_of_ne (Nat.le_of_lt_succ hp.1) hne
    exact ⟨hlt, (newSession_other type hlt).1 ▸ hp.2⟩
  refine ⟨hpooled, fun p hp => ?_, fun key info hkey => ?_, h.nonNull, ?_⟩
  · by_cases hnew : p = k.created
    · exact .inl (if_pos hnew)
    · have hold := hopen p hp hnew
      rw [(newSession_other type hold.1).2, huuid p hold.1]
      exact h.logicID p hold
  · refine (h.services key info hkey).imp_right ?_
    rintro ⟨p, hp, hid, hsid, htype⟩
    obtain ⟨hsession, hlogicID⟩ := newSession_other type hp.1
    refine ⟨p, hp.newSession type, ?_, ?_, ?_⟩
    · rw [hlogicID, huuid p hp.1, hid]
    · rw [huuid p hp.1, hsid]
    · rw [typeOf, hsession, htype, typeOf]
  · intro a A b B hA hB l hl hlistens hconnect p hp hkey
    rcases h.services b B hB with hnone | ⟨q, hq, -, hsid, -⟩
    · rw [hnone] at hconnect
      cases hconnect
    · -- the session of a service that is there is no new one
      have hsame : p = q := by
        refine hpooled.uuid_inj hp (hq.newSession type) (toUnsigned_inj (isInt_toInt _) (isInt_toInt _) ?_)
        show toUnsigned (uuidOf _ p) = toUnsigned (uuidOf _ q)
        rw [hkey, huuid q hq.1, hsid]
      obtain rfl := hsame
      rw [huuid p hq.1] at hkey
      exact (h.told a A b B hA hB l hl hlistens hconnect p hq hkey).mono more

theorem onClose_discovering (h : Discovering k sent) {now : Int} {session : TCPSessionPtr} (hopen : k.Open session)
    (heq : k.onClose now session = some k') (more : List Packet) : Discovering k' (sent ++ more) := by
  obtain ⟨hmanager, hcreated, hid, -⟩ := onClose_some heq
  obtain ⟨hpooled, hopens⟩ := handClose_pooled h.pooled hopen hmanager hcreated
  have huuid : ∀ p, k'.uuidOf p = k.uuidOf p := onClose_uuidOf heq
  have htype : ∀ p, k'.typeOf p = k.typeOf p := onClose_typeOf heq
  have hservers : ∀ key entry, k'.servers_.lookup key = some entry → k.servers_.lookup key = some entry :=
    fun _ _ hkey => ((onClose_lookup heq).mp hkey).2
  refine ⟨hpooled, fun p hp => ?_, fun key info hkey => ?_, fun key hnull => h.nonNull key (hservers key none hnull), ?_⟩
  · rw [hid, huuid]
    exact h.logicID p ((hopens p).mp hp).2
  · refine (h.services key info (hservers key _ hkey)).imp_right ?_
    rintro ⟨p, hp, hlogicID, hsid, hptype⟩
    -- the service of the session that closes is gone
    have hne : p ≠ session := by
      rintro rfl
      exact ((onClose_lookup heq).mp hkey).1 (by rw [← hsid, hlogicID])
    refine ⟨p, (hopens p).mpr ⟨hne, hp⟩, ?_, ?_, ?_⟩
    · rw [hid, huuid, hlogicID]
    · rw [huuid, hsid]
    · rw [htype, hptype]
  · intro a A b B hA hB l hl hlistens hconnect p hp hkey
    rw [huuid] at hkey
    exact (h.told a A b B (hservers a _ hA) (hservers b _ hB) l hl hlistens hconnect p ((hopens p).mp hp).2 hkey).mono more

/-- The notifies for a new service reach the sessions of the types it listens to. -/
theorem told_notify (h : Pooled k) {session p : TCPSessionPtr} {info : ServerInfo} {rs : ServerRegisterRS} (hp : k.Open p)
    {l : ServerInfo.Listener} (hl : l ∈ info.listeners) (htype : l.type = k.typeOf p) :
    Told (⟨session, .serverRegistRS rs⟩ :: info.listeners.flatMap fun lis =>
      k.send none (.newConnServiceNotify [⟨info.type, lis.port, info.sid, lis.ip⟩]) lis.type) p
      ⟨info.type, l.port, info.sid, l.ip⟩ := by
  refine .inr ⟨[⟨info.type, l.port, info.sid, l.ip⟩], List.mem_cons_of_mem _ ?_, List.mem_singleton_self _⟩
  refine List.mem_flatMap.mpr ⟨l, hl, List.mem_map.mpr ⟨p, List.mem_filter.mpr ⟨h.listed p hp, ?_⟩, rfl⟩⟩
  rw [htype]
  exact decide_eq_true (UInt8.ofNat_toNat).symm

/-- The reply lists the services that listen to the type of the session. -/
theorem told_reply {session : TCPSessionPtr} {a : Int} {A info : ServerInfo} (hA : k.servers_.lookup a = some (some A))
    {l : ServerInfo.Listener} (hl : l ∈ A.listeners) (htype : l.type = k.typeOf session)
    (hconnect : A.type ∈ info.connectTypes) (notifies : List Packet) :
    Told (⟨session, .serverRegistRS ⟨0, info.sid, info.connectTypes.flatMap fun type =>
        k.servers_.entries.flatMap fun e => e.2.elim [] (connServers (k.typeOf session) type)⟩⟩ :: notifies) session
      ⟨A.type, l.port, A.sid, l.ip⟩ := by
  exact .inl ⟨_, List.mem_cons_self, mem_reply hA hl htype hconnect⟩

/-- A new service enters the registry under the uuid of its session. -/
structure Entered (k k' : CSKernel) (session : TCPSessionPtr) (info : ServerInfo) : Prop where
  manager : k'.manager = k.manager
  created : k'.created = k.created
  logicID : k'.logicID_ = fun p => if p = session then k.uuidOf session else k.logicID_ p
  servers : ∀ j, k'.servers_.lookup j = if j = toUnsigned (k.uuidOf session) then some (some info) else k.servers_.lookup j
  type : info.type = k.typeOf session

namespace Entered

variable {session : TCPSessionPtr} {info : ServerInfo} (he : Entered k k' session info)

include he in
theorem old {j : Int} {x : ServerInfo} (hne : j ≠ toUnsigned (k.uuidOf session))
    (hj : k'.servers_.lookup j = some (some x)) : k.servers_.lookup j = some (some x) := by rwa [he.servers, if_neg hne] at hj

include he in
theorem new {j : Int} {x : ServerInfo} (heq : j = toUnsigned (k.uuidOf session))
    (hj : k'.servers_.lookup j = some (some x)) : info = x := by
  rw [he.servers, if_pos heq] at hj
  cases hj
  rfl

include he in
theorem noNull (h : k.NoNull) : k'.NoNull := fun j => by
  rw [he.servers]
  split_ifs
  · exact nofun
  · exact h j

include he in
/-- Every service has its session, the new one too. -/
theorem services (h : Discovering k sent) (hopen : k.Open session) {j : Int} {x : ServerInfo}
    (hj : k'.servers_.lookup j = some (some x)) : x.connectTypes = [] ∨
      ∃ p, k'.Open p ∧ k'.logicID_ p = k'.uuidOf p ∧ toUnsigned (k'.uuidOf p) = j ∧ x.type = k'.typeOf p := by
  simp only [open_congr he.manager he.created, uuidOf_congr he.manager, typeOf_congr he.manager, he.logicID]
  by_cases hkey : j = toUnsigned (k.uuidOf session)
  · obtain rfl := he.new hkey hj
    exact .inr ⟨session, hopen, if_pos rfl, hkey.symm, he.type⟩
  · refine (h.services j x (he.old hkey hj)).imp_right ?_
    rintro ⟨p, hp, hlogicID, hsid, hptype⟩
    have hne : p ≠ session := fun hsame => hkey (by rw [← hsid, hsame])
    exact ⟨p, hp, (if_neg hne).trans hlogicID, hsid, hptype⟩

end Entered

/-- A new service that enters the registry, with its reply and its notifies. -/
theorem Entered.discovering {session : TCPSessionPtr} {info : ServerInfo} (he : Entered k k' session info)
    (h : Discovering k sent) (hopen : k.Open session) {rs : List Packet} (hrs : k'.serverRegistRS session info = some rs) :
    Discovering k' (sent ++ rs) := by
  have hopens := open_congr he.manager he.created
  have huuid := uuidOf_congr he.manager
  have htype := typeOf_congr he.manager
  have hnonNull := he.noNull h.nonNull
  have hpooled : Pooled k' := h.pooled.congr he.manager he.created
  rw [serverRegistRS_eq (.inl hnonNull)] at hrs
  obtain rfl := Option.some.inj hrs
  refine ⟨hpooled, fun p hp => ?_, fun j x hj => he.services h hopen hj, hnonNull, ?_⟩
  · rw [he.logicID, huuid]
    dsimp only
    split_ifs with hsame
    · exact .inr (hsame ▸ rfl)
    · exact h.logicID p ((hopens p).mp hp)
  · intro a A b B hA hB l hl hlistens hconnect p hp hkey
    rw [huuid] at hkey
    have hpopen := (hopens p).mp hp
    by_cases hb : b = toUnsigned (k.uuidOf session)
    · -- the new service connects: the reply has the endpoint
      obtain rfl := h.session_unique hpopen hopen (hkey.trans hb)
      obtain rfl := he.new hb hB
      exact (told_reply hA hl (by rw [hlistens, he.type, htype]) hconnect _).after
    · by_cases ha : a = toUnsigned (k.uuidOf session)
      · -- the new service listens: a notify has the endpoint
        obtain rfl := he.new ha hA
        rcases h.services b B (he.old hb hB) with hnone | ⟨q, hq, -, hsid, hqtype⟩
        · rw [hnone] at hconnect
          cases hconnect
        · obtain rfl := h.session_unique hpopen hq (hkey.trans hsid.symm)
          exact (told_notify hpooled hp hl (by rw [hlistens, hqtype, htype])).after
      · exact (h.told a A b B (he.old ha hA) (he.old hb hB) l hl hlistens hconnect p hpopen hkey).mono _

/-- A first registration enters one service and no null pointer. -/
theorem serverRegistRQ_discovering (h : Discovering k sent) {now : Int} {session : TCPSessionPtr} {rq : ServerRegisterRQ}
    {order : List (Σ _ : Int, Option ServerInfo)} {out : List Packet} (hopen : k.Open session)
    (hsid : rq.sid = INVALID_LID) (heq : k.serverRegistRQ now session (some rq) order = some (k', out)) :
    Discovering k' (sent ++ out) := by
  obtain ⟨k₁, key, info, rs, -, henters, hcase, hrs, ⟨toGate, rfl, -⟩, rfl⟩ := serverRegistRQ_some heq
  rcases hcase with ⟨-, -, hr, -⟩ | ⟨rfl, hinfo, -, hid⟩
  · exact absurd hsid hr.1
  · have hentered : Entered k k₁ session info := by
      refine ⟨henters.manager, henters.created, hid, fun j => ?_, hinfo ▸ rfl⟩
      rw [henters.servers, if_neg fun hs : k.Stray rq.sid j => hs.1.1 hsid]
    have hnew : Discovering k₁ (sent ++ rs) := hentered.discovering h hopen hrs
    rw [← List.append_assoc]
    apply hnew.congr <;> rfl

/-- First registrations and closes do not crash the central server. -/
theorem handle_isSome (h : Discovering k sent) {e : Event} (hfirst : First k e) : (k.handle e).isSome = true := by
  cases e with
  | newSession type =>
    rw [handle]
    split_ifs <;> rfl
  | serverRegistRQ session rq now order =>
    rw [handle]
    split_ifs
    · cases rq with
      | none => rfl
      | some rq =>
        refine serverRegistRQ_isSome ((register_noNull h.nonNull now session rq order).mpr fun j hs => ?_)
        exact absurd hfirst hs.1.1
    · rfl
  | checkMatchDistributeRQ session rq now =>
    rw [handle]
    split_ifs <;> rfl
  | requestBestGateServer session parsed =>
    rw [handle, requestBestGateServer]
    rw [forServers_eq h.nonNull]
    split_ifs <;> rfl
  | onClose session now =>
    rw [handle, CSKernel.onClose, removeService]
    rcases hsid : k.servers_.lookup (toUnsigned (k.logicID_ session)) with _ | _ | info
    · split_ifs <;> rfl
    · exact absurd hsid (h.nonNull _)
    · split_ifs <;> rfl
  | updateDistMatchServices now => exact hfirst.elim
  | cancelMatch mid reason => exact hfirst.elim
  | createdMatches ms now => rfl

theorem handle_discovering (h : Discovering k sent) {e : Event} (hfirst : First k e) {out : List Packet}
    (heq : k.handle e = some (k', out)) : Discovering k' (sent ++ out) := by
  cases handled heq with
  | idle => apply h.congr <;> rfl
  | newSession haccepts => exact newSession_discovering h (hfirst haccepts) _
  | serverRegistRQ hopen hrq => exact serverRegistRQ_discovering h hopen hfirst hrq
  | checkMatchDistributeRQ _ _ => apply h.congr <;> rfl
  | onClose hopen hclose => exact onClose_discovering h hopen hclose _
  | updateDistMatchServices _ => exact hfirst.elim
  | cancelMatch _ => exact hfirst.elim
  | createdMatches => apply h.congr <;> rfl

theorem start_discovering (matches_ : CSMatchManager) (listenInfos : List ServerInfo.Listener) (now : Int) :
    Discovering (start .empty matches_ listenInfos now) [] := by
  have hnone : ∀ p, ¬ (start .empty matches_ listenInfos now).Open p := fun p hp => Nat.not_lt_zero p hp.1
  refine ⟨start_pooled matches_ listenInfos now, fun p hp => absurd hp (hnone p), fun key info hkey => ?_, fun key hkey => ?_,
    fun a A b B _ _ l _ _ _ p hp => absurd hp (hnone p)⟩
  · obtain ⟨-, central, heq, -, -, -, hconnect⟩ := lookup_start hkey
    cases heq
    exact .inl hconnect
  · obtain ⟨-, central, heq, -⟩ := lookup_start hkey
    cases heq

/-! ## Runs -/

/-- **Whatever the order of first registrations and closes, every registered server knows all endpoints it is to connect
to.** -/
theorem discovered_always (matches_ : CSMatchManager) (listenInfos : List ServerInfo.Listener) (now : Int) (es : List Event)
    (hfirst : Runs.Along step (fun w e => ∀ k ∈ w.kernel, First k e) ⟨start .empty matches_ listenInfos now, []⟩ es) :
    Runs.Always step Discovered ⟨start .empty matches_ listenInfos now, []⟩ es := by
  have hstep : ∀ w e, (∃ k, w.kernel = some k ∧ Discovering k w.sent) → (∀ k ∈ w.kernel, First k e) →
      ∃ k, (step w e).kernel = some k ∧ Discovering k (step w e).sent := by
    rintro ⟨_, sent⟩ e ⟨k, rfl, h⟩ hok
    obtain ⟨⟨k', out⟩, heq⟩ := Option.isSome_iff_exists.mp (handle_isSome h (hok k rfl))
    have hnext : step ⟨some k, sent⟩ e = ⟨some k', sent ++ out⟩ := by
      unfold step
      dsimp only
      rw [Option.bind_some, heq]
      rfl
    rw [hnext]
    exact ⟨k', rfl, handle_discovering h (hok k rfl) heq⟩
  have hdiscovered : ∀ w : World, (∃ k, w.kernel = some k ∧ Discovering k w.sent) → Discovered w := by
    rintro ⟨_, sent⟩ ⟨k, rfl, h⟩
    exact h.discovered
  exact (Runs.inv_always hstep ⟨_, rfl, start_discovering matches_ listenInfos now⟩ hfirst).mono hdiscovered

/-- A match server is there before a gate server, is lost, and comes back. -/
def rejoinRun : List Event :=
  [.newSession .MatchServer, .serverRegistRQ 0 (some ⟨-1, [5], [⟨1, 9000, "10.0.0.2"⟩]⟩) 1 [], .newSession .GateServer,
    .serverRegistRQ 1 (some ⟨-1, [5, 3], []⟩) 2 [], .onClose 0 3, .newSession .MatchServer,
    .serverRegistRQ 2 (some ⟨-1, [5], [⟨1, 9000, "10.0.0.2"⟩]⟩) 4 []]

theorem discovered_always_rejoin :
    let w : World := ⟨start .empty (.initialized 0 .empty) [⟨1, 7000, "10.0.0.1"⟩, ⟨3, 8000, "10.0.0.1"⟩] 0, []⟩
    Runs.Along step (fun w e => ∀ k ∈ w.kernel, First k e) w rejoinRun ∧ Runs.Always step Discovered w rejoinRun := by
  intro w
  have hfirst : Runs.Along step (fun w e => ∀ k ∈ w.kernel, First k e) w rejoinRun := by decide
  exact ⟨hfirst, discovered_always _ _ 0 rejoinRun hfirst⟩

end AsioUtils.CentralServer.Discovery
