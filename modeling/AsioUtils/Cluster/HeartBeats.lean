import AsioUtils.Cluster.World

/-!
# Servers that fall silent

A session notes when its server was last heard of: when it was accepted, and at each heartbeat. A timer of the central
server closes the sessions that have been silent for too long, and with a session its service leaves the registry.

* `clientCheckOvertime` : the timer's handler;
* `Watch`, `step` : the central server with the times that its sessions have noted;
* `lastHeard` : when a session was last heard of, by the history alone;
* `stays_open_iff` : a session stays open exactly if it is not lost and was heard of in time at every check;
* `services_heard` : after a check, the services are those of the servers that were heard of in time.
-/

namespace AsioUtils.Cluster

open CPG CentralServer CentralServer.CSMatchManager CentralServer.CSKernel
open Net hiding Packet

def kServerHeartBeatOvertime : Int := 11

/-! ## The handler of the timer -/

/-- `TCPSession::forceClose`, at `now`. -/
def forceClose (now : Int) (k : CSKernel) (session : TCPSessionPtr) : Option CSKernel :=
  let s := k.manager.sessions session
  if (s.state_ = .kConnected ∨ s.state_ = .kDisconnecting) ∧ s.connected then k.onClose now session else some k

/-- The sessions of the list that have been silent for too long at `cur`. -/
def overtimeSessions (k : CSKernel) (heartBeat_ : TCPSessionPtr → Int) (cur : Int) : List TCPSessionPtr :=
  k.manager.sessionMap_.foreach fun session =>
    if cur - heartBeat_ session > kServerHeartBeatOvertime then [session] else []

/-- `now` is when the sessions are closed. -/
def clientCheckOvertime (k : CSKernel) (heartBeat_ : TCPSessionPtr → Int) (cur now : Int) : Option CSKernel :=
  (overtimeSessions k heartBeat_ cur).foldlM (forceClose now) k

/-! ## Runs -/

/-- The central server, `none` once it has crashed, and `heartBeat_` of every session. -/
structure Watch where
  central : Option CSKernel
  heartBeat_ : TCPSessionPtr → Int := fun _ => 0

namespace Watch

/-- `cur` is the time. -/
inductive Event
  | central (e : CSKernel.Event) (cur : Int)
  /-- a heartbeat that session reads -/
  | heartBeatRQ (session : TCPSessionPtr) (cur : Int)
  | clientCheckOvertime (cur now : Int)

/-- The session that an event allocates; its constructor calls `updateHeartBeat`. -/
def allocated (k : CSKernel) : CSKernel.Event → Option TCPSessionPtr
  | .newSession type => if accepts type then some k.created else none
  | _ => none

def step (w : Watch) : Event → Watch
  | .central e cur =>
    { central := CSKernel.step w.central e
      heartBeat_ := fun p => if (w.central.bind fun k => allocated k e) = some p then cur else w.heartBeat_ p }
  | .heartBeatRQ session cur =>
    { w with heartBeat_ := fun p => if p = session ∧ ∀ k ∈ w.central, k.Open session then cur else w.heartBeat_ p }
  | .clientCheckOvertime cur now =>
    { w with central := w.central.bind fun k => AsioUtils.Cluster.clientCheckOvertime k w.heartBeat_ cur now }

/-- The central server's steps are regular: a new session gets a uuid that no open one has (`FreshSession`), no list is sent
to a service that is gone, and the central server survives, its checks included. -/
def Regular (w : Watch) : Event → Prop
  | .central e _ => Cluster.Regular w.central e
  | .heartBeatRQ .. => True
  | .clientCheckOvertime cur now => (w.step (.clientCheckOvertime cur now)).central.isSome = true

instance (w : Watch) : (e : Event) → Decidable (w.Regular e)
  | .central e _ => inferInstanceAs (Decidable (Cluster.Regular w.central e))
  | .heartBeatRQ .. => .isTrue trivial
  | .clientCheckOvertime cur now => inferInstanceAs (Decidable ((w.step (.clientCheckOvertime cur now)).central.isSome = true))

/-- A session is accepted. -/
def accepted : Event → Bool
  | .central (.newSession type) _ => accepts type
  | _ => false

/-- When session `p` was last heard of, after events that are listed latest first. -/
def heard : List Event → TCPSessionPtr → Int
  | [], _ => 0
  | .central (.newSession type) cur :: es, p => if accepts type ∧ es.countP accepted = p then cur else heard es p
  | .heartBeatRQ session cur :: es, p => if session = p then cur else heard es p
  | _ :: es, p => heard es p

/-- The session that is accepted as the `p`-th has the pointer `p`. -/
def lastHeard (es : List Event) (p : TCPSessionPtr) : Int := heard es.reverse p

/-- The event, after `es`, does not end session `p`. -/
def Spares (es : List Event) (p : TCPSessionPtr) : Event → Prop
  | .central (.onClose session _) _ => session ≠ p
  | .clientCheckOvertime cur _ => cur - lastHeard es p ≤ kServerHeartBeatOvertime
  | _ => True

/-- Every event of `fs` spares session `p` when it comes. -/
def Spared (es : List Event) (p : TCPSessionPtr) (fs : List Event) : Prop :=
  Runs.Along (fun es e => es ++ [e]) (fun es e => Spares es p e) es fs

/-- The central server with its registry, before the first session. -/
def first (now : Int) (stored : MatchMap) (listenInfos : List ServerInfo.Listener) : Watch :=
  { central := some (.start .empty (.initialized now stored) listenInfos now) }

/-! ## The states of the sessions -/

/-- A session is open exactly while it is connected, and none is being shut down. -/
structure Steady (k : CSKernel) : Prop extends Wired k where
  connected : ∀ p, (k.manager.sessions p).state_ = .kConnected ↔ k.Open p
  notDisconnecting : ∀ p, (k.manager.sessions p).state_ ≠ .kDisconnecting

section Steady

variable {k k' : CSKernel}

theorem forceClose_eq (h : Steady k) (now : Int) (p : TCPSessionPtr) :
    forceClose now k p = if k.Open p then k.onClose now p else some k := by
  have hiff : (((k.manager.sessions p).state_ = .kConnected ∨ (k.manager.sessions p).state_ = .kDisconnecting) ∧
      (k.manager.sessions p).connected = true) ↔ k.Open p := by
    constructor
    · rintro ⟨hstate | hstate, -⟩
      · exact (h.connected p).mp hstate
      · exact absurd hstate (h.notDisconnecting p)
    · exact fun hopen => ⟨.inl ((h.connected p).mpr hopen), hopen.2⟩
  unfold forceClose
  simp only [hiff]

theorem newSession_steady (h : Steady k) {type : ServerType} (haccepts : accepts type = true)
    (hfresh : k.FreshUuid type) : Steady (k.newSession type) := by
  have hnew : ((k.newSession type).manager.sessions k.created).state_ = .kConnected := by
    simp [newSession, setLogicID, TCPSessionManager.newSession]
  have hother : ∀ p, p ≠ k.created → (k.newSession type).manager.sessions p = k.manager.sessions p := fun p hp =>
    (k.manager.newSession_adds k.created _).others p hp
  refine ⟨newSession_wired h.toWired haccepts hfresh, fun p => ?_, fun p => ?_⟩
  · by_cases hp : p = k.created
    · rw [hp, hnew]
      refine ⟨fun _ => ⟨Nat.lt_succ_self _, ?_⟩, fun _ => rfl⟩
      rw [Session.connected, hnew]
      rfl
    · rw [hother p hp, h.connected p, Open, Open, hother p hp]
      refine and_congr_left fun _ => ⟨Nat.lt_succ_of_lt, fun hlt => ?_⟩
      exact Nat.lt_of_le_of_ne (Nat.le_of_lt_succ hlt) hp
  · by_cases hp : p = k.created
    · rw [hp, hnew]
      simp
    · rw [hother p hp]
      exact h.notDisconnecting p

theorem onClose_steady (h : Steady k) {now : Int} {session : TCPSessionPtr} (hopen : k.Open session)
    (heq : k.onClose now session = some k') : Steady k' ∧ ∀ p, k'.Open p ↔ p ≠ session ∧ k.Open p := by
  obtain ⟨hmanager, hcreated, -⟩ := onClose_some heq
  obtain ⟨-, hopens⟩ := handClose_pooled h.pooled hopen hmanager hcreated
  have hclosed : (k'.manager.sessions session).state_ = .kDisconnected := by
    rw [hmanager, TCPSessionManager.handClose, if_pos hopen.2]
    simp [TCPSessionManager.removeSessionPtr, h.pooled.accepted session hopen.1, TCPSessionManager.removeSession,
      TCPSessionManager.modifySession]
  have hother : ∀ p, p ≠ session → k'.manager.sessions p = k.manager.sessions p := fun p hp => by
    rw [hmanager, (k.manager.handClose_frame session p).2.2 hp]
  refine ⟨⟨onClose_wired h.toWired hopen heq, fun p => ?_, fun p => ?_⟩, hopens⟩
  · by_cases hp : p = session
    · rw [hopens, hp, hclosed]
      simp
    · rw [hopens, hother p hp, h.connected p, and_iff_right hp]
  · by_cases hp : p = session
    · rw [hp, hclosed]
      simp
    · rw [hother p hp]
      exact h.notDisconnecting p

/-- Steps that leave the sessions alone. -/
theorem Steady.congr (h : Steady k) (hwired : Wired k') (hmanager : k'.manager = k.manager)
    (hcreated : k'.created = k.created) : Steady k' := by
  refine ⟨hwired, fun p => ?_, fun p => ?_⟩
  · rw [hmanager, h.connected p, open_congr hmanager hcreated]
  · rw [hmanager]
    exact h.notDisconnecting p

/-- An event that neither accepts nor closes leaves the sessions alone. -/
theorem handle_manager {e : CSKernel.Event} {sent : List CentralServer.Packet} (heq : k.handle e = some (k', sent))
    (hreach : ReachesAll (some k) e) (hnew : ∀ type, e = .newSession type → accepts type = false)
    (hclose : ∀ session now, e = .onClose session now → ¬ k.Open session) :
    k'.manager = k.manager ∧ k'.created = k.created := by
  cases acts heq with
  | dropped _ _ => exact ⟨rfl, rfl⟩
  | newSession haccepts => exact absurd haccepts (by rw [hnew _ rfl]; simp)
  | serverRegistRQ _ hrq =>
    obtain ⟨k₁, key, info, rs, -, henters, -, -, -, rfl⟩ := serverRegistRQ_some hrq
    exact ⟨henters.manager, henters.created⟩
  | checkMatchDistributeRQ _ _ hcheck =>
    obtain ⟨rfl, -⟩ := Prod.mk.inj hcheck
    exact ⟨rfl, rfl⟩
  | onClose hopen _ => exact absurd hopen (hclose _ _ rfl)
  | updateDistMatchServices hcall =>
    obtain rfl := callback_of_mem (fun map hmap pair hpair =>
      (hreach k rfl (_, map) (Option.mem_map_of_mem _ hmap) pair hpair).mem) hcall
    exact ⟨rfl, rfl⟩
  | cancelMatch hcall =>
    obtain rfl := callback_of_mem (fun map hmap pair hpair =>
      (hreach k rfl (_, map) (Option.mem_map_of_mem _ hmap) pair hpair).mem) hcall
    exact ⟨rfl, rfl⟩
  | createdMatches => exact ⟨rfl, rfl⟩

/-- What an event does to the sessions: `new` is what it allocates, and only a close ends one. -/
structure Moves (k k' : CSKernel) (e : CSKernel.Event) (new : Option TCPSessionPtr) : Prop where
  created : k'.created = k.created + new.toList.length
  opened : ∀ p, k'.Open p → k.Open p ∨ new = some p
  closed : ∀ p < k.created, k'.Open p ↔ k.Open p ∧ ∀ now, e ≠ .onClose p now

theorem handle_steady (h : Steady k) {e : CSKernel.Event} (hregular : Cluster.Regular (some k) e)
    {sent : List CentralServer.Packet} (heq : k.handle e = some (k', sent)) : Steady k' ∧ Moves k k' e (allocated k e) := by
  have hwired := handle_wired h.toWired hregular heq
  by_cases hnew : ∃ type, e = .newSession type ∧ accepts type = true
  · obtain ⟨type, rfl, haccepts⟩ := hnew
    rw [handle, if_pos haccepts] at heq
    cases heq
    have hother : ∀ p < k.created, (k.newSession type).Open p ↔ k.Open p := fun p hp =>
      ⟨fun hopen => ⟨hp, (newSession_other type hp).1 ▸ hopen.2⟩, fun hopen => hopen.newSession type⟩
    have hallocated : allocated k (.newSession type) = some k.created := if_pos haccepts
    refine ⟨newSession_steady h haccepts (hregular.1 k rfl haccepts), ⟨?_, fun p hp => ?_, fun p hp => ?_⟩⟩
    · rw [hallocated]
      rfl
    · rcases Nat.lt_succ_iff_lt_or_eq.mp hp.1 with hlt | rfl
      · exact .inl ((hother p hlt).mp hp)
      · exact .inr hallocated
    · rw [hother p hp]
      simp
  · have hallocated : allocated k e = none := by
      cases e with
      | newSession type => exact if_neg fun haccepts => hnew ⟨type, rfl, haccepts⟩
      | _ => rfl
    rw [hallocated]
    by_cases hclose : ∃ session now, e = .onClose session now ∧ k.Open session
    · obtain ⟨session, now, rfl, hopen⟩ := hclose
      rw [handle, if_pos hopen] at heq
      obtain ⟨k₁, hclose, heq⟩ := Option.map_eq_some_iff.mp heq
      cases heq
      obtain ⟨h', hopens⟩ := onClose_steady h hopen hclose
      refine ⟨h', ⟨(onClose_some hclose).2.1, fun p hp => .inl ((hopens p).mp hp).2, fun p _ => ?_⟩⟩
      rw [hopens, and_comm]
      refine and_congr_right fun _ => ⟨fun hne now' heq => ?_, fun hne heq => hne now (heq ▸ rfl)⟩
      cases heq
      exact hne rfl
    · obtain ⟨hmanager, hcreated⟩ := handle_manager heq hregular.2.1
        (fun type he => eq_false_of_ne_true fun haccepts => hnew ⟨type, he, haccepts⟩)
        fun session now he hopen => hclose ⟨session, now, he, hopen⟩
      have hopens := open_congr hmanager hcreated
      refine ⟨h.congr hwired hmanager hcreated, ⟨hcreated, fun p hp => .inl ((hopens p).mp hp), fun p _ => ?_⟩⟩
      rw [hopens]
      exact (and_iff_left_of_imp fun hp now he => hclose ⟨p, now, he, hp⟩).symm

/-- The loop over the sessions that are closed. -/
theorem foldlM_forceClose (h : Steady k) {now : Int} {ps : List TCPSessionPtr}
    (heq : ps.foldlM (forceClose now) k = some k') : Steady k' ∧ k'.created = k.created ∧
      (∀ p, k'.Open p ↔ k.Open p ∧ p ∉ ps) ∧
      ∀ p, k'.typeOf p = k.typeOf p ∧ k'.uuidOf p = k.uuidOf p ∧ k'.logicID_ p = k.logicID_ p := by
  induction ps generalizing k with
  | nil =>
    cases heq
    exact ⟨h, rfl, by simp, fun p => ⟨rfl, rfl, rfl⟩⟩
  | cons q ps ih =>
    rw [List.foldlM_cons, forceClose_eq h] at heq
    by_cases hq : k.Open q
    · rw [if_pos hq] at heq
      obtain ⟨k₁, hclose, heq⟩ := Option.bind_eq_some_iff.mp heq
      obtain ⟨h₁, hopens⟩ := onClose_steady h hq hclose
      obtain ⟨-, hcreated, hid, -⟩ := onClose_some hclose
      obtain ⟨h', hcreated', hopens', hsame⟩ := ih h₁ heq
      refine ⟨h', hcreated'.trans hcreated, fun p => ?_, fun p => ?_⟩
      · rw [hopens', hopens, List.mem_cons, not_or, and_assoc]
        exact and_left_comm
      · obtain ⟨htype, huuid, hlogicID⟩ := hsame p
        exact ⟨htype.trans (onClose_typeOf hclose p), huuid.trans (onClose_uuidOf hclose p),
          hlogicID.trans (congrFun hid p)⟩
    · rw [if_neg hq] at heq
      obtain ⟨h', hcreated, hopens, hsame⟩ := ih h heq
      refine ⟨h', hcreated, fun p => ?_, hsame⟩
      rw [hopens, List.mem_cons, not_or]
      exact and_congr_right fun hp => (and_iff_right fun (hpq : p = q) => hq (hpq ▸ hp)).symm

theorem mem_overtimeSessions {heartBeat_ : TCPSessionPtr → Int} {cur : Int} {p : TCPSessionPtr} :
    p ∈ overtimeSessions k heartBeat_ cur ↔
      p ∈ k.manager.sessionMap_.objects_ ∧ kServerHeartBeatOvertime < cur - heartBeat_ p := by
  unfold overtimeSessions ObjectIndexPool.foreach
  rw [List.mem_flatMap]
  constructor
  · rintro ⟨q, hq, hp⟩
    split_ifs at hp with hover
    · rw [List.mem_singleton.mp hp]
      exact ⟨hq, hover⟩
    · cases hp
  · rintro ⟨hp, hover⟩
    exact ⟨p, hp, by rw [if_pos hover]; exact List.mem_singleton_self p⟩

/-- A check closes the sessions that have been silent for too long, and no others. -/
theorem check_steady (h : Steady k) {heartBeat_ : TCPSessionPtr → Int} {cur now : Int}
    (heq : AsioUtils.Cluster.clientCheckOvertime k heartBeat_ cur now = some k') : Steady k' ∧ k'.created = k.created ∧
      (∀ p, k'.Open p ↔ k.Open p ∧ cur - heartBeat_ p ≤ kServerHeartBeatOvertime) ∧
      ∀ p, k'.typeOf p = k.typeOf p ∧ k'.uuidOf p = k.uuidOf p ∧ k'.logicID_ p = k.logicID_ p := by
  obtain ⟨h', hcreated, hopens, hsame⟩ := foldlM_forceClose h heq
  refine ⟨h', hcreated, fun p => ?_, hsame⟩
  rw [hopens]
  refine and_congr_right fun hp => ?_
  rw [mem_overtimeSessions, and_iff_right (h.pooled.listed p hp), Int.not_lt]

end Steady

/-! ## What runs keep -/

/-- An open session has noted when it was last heard of, after the events `es`. -/
structure Watched (es : List Event) (w : Watch) (k : CSKernel) : Prop where
  central : w.central = some k
  steady : Steady k
  created : k.created = es.countP accepted
  heartBeat : ∀ p, k.Open p → w.heartBeat_ p = lastHeard es p

section Watched

variable {es : List Event} {w : Watch} {k : CSKernel}

theorem lastHeard_concat (es : List Event) (e : Event) : lastHeard (es ++ [e]) = heard (e :: es.reverse) := by
  funext p
  rw [lastHeard, List.reverse_concat]

/-- The history and the central server agree on what is allocated. -/
theorem heard_central (hcreated : k.created = es.countP accepted) (e : CSKernel.Event) (cur : Int) (p : TCPSessionPtr) :
    heard (.central e cur :: es) p = if allocated k e = some p then cur else heard es p := by
  cases e with
  | newSession type =>
    rw [heard, allocated, ← hcreated]
    by_cases haccepts : accepts type = true
    · simp [haccepts]
    · simp [haccepts]
  | _ => rfl

theorem countP_central (k : CSKernel) (e : CSKernel.Event) (cur : Int) :
    [Event.central e cur].countP accepted = (allocated k e).toList.length := by
  cases e with
  | newSession type =>
    by_cases haccepts : accepts type = true
    · simp [accepted, allocated, haccepts]
    · simp [accepted, allocated, haccepts]
  | _ => rfl

theorem central_watched (h : Watched es w k) {e : CSKernel.Event} {cur : Int} (hregular : w.Regular (.central e cur)) :
    ∃ k', Watched (es ++ [.central e cur]) (w.step (.central e cur)) k' ∧
      ∀ p < k.created, k'.Open p ↔ k.Open p ∧ Spares es p (.central e cur) := by
  change Cluster.Regular w.central e at hregular
  rw [h.central] at hregular
  obtain ⟨k', hk'⟩ := Option.isSome_iff_exists.mp hregular.2.2
  obtain ⟨⟨k₁, sent⟩, hhandle, rfl⟩ := Option.map_eq_some_iff.mp hk'
  obtain ⟨hsteady, hmoves⟩ := handle_steady h.steady hregular hhandle
  have hbeat : (w.step (.central e cur)).heartBeat_ =
      fun p => if allocated k e = some p then cur else w.heartBeat_ p := by
    show (fun p => if (w.central.bind fun k => allocated k e) = some p then cur else w.heartBeat_ p) = _
    rw [h.central]
    rfl
  refine ⟨k₁, ⟨?_, hsteady, ?_, fun p hp => ?_⟩, fun p hp => ?_⟩
  · show CSKernel.step w.central e = _
    rw [h.central, hk']
  · rw [List.countP_append, ← h.created, countP_central k, hmoves.created]
  · rw [hbeat, lastHeard_concat, heard_central (by rw [h.created, List.countP_reverse])]
    by_cases hnew : allocated k e = some p
    · rw [if_pos hnew]
      exact (if_pos hnew)
    · rw [if_neg hnew]
      show (if allocated k e = some p then cur else w.heartBeat_ p) = _
      rw [if_neg hnew]
      exact h.heartBeat p ((hmoves.opened p hp).resolve_right hnew)
  · rw [hmoves.closed p hp]
    refine and_congr_right fun _ => ?_
    cases e with
    | onClose session now => simp [Spares]
    | _ => simp [Spares]

/-- **What an event does to a session**, when it is regular. -/
theorem step_watched (h : Watched es w k) {e : Event} (hregular : w.Regular e) :
    ∃ k', Watched (es ++ [e]) (w.step e) k' ∧ k.created ≤ k'.created ∧
      ∀ p < k.created, k'.Open p ↔ k.Open p ∧ Spares es p e := by
  cases e with
  | central e cur =>
    obtain ⟨k', h', hopens⟩ := central_watched h hregular
    refine ⟨k', h', ?_, hopens⟩
    rw [h.created, h'.created, List.countP_append]
    exact Nat.le_add_right _ _
  | heartBeatRQ session cur =>
    refine ⟨k, ⟨h.central, h.steady, ?_, fun p hp => ?_⟩, Nat.le_refl _, fun p _ => (and_iff_left trivial).symm⟩
    · rw [List.countP_append, ← h.created]
      rfl
    · rw [lastHeard_concat]
      show (if p = session ∧ ∀ k ∈ w.central, k.Open session then cur else w.heartBeat_ p) =
        if session = p then cur else lastHeard es p
      by_cases heq : p = session
      · have hopen : ∀ k' ∈ w.central, k'.Open session := fun k' hk' => by
          rw [h.central] at hk'
          exact Option.some.inj hk' ▸ heq ▸ hp
        rw [if_pos heq.symm, if_pos ⟨heq, hopen⟩]
      · rw [if_neg (Ne.symm heq), if_neg fun hboth => heq hboth.1, h.heartBeat p hp]
  | clientCheckOvertime cur now =>
    obtain ⟨k', hk'⟩ := Option.isSome_iff_exists.mp hregular
    have hcheck := hk'
    rw [step] at hcheck
    dsimp only at hcheck
    rw [h.central] at hcheck
    obtain ⟨hsteady, hcreated, hopens, -⟩ := check_steady h.steady hcheck
    refine ⟨k', ⟨hk', hsteady, ?_, fun p hp => ?_⟩, Nat.le_of_eq hcreated.symm, fun p _ => ?_⟩
    · rw [List.countP_append, ← h.created, hcreated]
      rfl
    · rw [lastHeard_concat]
      exact h.heartBeat p ((hopens p).mp hp).1
    · rw [hopens]
      refine and_congr_right fun hp => ?_
      rw [h.heartBeat p hp]
      rfl

theorem run_watched (h : Watched es w k) {fs : List Event} (hregular : Runs.Along step Regular w fs) :
    ∃ k', Watched (es ++ fs) (Runs.run step w fs) k' ∧ ∀ p < k.created, k'.Open p ↔ k.Open p ∧ Spared es p fs := by
  induction fs generalizing es w k with
  | nil => exact ⟨k, (List.append_nil es).symm ▸ h, fun p _ => (and_iff_left trivial).symm⟩
  | cons e fs ih =>
    obtain ⟨k₁, h₁, hle, hopens₁⟩ := step_watched h hregular.1
    obtain ⟨k', h', hopens⟩ := ih h₁ hregular.2
    rw [List.append_assoc] at h'
    refine ⟨k', h', fun p hp => ?_⟩
    rw [hopens p (Nat.lt_of_lt_of_le hp hle), hopens₁ p hp, and_assoc]
    rfl

theorem first_watched (now : Int) (stored : MatchMap) (listenInfos : List ServerInfo.Listener) :
    Watched [] (first now stored listenInfos) (.start .empty (.initialized now stored) listenInfos now) := by
  have hnone : ∀ p, ¬ (CSKernel.start .empty (.initialized now stored) listenInfos now).Open p := fun p hp =>
    Nat.not_lt_zero p hp.1
  refine ⟨rfl, ⟨start_wired now stored listenInfos, fun p => ⟨fun hstate => ?_, fun hp => absurd hp (hnone p)⟩, fun p => ?_⟩,
    rfl, fun p hp => absurd hp (hnone p)⟩
  · cases hstate
  · simp [CSKernel.start, TCPSessionManager.empty]

end Watched

/-- **Nobody is closed too early, nobody stays too long**: in a run that the central server survives, in which new sessions
get uuids of their own and no list is told to a server that is gone, an open session is open at a later time exactly if it
was not lost in between and had been heard of within the last eleven seconds at each check. -/
theorem stays_open_iff (now : Int) (stored : MatchMap) (listenInfos : List ServerInfo.Listener) (es fs : List Event)
    (hregular : Runs.Along step Regular (first now stored listenInfos) (es ++ fs)) :
    ∀ k ∈ (Runs.run step (first now stored listenInfos) es).central,
      ∀ k' ∈ (Runs.run step (first now stored listenInfos) (es ++ fs)).central, ∀ p, k.Open p →
        (k'.Open p ↔ Spared es p fs) := by
  intro k hk k' hk' p hp
  obtain ⟨hes, hfs⟩ := Runs.along_append.mp hregular
  obtain ⟨k₁, h₁, -⟩ := run_watched (first_watched now stored listenInfos) hes
  obtain ⟨k₂, h₂, hopens⟩ := run_watched h₁ hfs
  rw [h₁.central] at hk
  rw [Runs.run_append, h₂.central] at hk'
  obtain rfl := Option.some.inj hk
  obtain rfl := Option.some.inj hk'
  rw [hopens p hp.1]
  exact and_iff_right hp

/-- Two match servers, the first of which sends a heartbeat. -/
def oneSilent : List Event :=
  [.central (.newSession .MatchServer) 0, .central (.newSession .MatchServer) 1,
    .central (.serverRegistRQ 0 (some { sid := -1 }) 1 []) 1, .central (.serverRegistRQ 1 (some { sid := -1 }) 2 []) 2,
    .heartBeatRQ 0 6, .clientCheckOvertime 10 10, .clientCheckOvertime 15 15]

theorem oneSilent_regular : Runs.Along step Regular (first 0 .empty []) oneSilent := by decide

theorem stays_open_iff_silent :
    Runs.Along step Regular (first 0 .empty []) (oneSilent.take 4 ++ oneSilent.drop 4) ∧
      ∀ k ∈ (Runs.run step (first 0 .empty []) (oneSilent.take 4)).central,
        ∀ k' ∈ (Runs.run step (first 0 .empty []) (oneSilent.take 4 ++ oneSilent.drop 4)).central, ∀ p, k.Open p →
          (k'.Open p ↔ Spared (oneSilent.take 4) p (oneSilent.drop 4)) :=
  ⟨oneSilent_regular, stays_open_iff 0 .empty [] (oneSilent.take 4) (oneSilent.drop 4) oneSilent_regular⟩

/-- **The registry after a check**: in such a run, registered are those that were before and have been heard of within the
last eleven seconds, and every service is the central server itself or that of an open session heard of in that time. -/
theorem services_heard (now : Int) (stored : MatchMap) (listenInfos : List ServerInfo.Listener) (es : List Event)
    (cur time : Int)
    (hregular : Runs.Along step Regular (first now stored listenInfos) (es ++ [.clientCheckOvertime cur time])) :
    ∀ k ∈ (Runs.run step (first now stored listenInfos) es).central,
      ∀ k' ∈ (Runs.run step (first now stored listenInfos) (es ++ [.clientCheckOvertime cur time])).central,
        (∀ type p, RegisteredAs type k' p ↔
          RegisteredAs type k p ∧ cur - lastHeard es p ≤ kServerHeartBeatOvertime) ∧
        ∀ key info, k'.servers_.lookup key = some (some info) → key = kCentralSid ∨
          ∃ p, k'.Open p ∧ k'.logicID_ p = info.sid ∧ cur - lastHeard es p ≤ kServerHeartBeatOvertime := by
  intro k hk k' hk'
  obtain ⟨hes, hcheck⟩ := Runs.along_append.mp hregular
  obtain ⟨k₁, h₁, -⟩ := run_watched (first_watched now stored listenInfos) hes
  rw [h₁.central] at hk
  obtain rfl := Option.some.inj hk
  rw [Runs.run_append, Runs.run_cons, Runs.run_nil, step] at hk'
  dsimp only at hk'
  rw [h₁.central] at hk'
  obtain ⟨hsteady, -, hopens, hsame⟩ := check_steady h₁.steady hk'
  have hheard : ∀ p, k'.Open p ↔ k₁.Open p ∧ cur - lastHeard es p ≤ kServerHeartBeatOvertime := fun p => by
    rw [hopens]
    refine and_congr_right fun hp => ?_
    rw [h₁.heartBeat p hp]
    rfl
  refine ⟨fun type p => ?_, fun key info hkey => ?_⟩
  · obtain ⟨htype, huuid, hlogicID⟩ := hsame p
    rw [RegisteredAs, RegisteredAs, hheard, htype, huuid, hlogicID]
    exact and_right_comm
  · rcases hsteady.tied.services key info hkey with ⟨hcentral, -⟩ | ⟨-, p, hp, -, hlogicID⟩
    · exact .inl hcentral
    · exact .inr ⟨p, hp, hlogicID, ((hheard p).mp hp).2⟩

theorem services_heard_silent :
    Runs.Along step Regular (first 0 .empty []) (oneSilent.take 6 ++ [.clientCheckOvertime 15 15]) ∧
      ∀ k ∈ (Runs.run step (first 0 .empty []) (oneSilent.take 6)).central,
        ∀ k' ∈ (Runs.run step (first 0 .empty []) (oneSilent.take 6 ++ [.clientCheckOvertime 15 15])).central,
          (∀ type p, RegisteredAs type k' p ↔
            RegisteredAs type k p ∧ 15 - lastHeard (oneSilent.take 6) p ≤ kServerHeartBeatOvertime) ∧
          ∀ key info, k'.servers_.lookup key = some (some info) → key = kCentralSid ∨
            ∃ p, k'.Open p ∧ k'.logicID_ p = info.sid ∧ 15 - lastHeard (oneSilent.take 6) p ≤ kServerHeartBeatOvertime :=
  ⟨oneSilent_regular, services_heard 0 .empty [] (oneSilent.take 6) 15 15 oneSilent_regular⟩

end Watch

end AsioUtils.Cluster
