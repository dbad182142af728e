import AsioUtils.Cluster.World

/-!
# Every match server comes to run its list

Once a match server has handled all that is on the way to it, it runs the list that the central server keeps for it.
Three things break this: a registration under a sid whose list is that of the server that had the sid before, a
distribution check that finds a difference, and a pass that takes in a server which already runs matches and names no
list for it.

* `Agrees` : what every match server comes to run is its list;
* `Sound` : the step is none of the three;
* `agree_iff_sound` : a run keeps the agreement exactly if all its steps are sound.
-/

namespace AsioUtils.Cluster

open CPG StdList CentralServer CentralServer.CSMatchManager CentralServer.CSKernel MatchServer
open Net hiding Packet

/-- The list that the central server keeps for the server of session `p`. -/
def listed (k : CSKernel) (p : TCPSessionPtr) : List Int := getDistMatch k.matches_.matchServices_ (k.uuidOf p)

/-- The server of session `p` is one of those that matches are given to. -/
def Serves (k : CSKernel) (p : TCPSessionPtr) : Prop := RegisteredAs .MatchServer k p ∧ k.uuidOf p ∈ k.matches_.matchServices_

def Agrees (w : World) : Prop := ∀ k ∈ w.central, ∀ p, Serves k p → (w.settled p).matches_.Perm (listed k p)

/-- A server that registers for the first time, under a sid that is served, comes to run the list of the sid. -/
def Registers (w : World) (session : TCPSessionPtr) (rq : ServerRegisterRQ) : Prop :=
  ∀ k ∈ w.central, k.Open session → k.typeOf session = ServerType.MatchServer.toInt → (k.probe rq.sid).2 = none →
    k.uuidOf session ∈ k.matches_.matchServices_ → (w.settled session).matches_.Perm (listed k session)

/-- The report is the list that is kept or, if there is none, what the server comes to run, or it is empty. -/
def Reports (w : World) (session : TCPSessionPtr) (rq : CheckMatchDistributeRQ) : Prop :=
  ∀ k ∈ w.central, RegisteredAs .MatchServer k session →
    if k.uuidOf session ∈ k.matches_.matchServices_ then rq.mids.Perm (listed k session)
    else rq.mids = [] ∨ (w.settled session).matches_.Perm rq.mids

/-- A server that a pass takes in comes to run nothing, or the pass names its list. -/
def TakesIn (w : World) (now : Int) : Prop :=
  ∀ k ∈ w.central, ∀ map ∈ (k.matches_.updateDistMatchServices now).2, ∀ p, RegisteredAs .MatchServer k p →
    k.uuidOf p ∉ k.matches_.matchServices_ →
      (∃ c ∈ k.matches_.changedServices_, c.type = .added ∧ c.service.sid = k.uuidOf p) →
        toUnsigned (k.uuidOf p) ∈ map ∨ (w.settled p).matches_ = []

def Sound (w : World) : Event → Prop
  | .central (.serverRegistRQ session (some rq) _ _) => Registers w session rq
  | .central (.checkMatchDistributeRQ session (some rq) _) => Reports w session rq
  | .central (.updateDistMatchServices now) => TakesIn w now
  | _ => True

/-- The central server's step is `Regular`: a new session gets a uuid that no open one has, no list is sent to a service
that is gone, and the central server survives. The theorems about runs of the cluster are about runs of such steps. -/
def Valid (w : World) : Event → Prop
  | .central e => Regular w.central e
  | .receives _ => True

instance (w : World) : (e : Event) → Decidable (Valid w e)
  | .central e => inferInstanceAs (Decidable (Regular w.central e))
  | .receives _ => .isTrue trivial

instance (t : ServerType) (k : CSKernel) (p : TCPSessionPtr) : Decidable (RegisteredAs t k p) :=
  inferInstanceAs (Decidable (_ ∧ _ ∧ _))

instance (k : CSKernel) (p : TCPSessionPtr) : Decidable (Serves k p) := inferInstanceAs (Decidable (_ ∧ _))

instance (w : World) (session : TCPSessionPtr) (rq : ServerRegisterRQ) : Decidable (Registers w session rq) :=
  inferInstanceAs (Decidable (∀ k ∈ w.central, _ → _ → _ → _ → List.Perm _ _))

instance (w : World) (session : TCPSessionPtr) (rq : CheckMatchDistributeRQ) : Decidable (Reports w session rq) :=
  inferInstanceAs (Decidable (∀ k ∈ w.central, RegisteredAs .MatchServer k session →
    if k.uuidOf session ∈ k.matches_.matchServices_ then rq.mids.Perm (listed k session)
    else rq.mids = [] ∨ (w.settled session).matches_.Perm rq.mids))

instance (w : World) (k : CSKernel) (map : ChangedMatchMap) (p : TCPSessionPtr) :
    Decidable (RegisteredAs .MatchServer k p → k.uuidOf p ∉ k.matches_.matchServices_ →
      (∃ c ∈ k.matches_.changedServices_, c.type = .added ∧ c.service.sid = k.uuidOf p) →
        toUnsigned (k.uuidOf p) ∈ map ∨ (w.settled p).matches_ = []) := inferInstance

/-- Only sessions that were created are registered. -/
instance (w : World) (now : Int) : Decidable (TakesIn w now) :=
  decidable_of_iff (∀ k ∈ w.central, ∀ map ∈ (k.matches_.updateDistMatchServices now).2, ∀ p < k.created,
    RegisteredAs .MatchServer k p → k.uuidOf p ∉ k.matches_.matchServices_ →
      (∃ c ∈ k.matches_.changedServices_, c.type = .added ∧ c.service.sid = k.uuidOf p) →
        toUnsigned (k.uuidOf p) ∈ map ∨ (w.settled p).matches_ = [])
    ⟨fun h k hk map hmap p hp => h k hk map hmap p hp.1.1 hp, fun h k hk map hmap p _ hp => h k hk map hmap p hp⟩

instance (w : World) : (e : Event) → Decidable (Sound w e)
  | .central (.serverRegistRQ session (some rq) _ _) => inferInstanceAs (Decidable (Registers w session rq))
  | .central (.checkMatchDistributeRQ session (some rq) _) => inferInstanceAs (Decidable (Reports w session rq))
  | .central (.updateDistMatchServices now) => inferInstanceAs (Decidable (TakesIn w now))
  | .central (.serverRegistRQ _ none _ _) | .central (.checkMatchDistributeRQ _ none _) | .central (.newSession _)
  | .central (.requestBestGateServer ..) | .central (.onClose ..) | .central (.createdMatches ..)
  | .central (.cancelMatch ..) | .receives _ => .isTrue trivial

/-! ## Lists on the way -/

/-- Messages that name one list at most: it is what the server runs in the end. -/
theorem foldl_lists {msgs : List Msg} {mids : List Int}
    (h : ∀ msg ∈ msgs, Quiet msg ∨ ∃ sid, msg = .matchDistibuteNotify ⟨sid, mids⟩) {m : MSMatchManager}
    (hlist : m.matches_ = mids ∨ ∃ sid, .matchDistibuteNotify ⟨sid, mids⟩ ∈ msgs) :
    (msgs.foldl M2CSession.handlerMsg m).matches_ = mids := by
  induction msgs generalizing m with
  | nil =>
    rcases hlist with hm | ⟨sid, hsid⟩
    · exact hm
    · cases hsid
  | cons msg msgs ih =>
    obtain ⟨hmsg, hmsgs⟩ := List.forall_mem_cons.mp h
    rw [List.foldl_cons]
    rcases hmsg with hquiet | ⟨sid, rfl⟩
    · rw [hquiet]
      refine ih hmsgs (hlist.imp_right ?_)
      rintro ⟨sid, hsid⟩
      rcases List.mem_cons.mp hsid with rfl | hsid
      · exact absurd (congrArg MSMatchManager.matches_ (hquiet ⟨0 :: mids, .empty⟩)) (by
          simp [M2CSession.handlerMsg, MSMatchManager.updateMatches])
      · exact ⟨sid, hsid⟩
    · exact ih hmsgs (.inl rfl)

section Callback

variable {k : CSKernel}

theorem mem_rounds {pairs : List (Int × List Int)} {lists : List (List Packet)}
    (h : List.Forall₂ k.RightRound pairs lists) {packet : Packet} (hpacket : packet ∈ lists.flatten) :
    ∃ pair ∈ pairs, k.Registered pair.1 packet.session ∧
      packet.msg = .matchDistibuteNotify ⟨toSigned pair.1, pair.2⟩ := by
  induction h with
  | nil => cases hpacket
  | @cons pair sent pairs lists hround _ ih =>
    rcases List.mem_append.mp (List.flatten_cons ▸ hpacket) with hin | hin
    · rcases hround with ⟨session, hregistered, rfl⟩ | ⟨-, rfl⟩
      · rw [List.mem_singleton.mp hin]
        exact ⟨pair, List.mem_cons_self, hregistered, rfl⟩
      · cases hin
    · obtain ⟨pair', hpair', hrest⟩ := ih hin
      exact ⟨pair', List.mem_cons_of_mem _ hpair', hrest⟩

theorem round_of_mem {pairs : List (Int × List Int)} {lists : List (List Packet)}
    (h : List.Forall₂ k.RightRound pairs lists) {pair : Int × List Int} (hpair : pair ∈ pairs)
    (hreach : k.Reaches pair.1) : ∃ session, k.Registered pair.1 session ∧
      ⟨session, .matchDistibuteNotify ⟨toSigned pair.1, pair.2⟩⟩ ∈ lists.flatten := by
  induction h with
  | nil => cases hpair
  | @cons first sent pairs lists hround _ ih =>
    rw [List.flatten_cons]
    rcases List.mem_cons.mp hpair with rfl | hpair
    · rcases hround with ⟨session, hregistered, rfl⟩ | ⟨hnone, -⟩
      · exact ⟨session, hregistered, List.mem_append_left _ (List.mem_singleton_self _)⟩
      · obtain ⟨session, hregistered, -⟩ := hreach
        exact absurd hregistered (hnone session)
    · obtain ⟨session, hregistered, hmem⟩ := ih hpair
      exact ⟨session, hregistered, List.mem_append_right _ hmem⟩

/-- Whoever is registered under the uuid of a registered session is that session. -/
theorem Wired.registered_eq (h : Wired k) {p session : TCPSessionPtr} (hp : k.Open p) {key : Int}
    (hkey : key = toUnsigned (k.uuidOf p)) (hregistered : k.Registered key session) : session = p := by
  obtain ⟨hopen, hid, -⟩ := hregistered
  rw [hkey, toSigned_toUnsigned (isInt_uuidOf k p)] at hid
  exact h.session_eq hopen hp hid

/-- What a callback that reaches everyone sends to a registered match server: its list, if it is in the map. -/
theorem Wired.callback_packets (h : Wired k) {m : CSMatchManager} {map : ChangedMatchMap} {k' : CSKernel}
    {sent : List Packet} (hreach : ∀ pair ∈ map.entries, k.Reaches pair.1)
    (heq : k.callback m (some map) = some (k', sent)) {p : TCPSessionPtr} (hp : RegisteredAs .MatchServer k p) :
    (∀ msg ∈ toSession p sent, Quiet msg ∨ ∃ pair ∈ map.entries, pair.1 = toUnsigned (k.uuidOf p) ∧
        msg = .matchDistibuteNotify ⟨toSigned pair.1, pair.2⟩) ∧
      ∀ pair ∈ map.entries, pair.1 = toUnsigned (k.uuidOf p) →
        .matchDistibuteNotify ⟨toSigned pair.1, pair.2⟩ ∈ toSession p sent := by
  have htied : Tied (k.setMatches m) := h.tied.congr rfl rfl rfl rfl
  obtain ⟨lists, hall, hright⟩ := @Tied.sendAllMatches_right (k.setMatches m) htied map.entries hreach
  have hsent : sent = lists.flatten ++ (k.setMatches m).sendAllDistributeMatchInfos none ServerType.GateServer.toInt := by
    rw [callback, distributeMatch, hall] at heq
    exact (Prod.mk.inj (Option.some.inj heq)).2.symm
  rw [hsent]
  refine ⟨fun msg hmsg => ?_, fun pair hpair hkey => ?_⟩
  · rcases List.mem_append.mp (mem_toSession.mp hmsg) with hin | hin
    · obtain ⟨pair, hpair, hregistered, hmsg⟩ := mem_rounds hright hin
      refine .inr ⟨pair, hpair, ?_, hmsg⟩
      obtain ⟨hopen, hid, info, hinfo⟩ := hregistered
      have hself : k.logicID_ p = toSigned pair.1 := hid
      rw [hp.2.2] at hself
      rcases htied.services _ info hinfo with ⟨hcentral, -⟩ | ⟨hkey, q, -, hq, -⟩
      · -- no uuid is the sid of the central server
        have hbound := (h.pooled.slot p hp.1).1
        rw [hcentral, show toSigned kCentralSid = 100000000 by decide, h.pooled.uuid hp.1] at hself
        have hsize : OB_MAX < 100000000 := by decide
        omega
      · have hint : IsInt info.sid := by
          rw [← hq]
          exact isInt_toInt _
        rw [← hkey, toSigned_toUnsigned hint] at hself
        rw [hself, hkey]
    · exact .inl (sendAll_quiet _ hin)
  · obtain ⟨session, hregistered, hmem⟩ := round_of_mem hright hpair (hreach pair hpair)
    obtain rfl := h.registered_eq hp.1 hkey hregistered
    exact mem_toSession.mpr (List.mem_append_left _ hmem)

end Callback

/-! ## The steps -/

/-- What is asked of a world. -/
structure Inv (w : World) : Prop where
  wired : OrCrashed Wired w.central
  agree : Agrees w

section Step

variable {w : World} {k k' : CSKernel} {sent : List Packet}

/-- An event after which everyone that serves has served, with the list it has, and nobody is told anything. -/
theorem agree_after (hw : w.central = some k) (hagree : Agrees w)
    (hserves : ∀ p, Serves k' p → Serves k p ∧ (listed k p).Perm (listed k' p) ∧
      ∀ msg ∈ toSession p sent, Quiet msg) : Agrees (w.after (k', sent)) := by
  intro k₁ hk₁ p hp
  obtain rfl := Option.some.inj hk₁
  obtain ⟨hold, hperm, hquiet⟩ := hserves p hp
  rw [World.settled_after, foldl_quiet hquiet]
  exact (hagree k hw p hold).trans hperm

/-- Agreement after an event, for one session at a time. -/
theorem agree_after_iff : Agrees (w.after (k', sent)) ↔ ∀ p, Serves k' p →
    ((toSession p sent).foldl M2CSession.handlerMsg (w.settled p)).matches_.Perm (listed k' p) := by
  constructor
  · intro h p hp
    rw [← World.settled_after w (k', sent)]
    exact h k' rfl p hp
  · intro h k₁ hk₁ p hp
    obtain rfl := Option.some.inj hk₁
    rw [World.settled_after]
    exact h p hp

theorem toSession_nil (p : TCPSessionPtr) : toSession p [] = [] := rfl

theorem listed_setMatches (m : CSMatchManager) (p : TCPSessionPtr) :
    listed (k.setMatches m) p = getDistMatch m.matchServices_ (k.uuidOf p) := rfl

theorem newSession_agrees (hw : w.central = some k) (hagree : Agrees w) (hwired : Wired k) {type : ServerType}
    (hfresh : k.FreshUuid type) : Agrees (w.after (k.newSession type, [])) := by
  refine agree_after hw hagree fun p hserves => ?_
  obtain ⟨hp, hin⟩ := hserves
  obtain ⟨hp, huuid⟩ := newSession_registered hwired.pooled hfresh hp
  rw [huuid] at hin
  refine ⟨⟨hp, hin⟩, ?_, by simp [toSession_nil]⟩
  rw [listed, listed, huuid]
  rfl

/-- A session that closes changes no list. -/
theorem onClose_matchServices {now : Int} {session : TCPSessionPtr} (heq : k.onClose now session = some k') :
    k'.matches_.matchServices_ = k.matches_.matchServices_ := by
  obtain ⟨-, -, -, ⟨-, -, hm⟩ | ⟨info, -, -, hm⟩⟩ := onClose_some heq
  · rw [hm]
  · rw [hm]
    split_ifs <;> rfl

theorem onClose_agrees (hw : w.central = some k) (hagree : Agrees w) (hwired : Wired k) {now : Int}
    {session : TCPSessionPtr} (hopen : k.Open session) (heq : k.onClose now session = some k') :
    Agrees (w.after (k', [])) := by
  have hms := onClose_matchServices heq
  refine agree_after hw hagree fun p hserves => ?_
  obtain ⟨hp, hin⟩ := hserves
  rw [onClose_uuidOf heq, hms] at hin
  refine ⟨⟨(onClose_registered hwired.pooled hopen heq hp).2, hin⟩, ?_, by simp [toSession_nil]⟩
  rw [listed, listed, hms, onClose_uuidOf heq]

theorem serverRegistRQ_agrees_iff (hw : w.central = some k) (hagree : Agrees w) {now : Int} {session : TCPSessionPtr}
    {rq : ServerRegisterRQ} {order : List (Σ _ : Int, Option ServerInfo)} (hopen : k.Open session)
    (heq : k.serverRegistRQ now session (some rq) order = some (k', sent)) :
    Agrees (w.after (k', sent)) ↔ Registers w session rq := by
  obtain ⟨k₁, key, info, rs, -, henters, hcase, hrs, ⟨toGate, rfl, hgate⟩, rfl⟩ := serverRegistRQ_some heq
  set m := if k.typeOf session = ServerType.MatchServer.toInt then k.matches_.updateMatchService now info else k.matches_
    with hm
  have hms : m.matchServices_ = k.matches_.matchServices_ := by
    rw [hm]
    split_ifs <;> rfl
  have hquiet : ∀ p, ∀ msg ∈ toSession p (rs ++ toGate), Quiet msg := fun p msg hmsg => by
    rcases List.mem_append.mp (mem_toSession.mp hmsg) with hin | hin
    · exact (serverRegistRS_quiet hrs _ hin).1
    · obtain ⟨notify, hnotify⟩ := hgate _ hin
      change msg = _ at hnotify
      rw [hnotify]
      exact fun _ => rfl
  have huuid : ∀ p, (k₁.setMatches m).uuidOf p = k.uuidOf p := uuidOf_congr henters.manager
  have hlisted : ∀ p, listed (k₁.setMatches m) p = listed k p := fun p => by
    rw [listed_setMatches, hms, uuidOf_congr henters.manager]
    rfl
  have hserves : ∀ p, Serves (k₁.setMatches m) p ↔ (k.Open p ∧ k.typeOf p = ServerType.MatchServer.toInt ∧
      k₁.logicID_ p = k.uuidOf p) ∧ k.uuidOf p ∈ k.matches_.matchServices_ := fun p => by
    rw [Serves, RegisteredAs, huuid, open_congr (show (k₁.setMatches m).manager = k.manager from henters.manager)
      henters.created, typeOf_congr (show (k₁.setMatches m).manager = k.manager from henters.manager),
      show (k₁.setMatches m).matches_.matchServices_ = _ from hms]
    rfl
  rw [agree_after_iff]
  simp only [foldl_quiet (hquiet _), hserves, hlisted]
  rcases hcase with ⟨old, hkey, hr, hold, -, hid⟩ | ⟨-, -, hprobe, hid⟩
  · -- a known service: no session gets another `logicID`
    have hprobe : (k.probe rq.sid).2 = some old := by
      rw [probe, if_pos hr, ← hkey, hold]
      rfl
    refine iff_of_true (fun p hp => hagree k hw p ?_) fun k₂ hk₂ _ _ hnone => ?_
    · rw [hid] at hp
      exact hp
    · obtain rfl : k = k₂ := Option.some.inj (hw.symm.trans hk₂)
      rw [hprobe] at hnone
      cases hnone
  · constructor
    · intro hall k₂ hk₂ _ htype _ hin
      obtain rfl : k = k₂ := Option.some.inj (hw.symm.trans hk₂)
      exact hall session ⟨⟨hopen, htype, by simp [hid]⟩, hin⟩
    · intro hregisters p hserve
      obtain ⟨⟨hp, htype, hlogicID⟩, hin⟩ := hserve
      by_cases hsame : p = session
      · rw [hsame] at htype hin ⊢
        exact hregisters k hw hopen htype hprobe hin
      · rw [hid] at hlogicID
        exact hagree k hw p ⟨⟨hp, htype, (if_neg hsame).symm.trans hlogicID⟩, hin⟩

/-- A report on a service that is known: both sides agree afterwards if the report is the list. -/
theorem check_known_iff {s : CSMatchManager} {service : MatchDisService} {e : MatchDisService × List Int}
    (hf : s.matchServices_.find? service.sid = some e) {m : MSMatchManager} (hm : m.matches_.Perm e.2) (now : Int)
    {mids : List Int} {rs : CheckMatchDistributeRS}
    (hresult : rs.result = (checkServiceDistMap s now service mids).2.1.toInt)
    (hmids : rs.mids = if (checkServiceDistMap s now service mids).2.1 = .ErrorMatchServerMore then
      (checkServiceDistMap s now service mids).2.2 else []) :
    (MSKernel.checkMatchDistributeRS m rs).matches_.Perm e.2 ↔ mids.Perm e.2 := by
  unfold MSKernel.checkMatchDistributeRS
  rcases checkServiceDistMap_result hf now mids with ⟨hperm, hres⟩ | ⟨⟨v, hv⟩, hres⟩ | ⟨hle, ⟨v, hv⟩, hres⟩
  · rw [hresult, hres]
    exact iff_of_true hm hperm
  · rw [hresult, hmids, hres, if_pos rfl, checkServiceDistMap_mids hf]
    exact (sort_perm mids).congr_left e.2
  · rw [hresult, hmids, hres]
    refine iff_of_false (fun hnil => ?_) fun hperm => ?_
    · have hcount : 0 = e.2.count v := hnil.count_eq v
      omega
    · rw [hperm.count_eq] at hv
      exact absurd hv (lt_irrefl _)

/-- A report changes no other list. -/
theorem find?_check_other (s : CSMatchManager) (now : Int) (service : MatchDisService) (mids : List Int) {sid : Int}
    (hne : sid ≠ service.sid) :
    (checkServiceDistMap s now service mids).1.matchServices_.find? sid = s.matchServices_.find? sid := by
  cases hf : s.matchServices_.find? service.sid with
  | some e =>
    rw [checkServiceDistMap_known hf]
    exact (OrderedMap.find?_modify _ _ _ _).trans (if_neg hne)
  | none =>
    by_cases hm : mids = []
    · rw [hm, checkServiceDistMap_noMatch hf]
      rfl
    · rw [checkServiceDistMap_adopt hf now hm]
      exact (OrderedMap.find?_assign _ _ _ _).trans (if_neg hne)

theorem check_agrees_iff_reports (hw : w.central = some k) (hagree : Agrees w) (hwired : Wired k) {now : Int}
    {session : TCPSessionPtr} (hopen : k.Open session) (rq : CheckMatchDistributeRQ) :
    Agrees (w.after (k.checkMatchDistributeRQ now session (some rq))) ↔ Reports w session rq := by
  set service : MatchDisService := ⟨k.logicID_ session, CSMatchLoadedEvaluation.evaluate (k.logicID_ session) rq.mids⟩
  set r := checkServiceDistMap k.matches_ now service rq.mids with hr
  set rs : CheckMatchDistributeRS := ⟨k.logicID_ session, k.typeOf session, r.2.1.toInt,
    if r.2.1 = .ErrorMatchServerMore ∨ r.2.1 = .ErrorMatchServerMore then r.2.2 else []⟩ with hrs
  have hcheck : k.checkMatchDistributeRQ now session (some rq) =
      (k.setMatches r.1, [⟨session, .checkMatchDistributeRS rs⟩]) := rfl
  rw [hcheck, agree_after_iff]
  -- the other sessions hear nothing, and their lists stay
  have hothers : ∀ p, p ≠ session → Serves (k.setMatches r.1) p →
      ((toSession p [⟨session, .checkMatchDistributeRS rs⟩]).foldl M2CSession.handlerMsg (w.settled p)).matches_.Perm
        (listed (k.setMatches r.1) p) := by
    intro p hne hserves
    obtain ⟨hp, hin⟩ := hserves
    have hsid : k.uuidOf p ≠ service.sid := fun hsame => hne (hwired.session_eq hopen hp.1 hsame.symm).symm
    have hfind := find?_check_other k.matches_ now service rq.mids hsid
    have hlisted : listed (k.setMatches r.1) p = listed k p := by
      rw [listed_setMatches, listed, getDistMatch, hfind, getDistMatch]
    have hserved : k.uuidOf p ∈ k.matches_.matchServices_ := by
      obtain ⟨e, he⟩ := OrderedMap.mem_iff.mp hin
      exact OrderedMap.mem_iff.mpr ⟨e, hfind.symm.trans he⟩
    rw [hlisted, show toSession p [⟨session, .checkMatchDistributeRS rs⟩] = [] by simp [toSession, hne.symm]]
    exact hagree k hw p ⟨hp, hserved⟩
  have hself : toSession session [⟨session, .checkMatchDistributeRS rs⟩] = [.checkMatchDistributeRS rs] := by
    simp [toSession]
  -- so only the session that reports is in question
  have hreduce : (∀ p, Serves (k.setMatches r.1) p →
      ((toSession p [⟨session, .checkMatchDistributeRS rs⟩]).foldl M2CSession.handlerMsg (w.settled p)).matches_.Perm
        (listed (k.setMatches r.1) p)) ↔
      (RegisteredAs .MatchServer k session → k.uuidOf session ∈ r.1.matchServices_ →
        (MSKernel.checkMatchDistributeRS (w.settled session) rs).matches_.Perm
          (getDistMatch r.1.matchServices_ (k.uuidOf session))) := by
    refine ⟨fun hall hregistered hin => ?_, fun hone p hserves => ?_⟩
    · have hmine := hall session ⟨hregistered, hin⟩
      rw [hself] at hmine
      exact hmine
    · by_cases hp : p = session
      · rw [hp] at hserves ⊢
        rw [hself]
        exact hone hserves.1 hserves.2
      · exact hothers p hp hserves
  have hreports : Reports w session rq ↔ (RegisteredAs .MatchServer k session →
      if k.uuidOf session ∈ k.matches_.matchServices_ then rq.mids.Perm (listed k session)
      else rq.mids = [] ∨ (w.settled session).matches_.Perm rq.mids) :=
    ⟨fun h => h k hw, fun h k₂ hk₂ => Option.some.inj (hw.symm.trans hk₂) ▸ h⟩
  rw [hreduce, hreports]
  refine forall_congr' fun hregistered => ?_
  have hsid : k.uuidOf session = service.sid := hregistered.2.2.symm
  cases hf : k.matches_.matchServices_.find? service.sid with
  | some e =>
    have hin : k.uuidOf session ∈ k.matches_.matchServices_ := by
      rw [hsid]
      exact OrderedMap.mem_iff.mpr ⟨e, hf⟩
    have hlist : listed k session = e.2 := by rw [listed, hsid, getDistMatch, hf]
    have hms : r.1.matchServices_ = k.matches_.matchServices_.modify service.sid sort := by
      rw [hr, checkServiceDistMap_known hf]
    have hsorted : getDistMatch r.1.matchServices_ (k.uuidOf session) = sort e.2 := by
      rw [hms, hsid, getDistMatch, OrderedMap.find?_modify, if_pos rfl, hf]
      rfl
    have hold : (w.settled session).matches_.Perm e.2 := hlist ▸ hagree k hw session ⟨hregistered, hin⟩
    have hthere : k.uuidOf session ∈ r.1.matchServices_ := by
      rw [hms]
      exact OrderedMap.mem_modify.mpr hin
    rw [if_pos hin, hlist, hsorted, forall_prop_of_true hthere, (sort_perm e.2).congr_right]
    exact check_known_iff hf hold now rfl (by simp [hrs, hr])
  | none =>
    have hnot : k.uuidOf session ∉ k.matches_.matchServices_ := by
      rw [hsid]
      exact OrderedMap.not_mem_iff.mpr hf
    rw [if_neg hnot]
    by_cases hm : rq.mids = []
    · have hms : r.1.matchServices_ = k.matches_.matchServices_ := by
        rw [hr, hm, checkServiceDistMap_noMatch hf]
        rfl
      rw [hms]
      exact iff_of_true (fun hin => absurd hin hnot) (.inl hm)
    · have hms : r.1.matchServices_ = k.matches_.matchServices_.assign service rq.mids := by
        rw [hr, checkServiceDistMap_adopt hf now hm]
      have hres : rs.result = 4 := by
        rw [hrs, hr]
        dsimp only
        rw [checkServiceDistMap_unknown_result hf, if_pos (List.length_pos_iff.mpr hm)]
        rfl
      have hsame : MSKernel.checkMatchDistributeRS (w.settled session) rs = w.settled session := by
        rw [MSKernel.checkMatchDistributeRS, hres]
        rfl
      have hin : k.uuidOf session ∈ r.1.matchServices_ := by
        rw [hms, hsid]
        exact OrderedMap.mem_assign.mpr (.inl rfl)
      have hlist : getDistMatch r.1.matchServices_ (k.uuidOf session) = rq.mids := by
        rw [hms, hsid, getDistMatch, OrderedMap.find?_assign, if_pos rfl, hf]
      rw [hsame, hlist, or_iff_right hm]
      exact ⟨fun h => h hin, fun h _ => h⟩

/-- A callback that names to each server its new list: those it does not name have to run theirs already. -/
theorem callback_agrees_iff (hwired : Wired k) {m : CSMatchManager} {map : ChangedMatchMap}
    (hreach : ∀ pair ∈ map.entries, k.Reaches pair.1) (heq : k.callback m (some map) = some (k', sent))
    (hlists : ∀ pair ∈ map.entries, ∀ p, RegisteredAs .MatchServer k p → pair.1 = toUnsigned (k.uuidOf p) →
      pair.2 = getDistMatch m.matchServices_ (k.uuidOf p)) :
    Agrees (w.after (k', sent)) ↔ ∀ p, RegisteredAs .MatchServer k p → k.uuidOf p ∈ m.matchServices_ →
      toUnsigned (k.uuidOf p) ∉ map → (w.settled p).matches_.Perm (getDistMatch m.matchServices_ (k.uuidOf p)) := by
  obtain rfl : k' = k.setMatches m := by
    refine callback_of_mem (fun map' hmap pair hpair => ?_) heq
    obtain rfl := Option.some.inj hmap
    exact (hreach pair hpair).mem
  rw [agree_after_iff]
  have hpackets : ∀ p, RegisteredAs .MatchServer k p → _ := fun p hp => hwired.callback_packets hreach heq hp
  constructor
  · intro hall p hp hin hnot
    have hquiet : ∀ msg ∈ toSession p sent, Quiet msg := fun msg hmsg => by
      rcases (hpackets p hp).1 msg hmsg with hquiet | ⟨pair, hpair, hkey, -⟩
      · exact hquiet
      · exact absurd (OrderedMap.mem_of_mem_entries hpair) (hkey ▸ hnot)
    have hmine := hall p ⟨hp, hin⟩
    rw [foldl_quiet hquiet] at hmine
    exact hmine
  · intro hunnamed p hserves
    obtain ⟨hp, hin⟩ := hserves
    replace hp : RegisteredAs .MatchServer k p := hp
    rw [listed_setMatches]
    by_cases hnamed : toUnsigned (k.uuidOf p) ∈ map
    · obtain ⟨pair, hpair, hkey⟩ := hnamed
      have hall : ∀ msg ∈ toSession p sent, Quiet msg ∨
          ∃ sid, msg = .matchDistibuteNotify ⟨sid, getDistMatch m.matchServices_ (k.uuidOf p)⟩ := fun msg hmsg => by
        rcases (hpackets p hp).1 msg hmsg with hquiet | ⟨pair, hpair, hkey, rfl⟩
        · exact .inl hquiet
        · exact .inr ⟨toSigned pair.1, by rw [hlists pair hpair p hp hkey]⟩
      have hone := (hpackets p hp).2 pair hpair hkey
      rw [hlists pair hpair p hp hkey] at hone
      rw [foldl_lists hall (.inr ⟨_, hone⟩)]
    · have hquiet : ∀ msg ∈ toSession p sent, Quiet msg := fun msg hmsg => by
        rcases (hpackets p hp).1 msg hmsg with hquiet | ⟨pair, hpair, hkey, -⟩
        · exact hquiet
        · exact absurd (hkey ▸ OrderedMap.mem_of_mem_entries hpair) hnamed
      rw [foldl_quiet hquiet]
      exact hunnamed p hp hin hnamed

/-- Nothing is called back: the services are as before. -/
theorem quiet_agrees (hw : w.central = some k) (hagree : Agrees w) {m : CSMatchManager}
    (hms : m.matchServices_ = k.matches_.matchServices_) : Agrees (w.after (k.setMatches m, [])) := by
  refine agree_after hw hagree fun p hserves => ⟨⟨hserves.1, hms ▸ hserves.2⟩, ?_, by simp [toSession_nil]⟩
  rw [listed_setMatches, hms]
  rfl

/-- A pass that announces nothing changes no list. -/
theorem matchServices_of_no_map {s : CSMatchManager} {now : Int} (h : (s.updateDistMatchServices now).2 = none) :
    (s.updateDistMatchServices now).1.matchServices_ = s.matchServices_ := by
  rcases updateDistMatchServices_cases s now with ⟨hgate, -⟩ | ⟨-, hs⟩
  · have hmap : (s.updateDistMatchServices now).2 = some (applyChanges (stopTimerCheckDistMatchServices s)).2 :=
      congrArg Prod.snd (if_pos hgate)
    rw [h] at hmap
    cases hmap
  · rw [hs]

theorem pass_agrees_iff (hw : w.central = some k) (hagree : Agrees w) (hwired : Wired k) {now : Int}
    (hreach : ∀ map ∈ (k.matches_.updateDistMatchServices now).2, ∀ pair ∈ map.entries, k.Reaches pair.1)
    (heq : k.callback (k.matches_.updateDistMatchServices now).1 (k.matches_.updateDistMatchServices now).2 =
      some (k', sent)) : Agrees (w.after (k', sent)) ↔ TakesIn w now := by
  have htakes : TakesIn w now ↔ ∀ map ∈ (k.matches_.updateDistMatchServices now).2, ∀ p, RegisteredAs .MatchServer k p →
      k.uuidOf p ∉ k.matches_.matchServices_ →
        (∃ c ∈ k.matches_.changedServices_, c.type = .added ∧ c.service.sid = k.uuidOf p) →
          toUnsigned (k.uuidOf p) ∈ map ∨ (w.settled p).matches_ = [] :=
    ⟨fun h => h k hw, fun h k₂ hk₂ => Option.some.inj (hw.symm.trans hk₂) ▸ h⟩
  rw [htakes]
  set t := stopTimerCheckDistMatchServices k.matches_ with ht
  by_cases hgate : checkDistMatchServices k.matches_ now = true
  · have hpass : k.matches_.updateDistMatchServices now = ((applyChanges t).1, some (applyChanges t).2) := if_pos hgate
    have hknown : Known t := ⟨hwired.known.addedNew, hwired.known.ints⟩
    rw [hpass] at heq hreach ⊢
    rw [callback_agrees_iff hwired (hreach _ rfl) heq fun pair hpair p _ hkey => ?_]
    · have hkept : ∀ p, k.uuidOf p ∈ (applyChanges t).1.matchServices_ → toUnsigned (k.uuidOf p) ∉ (applyChanges t).2 →
          getDistMatch (applyChanges t).1.matchServices_ (k.uuidOf p) = listed k p := fun p =>
        applyChanges_kept hknown.addedNew
      constructor
      · intro hall map hmap p hp hnew hadded
        obtain rfl := Option.some.inj hmap
        by_cases hnamed : toUnsigned (k.uuidOf p) ∈ (applyChanges t).2
        · exact .inl hnamed
        · have hin : k.uuidOf p ∈ (applyChanges t).1.matchServices_ := mem_applyChanges.mpr (.inr hadded)
          have hmine := hall p hp hin hnamed
          rw [hkept p hin hnamed, listed, getDistMatch, OrderedMap.not_mem_iff.mp hnew] at hmine
          exact .inr hmine.eq_nil
      · intro htakesIn p hp hin hnamed
        rw [hkept p hin hnamed]
        by_cases hold : k.uuidOf p ∈ k.matches_.matchServices_
        · exact hagree k hw p ⟨hp, hold⟩
        · rcases mem_applyChanges.mp hin with ⟨hthere, -⟩ | hadded
          · exact absurd hthere hold
          · rcases htakesIn _ rfl p hp hold hadded with hmap | hnil
            · exact absurd hmap hnamed
            · rw [hnil, listed, getDistMatch, OrderedMap.not_mem_iff.mp hold]
    · obtain ⟨sid, hsid, hlist⟩ := announced_lists hknown pair hpair
      rw [hlist] at hkey ⊢
      rw [toUnsigned_inj (hknown.ints sid (mem_applyChanges.mp hsid)) (isInt_uuidOf k p) hkey]
  · have hpass : (k.matches_.updateDistMatchServices now).2 = none := congrArg Prod.snd (if_neg hgate)
    have hms := matchServices_of_no_map hpass
    rw [hpass] at heq ⊢
    obtain ⟨rfl, rfl⟩ := Prod.mk.inj (Option.some.inj heq)
    exact iff_of_true (quiet_agrees hw hagree hms) fun map hmap => absurd hmap (Option.not_mem_none map)

/-- A cancellation takes the match out of one list at most, and names that list. -/
theorem cancelMatch_names (s : CSMatchManager) (mid reason : Int) :
    ((cancelMatch s mid reason).changed = none ∧
      (cancelMatch s mid reason).manager.matchServices_ = s.matchServices_) ∨
    ∃ sid e, s.matchServices_.find? sid = some e ∧
      (cancelMatch s mid reason).manager.matchServices_ = s.matchServices_.modify sid (·.filter (· ≠ mid)) ∧
      (cancelMatch s mid reason).changed = some (OrderedMap.empty.assign (toUnsigned sid) (e.2.filter (· ≠ mid))) := by
  unfold cancelMatch
  cases getMatch s mid with
  | none => exact .inl ⟨rfl, rfl⟩
  | some m =>
    dsimp only
    by_cases hstate : m.match_state > ENUM_STATE_READY
    · rw [if_pos hstate]
      exact .inl ⟨rfl, rfl⟩
    · rw [if_neg hstate]
      by_cases hpos : getService s mid > 0
      · rw [if_pos hpos]
        cases hf : s.matchServices_.find? (getService s mid) with
        | none => exact .inl ⟨rfl, rfl⟩
        | some e => exact .inr ⟨_, e, hf, rfl, rfl⟩
      · rw [if_neg hpos]
        exact .inl ⟨rfl, rfl⟩

theorem cancel_agrees (hw : w.central = some k) (hagree : Agrees w) (hwired : Wired k) {mid reason : Int}
    (hreach : ∀ map ∈ (k.matches_.cancelMatch mid reason).changed, ∀ pair ∈ map.entries, k.Reaches pair.1)
    (heq : k.callback (k.matches_.cancelMatch mid reason).manager (k.matches_.cancelMatch mid reason).changed =
      some (k', sent)) : Agrees (w.after (k', sent)) := by
  rcases cancelMatch_names k.matches_ mid reason with ⟨hnone, hms⟩ | ⟨sid, e, hf, hms, hchanged⟩
  · rw [hnone] at heq
    obtain ⟨rfl, rfl⟩ := Prod.mk.inj (Option.some.inj heq)
    exact quiet_agrees hw hagree hms
  · rw [hchanged] at heq hreach
    have hint : IsInt sid := hwired.known.keys sid (OrderedMap.mem_iff.mpr ⟨e, hf⟩)
    have hsame : ∀ p, toUnsigned sid = toUnsigned (k.uuidOf p) → sid = k.uuidOf p := fun p =>
      toUnsigned_inj hint (isInt_uuidOf k p)
    have hlist : ∀ i, getDistMatch (cancelMatch k.matches_ mid reason).manager.matchServices_ i =
        if i = sid then e.2.filter (· ≠ mid) else getDistMatch k.matches_.matchServices_ i := fun i => by
      rw [hms, getDistMatch, OrderedMap.find?_modify]
      split_ifs with hi
      · rw [hi, hf]
        rfl
      · rfl
    refine (callback_agrees_iff hwired (hreach _ rfl) heq fun pair hpair p _ hkey => ?_).mpr fun p hp hin hnot => ?_
    · rcases (OrderedMap.mem_assign_entries (OrderedMap.not_mem_empty _)).mp hpair with rfl | hpair
      · rw [hlist, if_pos (hsame p hkey).symm]
      · cases hpair
    · have hne : k.uuidOf p ≠ sid := fun hp => hnot (OrderedMap.mem_assign.mpr (.inl (by rw [hp]; rfl)))
      rw [hlist, if_neg hne]
      refine hagree k hw p ⟨hp, ?_⟩
      rw [hms] at hin
      exact OrderedMap.mem_modify.mp hin

/-- The central server is as before, and what it sends is about no list. -/
theorem idle_agrees (hw : w.central = some k) (hagree : Agrees w)
    (hquiet : ∀ packet ∈ sent, Quiet packet.msg ∧ Silent packet.msg) : Agrees (w.after (k, sent)) :=
  agree_after hw hagree fun _ hserves => ⟨hserves, .refl _, fun _ hmsg => (hquiet _ (mem_toSession.mp hmsg)).1⟩

/-- Nothing is asked of an event that is dropped. -/
theorem sound_of_dropped (hw : w.central = some k) {e : CSKernel.Event} (hdropped : Dropped k e) : Sound w (.central e) := by
  have hsame : ∀ k₂ ∈ w.central, k₂ = k := fun k₂ hk₂ => (Option.some.inj (hw.symm.trans hk₂)).symm
  cases e with
  | serverRegistRQ session rq now order =>
    cases rq with
    | none => trivial
    | some rq =>
      intro k₂ hk₂ hopen
      exact absurd (hdropped (hsame k₂ hk₂ ▸ hopen)) (Option.some_ne_none rq)
  | checkMatchDistributeRQ session rq now =>
    cases rq with
    | none => trivial
    | some rq =>
      intro k₂ hk₂ hregistered
      rw [hsame k₂ hk₂] at hregistered
      exact absurd (hdropped hregistered.1 hregistered.2.1) (Option.some_ne_none rq)
  | updateDistMatchServices now => exact hdropped.elim
  | newSession type => trivial
  | requestBestGateServer session parsed => trivial
  | onClose session now => trivial
  | cancelMatch mid reason => trivial
  | createdMatches ms now => trivial

theorem handle_agrees_iff {e : CSKernel.Event} (hw : w.central = some k) (hagree : Agrees w) (hwired : Wired k)
    (hregular : Regular (some k) e) (heq : k.handle e = some (k', sent)) :
    Agrees (w.after (k', sent)) ↔ Sound w (.central e) := by
  obtain ⟨hfresh, hreaches, -⟩ := hregular
  have hreach := hreaches k rfl
  cases acts heq with
  | dropped hdropped hquiet => exact iff_of_true (idle_agrees hw hagree hquiet) (sound_of_dropped hw hdropped)
  | newSession haccepts => exact iff_of_true (newSession_agrees hw hagree hwired (hfresh k rfl haccepts)) trivial
  | serverRegistRQ hopen hrq => exact serverRegistRQ_agrees_iff hw hagree hopen hrq
  | checkMatchDistributeRQ hopen _ hcheck =>
    rw [← hcheck]
    exact check_agrees_iff_reports hw hagree hwired hopen _
  | onClose hopen hclose => exact iff_of_true (onClose_agrees hw hagree hwired hopen hclose) trivial
  | updateDistMatchServices hcall =>
    exact pass_agrees_iff hw hagree hwired (fun map hmap => hreach (_, map) (Option.mem_map_of_mem _ hmap)) hcall
  | cancelMatch hcall =>
    refine iff_of_true ?_ trivial
    exact cancel_agrees hw hagree hwired (fun map hmap => hreach (_, map) (Option.mem_map_of_mem _ hmap)) hcall
  | createdMatches => exact iff_of_true (quiet_agrees hw hagree rfl) trivial

/-- A valid step keeps the wiring. -/
theorem step_wired {e : Event} (hw : OrCrashed Wired w.central) (hvalid : Valid w e) :
    OrCrashed Wired (w.step e).central := by
  intro k₁ hk₁
  cases e with
  | receives p => exact hw k₁ ((w.receives_frame p).1 ▸ hk₁)
  | central e =>
    rw [World.central_step] at hk₁
    rcases hcentral : w.central with _ | k
    · rw [hcentral] at hk₁
      cases hk₁
    · rw [hcentral] at hk₁
      obtain ⟨⟨k', sent⟩, hhandle, rfl⟩ := Option.map_eq_some_iff.mp hk₁
      exact handle_wired (hw k hcentral) (hcentral ▸ hvalid) hhandle

theorem step_agrees_iff {e : Event} (hw : OrCrashed Wired w.central) (hagree : Agrees w) (hvalid : Valid w e) :
    Agrees (w.step e) ↔ Sound w e := by
  cases e with
  | receives p =>
    obtain ⟨hcentral, hframe⟩ := w.receives_frame p
    refine iff_of_true (fun k hk q hq => ?_) trivial
    rw [(hframe q).1]
    exact hagree k (hcentral ▸ hk) q hq
  | central e =>
    have hregular : Regular w.central e := hvalid
    rcases hcentral : w.central with _ | k
    · have halive := hregular.2.2
      rw [hcentral] at halive
      cases halive
    · rw [hcentral] at hregular
      obtain ⟨⟨k', sent⟩, hhandle⟩ := Option.isSome_iff_exists.mp (Option.isSome_map.symm.trans hregular.2.2)
      rw [World.step_central hcentral hhandle]
      exact handle_agrees_iff hcentral hagree (hw k hcentral) hregular hhandle

end Step

/-! ## Runs -/

/-- The cluster at first: the central server has read `stored`, and nothing is connected. -/
def first (now : Int) (stored : MatchMap) (listenInfos : List ServerInfo.Listener)
    (others : TCPSessionPtr → MSMatchManager) : World :=
  .start others (.start .empty (.initialized now stored) listenInfos now)

theorem first_inv (now : Int) (stored : MatchMap) (listenInfos : List ServerInfo.Listener)
    (others : TCPSessionPtr → MSMatchManager) : Inv (first now stored listenInfos others) := by
  refine ⟨fun k hk => ?_, fun k hk p hp => ?_⟩
  · obtain rfl := Option.some.inj hk
    exact start_wired now stored listenInfos
  · obtain rfl := Option.some.inj hk
    exact absurd hp.1.1.1 (Nat.not_lt_zero p)

theorem run_wired {w : World} {es : List Event} (hw : OrCrashed Wired w.central) (hvalid : Runs.Along World.step Valid w es) :
    OrCrashed Wired (Runs.run World.step w es).central :=
  Runs.inv_run_along (q := fun w : World => OrCrashed Wired w.central) (fun _ _ hw hv => step_wired hw hv) hw hvalid

/-- **Match servers come to run their lists**: in a run that the central server survives, in which new sessions get uuids
of their own (`FreshSession`) and no list is told to a server that is gone, every match server that matches are given to
comes to run its list, at every moment, if and only if no server registers under the sid of another one's list, every
report is what `Reports` says, and no pass takes in a server that runs something without naming its list. -/
theorem agree_iff_sound (now : Int) (stored : MatchMap) (listenInfos : List ServerInfo.Listener)
    (others : TCPSessionPtr → MSMatchManager) (es : List Event)
    (hvalid : Runs.Along World.step Valid (first now stored listenInfos others) es) :
    Runs.Always World.step Agrees (first now stored listenInfos others) es ↔
      Runs.Along World.step Sound (first now stored listenInfos others) es :=
  @Runs.always_iff_along_of_inv _ _ World.step Inv Agrees Valid Sound (fun _ h => h.agree)
    (fun _ _ h hv => step_agrees_iff h.wired h.agree hv)
    (fun _ _ h hv hok => ⟨step_wired h.wired hv, (step_agrees_iff h.wired h.agree hv).mpr hok⟩)
    _ _ (first_inv now stored listenInfos others) hvalid

/-- Two match servers register and get a match each; one is told, is asked what it runs, and is lost. -/
def twoServers : List Event :=
  [.central (.newSession .MatchServer), .central (.serverRegistRQ 0 (some { sid := -1, connectTypes := [] }) 1 []),
    .central (.newSession .MatchServer), .central (.serverRegistRQ 1 (some { sid := -1, connectTypes := [] }) 2 []),
    .central (.updateDistMatchServices 27), .receives 0, .receives 0,
    .central (.checkMatchDistributeRQ 0 (some ⟨0, 3, [7]⟩) 28), .central (.onClose 1 30),
    .central (.updateDistMatchServices 60)]

theorem twoServers_valid : Runs.Along World.step Valid (first 0 (sampleMatches [7, 8]) [] fun _ => {}) twoServers := by
  decide

theorem agree_iff_sound_two :
    Runs.Along World.step Valid (first 0 (sampleMatches [7, 8]) [] fun _ => {}) twoServers ∧
      (Runs.Always World.step Agrees (first 0 (sampleMatches [7, 8]) [] fun _ => {}) twoServers ↔
        Runs.Along World.step Sound (first 0 (sampleMatches [7, 8]) [] fun _ => {}) twoServers) :=
  ⟨twoServers_valid, agree_iff_sound 0 (sampleMatches [7, 8]) [] (fun _ => {}) twoServers twoServers_valid⟩

/-- **No match server that is there is forgotten**: in a run that the central server survives, in which new sessions get
uuids of their own and no list is told to a server that is gone, after a pass that runs every registered match server is
one that matches are given to. -/
theorem registered_served (now : Int) (stored : MatchMap) (listenInfos : List ServerInfo.Listener)
    (others : TCPSessionPtr → MSMatchManager) (es : List Event) (time : Int)
    (hvalid : Runs.Along World.step Valid (first now stored listenInfos others)
      (es ++ [.central (.updateDistMatchServices time)])) :
    ∀ k ∈ (Runs.run World.step (first now stored listenInfos others) es).central,
      checkDistMatchServices k.matches_ time = true →
      ∀ k' ∈ (Runs.run World.step (first now stored listenInfos others)
        (es ++ [.central (.updateDistMatchServices time)])).central, ∀ p, RegisteredAs .MatchServer k' p → Serves k' p := by
  intro k hk hgate k' hk' p hp
  obtain ⟨hbefore, hpass, -⟩ := Runs.along_append.mp hvalid
  have hwired := run_wired (first_inv now stored listenInfos others).wired hbefore k hk
  rw [Runs.run_append, Runs.run_cons, Runs.run_nil, World.central_step, hk] at hk'
  obtain ⟨⟨k₁, sent⟩, hhandle, rfl⟩ := Option.map_eq_some_iff.mp hk'
  have hreach : ReachesAll (some k) (.updateDistMatchServices time) := hk ▸ hpass.2.1
  obtain rfl : k₁ = k.setMatches (k.matches_.updateDistMatchServices time).1 := callback_of_mem
    (fun map hmap pair hpair => (hreach k rfl (_, map) (Option.mem_map_of_mem _ hmap) pair hpair).mem) hhandle
  exact ⟨hp, (mem_services_pass hgate _).mpr (hwired.served p hp)⟩

/-- The first pass of `twoServers` leaves both of them among the services. -/
theorem registered_served_two :
    Runs.Along World.step Valid (first 0 (sampleMatches [7, 8]) [] fun _ => {}) (twoServers.take 5) ∧
      ∀ k ∈ (Runs.run World.step (first 0 (sampleMatches [7, 8]) [] fun _ => {}) (twoServers.take 4)).central,
        checkDistMatchServices k.matches_ 27 = true →
        ∀ k' ∈ (Runs.run World.step (first 0 (sampleMatches [7, 8]) [] fun _ => {}) (twoServers.take 5)).central,
          ∀ p, RegisteredAs .MatchServer k' p → Serves k' p :=
  ⟨(Runs.along_append.mp twoServers_valid).1, registered_served 0 (sampleMatches [7, 8]) [] (fun _ => {})
    (twoServers.take 4) 27 (Runs.along_append.mp twoServers_valid).1⟩

end AsioUtils.Cluster
