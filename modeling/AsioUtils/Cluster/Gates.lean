import AsioUtils.Cluster.MatchServers
import AsioUtils.GateWay.MatchRoutes

/-!
# Gates route to servers that run the match

A gate routes by the last distribution it was told. The central server tells it at its registration, with every pass
that runs and with every cancellation that takes a match out of a list; it does not when it adopts a list.

* `Informed` : what every gate comes to know is what the central server keeps;
* `informed_iff_no_adoption` : a run keeps that exactly if no list is adopted while a gate is registered;
* `routes_are_hosted` : then a gate that has handled everything lists for a match server exactly what that runs.
-/

namespace AsioUtils.Cluster

open CPG StdList CentralServer CentralServer.CSMatchManager CentralServer.CSKernel MatchServer
open Net hiding Packet

/-- The distribution has the lists that are kept, service by service and each in some order. -/
def Announces (k : CSKernel) (notify : ServerAllMatchDistributeNotify) : Prop :=
  List.Forall₂ (fun service e => service.sid = e.1.sid ∧ service.mid.Perm e.2) notify k.matches_.matchServices_.entries

def Informed (w : World) : Prop :=
  ∀ k ∈ w.central, ∀ p, RegisteredAs .GateServer k p → ∃ notify, w.told p = some notify ∧ Announces k notify

/-- No list is adopted while a gate is registered. -/
def NoAdoption (w : World) : Event → Prop
  | .central (.checkMatchDistributeRQ session (some rq) _) =>
    ∀ k ∈ w.central, k.Open session → k.typeOf session = ServerType.MatchServer.toInt →
      k.logicID_ session ∉ k.matches_.matchServices_ → rq.mids ≠ [] → ∀ p, ¬ RegisteredAs .GateServer k p
  | _ => True

instance (w : World) : (e : Event) → Decidable (NoAdoption w e)
  | .central (.checkMatchDistributeRQ session (some rq) _) =>
    decidable_of_iff (∀ k ∈ w.central, k.Open session → k.typeOf session = ServerType.MatchServer.toInt →
      k.logicID_ session ∉ k.matches_.matchServices_ → rq.mids ≠ [] → ∀ p < k.created, ¬ RegisteredAs .GateServer k p)
      ⟨fun h k hk hopen htype hnew hmids p hp => h k hk hopen htype hnew hmids p hp.1.1 hp,
        fun h k hk hopen htype hnew hmids p _ => h k hk hopen htype hnew hmids p⟩
  | .central (.serverRegistRQ ..) | .central (.checkMatchDistributeRQ _ none _) | .central (.newSession _)
  | .central (.updateDistMatchServices _) | .central (.requestBestGateServer ..) | .central (.onClose ..)
  | .central (.createdMatches ..) | .central (.cancelMatch ..) | .receives _ => .isTrue trivial

/-- What is kept right now, as it is told. -/
def distribution (k : CSKernel) : ServerAllMatchDistributeNotify :=
  k.matches_.matchServices_.entries.map fun e => ⟨e.1.sid, e.2⟩

theorem announces_distribution (k : CSKernel) : Announces k (distribution k) := by
  unfold Announces distribution
  induction k.matches_.matchServices_.entries with
  | nil => exact .nil
  | cons e es ih => exact .cons ⟨rfl, .refl _⟩ ih

theorem Announces.congr {k k' : CSKernel} {notify : ServerAllMatchDistributeNotify} (h : Announces k notify)
    (hms : k'.matches_.matchServices_ = k.matches_.matchServices_) : Announces k' notify := by
  unfold Announces
  rw [hms]
  exact h

/-! ## What is told -/

theorem handler_silent {msg : Msg} (h : Silent msg) (told : Option ServerAllMatchDistributeNotify) :
    G2CSession.handlerMsg told msg = told := by
  cases msg with
  | allMatchDistributeNotify notify => exact absurd rfl (h notify)
  | _ => rfl

theorem foldl_silent {msgs : List Msg} (h : ∀ msg ∈ msgs, Silent msg) (told : Option ServerAllMatchDistributeNotify) :
    msgs.foldl G2CSession.handlerMsg told = told := by
  induction msgs with
  | nil => rfl
  | cons msg msgs ih =>
    obtain ⟨hmsg, hmsgs⟩ := List.forall_mem_cons.mp h
    rw [List.foldl_cons, handler_silent hmsg, ih hmsgs]

/-- Messages that tell one distribution at most. -/
theorem foldl_told {msgs : List Msg} {notify : ServerAllMatchDistributeNotify}
    (h : ∀ msg ∈ msgs, Silent msg ∨ msg = .allMatchDistributeNotify notify)
    {told : Option ServerAllMatchDistributeNotify}
    (htold : told = some notify ∨ .allMatchDistributeNotify notify ∈ msgs) :
    msgs.foldl G2CSession.handlerMsg told = some notify := by
  induction msgs generalizing told with
  | nil => exact htold.resolve_right nofun
  | cons msg msgs ih =>
    obtain ⟨hmsg, hmsgs⟩ := List.forall_mem_cons.mp h
    rw [List.foldl_cons]
    rcases hmsg with hsilent | rfl
    · rw [handler_silent hsilent]
      refine ih hmsgs (htold.imp_right fun hin => ?_)
      exact (List.mem_cons.mp hin).resolve_left fun heq => hsilent notify heq.symm
    · exact ih hmsgs (.inl rfl)

section Step

variable {w : World} {k k' : CSKernel} {sent : List Packet}

theorem informed_after_iff : Informed (w.after (k', sent)) ↔ ∀ p, RegisteredAs .GateServer k' p →
    ∃ notify, (toSession p sent).foldl G2CSession.handlerMsg (w.told p) = some notify ∧ Announces k' notify := by
  constructor
  · intro h p hp
    rw [← World.told_after w (k', sent)]
    exact h k' rfl p hp
  · intro h k₁ hk₁ p hp
    obtain rfl := Option.some.inj hk₁
    rw [World.told_after]
    exact h p hp

/-- Every gate that is registered was so, the lists are as before up to order, and nobody is told anything. -/
theorem informed_after (hw : w.central = some k) (hinformed : Informed w)
    (hgates : ∀ p, RegisteredAs .GateServer k' p → RegisteredAs .GateServer k p) (hsilent : ∀ packet ∈ sent, Silent packet.msg)
    (hlists : ∀ notify, Announces k notify → Announces k' notify) : Informed (w.after (k', sent)) := by
  refine informed_after_iff.mpr fun p hp => ?_
  obtain ⟨notify, htold, hannounces⟩ := hinformed k hw p (hgates p hp)
  rw [foldl_silent fun msg hmsg => hsilent _ (mem_toSession.mp hmsg)]
  exact ⟨notify, htold, hlists notify hannounces⟩

theorem newSession_informed (hw : w.central = some k) (hinformed : Informed w) (hwired : Wired k) {type : ServerType}
    (hfresh : k.FreshUuid type) : Informed (w.after (k.newSession type, [])) :=
  informed_after hw hinformed (fun _ hp => (newSession_registered hwired.pooled hfresh hp).1) (by simp) fun _ h => h

theorem onClose_informed (hw : w.central = some k) (hinformed : Informed w) (hwired : Wired k) {now : Int}
    {session : TCPSessionPtr} (hopen : k.Open session) (heq : k.onClose now session = some k') :
    Informed (w.after (k', [])) :=
  informed_after hw hinformed (fun _ hp => (onClose_registered hwired.pooled hopen heq hp).2) (by simp)
    fun _ h => h.congr (onClose_matchServices heq)

/-- What a registration sends: to a gate, after the reply and the notifies, what is kept. -/
theorem serverRegistRQ_sent {now : Int} {session : TCPSessionPtr} {rq : ServerRegisterRQ}
    {order : List (Σ _ : Int, Option ServerInfo)} (heq : k.serverRegistRQ now session (some rq) order = some (k', sent)) :
    ∃ rs, (∀ packet ∈ rs, Silent packet.msg) ∧ sent = rs ++ if k.typeOf session = ServerType.GateServer.toInt then
      [⟨session, .allMatchDistributeNotify (distribution k)⟩] else [] := by
  obtain ⟨k₁, key, info, hregister, henters, -⟩ := k.register_cases now session rq order
  unfold serverRegistRQ at heq
  dsimp only at heq
  rw [hregister] at heq
  obtain ⟨rs, hrs, heq⟩ := Option.map_eq_some_iff.mp heq
  obtain ⟨-, rfl⟩ := Prod.mk.inj heq
  refine ⟨rs, fun packet hpacket => (serverRegistRS_quiet hrs packet hpacket).2, ?_⟩
  dsimp only
  have hsame : k₁.sendAllDistributeMatchInfos (some session) ServerType.GateServer.toInt =
      [⟨session, .allMatchDistributeNotify (distribution k)⟩] := by
    unfold sendAllDistributeMatchInfos
    rw [henters.matches_]
    rfl
  rw [hsame]

theorem serverRegistRQ_informed (hw : w.central = some k) (hinformed : Informed w) {now : Int} {session : TCPSessionPtr}
    {rq : ServerRegisterRQ} {order : List (Σ _ : Int, Option ServerInfo)}
    (heq : k.serverRegistRQ now session (some rq) order = some (k', sent)) : Informed (w.after (k', sent)) := by
  obtain ⟨rs, hsilent, rfl⟩ := serverRegistRQ_sent heq
  obtain ⟨k₁, key, info, -, -, henters, hcase, -, -, rfl⟩ := serverRegistRQ_some heq
  set m := if k.typeOf session = ServerType.MatchServer.toInt then k.matches_.updateMatchService now info else k.matches_
    with hm
  have hms : m.matchServices_ = k.matches_.matchServices_ := by
    rw [hm]
    split_ifs <;> rfl
  have hannounces : ∀ notify, Announces k notify → Announces (k₁.setMatches m) notify := fun notify h => h.congr hms
  refine informed_after_iff.mpr fun p hp => ?_
  obtain ⟨hopen, htype, hid⟩ := hp
  change k₁.Open p at hopen
  change k₁.typeOf p = _ at htype
  change k₁.logicID_ p = k₁.uuidOf p at hid
  rw [open_congr henters.manager henters.created] at hopen
  rw [henters.typeOf] at htype
  rw [uuidOf_congr henters.manager] at hid
  rw [toSession_append, List.foldl_append, foldl_silent fun msg hmsg => hsilent _ (mem_toSession.mp hmsg)]
  by_cases hp : p = session
  · rw [hp] at htype
    rw [if_pos htype, hp, show toSession session [⟨session, .allMatchDistributeNotify (distribution k)⟩] =
      [.allMatchDistributeNotify (distribution k)] by simp [toSession]]
    exact ⟨distribution k, rfl, hannounces _ (announces_distribution k)⟩
  · have hnone : toSession p (if k.typeOf session = ServerType.GateServer.toInt then
        [⟨session, .allMatchDistributeNotify (distribution k)⟩] else []) = [] := by
      split_ifs
      · simp [toSession, Ne.symm hp]
      · rfl
    have hold : RegisteredAs .GateServer k p := by
      refine ⟨hopen, htype, ?_⟩
      rcases hcase with ⟨-, -, -, -, -, hlogicID⟩ | ⟨-, -, -, hlogicID⟩
      · rwa [hlogicID] at hid
      · rw [hlogicID] at hid
        exact (if_neg hp).symm.trans hid
    obtain ⟨notify, htold, h⟩ := hinformed k hw p hold
    rw [hnone]
    exact ⟨notify, htold, hannounces notify h⟩

/-- What a distribution announces has as many services as are kept. -/
theorem Announces.length_eq {notify : ServerAllMatchDistributeNotify} (h : Announces k notify) :
    notify.length = k.matches_.matchServices_.entries.length := List.Forall₂.length_eq h

theorem Announces.modify {notify : ServerAllMatchDistributeNotify} (h : Announces k notify) {sid : Int}
    {f : List Int → List Int} (hf : ∀ l, (f l).Perm l)
    (hms : k'.matches_.matchServices_ = k.matches_.matchServices_.modify sid f) : Announces k' notify := by
  unfold Announces at h ⊢
  rw [hms]
  show List.Forall₂ _ notify (k.matches_.matchServices_.entries.map _)
  rw [List.forall₂_map_right_iff]
  refine h.imp fun service e hservice => ⟨hservice.1, hservice.2.trans ?_⟩
  dsimp only
  split_ifs
  · exact (hf e.2).symm
  · exact .refl _

theorem check_informed_iff (hw : w.central = some k) (hinformed : Informed w) {now : Int} {session : TCPSessionPtr}
    (hopen : k.Open session) (htype : k.typeOf session = ServerType.MatchServer.toInt) (rq : CheckMatchDistributeRQ) :
    Informed (w.after (k.checkMatchDistributeRQ now session (some rq))) ↔
      NoAdoption w (.central (.checkMatchDistributeRQ session (some rq) now)) := by
  set service : MatchDisService := ⟨k.logicID_ session, CSMatchLoadedEvaluation.evaluate (k.logicID_ session) rq.mids⟩
  set r := checkServiceDistMap k.matches_ now service rq.mids with hr
  obtain ⟨rs, hcheck⟩ : ∃ rs, k.checkMatchDistributeRQ now session (some rq) =
      (k.setMatches r.1, [⟨session, .checkMatchDistributeRS rs⟩]) := ⟨_, rfl⟩
  have hsilent : ∀ packet ∈ [CentralServer.Packet.mk session (.checkMatchDistributeRS rs)], Silent packet.msg := by
    intro packet hpacket
    rw [List.mem_singleton.mp hpacket]
    exact nofun
  have hnoAdoption : NoAdoption w (.central (.checkMatchDistributeRQ session (some rq) now)) ↔
      (k.logicID_ session ∉ k.matches_.matchServices_ → rq.mids ≠ [] → ∀ p, ¬ RegisteredAs .GateServer k p) :=
    ⟨fun h => h k hw hopen htype, fun h k₂ hk₂ _ _ => Option.some.inj (hw.symm.trans hk₂) ▸ h⟩
  rw [hcheck, hnoAdoption]
  cases hf : k.matches_.matchServices_.find? service.sid with
  | some e =>
    have hin : k.logicID_ session ∈ k.matches_.matchServices_ := OrderedMap.mem_iff.mpr ⟨e, hf⟩
    have hms : (k.setMatches r.1).matches_.matchServices_ = k.matches_.matchServices_.modify service.sid sort := by
      rw [hr, checkServiceDistMap_known hf]
      rfl
    exact iff_of_true (informed_after hw hinformed (fun _ h => h) hsilent fun notify h => h.modify sort_perm hms)
      fun hnot => absurd hin hnot
  | none =>
    have hnot : k.logicID_ session ∉ k.matches_.matchServices_ := OrderedMap.not_mem_iff.mpr hf
    by_cases hm : rq.mids = []
    · have hms : (k.setMatches r.1).matches_.matchServices_ = k.matches_.matchServices_ := by
        rw [hr, hm, checkServiceDistMap_noMatch hf]
        rfl
      exact iff_of_true (informed_after hw hinformed (fun _ h => h) hsilent fun notify h => h.congr hms)
        fun _ hne => absurd hm hne
    · have hms : r.1.matchServices_ = k.matches_.matchServices_.assign service rq.mids := by
        rw [hr, checkServiceDistMap_adopt hf now hm]
      constructor
      · intro h _ _ p hp
        obtain ⟨notify, htold, hannounces⟩ := informed_after_iff.mp h p hp
        obtain ⟨old, hold, hbefore⟩ := hinformed k hw p hp
        rw [foldl_silent fun msg hmsg => hsilent _ (mem_toSession.mp hmsg), hold] at htold
        obtain rfl := Option.some.inj htold
        -- the adopted service is one more than were announced
        have hlength := hbefore.length_eq.symm.trans hannounces.length_eq
        change _ = r.1.matchServices_.entries.length at hlength
        rw [hms, OrderedMap.length_assign hf] at hlength
        omega
      · intro hnone
        exact informed_after_iff.mpr fun p hp => absurd hp (hnone hnot hm p)

/-- A callback tells every gate what is kept then. -/
theorem callback_informed (hwired : Wired k) {m : CSMatchManager} {map : ChangedMatchMap}
    (hreach : ∀ pair ∈ map.entries, k.Reaches pair.1) (heq : k.callback m (some map) = some (k', sent)) :
    Informed (w.after (k', sent)) := by
  have htied : Tied (k.setMatches m) := hwired.tied.congr rfl rfl rfl rfl
  obtain ⟨lists, hall, hright⟩ := @Tied.sendAllMatches_right (k.setMatches m) htied map.entries hreach
  have hcall : (k', sent) = (k.setMatches m,
      lists.flatten ++ (k.setMatches m).sendAllDistributeMatchInfos none ServerType.GateServer.toInt) := by
    rw [callback, distributeMatch, hall] at heq
    exact (Option.some.inj heq).symm
  obtain ⟨rfl, rfl⟩ := Prod.mk.inj hcall
  refine informed_after_iff.mpr fun p hp => ⟨distribution (k.setMatches m), ?_, announces_distribution _⟩
  refine foldl_told (fun msg hmsg => ?_) (.inr (mem_toSession.mpr (List.mem_append_right _ ?_)))
  · rcases List.mem_append.mp (mem_toSession.mp hmsg) with hin | hin
    · obtain ⟨pair, -, -, hlist⟩ := mem_rounds hright hin
      exact .inl fun notify hnotify => by cases hlist.symm.trans hnotify
    · exact .inr (mem_send _ hin)
  · have hp' : RegisteredAs .GateServer k p := hp
    refine List.mem_map.mpr ⟨p, List.mem_filter.mpr ⟨hwired.pooled.listed p hp'.1, ?_⟩, rfl⟩
    have htype := hp'.2.1
    rw [← htype]
    exact decide_eq_true UInt8.ofNat_toNat.symm

theorem quiet_informed (hw : w.central = some k) (hinformed : Informed w) {m : CSMatchManager}
    (hms : m.matchServices_ = k.matches_.matchServices_) : Informed (w.after (k.setMatches m, [])) :=
  informed_after hw hinformed (fun _ h => h) nofun fun _ h => h.congr hms

theorem noAdoption_of_dropped (hw : w.central = some k) {e : CSKernel.Event} (hdropped : Dropped k e) :
    NoAdoption w (.central e) := by
  cases e with
  | checkMatchDistributeRQ session rq now =>
    cases rq with
    | none => trivial
    | some rq =>
      intro k₂ hk₂ hopen htype
      obtain rfl : k = k₂ := Option.some.inj (hw.symm.trans hk₂)
      exact absurd (hdropped hopen htype) (Option.some_ne_none rq)
  | _ => trivial

theorem handle_informed_iff {e : CSKernel.Event} (hw : w.central = some k) (hinformed : Informed w) (hwired : Wired k)
    (hregular : Regular (some k) e) (heq : k.handle e = some (k', sent)) :
    Informed (w.after (k', sent)) ↔ NoAdoption w (.central e) := by
  obtain ⟨hfresh, hreaches, -⟩ := hregular
  have hreach := hreaches k rfl
  cases acts heq with
  | dropped hdropped hsilent =>
    refine iff_of_true ?_ (noAdoption_of_dropped hw hdropped)
    exact informed_after hw hinformed (fun _ h => h) (fun packet hpacket => (hsilent packet hpacket).2) fun _ h => h
  | newSession haccepts => exact iff_of_true (newSession_informed hw hinformed hwired (hfresh k rfl haccepts)) trivial
  | serverRegistRQ _ hrq => exact iff_of_true (serverRegistRQ_informed hw hinformed hrq) trivial
  | checkMatchDistributeRQ hopen htype hcheck =>
    rw [← hcheck]
    exact check_informed_iff hw hinformed hopen htype _
  | onClose hopen hclose => exact iff_of_true (onClose_informed hw hinformed hwired hopen hclose) trivial
  | @updateDistMatchServices now _ _ hcall =>
    refine iff_of_true ?_ trivial
    cases hpass : (k.matches_.updateDistMatchServices now).2 with
    | none =>
      rw [hpass] at hcall
      obtain ⟨rfl, rfl⟩ := Prod.mk.inj (Option.some.inj hcall)
      exact quiet_informed hw hinformed (matchServices_of_no_map hpass)
    | some map =>
      rw [hpass] at hcall
      exact callback_informed hwired (fun pair hpair => hreach (_, map) (Option.mem_map_of_mem _ hpass) pair hpair) hcall
  | @cancelMatch mid reason _ _ hcall =>
    refine iff_of_true ?_ trivial
    rcases cancelMatch_names k.matches_ mid reason with ⟨hnone, hms⟩ | ⟨sid, e, -, -, hchanged⟩
    · rw [hnone] at hcall
      obtain ⟨rfl, rfl⟩ := Prod.mk.inj (Option.some.inj hcall)
      exact quiet_informed hw hinformed hms
    · rw [hchanged] at hcall
      exact callback_informed hwired (fun pair hpair => hreach (_, _) (Option.mem_map_of_mem _ hchanged) pair hpair) hcall
  | createdMatches => exact iff_of_true (quiet_informed hw hinformed rfl) trivial

theorem step_informed_iff {e : Event} (hw : OrCrashed Wired w.central) (hinformed : Informed w) (hvalid : Valid w e) :
    Informed (w.step e) ↔ NoAdoption w e := by
  cases e with
  | receives p =>
    obtain ⟨hcentral, hframe⟩ := w.receives_frame p
    refine iff_of_true (fun k hk q hq => ?_) trivial
    rw [(hframe q).2]
    exact hinformed k (hcentral ▸ hk) q hq
  | central e =>
    have hregular : Regular w.central e := hvalid
    rcases hcentral : w.central with _ | k
    · have halive := hregular.2.2
      rw [hcentral] at halive
      cases halive
    · rw [hcentral] at hregular
      obtain ⟨⟨k', sent⟩, hhandle⟩ := Option.isSome_iff_exists.mp (Option.isSome_map.symm.trans hregular.2.2)
      rw [World.step_central hcentral hhandle]
      exact handle_informed_iff hcentral hinformed (hw k hcentral) hregular hhandle

end Step

/-! ## Runs -/

theorem first_informed (now : Int) (stored : MatchMap) (listenInfos : List ServerInfo.Listener)
    (others : TCPSessionPtr → MSMatchManager) : Informed (first now stored listenInfos others) := by
  intro k hk p hp
  obtain rfl := Option.some.inj hk
  exact absurd hp.1.1 (Nat.not_lt_zero p)

/-- **What the gates come to know**: in a run that the central server survives, in which new sessions get uuids of their own
(`FreshSession`) and no list is told to a server that is gone, every registered gate comes to know the lists that are kept,
at every moment, if and only if no list is adopted while a gate is registered. -/
theorem informed_iff_no_adoption (now : Int) (stored : MatchMap) (listenInfos : List ServerInfo.Listener)
    (others : TCPSessionPtr → MSMatchManager) (es : List Event)
    (hvalid : Runs.Along World.step Valid (first now stored listenInfos others) es) :
    Runs.Always World.step Informed (first now stored listenInfos others) es ↔
      Runs.Along World.step NoAdoption (first now stored listenInfos others) es := by
  exact @Runs.always_iff_along_of_inv _ _ World.step (fun w => OrCrashed Wired w.central ∧ Informed w) Informed Valid
    NoAdoption (fun _ h => h.2) (fun _ _ h hv => step_informed_iff h.1 h.2 hv)
    (fun _ _ h hv hok => ⟨step_wired h.1 hv, (step_informed_iff h.1 h.2 hv).mpr hok⟩)
    _ _ ⟨(first_inv now stored listenInfos others).wired, first_informed now stored listenInfos others⟩ hvalid

/-- A match server and a gate register; the server gets the match, and both have handled what they are sent. -/
def serverAndGate : List Event :=
  [.central (.newSession .MatchServer), .central (.serverRegistRQ 0 (some { sid := -1, connectTypes := [] }) 1 []),
    .central (.newSession .GateServer), .central (.serverRegistRQ 1 (some { sid := -1, connectTypes := [] }) 2 []),
    .central (.updateDistMatchServices 27), .receives 0, .receives 0, .receives 1, .receives 1, .receives 1]

theorem serverAndGate_valid :
    Runs.Along World.step Valid (first 0 (sampleMatches [7]) [] fun _ => {}) serverAndGate := by
  decide

theorem informed_iff_no_adoption_serverAndGate :
    Runs.Along World.step Valid (first 0 (sampleMatches [7]) [] fun _ => {}) serverAndGate ∧
      (Runs.Always World.step Informed (first 0 (sampleMatches [7]) [] fun _ => {}) serverAndGate ↔
        Runs.Along World.step NoAdoption (first 0 (sampleMatches [7]) [] fun _ => {}) serverAndGate) :=
  ⟨serverAndGate_valid, informed_iff_no_adoption 0 (sampleMatches [7]) [] (fun _ => {}) serverAndGate serverAndGate_valid⟩

/-! ## Routes -/

/-- What a distribution lists for a service is what is kept for it. -/
theorem Announces.lists_iff {k : CSKernel} {notify : ServerAllMatchDistributeNotify} (h : Announces k notify)
    (mid sid : Int) :
    GateWay.GSKernel.Lists notify mid sid ↔ mid ∈ getDistMatch k.matches_.matchServices_ sid := by
  have hentries : GateWay.GSKernel.Lists notify mid sid ↔
      ∃ e ∈ k.matches_.matchServices_.entries, e.1.sid = sid ∧ mid ∈ e.2 :=
    exists_mem_iff_of_forall₂ h fun service e hservice => by rw [hservice.1, hservice.2.mem_iff]
  rw [hentries, getDistMatch]
  constructor
  · rintro ⟨e, he, rfl, hmid⟩
    rw [OrderedMap.find?_of_mem he]
    exact hmid
  · intro hmid
    cases hf : k.matches_.matchServices_.find? sid with
    | none =>
      rw [hf] at hmid
      cases hmid
    | some e =>
      rw [hf] at hmid
      exact ⟨e, OrderedMap.mem_of_find? hf, OrderedMap.ord_of_find? hf, hmid⟩

/-- A distribution has one entry for a service. -/
theorem Announces.lastLists {k : CSKernel} {notify : ServerAllMatchDistributeNotify} (h : Announces k notify)
    {mid sid : Int} (hlists : GateWay.GSKernel.Lists notify mid sid) : GateWay.GSKernel.LastLists notify mid sid := by
  have hsids : notify.map (fun service => service.sid) = k.matches_.matchServices_.indices :=
    List.forall₂_eq_eq_eq ▸ (List.forall₂_map_left_iff.mpr (List.forall₂_map_right_iff.mpr (h.imp fun _ _ hs => hs.1)))
  have hnodup : (notify.map fun service => service.sid).Nodup := hsids ▸ k.matches_.matchServices_.indices_nodup
  obtain ⟨service, hservice, hsid, hmid⟩ := hlists
  have hsome : (notify.reverse.find? fun service => service.sid = sid).isSome = true :=
    List.find?_isSome.mpr ⟨service, List.mem_reverse.mpr hservice, decide_eq_true hsid⟩
  obtain ⟨last, hlast⟩ := Option.isSome_iff_exists.mp hsome
  have hlastSid : last.sid = sid := of_decide_eq_true (List.find?_some
    (p := fun service : ServiceMatchDistibuteNotify => decide (service.sid = sid)) hlast)
  have hmem : last ∈ notify := List.mem_reverse.mp (List.mem_of_find?_eq_some hlast)
  obtain rfl := List.inj_on_of_nodup_map hnodup hmem hservice (hlastSid.trans hsid.symm)
  exact ⟨last, hlast, hmid⟩

/-- A match that is in one list only is announced under one service. -/
theorem Announces.oneService {k : CSKernel} {notify : ServerAllMatchDistributeNotify} (h : Announces k notify)
    (hone : k.matches_.matchServices_.elems.Nodup) : GateWay.GSKernel.OneService notify := by
  intro mid sid sid' hlists hlists'
  rw [h.lists_iff] at hlists hlists'
  unfold getDistMatch at hlists hlists'
  cases hf : k.matches_.matchServices_.find? sid with
  | none => simp [hf] at hlists
  | some e =>
    cases hf' : k.matches_.matchServices_.find? sid' with
    | none => simp [hf'] at hlists'
    | some e' =>
      simp only [hf, hf'] at hlists hlists'
      have heq := OrderedMap.eq_of_mem_elems hone (OrderedMap.mem_of_find? hf) (OrderedMap.mem_of_find? hf') hlists hlists'
      rw [← OrderedMap.ord_of_find? hf, ← OrderedMap.ord_of_find? hf', heq]

/-- A match server keeps a count for each of its matches. -/
theorem handlerMsg_inv {m : MSMatchManager} (h : m.Inv) (msg : Msg) : (M2CSession.handlerMsg m msg).Inv := by
  cases msg with
  | checkMatchDistributeRS rs =>
    show (MSKernel.checkMatchDistributeRS m rs).Inv
    unfold MSKernel.checkMatchDistributeRS
    split_ifs
    · exact (h.meets_update _).inv
    · exact h
  | matchDistibuteNotify notify => exact (h.meets_update _).inv
  | _ => exact h

theorem step_servers_inv {w : World} {e : Event} (h : ∀ p, (w.servers p).Inv) : ∀ p, ((w.step e).servers p).Inv := by
  intro p
  cases e with
  | central e =>
    rw [World.step]
    cases w.central.bind fun k => k.handle e <;> exact h p
  | receives q =>
    rw [World.step]
    rcases w.inbox q with _ | ⟨msg, rest⟩
    · exact h p
    · show (if p = q then M2CSession.handlerMsg (w.servers p) msg else w.servers p).Inv
      split_ifs
      · exact handlerMsg_inv (h p) msg
      · exact h p

theorem run_agrees_informed (now : Int) (stored : MatchMap) (listenInfos : List ServerInfo.Listener)
    (others : TCPSessionPtr → MSMatchManager) (es : List Event)
    (hvalid : Runs.Along World.step Valid (first now stored listenInfos others) es)
    (hsound : Runs.Along World.step Sound (first now stored listenInfos others) es)
    (hnone : Runs.Along World.step NoAdoption (first now stored listenInfos others) es) :
    Agrees (Runs.run World.step (first now stored listenInfos others) es) ∧
      Informed (Runs.run World.step (first now stored listenInfos others) es) := by
  have hinit := first_inv now stored listenInfos others
  constructor
  · exact (Runs.inv_run_along (q := Inv) (fun _ _ h hstep => ⟨step_wired h.wired hstep.1,
      (step_agrees_iff h.wired h.agree hstep.1).mpr hstep.2⟩) hinit (hvalid.and hsound)).agree
  · exact (Runs.inv_run_along (q := fun w => OrCrashed Wired w.central ∧ Informed w)
      (fun _ _ h hstep => ⟨step_wired h.1 hstep.1, (step_informed_iff h.1 h.2 hstep.1).mpr hstep.2⟩)
      ⟨hinit.wired, first_informed now stored listenInfos others⟩ (hvalid.and hnone)).2

/-- **Gates list what is run**: in such a run that is also sound and adopts no list, of match servers with a count for each
of their matches at first, a gate that has handled everything lists a match for a match server that has handled everything
exactly if that runs it, and so does not answer `-1` for it. -/
theorem routes_are_hosted (now : Int) (stored : MatchMap) (listenInfos : List ServerInfo.Listener)
    (others : TCPSessionPtr → MSMatchManager) (hothers : ∀ p, (others p).Inv) (es : List Event)
    (hvalid : Runs.Along World.step Valid (first now stored listenInfos others) es)
    (hsound : Runs.Along World.step Sound (first now stored listenInfos others) es)
    (hnone : Runs.Along World.step NoAdoption (first now stored listenInfos others) es) :
    let w := Runs.run World.step (first now stored listenInfos others) es
    ∀ k ∈ w.central, ∀ p, RegisteredAs .GateServer k p → w.inbox p = [] → ∀ q, Serves k q → w.inbox q = [] →
      ∃ notify, w.gates p = some notify ∧
        ∀ mid, GateWay.GSKernel.Lists notify mid (k.uuidOf q) ↔ ∃ n, (w.servers q).count? mid = some n := by
  intro w k hk p hp hgate q hq hserver
  obtain ⟨hagrees, hinformed⟩ := run_agrees_informed now stored listenInfos others es hvalid hsound hnone
  have hinv : (w.servers q).Inv :=
    Runs.inv_run (q := fun w : World => ∀ p, (w.servers p).Inv) (fun _ _ => step_servers_inv) hothers es q
  obtain ⟨notify, htold, hannounces⟩ := hinformed k hk p hp
  rw [World.told, hgate] at htold
  refine ⟨notify, htold, fun mid => ?_⟩
  have hperm := hagrees k hk q hq
  rw [World.settled, hserver] at hperm
  rw [hannounces.lists_iff, ← MSMatchManager.mem_iff_count?, hinv.hosted]
  exact hperm.mem_iff.symm

theorem routes_are_hosted_serverAndGate :
    let w := Runs.run World.step (first 0 (sampleMatches [7]) [] fun _ => {}) serverAndGate
    (∃ k ∈ w.central, RegisteredAs .GateServer k 1 ∧ w.inbox 1 = [] ∧ Serves k 0 ∧ w.inbox 0 = []) ∧
      ∀ k ∈ w.central, ∀ p, RegisteredAs .GateServer k p → w.inbox p = [] → ∀ q, Serves k q → w.inbox q = [] →
        ∃ notify, w.gates p = some notify ∧
          ∀ mid, GateWay.GSKernel.Lists notify mid (k.uuidOf q) ↔ ∃ n, (w.servers q).count? mid = some n := by
  refine ⟨by decide, ?_⟩
  exact routes_are_hosted 0 (sampleMatches [7]) [] (fun _ => {}) (fun _ => ⟨by simp, fun mid n hn => by cases hn⟩)
    serverAndGate serverAndGate_valid (by decide) (by decide)

/-- **A player is sent to where the match is run**: in such a run, as long as no match is in two lists, a gate that has
handled everything, and was connected to a match server when it handled the last distribution, sends what a player asks
about a match that this server runs to it. -/
theorem players_reach_server (now : Int) (stored : MatchMap) (listenInfos : List ServerInfo.Listener)
    (others : TCPSessionPtr → MSMatchManager) (es : List Event)
    (hvalid : Runs.Along World.step Valid (first now stored listenInfos others) es)
    (hsound : Runs.Along World.step Sound (first now stored listenInfos others) es)
    (hnone : Runs.Along World.step NoAdoption (first now stored listenInfos others) es) :
    let w := Runs.run World.step (first now stored listenInfos others) es
    ∀ k ∈ w.central, k.matches_.matchServices_.elems.Nodup → ∀ p, RegisteredAs .GateServer k p → w.inbox p = [] →
      ∀ q, Serves k q → w.inbox q = [] → ∀ gate : GateWay.GSKernel, ∀ notify ∈ w.gates p,
        ∀ session, gate.connectServiceSession (k.uuidOf q) = some session → ∀ mid ∈ (w.servers q).matches_,
          (gate.distibuteMatchesNotify notify).matchServiceSession mid = some session := by
  intro w k hk hone p hp hgate q hq hserver gate notify hnotify session hsession mid hmid
  obtain ⟨hagrees, hinformed⟩ := run_agrees_informed now stored listenInfos others es hvalid hsound hnone
  obtain ⟨notify', htold, hannounces⟩ := hinformed k hk p hp
  rw [World.told, hgate] at htold
  obtain rfl := Option.some.inj (hnotify.symm.trans htold)
  have hperm := hagrees k hk q hq
  rw [World.settled, hserver] at hperm
  have hlists : GateWay.GSKernel.Lists notify mid (k.uuidOf q) := (hannounces.lists_iff mid _).mpr (hperm.mem_iff.mp hmid)
  rcases GateWay.GSKernel.matchServiceSession_distibute gate notify mid with
    ⟨sid, session', hlast, hsession', hroute⟩ | ⟨hunconnected, -⟩
  · rw [hannounces.oneService hone mid sid _ hlast.lists hlists, hsession] at hsession'
    rw [hroute, hsession']
  · rw [hunconnected _ (hannounces.lastLists hlists)] at hsession
    cases hsession

/-- The gate of `serverAndGate`, connected to its match server. -/
def connectedGate : GateWay.GSKernel := (GateWay.GSKernel.start .empty 0).addNewConnect 3 9000 0 "10.0.0.5" []

theorem players_reach_server_serverAndGate :
    let w := Runs.run World.step (first 0 (sampleMatches [7]) [] fun _ => {}) serverAndGate
    (∃ k ∈ w.central, k.matches_.matchServices_.elems.Nodup ∧ RegisteredAs .GateServer k 1 ∧ w.inbox 1 = [] ∧ Serves k 0 ∧
        w.inbox 0 = [] ∧ (w.gates 1).isSome = true ∧ connectedGate.connectServiceSession (k.uuidOf 0) = some 0 ∧
        7 ∈ (w.servers 0).matches_) ∧
      ∀ k ∈ w.central, k.matches_.matchServices_.elems.Nodup → ∀ p, RegisteredAs .GateServer k p → w.inbox p = [] →
        ∀ q, Serves k q → w.inbox q = [] → ∀ gate : GateWay.GSKernel, ∀ notify ∈ w.gates p,
          ∀ session, gate.connectServiceSession (k.uuidOf q) = some session → ∀ mid ∈ (w.servers q).matches_,
            (gate.distibuteMatchesNotify notify).matchServiceSession mid = some session := by
  refine ⟨by decide, ?_⟩
  exact players_reach_server 0 (sampleMatches [7]) [] (fun _ => {}) serverAndGate serverAndGate_valid (by decide) (by decide)

end AsioUtils.Cluster
