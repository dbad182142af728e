import AsioUtils.CentralServer.Kernel
import AsioUtils.CentralServer.LastEvent

/-!
# Who owns matches

The match manager keys its lists by sid and takes the sids it is given: from `updateMatchService` that of a service of
the registry, from a distribution check the `logicID` of the session that sent it, which is `-1` until the session has
registered.

* `Owned` : every sid that has a list is that of a registered match server, or its removal is pending;
* `owned_iff` : a run of registrations, checks, closes and passes keeps it exactly if no list is adopted from a session
  that is not registered.
-/

namespace AsioUtils.CentralServer.CSKernel

open CPG Net CSMatchManager

/-- A match server is registered under `sid`. -/
def MatchServerAt (k : CSKernel) (sid : Int) : Prop :=
  ∃ info, k.servers_.lookup (toUnsigned sid) = some (some info) ∧ info.type = ServerType.MatchServer.toInt

/-- The removal of `sid` is pending. -/
def PendingRemoved (k : CSKernel) (sid : Int) : Prop :=
  ∃ c ∈ k.matches_.changedServices_, c.type = .removed ∧ c.service.sid = sid

def Owned (k : CSKernel) : Prop := ∀ sid ∈ k.matches_.matchServices_, k.MatchServerAt sid ∨ k.PendingRemoved sid

/-- What runs of match sessions keep. -/
structure Serving (k : CSKernel) : Prop where
  addedNew : AddedNew k.matches_
  /-- whoever the next pass leaves is registered -/
  served : ∀ sid, WillServe sid k.matches_ → IsInt sid ∧ k.MatchServerAt sid
  keyed : ∀ key info, k.servers_.lookup key = some (some info) → toUnsigned info.sid = key ∧ IsInt info.sid
  logicID : ∀ p, IsInt (k.logicID_ p)
  matchServer : ∀ p, p < k.created → k.typeOf p = ServerType.MatchServer.toInt

theorem Serving.owned {k : CSKernel} (h : Serving k) : k.Owned := by
  intro sid hsid
  by_cases hremoved : k.PendingRemoved sid
  · exact .inr hremoved
  · refine .inl (h.served sid (.inl ⟨hsid, fun c hc htype heq => hremoved ⟨c, hc, htype, heq⟩⟩)).2

/-- A list is adopted only from a registered match server. -/
def Adopts (k : CSKernel) : Event → Prop
  | .checkMatchDistributeRQ session (some rq) _ =>
    k.Open session → k.logicID_ session ∉ k.matches_.matchServices_ → rq.mids ≠ [] → k.MatchServerAt (k.logicID_ session)
  | _ => True

/-- Sessions are those of match servers; nothing is cancelled. -/
def MatchSide : Event → Prop
  | .newSession type => type = .MatchServer
  | .cancelMatch _ _ => False
  | _ => True

/-! ## The steps -/

section Step

variable {k k' : CSKernel}

/-- The registry, and the services the next pass leaves, are as before. -/
theorem Serving.congr (h : Serving k) (hservers : k'.servers_ = k.servers_) (hadded : AddedNew k'.matches_)
    (hserved : ∀ sid, WillServe sid k'.matches_ → WillServe sid k.matches_)
    (hlogicID : ∀ p, IsInt (k'.logicID_ p)) (htype : ∀ p, p < k'.created → k'.typeOf p = ServerType.MatchServer.toInt) :
    Serving k' := by
  refine ⟨hadded, fun sid hsid => ?_, fun key info hkey => h.keyed key info (hservers ▸ hkey), hlogicID, htype⟩
  obtain ⟨hint, info, hinfo, hmatch⟩ := h.served sid (hserved sid hsid)
  exact ⟨hint, info, hservers ▸ hinfo, hmatch⟩

theorem newSession_serving (h : Serving k) : Serving (k.newSession .MatchServer) := by
  refine h.congr rfl h.addedNew (fun _ => id) (fun p => ?_) fun p hp => ?_
  · show IsInt (if p = k.created then _ else _)
    split_ifs
    · exact isInt_invalid
    · exact h.logicID p
  · rcases Nat.lt_succ_iff_lt_or_eq.mp hp with hp | rfl
    · unfold typeOf
      rw [(newSession_other .MatchServer hp).1]
      exact h.matchServer p hp
    · exact newSession_typeOf .MatchServer

theorem serverRegistRQ_serving (h : Serving k) {now : Int} {session : TCPSessionPtr} {rq : ServerRegisterRQ}
    {order : List (Σ _ : Int, Option ServerInfo)} {sent : List Packet} (hopen : k.Open session)
    (heq : k.serverRegistRQ now session (some rq) order = some (k', sent)) : Serving k' := by
  obtain ⟨k₁, key, info, rs, -, henters, hcase, -, -, rfl⟩ := serverRegistRQ_some heq
  have htype := h.matchServer session hopen.1
  rw [if_pos htype]
  have hinfo : info.type = ServerType.MatchServer.toInt ∧ toUnsigned info.sid = key ∧ IsInt info.sid := by
    rcases hcase with ⟨old, -, -, hold, rfl, -⟩ | ⟨rfl, rfl, -, -⟩
    · exact ⟨htype, h.keyed key old hold⟩
    · exact ⟨htype, rfl, isInt_toInt _⟩
  -- a match server that was there still is, whatever is entered
  have hstay : ∀ sid, k.MatchServerAt sid → MatchServerAt (k₁.setMatches (updateMatchService k.matches_ now info)) sid := by
    rintro sid ⟨old, hold, hmatch⟩
    by_cases hkey : toUnsigned sid = key
    · exact ⟨info, hkey ▸ henters.at_key, hinfo.1⟩
    · exact ⟨old, henters.stays hold hkey, hmatch⟩
  refine ⟨addedNew_update now info h.addedNew, fun sid hsid => ?_, fun j x hx => ?_, fun p => ?_, fun p hp => ?_⟩
  · rcases (willServe_update now info sid).mp hsid with rfl | hold
    · exact ⟨hinfo.2.2, info, hinfo.2.1 ▸ henters.at_key, hinfo.1⟩
    · exact ⟨(h.served sid hold).1, hstay sid (h.served sid hold).2⟩
  · rcases henters.entry hx with ⟨rfl, rfl⟩ | ⟨-, hold⟩
    · exact hinfo.2
    · exact h.keyed j x hold
  · show IsInt (k₁.logicID_ p)
    rcases hcase with ⟨-, -, -, -, -, hid⟩ | ⟨-, -, -, hid⟩
    · rw [hid]
      exact h.logicID p
    · rw [hid]
      dsimp only
      split_ifs
      · exact isInt_toInt _
      · exact h.logicID p
  · exact (henters.typeOf p).trans (h.matchServer p (henters.created ▸ hp))

theorem onClose_serving (h : Serving k) {now : Int} {session : TCPSessionPtr} (heq : k.onClose now session = some k') :
    Serving k' := by
  obtain ⟨-, hcreated, hid, hcase⟩ := onClose_some heq
  have hlogicID : ∀ p, IsInt (k'.logicID_ p) := fun p => hid ▸ h.logicID p
  have htype : ∀ p, p < k'.created → k'.typeOf p = ServerType.MatchServer.toInt := fun p hp => by
    rw [onClose_typeOf heq]
    exact h.matchServer p (hcreated ▸ hp)
  rcases hcase with ⟨-, hservers, hmatches⟩ | ⟨info, hinfo, hservers, hmatches⟩
  · exact h.congr hservers (hmatches ▸ h.addedNew) (fun sid hsid => hmatches ▸ hsid) hlogicID htype
  · obtain ⟨hkey, hint⟩ := h.keyed _ info hinfo
    -- the services that will be served are others than the one that is erased
    have hother : AddedNew k'.matches_ ∧ ∀ sid, WillServe sid k'.matches_ →
        WillServe sid k.matches_ ∧ toUnsigned sid ≠ toUnsigned (k.logicID_ session) := by
      by_cases hmatch : info.type = ServerType.MatchServer.toInt
      · rw [hmatches, if_pos hmatch]
        refine ⟨addedNew_remove now info h.addedNew, fun sid hsid => ?_⟩
        obtain ⟨hne, hold⟩ := (willServe_remove now info h.addedNew sid).mp hsid
        exact ⟨hold, fun hsame => hne (toUnsigned_inj hint (h.served sid hold).1 (hkey.trans hsame.symm))⟩
      · rw [hmatches, if_neg hmatch]
        refine ⟨h.addedNew, fun sid hsid => ⟨hsid, fun hsame => ?_⟩⟩
        obtain ⟨-, info', hinfo', hmatch'⟩ := h.served sid hsid
        rw [hsame, hinfo] at hinfo'
        cases hinfo'
        exact hmatch hmatch'
    refine ⟨hother.1, fun sid hsid => ?_, fun key x hx => ?_, hlogicID, htype⟩
    · obtain ⟨hold, hne⟩ := hother.2 sid hsid
      obtain ⟨hint', info', hinfo', hmatch'⟩ := h.served sid hold
      exact ⟨hint', info', by rw [hservers, AList.lookup_erase_ne hne, hinfo'], hmatch'⟩
    · exact h.keyed key x ((onClose_lookup heq).mp hx).2

/-- A pass leaves registered services, so nothing is inserted when they are told their lists. -/
theorem updateDistMatchServices_serving (h : Serving k) {now : Int} {sent : List Packet}
    (heq : k.callback (updateDistMatchServices k.matches_ now).1 (updateDistMatchServices k.matches_ now).2 =
      some (k', sent)) : Serving k' := by
  have hwill : ∀ sid, sid ∈ (applyChanges (stopTimerCheckDistMatchServices k.matches_)).1.matchServices_ ↔
      WillServe sid k.matches_ := fun sid => mem_applyChanges
  have hpass : ∀ sid, WillServe sid (updateDistMatchServices k.matches_ now).1 → WillServe sid k.matches_ := fun sid hsid => by
    rcases updateDistMatchServices_cases k.matches_ now with ⟨-, hm⟩ | ⟨-, hm⟩
    · rw [hm] at hsid
      rcases hsid with ⟨hin, -⟩ | ⟨c, hc, -⟩
      · exact (hwill sid).mp hin
      · cases hc
    · rw [hm] at hsid
      exact hsid
  have hadded : AddedNew (updateDistMatchServices k.matches_ now).1 := by
    rcases updateDistMatchServices_cases k.matches_ now with ⟨-, hm⟩ | ⟨-, hm⟩
    · rw [hm]
      intro c hc
      cases hc
    · rw [hm]
      exact h.addedNew
  have hk : k' = k.setMatches (updateDistMatchServices k.matches_ now).1 := by
    refine callback_of_mem (fun map hmap pair hpair => ?_) heq
    unfold updateDistMatchServices at hmap
    dsimp only at hmap
    split_ifs at hmap with hcheck
    · cases hmap
      obtain ⟨sid, hsid, hpair⟩ := changedMatchMap_applyChanges _ pair hpair
      obtain ⟨-, info, hinfo, -⟩ := h.served sid ((hwill sid).mp hsid)
      rw [hpair, ← AList.lookup_isSome, hinfo]
      rfl
    · cases hmap
  rw [hk]
  exact h.congr rfl hadded hpass h.logicID h.matchServer

/-- A check keeps the invariant if it adopts no unregistered service's list; else its service owns matches at once. -/
theorem check_serving (h : Serving k) (now : Int) {session : TCPSessionPtr} (hopen : k.Open session)
    (rq : CheckMatchDistributeRQ) :
    (Adopts k (.checkMatchDistributeRQ session (some rq) now) →
      Serving (k.checkMatchDistributeRQ now session (some rq)).1) ∧
    ((k.checkMatchDistributeRQ now session (some rq)).1.Owned →
      Adopts k (.checkMatchDistributeRQ session (some rq) now)) := by
  have hmatches : (k.checkMatchDistributeRQ now session (some rq)).1 = k.setMatches
      (checkServiceDistMap k.matches_ now ⟨k.logicID_ session, CSMatchLoadedEvaluation.evaluate (k.logicID_ session) rq.mids⟩
        rq.mids).1 := rfl
  rw [hmatches]
  set service : MatchDisService := ⟨k.logicID_ session, CSMatchLoadedEvaluation.evaluate (k.logicID_ session) rq.mids⟩
    with hservice
  cases hf : k.matches_.matchServices_.find? service.sid with
  | some e =>
    have hin : k.logicID_ session ∈ k.matches_.matchServices_ := OrderedMap.mem_iff.mpr ⟨e, hf⟩
    rw [checkServiceDistMap_known hf]
    refine ⟨fun _ => ?_, fun _ _ hnot => absurd hin hnot⟩
    have hkeys : ∀ i, i ∈ k.matches_.matchServices_.modify service.sid StdList.sort ↔ i ∈ k.matches_.matchServices_ :=
      fun i => OrderedMap.mem_modify
    set m : CSMatchManager :=
      { k.matches_ with matchServices_ := k.matches_.matchServices_.modify service.sid StdList.sort }
    have hwill : ∀ sid, WillServe sid m ↔ WillServe sid k.matches_ := fun sid => willServe_congr hkeys rfl
    exact h.congr rfl (h.addedNew.congr hkeys rfl) (fun sid => (hwill sid).mp) h.logicID h.matchServer
  | none =>
    have hnew : k.logicID_ session ∉ k.matches_.matchServices_ := OrderedMap.not_mem_iff.mpr hf
    by_cases hm : rq.mids = []
    · rw [hm, checkServiceDistMap_noMatch hf]
      exact ⟨fun _ => h.congr rfl h.addedNew (fun _ => id) h.logicID h.matchServer, fun _ _ _ hne => absurd hm hne⟩
    · constructor
      · intro hadopts
        have hadded := addedNew_adopt now hf hm h.addedNew
        have hserve := willServe_adopt now hf hm
        refine ⟨hadded, fun sid hsid => ?_, h.keyed, h.logicID, h.matchServer⟩
        rcases (hserve sid).mp hsid with rfl | hold
        · exact ⟨h.logicID session, hadopts hopen hnew hm⟩
        · exact h.served sid hold
      · intro howned _ _ _
        rw [checkServiceDistMap_adopt hf now hm] at howned
        rcases howned (k.logicID_ session) (OrderedMap.mem_assign.mpr (.inl rfl)) with hat | ⟨c, hc, -, hsid⟩
        · exact hat
        · exact absurd hsid (of_decide_eq_true (List.mem_filter.mp hc).2)

end Step

/-! ## Runs -/

theorem step_serving {k : CSKernel} (h : Serving k) {e : Event} (hv : MatchSide e) :
    (Adopts k e → OrCrashed Serving (step (some k) e)) ∧ (OrCrashed Owned (step (some k) e) → Adopts k e) := by
  constructor
  · intro hadopts k' hk'
    obtain ⟨sent, hhandled⟩ := mem_step hk'
    cases hhandled with
    | idle => exact h
    | newSession =>
      obtain rfl := hv
      exact newSession_serving h
    | serverRegistRQ hopen heq => exact serverRegistRQ_serving h hopen heq
    | checkMatchDistributeRQ hopen _ => exact (check_serving h _ hopen _).1 hadopts
    | onClose _ heq => exact onClose_serving h heq
    | updateDistMatchServices heq => exact updateDistMatchServices_serving h heq
    | cancelMatch => exact absurd hv id
    | createdMatches => exact h.congr rfl h.addedNew (fun _ => id) h.logicID h.matchServer
  · intro howned
    cases e with
    | checkMatchDistributeRQ session rq now =>
      cases rq with
      | none => trivial
      | some rq =>
        intro hopen
        have hnext : step (some k) (.checkMatchDistributeRQ session (some rq) now) =
            some (k.checkMatchDistributeRQ now session (some rq)).1 := by
          show Option.map Prod.fst (if _ then _ else _) = _
          rw [if_pos ⟨hopen, h.matchServer session hopen.1⟩]
          rfl
        rw [hnext] at howned
        exact (check_serving h now hopen rq).2 (howned _ rfl) hopen
    | _ => trivial

theorem start_serving (manager : TCPSessionManager) (now : Int) (stored : MatchMap)
    (listenInfos : List ServerInfo.Listener) :
    Serving (start manager (initialized now stored) listenInfos now) := by
  refine ⟨fun c hc => ?_, fun sid hsid => ?_, fun key info hkey => ?_, fun p => ?_, fun p hp => ?_⟩
  · cases hc
  · rcases hsid with ⟨hin, -⟩ | ⟨c, hc, -⟩
    · exact absurd hin (OrderedMap.not_mem_empty sid)
    · cases hc
  · obtain ⟨rfl, central, hcentral, hsid, -⟩ := lookup_start hkey
    cases hcentral
    rw [hsid]
    decide
  · exact isInt_invalid
  · exact absurd hp (Nat.not_lt_zero p)

/-- **A run of match sessions keeps matches with registered servers exactly if no list is adopted from a session that
is not registered.** -/
theorem owned_iff (manager : TCPSessionManager) (now : Int) (stored : MatchMap) (listenInfos : List ServerInfo.Listener)
    (es : List Event)
    (hv : Runs.Along step (fun _ e => MatchSide e) (some (start manager (initialized now stored) listenInfos now)) es) :
    Runs.Always step (OrCrashed Owned) (some (start manager (initialized now stored) listenInfos now)) es ↔
      Runs.Along step (fun s e => OrCrashed (Adopts · e) s) (some (start manager (initialized now stored) listenInfos now))
        es := by
  have hiff : ∀ s e, OrCrashed Serving s → MatchSide e → (OrCrashed Owned (step s e) ↔ OrCrashed (Adopts · e) s) := by
    rintro (_ | k) e hs hv
    · exact ⟨fun _ k hk => (by cases hk), fun _ k hk => (by cases hk)⟩
    · obtain ⟨hserving, howned⟩ := step_serving (hs k rfl) hv
      refine ⟨fun ho k' hk' => Option.some.inj hk' ▸ howned ho, fun hok k' hk' => (hserving (hok k rfl) k' hk').owned⟩
  refine Runs.always_iff_along_of_inv (fun s hs k hk => (hs k hk).owned) hiff ?_ ?_ hv
  · rintro (_ | k) e hs hv hok k' hk'
    · cases hk'
    · exact (step_serving (hs k rfl) hv).1 (hok k rfl) k' hk'
  · intro k hk
    cases hk
    exact start_serving manager now stored listenInfos

/-- A match server registers; another one comes back with the same sid from before, which makes its registration a
repeated one, and reports the match it runs. -/
def returningRun : List Event :=
  [.newSession .MatchServer, .serverRegistRQ 0 (some { sid := -1, connectTypes := [5] }) 10 [], .newSession .MatchServer,
    .serverRegistRQ 1 (some { sid := 0, connectTypes := [5] }) 11 [], .checkMatchDistributeRQ 1 (some ⟨0, 3, [7]⟩) 11]

theorem returningRun_matchSide (s : Option CSKernel) : Runs.Along step (fun _ e => MatchSide e) s returningRun :=
  ⟨rfl, trivial, rfl, trivial, trivial, trivial⟩

theorem owned_iff_returning :
    let s := some (start .empty (initialized 0 .empty) [⟨3, 8000, "10.0.0.1"⟩] 0)
    Runs.Along step (fun _ e => MatchSide e) s returningRun ∧
      (Runs.Always step (OrCrashed Owned) s returningRun ↔
        Runs.Along step (fun s e => OrCrashed (Adopts · e) s) s returningRun) :=
  ⟨returningRun_matchSide _, owned_iff .empty 0 .empty [⟨3, 8000, "10.0.0.1"⟩] returningRun (returningRun_matchSide _)⟩

/-- Its session has no `logicID`, so the match goes to the sid `-1`. -/
theorem returningRun_unowned :
    let s := some (start .empty (initialized 0 .empty) [⟨3, 8000, "10.0.0.1"⟩] 0)
    Runs.Along step (fun _ e => MatchSide e) s returningRun ∧ ¬ Runs.Always step (OrCrashed Owned) s returningRun := by
  intro s
  refine ⟨returningRun_matchSide s, fun howned => ?_⟩
  have hlast : ∃ k ∈ Runs.run step s returningRun, -1 ∈ k.matches_.matchServices_ ∧
      k.servers_.lookup (toUnsigned (-1)) = none ∧ k.matches_.changedServices_.all (fun c => c.type ≠ .removed) = true := by
    decide
  obtain ⟨k, hk, hsid, hlookup, hchanged⟩ := hlast
  rcases howned.last k hk (-1) hsid with ⟨info, hinfo, -⟩ | ⟨c, hc, htype, -⟩
  · cases hlookup.symm.trans hinfo
  · exact of_decide_eq_true (List.all_eq_true.mp hchanged c hc) htype

end AsioUtils.CentralServer.CSKernel
