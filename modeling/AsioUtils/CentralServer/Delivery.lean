import AsioUtils.CentralServer.Kernel
import Mathlib.Data.List.Forall2

/-!
# Whom the match lists go to

`distributeMatch` sends the list of a sid to the session whose uuid is the `sid` of the `ServerInfo` that `getService`
returns for it, and `getService` makes up a service of sid 0 where there is none. A service that is lost leaves the
registry at once and the match manager at the next pass; a match of it that is cancelled in between has its list sent.

* `Registered`, `RightDistribution` : what a call of `distributeMatch` is to do;
* `rightDistribution_iff` : it does that exactly if every sid of the map is registered, with a session that the session
  manager finds;
* `delivered_iff` : the same along a run.
-/

namespace AsioUtils.CentralServer.CSKernel

open CPG Net

/-- `session` is the one registered under `sid`, a key of the registry. -/
def Registered (k : CSKernel) (sid : Int) (session : TCPSessionPtr) : Prop :=
  k.Open session ∧ k.logicID_ session = toSigned sid ∧ ∃ info, k.servers_.lookup sid = some (some info)

/-- The packets of the round for `pair`: the list goes to the session registered under the sid, or to nobody. -/
def RightRound (k : CSKernel) (pair : Int × List Int) (sent : List Packet) : Prop :=
  (∃ session, k.Registered pair.1 session ∧ sent = [⟨session, .matchDistibuteNotify ⟨toSigned pair.1, pair.2⟩⟩]) ∨
    ((∀ session, ¬ k.Registered pair.1 session) ∧ sent = [])

/-- `distributeMatch` does not crash, leaves the registry as it is and sends every list to its own server. -/
def RightDistribution (k : CSKernel) (map : ChangedMatchMap) : Prop :=
  ∃ k' lists toGates, k.distributeMatch map = some (k', lists, toGates) ∧ k'.servers_ = k.servers_ ∧
    List.Forall₂ k.RightRound map.entries lists

/-- A session is registered under `sid`, and the session manager has it under that uuid. -/
def Reaches (k : CSKernel) (sid : Int) : Prop :=
  ∃ session, k.Registered sid session ∧ k.manager.getSession (Int32.ofInt (toSigned sid)) = some (some session)

/-- What runs keep while no list goes astray: a service is the central server itself, or belongs to an open session of
that uuid and `logicID`. -/
structure Tied (k : CSKernel) : Prop where
  services : ∀ key info, k.servers_.lookup key = some (some info) → (key = kCentralSid ∧ info.sid = kCentralSid) ∨
    (toUnsigned info.sid = key ∧ ∃ p, k.Open p ∧ k.uuidOf p = info.sid ∧ k.logicID_ p = info.sid)
  notClient : ∀ p, p < k.created → k.typeOf p ≠ ServerType.Client.toInt

/-! ## One call -/

theorem getSession_central (m : TCPSessionManager) : m.getSession (Int32.ofInt kCentralSid) = none := by
  have hsid : (0 : Int32) ≤ Int32.ofInt kCentralSid ∧ ¬ (Int32.ofInt kCentralSid).toUInt32.toNat ≤ OB_MAX := by decide
  unfold TCPSessionManager.getSession
  rw [if_pos hsid.1]
  exact if_neg hsid.2

section Call

variable {k : CSKernel}

/-- What a round does where the service is there. -/
theorem sendMatches_of_lookup {pair : Int × List Int} {info : ServerInfo}
    (h : k.servers_.lookup pair.1 = some (some info)) :
    k.sendMatches pair = (k.manager.getSession (Int32.ofInt info.sid)).map fun session =>
      (k, k.send session (.matchDistibuteNotify ⟨toSigned pair.1, pair.2⟩) kDefaultType) := by
  have hmem : pair.1 ∈ k.servers_ := AList.lookup_isSome.mp (by rw [h]; rfl)
  unfold sendMatches getService
  rw [UnorderedMap.touch_of_mem hmem, h]
  rfl

/-- A round inserts the sid if it is missing, and removes none. -/
theorem mem_sendMatches {k' : CSKernel} {pair : Int × List Int} {sent : List Packet}
    (h : k.sendMatches pair = some (k', sent)) (sid : Int) : sid ∈ k'.servers_ ↔ sid = pair.1 ∨ sid ∈ k.servers_ := by
  rw [sendMatches_eq h]
  show sid ∈ UnorderedMap.touch k.servers_ pair.1 _ ↔ _
  by_cases hmem : pair.1 ∈ k.servers_
  · rw [UnorderedMap.touch_of_mem hmem, or_iff_right_of_imp]
    rintro rfl
    exact hmem
  · unfold UnorderedMap.touch
    rw [if_neg hmem, AList.mem_insert]

theorem mem_sendAllMatches {k' : CSKernel} {pairs : List (Int × List Int)} {sent : List (List Packet)}
    (h : k.sendAllMatches pairs = some (k', sent)) {sid : Int} (hsid : sid ∈ k.servers_) : sid ∈ k'.servers_ := by
  induction pairs generalizing k sent with
  | nil =>
    cases h
    exact hsid
  | cons pair pairs ih =>
    rw [sendAllMatches] at h
    obtain ⟨⟨k₁, sent₁⟩, h₁, hrest⟩ := Option.bind_eq_some_iff.mp h
    obtain ⟨⟨k₂, sent₂⟩, h₂, heq⟩ := Option.map_eq_some_iff.mp hrest
    obtain rfl : k₂ = k' := (Prod.mk.inj heq).1
    exact ih h₂ ((mem_sendMatches h₁ sid).mpr (.inr hsid))

/-- The service of a sid that is reached belongs to the session that is reached. -/
theorem Tied.reaches_lookup (h : Tied k) {sid : Int} (hreach : k.Reaches sid) :
    ∃ info, k.servers_.lookup sid = some (some info) ∧ info.sid = toSigned sid := by
  obtain ⟨session, ⟨-, -, info, hinfo⟩, hget⟩ := hreach
  refine ⟨info, hinfo, ?_⟩
  rcases h.services sid info hinfo with ⟨rfl, -⟩ | ⟨hkey, p, -, hp, -⟩
  · rw [show toSigned kCentralSid = kCentralSid by decide, getSession_central] at hget
    cases hget
  · rw [← hkey, toSigned_toUnsigned (hp ▸ isInt_toInt _)]

/-- A sid that is reached has its round done right, and nothing else changes. -/
theorem Tied.round_right (h : Tied k) {pair : Int × List Int} (hreach : k.Reaches pair.1) :
    ∃ sent, k.sendMatches pair = some (k, sent) ∧ k.RightRound pair sent := by
  obtain ⟨info, hinfo, hsid⟩ := h.reaches_lookup hreach
  obtain ⟨session, hregistered, hget⟩ := hreach
  refine ⟨_, ?_, .inl ⟨session, hregistered, rfl⟩⟩
  rw [sendMatches_of_lookup hinfo, hsid, hget]
  rfl

/-- A round that is done right, with the registry as it was, has reached its sid. -/
theorem Tied.reaches_of_round (h : Tied k) {k' : CSKernel} {pair : Int × List Int} {sent : List Packet}
    (hround : k.sendMatches pair = some (k', sent)) (hmem : pair.1 ∈ k.servers_) (hright : k.RightRound pair sent) :
    k.Reaches pair.1 := by
  obtain ⟨_ | info, hinfo⟩ := Option.isSome_iff_exists.mp (AList.lookup_isSome.mpr hmem)
  · -- a null pointer is dereferenced
    unfold sendMatches getService at hround
    rw [UnorderedMap.touch_of_mem hmem, hinfo] at hround
    cases hround
  · rw [sendMatches_of_lookup hinfo] at hround
    obtain ⟨session, hget, hsent⟩ := Option.map_eq_some_iff.mp hround
    obtain ⟨-, hsent⟩ := Prod.mk.inj hsent
    rcases h.services _ info hinfo with ⟨-, hsid⟩ | ⟨hkey, p, hopen, huuid, hid⟩
    · rw [hsid, getSession_central] at hget
      cases hget
    · have hsid : info.sid = toSigned pair.1 := by rw [← hkey, toSigned_toUnsigned (huuid ▸ isInt_toInt _)]
      have hp : k.Registered pair.1 p := ⟨hopen, hid.trans hsid, info, hinfo⟩
      rcases hright with ⟨q, hq, hone⟩ | ⟨hnone, -⟩
      · refine ⟨q, hq, ?_⟩
        rw [← hsid, hget]
        cases session with
        | some session =>
          rw [← hsent] at hone
          obtain ⟨rfl, -⟩ := Packet.mk.inj (List.cons.inj hone).1
          rfl
        | none =>
          -- a missing session stands for all clients, and no server is one
          obtain ⟨p, hp, hpq⟩ := List.mem_map.mp (hsent.trans hone ▸ List.mem_singleton_self _)
          obtain ⟨rfl, -⟩ := Packet.mk.inj hpq
          have htype := of_decide_eq_true (List.mem_filter.mp hp).2
          refine absurd ?_ (h.notClient p hq.1.1)
          rw [typeOf, htype]
          rfl
      · exact absurd hp (hnone p)

/-- A distribution all of whose sids are reached is right. -/
theorem Tied.sendAllMatches_right (h : Tied k) {pairs : List (Int × List Int)}
    (hreach : ∀ pair ∈ pairs, k.Reaches pair.1) :
    ∃ lists, k.sendAllMatches pairs = some (k, lists) ∧ List.Forall₂ k.RightRound pairs lists := by
  induction pairs with
  | nil => exact ⟨[], rfl, .nil⟩
  | cons pair pairs ih =>
    obtain ⟨sent, hsent, hright⟩ := h.round_right (hreach pair List.mem_cons_self)
    obtain ⟨lists, hlists, hrights⟩ := ih fun pair' hpair' => hreach pair' (List.mem_cons_of_mem _ hpair')
    refine ⟨sent :: lists, ?_, .cons hright hrights⟩
    rw [sendAllMatches, hsent, Option.bind_some, hlists]
    rfl

/-- A distribution that is right, and leaves the registry as it was, has reached all its sids. -/
theorem Tied.reaches_of_sendAllMatches (h : Tied k) {k' : CSKernel} {pairs : List (Int × List Int)}
    {lists : List (List Packet)} (hall : k.sendAllMatches pairs = some (k', lists)) (hservers : k'.servers_ = k.servers_)
    (hright : List.Forall₂ k.RightRound pairs lists) : ∀ pair ∈ pairs, k.Reaches pair.1 := by
  induction pairs generalizing lists with
  | nil =>
    intro pair hpair
    cases hpair
  | cons pair pairs ih =>
    rw [sendAllMatches] at hall
    obtain ⟨⟨k₁, sent⟩, hround, hrest⟩ := Option.bind_eq_some_iff.mp hall
    obtain ⟨⟨k₂, rest⟩, hlists, heq⟩ := Option.map_eq_some_iff.mp hrest
    obtain ⟨rfl, rfl⟩ := Prod.mk.inj heq
    obtain ⟨hfirst, hothers⟩ := List.forall₂_cons.mp hright
    -- what a round inserts is still there at the end
    have hmem : pair.1 ∈ k.servers_ :=
      hservers ▸ mem_sendAllMatches hlists ((mem_sendMatches hround pair.1).mpr (.inl rfl))
    obtain rfl := sendMatches_of_mem hmem hround
    intro pair' hpair'
    rcases List.mem_cons.mp hpair' with rfl | hpair'
    · exact h.reaches_of_round hround hmem hfirst
    · exact ih hlists hothers pair' hpair'

theorem Tied.rightDistribution_iff (h : Tied k) (map : ChangedMatchMap) :
    k.RightDistribution map ↔ ∀ pair ∈ map.entries, k.Reaches pair.1 := by
  constructor
  · rintro ⟨k', lists, toGates, heq, hservers, hright⟩
    obtain ⟨⟨k₁, lists₁⟩, hall, heq⟩ := Option.map_eq_some_iff.mp heq
    obtain ⟨rfl, hrest⟩ := Prod.mk.inj heq
    obtain ⟨rfl, -⟩ := Prod.mk.inj hrest
    exact h.reaches_of_sendAllMatches hall hservers hright
  · intro hreach
    obtain ⟨lists, hall, hright⟩ := h.sendAllMatches_right hreach
    refine ⟨k, lists, k.sendAllDistributeMatchInfos none ServerType.GateServer.toInt, ?_, rfl, hright⟩
    rw [distributeMatch, hall]
    rfl

end Call

/-! ## Runs -/

/-- Whatever list an event has sent is sent right. -/
def Delivers (s : Option CSKernel) (e : Event) : Prop :=
  ∀ k ∈ s, ∀ c ∈ k.changedMatches e, (k.setMatches c.1).RightDistribution c.2

/-- Every sid that an event has a list sent to is reached. -/
def ReachesAll (s : Option CSKernel) (e : Event) : Prop :=
  ∀ k ∈ s, ∀ c ∈ k.changedMatches e, ∀ pair ∈ c.2.entries, k.Reaches pair.1

section Step

variable {k k' : CSKernel}

theorem Tied.congr (h : Tied k) (hmanager : k'.manager = k.manager) (hcreated : k'.created = k.created)
    (hlogicID : k'.logicID_ = k.logicID_) (hservers : k'.servers_ = k.servers_) : Tied k' := by
  refine ⟨fun key info hkey => ?_, fun p hp => ?_⟩
  · unfold Open uuidOf
    rw [hmanager, hcreated, hlogicID]
    exact h.services key info (hservers ▸ hkey)
  · unfold typeOf
    rw [hmanager]
    exact h.notClient p (hcreated ▸ hp)

theorem newSession_tied (h : Tied k) {type : ServerType} (haccepts : accepts type = true) :
    Tied (k.newSession type) := by
  refine ⟨fun key info hkey => ?_, fun p hp => ?_⟩
  · rcases h.services key info hkey with hcentral | ⟨hsid, p, hopen, huuid, hid⟩
    · exact .inl hcentral
    · obtain ⟨hsession, hlogicID⟩ := newSession_other type hopen.1
      refine .inr ⟨hsid, p, hopen.newSession type, ?_, hlogicID.trans hid⟩
      unfold uuidOf at huuid ⊢
      rw [hsession, huuid]
  · rcases Nat.lt_succ_iff_lt_or_eq.mp hp with hp | rfl
    · unfold typeOf
      rw [(newSession_other type hp).1]
      exact h.notClient p hp
    · rw [newSession_typeOf]
      revert haccepts
      cases type <;> decide

theorem serverRegistRQ_tied (h : Tied k) {now : Int} {session : TCPSessionPtr} {rq : ServerRegisterRQ}
    {order : List (Σ _ : Int, Option ServerInfo)} {sent : List Packet} (hopen : k.Open session)
    (heq : k.serverRegistRQ now session (some rq) order = some (k', sent)) : Tied k' := by
  obtain ⟨k₁, key, info, rs, -, henters, hcase, -, -, rfl⟩ := serverRegistRQ_some heq
  refine Tied.congr (k := k₁) ?_ rfl rfl rfl rfl
  refine ⟨fun j x hx => ?_, fun p hp => ?_⟩
  · unfold Open uuidOf
    rw [henters.manager, henters.created]
    rcases hcase with ⟨old, -, -, hold, rfl, hid⟩ | ⟨rfl, rfl, -, hid⟩
    · rw [hid]
      rcases henters.entry hx with ⟨rfl, rfl⟩ | ⟨-, hj⟩
      · exact h.services j old hold
      · exact h.services j x hj
    · rw [hid]
      rcases henters.entry hx with ⟨rfl, rfl⟩ | ⟨-, hj⟩
      · exact .inr ⟨rfl, session, hopen, rfl, if_pos rfl⟩
      · rcases h.services j x hj with hcentral | ⟨hsid, p, hp, huuid, hlogicID⟩
        · exact .inl hcentral
        · refine .inr ⟨hsid, p, hp, huuid, ?_⟩
          -- the owner may be the session that registers once more
          dsimp only
          split_ifs with hsame
          · exact hsame ▸ huuid
          · exact hlogicID
  · rw [henters.typeOf]
    exact h.notClient p (henters.created ▸ hp)

theorem onClose_tied (h : Tied k) {now : Int} {session : TCPSessionPtr} (heq : k.onClose now session = some k') :
    Tied k' := by
  obtain ⟨hmanager, hcreated, hid, -⟩ := onClose_some heq
  refine ⟨fun key info hkey => ?_, fun p hp => ?_⟩
  · obtain ⟨hne, hold⟩ := (onClose_lookup heq).mp hkey
    rcases h.services key info hold with hcentral | ⟨hsid, p, hopen, huuid, hlogicID⟩
    · exact .inl hcentral
    · -- the service of the session that closes was under its `logicID`
      have hp : p ≠ session := fun hp => hne (by rw [← hsid, ← hlogicID, hp])
      have hsession : k'.manager.sessions p = k.manager.sessions p := by
        rw [hmanager, (k.manager.handClose_frame session p).2.2 hp]
      refine .inr ⟨hsid, p, ?_, ?_, hid ▸ hlogicID⟩
      · unfold Open
        rw [hcreated, hsession]
        exact hopen
      · rw [onClose_uuidOf heq, huuid]
  · rw [onClose_typeOf heq]
    exact h.notClient p (hcreated ▸ hp)

theorem Reaches.mem {sid : Int} (h : k.Reaches sid) : sid ∈ k.servers_ := by
  obtain ⟨-, ⟨-, -, info, hinfo⟩, -⟩ := h
  rw [← AList.lookup_isSome, hinfo]
  rfl

/-- A call back that reaches everyone changes the match manager only. -/
theorem callback_tied (h : Tied k) {m : CSMatchManager} {changed : Option ChangedMatchMap} {sent : List Packet}
    (hreach : ∀ map ∈ changed, ∀ pair ∈ map.entries, k.Reaches pair.1) (heq : k.callback m changed = some (k', sent)) :
    Tied k' := by
  obtain rfl := callback_of_mem (fun map hmap pair hpair => (hreach map hmap pair hpair).mem) heq
  exact h.congr rfl rfl rfl rfl

theorem step_tied {s : Option CSKernel} {e : Event} (hs : OrCrashed Tied s) (hok : ReachesAll s e) :
    OrCrashed Tied (step s e) := by
  intro k' hk'
  cases s with
  | none => cases hk'
  | some k =>
    have h := hs k rfl
    have hreach := hok k rfl
    obtain ⟨sent, hhandled⟩ := mem_step hk'
    cases hhandled with
    | idle => exact h
    | newSession haccepts => exact newSession_tied h haccepts
    | serverRegistRQ hopen heq => exact serverRegistRQ_tied h hopen heq
    | checkMatchDistributeRQ _ _ => exact h.congr rfl rfl rfl rfl
    | onClose _ heq => exact onClose_tied h heq
    | updateDistMatchServices heq =>
      exact callback_tied h (fun map hmap => hreach (_, map) (Option.mem_map_of_mem _ hmap)) heq
    | cancelMatch heq =>
      exact callback_tied h (fun map hmap => hreach (_, map) (Option.mem_map_of_mem _ hmap)) heq
    | createdMatches => exact h.congr rfl rfl rfl rfl

end Step

theorem delivers_iff {s : Option CSKernel} (hs : OrCrashed Tied s) (e : Event) : Delivers s e ↔ ReachesAll s e := by
  refine forall₂_congr fun k hk => forall₂_congr fun c _ => ?_
  have htied : Tied (k.setMatches c.1) := (hs k hk).congr rfl rfl rfl rfl
  exact htied.rightDistribution_iff c.2

theorem start_tied (manager : TCPSessionManager) (matches_ : CSMatchManager) (listenInfos : List ServerInfo.Listener)
    (now : Int) : Tied (start manager matches_ listenInfos now) := by
  refine ⟨fun key info hkey => ?_, fun p hp => absurd hp (Nat.not_lt_zero p)⟩
  obtain ⟨hkey, central, heq, hsid, -⟩ := lookup_start hkey
  cases heq
  exact .inl ⟨hkey, hsid⟩

/-- **A run sends every list to its own server, and leaves the registry alone, exactly if every list it sends is that of
a service that is still there.** -/
theorem delivered_iff (manager : TCPSessionManager) (matches_ : CSMatchManager) (listenInfos : List ServerInfo.Listener)
    (now : Int) (es : List Event) :
    Runs.Along step Delivers (some (start manager matches_ listenInfos now)) es ↔
      Runs.Along step ReachesAll (some (start manager matches_ listenInfos now)) es := by
  have hvalid : Runs.Along step (fun _ _ => True) (some (start manager matches_ listenInfos now)) es :=
    Runs.along_of_inv (fun _ _ _ => trivial) trivial
  have hfirst : OrCrashed Tied (some (start manager matches_ listenInfos now)) := fun k hk =>
    Option.some.inj hk ▸ start_tied manager matches_ listenInfos now
  have hiff : ∀ s e, OrCrashed Tied s → True → (Delivers s e ↔ ReachesAll s e) := fun s e hs _ => delivers_iff hs e
  exact Runs.along_iff_along hiff (fun s e hs _ hok => step_tied hs hok) hfirst hvalid

/-- A gate server and a match server are there, both matches are the match server's, and the match server is lost. -/
def lostRun : List Event :=
  [.newSession .GateServer, .newSession .MatchServer, .serverRegistRQ 0 (some { sid := -1, connectTypes := [] }) 0 [],
    .serverRegistRQ 1 (some { sid := -1, connectTypes := [] }) 0 [], .updateDistMatchServices 25, .onClose 1 26]

/-- One of the matches is cancelled before the next pass, so the lost service is inserted again, with sid 0: what is
left to it is sent to the gate server. -/
theorem lostRun_strays :
    ¬ Runs.Along step Delivers (some (start .empty (.initialized 0 (sampleMatches [7, 8])) [⟨3, 8000, "10.0.0.1"⟩] 0))
      (lostRun ++ [.cancelMatch 7 0]) := by
  intro h
  obtain ⟨hlast, -⟩ := (Runs.along_append.mp h).2
  have hcall : ∃ k ∈ Runs.run step (some (start .empty (.initialized 0 (sampleMatches [7, 8]))
        [⟨3, 8000, "10.0.0.1"⟩] 0)) lostRun, ∃ c ∈ k.changedMatches (.cancelMatch 7 0),
      (k.setMatches c.1).servers_.lookup 1 = none ∧
        ∃ r ∈ (k.setMatches c.1).distributeMatch c.2, (r.1.servers_.lookup 1).isSome = true := by
    decide
  obtain ⟨k, hk, c, hc, hgone, r, hr, hback⟩ := hcall
  obtain ⟨k', lists, toGates, heq, hservers, -⟩ := hlast k hk c hc
  cases (Option.mem_def.mp hr).symm.trans heq
  rw [hservers, hgone] at hback
  cases hback

end AsioUtils.CentralServer.CSKernel
