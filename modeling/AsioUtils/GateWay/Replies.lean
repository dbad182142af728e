import AsioUtils.GateWay.Relay
import AsioUtils.Lib.Runs

/-!
# Whom a reply reaches

Clients and servers connect, clients send requests, which are passed on with the uuid of the client's session, sessions
close, and servers reply to any request, at any time and any number of times, with the request's `extraID`.

* `World.step` : one event; `World.history` remembers who was given, or gave up, which uuid;
* `holder` : the session that was the last to be given a uuid, when it has not been given up since;
* `SlotsHeld`, `Inv` : every slot of the pool is its index's holder's, and what else every run keeps;
* `replies_right_iff` : over whole runs, every reply reaches its requester, or nobody when that has gone, exactly when
  each comes while the requester holds its uuid, or while nobody does and no other client is listed.
-/

namespace AsioUtils.GateWay

open Net CPG Runs

/-- A request that was passed on. -/
structure Request where
  session : TCPSessionPtr
  extraID : Int32
  deriving DecidableEq

/-- A reply that has gone through `transToClient`. -/
structure Reply where
  session : TCPSessionPtr
  /-- whether the session that sent the request had gone -/
  gone : Bool
  /-- the sessions it was sent to that have not gone -/
  receivers : List TCPSessionPtr
  deriving DecidableEq

structure World where
  manager : TCPSessionManager
  /-- the pointers below are in use -/
  created : TCPSessionPtr
  routes : Routes
  requests : List Request
  replies : List Reply
  /-- the uuids given to sessions and given up, latest first -/
  history : List (Int32 × Option TCPSessionPtr)

inductive Event
  | newSession
  | createConnector (type : UInt8)
  | connectCallback (session : TCPSessionPtr)
  | handClose (session : TCPSessionPtr)
  /-- any change of where packets go -/
  | routes (r : Routes)
  | clientMsg (session : TCPSessionPtr) (header : PacketHeader) (body : List UInt8)
  /-- a server of type `server` replies to the `n`-th request -/
  | reply (n : Nat) (server : ServerType) (type : Int32) (body : List UInt8)

namespace World

def init : World := ⟨.empty, 0, {}, [], [], []⟩

/-- Record the uuid of the session that has just been added. -/
def added (w : World) (m : TCPSessionManager) : World :=
  { w with
    manager := m
    created := w.created + 1
    history := ((m.sessions w.created).uuid_, some w.created) :: w.history }

/-- Record a uuid given up, if the session does not reconnect. -/
def closed (w : World) (m : TCPSessionManager) (session : TCPSessionPtr) : World :=
  { w with
    manager := m
    history := if (m.sessions session).isGone then ((m.sessions session).uuid_, none) :: w.history else w.history }

def step (k : Relay) (w : World) : Event → World
  | .newSession => w.added (w.manager.newSession w.created 0)
  | .createConnector type => w.added (w.manager.createConnector w.created type)
  | .connectCallback session =>
    if session < w.created ∧ (w.manager.sessions session).client_ ∧ ¬ (w.manager.sessions session).isGone then
      { w with manager := w.manager.connectCallback session }
    else w
  | .handClose session =>
    if session < w.created ∧ (w.manager.sessions session).connected then
      w.closed (w.manager.handClose k.onClose session) session
    else w
  | .routes r => { w with routes := r }
  | .clientMsg session header body =>
    let s := w.manager.sessions session
    if session < w.created ∧ ¬ s.client_ ∧ s.connected ∧ k.clientMsg w.manager w.routes s.uuid_ body header ≠ [] then
      { w with requests := w.requests ++ [⟨session, s.uuid_⟩] }
    else w
  | .reply n server type body =>
    match w.requests[n]? with
    | none => w
    | some req =>
      if k.serverMsg server type = .transToClient then
        match k.transToClient w.manager body ⟨type, Int32.ofNat body.length, req.extraID⟩ with
        | none => w
        | some sent =>
          let receivers := (sent.map Sent.session).filter fun p => !(w.manager.sessions p).isGone
          { w with replies := w.replies ++ [⟨req.session, (w.manager.sessions req.session).isGone, receivers⟩] }
      else w

/-- The session that was the last to be given the uuid, unless it has been given up since; `-1` is no session's. -/
def holder (w : World) (uuid : Int32) : Option TCPSessionPtr :=
  if 0 ≤ uuid then (w.history.find? (·.1 = uuid)).bind Prod.snd else none

/-- The sessions of clients that are in the list of the pool and have not gone. -/
def listedClients (w : World) : List TCPSessionPtr :=
  w.manager.sessionMap_.objects_.filter fun p =>
    (w.manager.sessions p).type = 0 && !(w.manager.sessions p).isGone

end World

/-- A reply reaches the session that sent the request, and nobody else; nobody when it has gone. -/
def Reply.Right (r : Reply) : Prop := r.receivers = if r.gone then [] else [r.session]

def RepliesRight (w : World) : Prop := ∀ r ∈ w.replies, r.Right

/-- The requester holds its uuid; or nobody does, and the requester, unless it has gone, is the only client listed. -/
def Answerable (w : World) (req : Request) : Prop :=
  match w.holder req.extraID with
  | some p => p = req.session
  | none => w.listedClients = if (w.manager.sessions req.session).isGone then [] else [req.session]

/-- A reply that is sent on is one to an answerable request. -/
def ReplyInTime (k : Relay) (w : World) : Event → Prop
  | .reply n server type _ =>
    k.serverMsg server type = .transToClient → ∀ req, w.requests[n]? = some req → Answerable w req
  | _ => True

/-! ## The holder of a uuid has its slot -/

theorem toInt32_nonneg {i : UInt32} (h : i.toNat ≤ OB_MAX) : 0 ≤ i.toInt32 := by
  rw [Int32.le_iff_toInt_le, toInt_toInt32 h]
  exact Int.natCast_nonneg _

theorem holder_cons {w w' : World} {v : Int32} {x : Option TCPSessionPtr} (h : w'.history = (v, x) :: w.history)
    (u : Int32) : w'.holder u = if 0 ≤ u ∧ v = u then x else w.holder u := by
  unfold World.holder
  by_cases hu : 0 ≤ u
  · rw [if_pos hu, if_pos hu, h, List.find?_cons]
    by_cases hv : v = u
    · rw [if_pos ⟨hu, hv⟩, decide_eq_true hv]
      rfl
    · rw [if_neg (fun hboth => hv hboth.2), decide_eq_false hv]
  · rw [if_neg hu, if_neg hu, if_neg (fun hboth => hu hboth.1)]

/-- `-1` is given to sessions that have no slot; nobody holds it. -/
theorem holder_cons_invalid {w w' : World} {x : Option TCPSessionPtr}
    (h : w'.history = (INVALID_UUID, x) :: w.history) (u : Int32) : w'.holder u = w.holder u := by
  rw [holder_cons h, if_neg]
  rintro ⟨hu, rfl⟩
  exact absurd hu (by decide)

/-- Every slot holds what the holder of its index is. -/
def SlotsHeld (w : World) : Prop :=
  ∀ i : UInt32, i.toNat ≤ OB_MAX → w.manager.sessionMap_.objectArray_ i = w.holder i.toInt32

/-- Writing a slot and recording it. -/
theorem SlotsHeld.write {w w' : World} (h : SlotsHeld w) {index : UInt32} {x : Option TCPSessionPtr}
    (harray : w'.manager.sessionMap_.objectArray_ =
      fun j => if j = index then x else w.manager.sessionMap_.objectArray_ j)
    (hhistory : w'.history = (index.toInt32, x) :: w.history) : SlotsHeld w' := by
  intro i hi
  rw [harray, holder_cons hhistory]
  by_cases heq : i = index
  · subst heq
    rw [if_pos ⟨toInt32_nonneg hi, rfl⟩]
    exact if_pos rfl
  · rw [if_neg (fun hboth => heq (congrArg Int32.toUInt32 hboth.2).symm), ← h i hi]
    exact if_neg heq

/-- What every run keeps. -/
structure Inv (w : World) : Prop where
  slot : SlotsHeld w
  uuid : ∀ p, p < w.created → (w.manager.sessions p).uuid_ = INVALID_UUID ∨
    (w.manager.sessions p).uuid_.toUInt32.toNat ≤ OB_MAX
  holds : ∀ u p, w.holder u = some p → p < w.created ∧ (w.manager.sessions p).uuid_ = u ∧
    (w.manager.sessions p).isGone = false
  request : ∀ r ∈ w.requests, r.session < w.created ∧ r.extraID = (w.manager.sessions r.session).uuid_

theorem inv_init : Inv .init where
  slot _ _ := by
    show none = World.holder .init _
    unfold World.holder
    split_ifs <;> rfl
  uuid p hp := absurd hp (Nat.not_lt_zero p)
  holds u p h := by
    unfold World.holder at h
    split_ifs at h
    cases h
  request r hr := by cases hr

section Added

variable {w : World} {m : TCPSessionManager}

/-- A new session is the holder of the uuid it was given, if it was given one. -/
theorem slotsHeld_added (h : SlotsHeld w) (hm : w.manager.Adds m w.created) : SlotsHeld (w.added m) := by
  have hhistory : (w.added m).history = ((m.sessions w.created).uuid_, some w.created) :: w.history := rfl
  rcases hm.slot with ⟨hpool, huuid⟩ | ⟨index, -, huuid, harray⟩
  · rw [huuid] at hhistory
    intro i hi
    rw [holder_cons_invalid hhistory, ← h i hi]
    exact congrFun (congrArg ObjectIndexPool.objectArray_ hpool) i
  · exact h.write harray (huuid ▸ hhistory)

theorem Inv.added (h : Inv w) (hm : w.manager.Adds m w.created) : Inv (w.added m) := by
  have hother : ∀ p, p < w.created → m.sessions p = w.manager.sessions p := fun p hp => hm.others p (Nat.ne_of_lt hp)
  refine ⟨slotsHeld_added h.slot hm, fun p hp => ?_, fun u p hp => ?_, fun r hr => ?_⟩
  · show (m.sessions p).uuid_ = _ ∨ (m.sessions p).uuid_.toUInt32.toNat ≤ _
    rcases Nat.lt_succ_iff_lt_or_eq.mp hp with hlt | rfl
    · rw [hother p hlt]
      exact h.uuid p hlt
    · rcases hm.slot with ⟨-, huuid⟩ | ⟨index, hindex, huuid, -⟩
      · exact .inl huuid
      · exact .inr (by rw [huuid]; exact hindex)
  · rw [holder_cons (show (w.added m).history = _ from rfl)] at hp
    show p < w.created + 1 ∧ (m.sessions p).uuid_ = u ∧ (m.sessions p).isGone = false
    split_ifs at hp with hnew
    · obtain rfl := Option.some.inj hp
      exact ⟨Nat.lt_succ_self _, hnew.2, hm.notGone⟩
    · obtain ⟨hlt, huuid, hgone⟩ := h.holds u p hp
      rw [hother p hlt]
      exact ⟨Nat.lt_succ_of_lt hlt, huuid, hgone⟩
  · obtain ⟨hlt, huuid⟩ := h.request r hr
    refine ⟨Nat.lt_succ_of_lt hlt, ?_⟩
    show r.extraID = (m.sessions r.session).uuid_
    rw [hother _ hlt, huuid]

end Added

section Closed

variable {w : World} {m : TCPSessionManager} {session : TCPSessionPtr}

/-- A session that goes gives up its uuid; nothing else changes hands. -/
theorem holder_closed (hm : w.manager.Closes m session) (u : Int32) : (w.closed m session).holder u =
    if (m.sessions session).isGone = true ∧ 0 ≤ u ∧ (w.manager.sessions session).uuid_ = u then none
    else w.holder u := by
  by_cases hgone : (m.sessions session).isGone = true
  · have hhistory : (w.closed m session).history = ((w.manager.sessions session).uuid_, none) :: w.history := by
      show (if (m.sessions session).isGone = true then _ else _) = _
      rw [if_pos hgone, hm.uuid]
    rw [holder_cons hhistory]
    simp only [hgone, true_and]
  · rw [if_neg (fun hboth => hgone hboth.1)]
    unfold World.holder World.closed
    rw [if_neg hgone]

theorem slotsHeld_closed (h : Inv w) (hlt : session < w.created) (hm : w.manager.Closes m session) :
    SlotsHeld (w.closed m session) := by
  rcases hm.slot with ⟨hgone, hpool⟩ | ⟨hgone, hpool⟩
  · intro i hi
    rw [holder_closed hm, if_neg (fun hboth => Bool.false_ne_true (hgone.symm.trans hboth.1)), ← h.slot i hi]
    exact congrFun (congrArg ObjectIndexPool.objectArray_ hpool) i
  · have hhistory : (w.closed m session).history = ((w.manager.sessions session).uuid_, none) :: w.history := by
      show (if (m.sessions session).isGone = true then _ else _) = _
      rw [if_pos hgone, hm.uuid]
    rcases h.uuid session hlt with hnone | hindex
    · -- the session has no slot, and `removeObject` ignores its uuid
      intro i hi
      rw [hnone] at hhistory
      rw [holder_cons_invalid hhistory, ← h.slot i hi]
      show m.sessionMap_.objectArray_ i = _
      rw [hpool, hnone, ObjectIndexPool.removeObject_of_lt _ (by decide)]
    · refine h.slot.write ?_ hhistory
      show m.sessionMap_.objectArray_ = _
      rw [hpool, ObjectIndexPool.objectArray_removeObject _ hindex]

theorem Inv.closed (h : Inv w) (hlt : session < w.created) (hm : w.manager.Closes m session) :
    Inv (w.closed m session) := by
  have huuid : ∀ p, (m.sessions p).uuid_ = (w.manager.sessions p).uuid_ := by
    intro p
    by_cases hp : p = session
    · rw [hp, hm.uuid]
    · rw [hm.others p hp]
  refine ⟨slotsHeld_closed h hlt hm, fun p hp => ?_, fun u p hp => ?_, fun r hr => ?_⟩
  · show (m.sessions p).uuid_ = _ ∨ (m.sessions p).uuid_.toUInt32.toNat ≤ _
    rw [huuid]
    exact h.uuid p hp
  · rw [holder_closed hm] at hp
    split_ifs at hp with hgiven
    obtain ⟨hp₁, hp₂, hp₃⟩ := h.holds u p hp
    refine ⟨hp₁, (huuid p).trans hp₂, ?_⟩
    show (m.sessions p).isGone = false
    by_cases heq : p = session
    · subst heq
      by_contra hgone
      have hnonneg : 0 ≤ u := by
        by_contra hneg
        unfold World.holder at hp
        rw [if_neg hneg] at hp
        cases hp
      exact hgiven ⟨eq_true_of_ne_false hgone, hnonneg, hp₂⟩
    · rw [hm.others p heq, hp₃]
  · show r.session < w.created ∧ r.extraID = (m.sessions r.session).uuid_
    rw [huuid]
    exact h.request r hr

end Closed

/-- `ClientSession::connectCallback` concerns neither the uuids nor who has gone. -/
theorem Inv.connectCallback {w : World} (h : Inv w) {session : TCPSessionPtr}
    (hback : (w.manager.sessions session).isGone = false) :
    Inv { w with manager := w.manager.connectCallback session } := by
  have huuid : ∀ p, ((w.manager.connectCallback session).sessions p).uuid_ = (w.manager.sessions p).uuid_ ∧
      ((w.manager.connectCallback session).sessions p).isGone = (w.manager.sessions p).isGone := by
    intro p
    unfold TCPSessionManager.connectCallback
    by_cases hp : p = session
    · rw [hp, TCPSessionManager.modifySession_self, hback]
      exact ⟨rfl, rfl⟩
    · rw [TCPSessionManager.modifySession_other _ hp]
      exact ⟨rfl, rfl⟩
  refine ⟨h.slot, fun p hp => ?_, fun u p hp => ?_, fun r hr => ?_⟩
  · rw [(huuid p).1]
    exact h.uuid p hp
  · rw [(huuid p).1, (huuid p).2]
    exact h.holds u p hp
  · rw [(huuid _).1]
    exact h.request r hr

/-- What a reply changes. -/
theorem step_reply_eq (k : Relay) (w : World) (n : Nat) (server : ServerType) (type : Int32) (body : List UInt8) :
    ∃ replies, w.step k (.reply n server type body) = { w with replies := replies } := by
  unfold World.step
  dsimp only
  split
  · exact ⟨w.replies, rfl⟩
  · split_ifs
    · split
      · exact ⟨w.replies, rfl⟩
      · exact ⟨_, rfl⟩
    · exact ⟨w.replies, rfl⟩

theorem Inv.step (k : Relay) {w : World} (h : Inv w) (e : Event) : Inv (w.step k e) := by
  cases e with
  | newSession => exact h.added (w.manager.newSession_adds w.created 0)
  | createConnector type => exact h.added (w.manager.createConnector_adds w.created type)
  | connectCallback session =>
    unfold World.step
    dsimp only
    split_ifs with hc
    · exact h.connectCallback (eq_false_of_ne_true hc.2.2)
    · exact h
  | handClose session =>
    unfold World.step
    dsimp only
    split_ifs with hc
    · exact h.closed hc.1 (w.manager.handClose_closes k.onClose_frame hc.2)
    · exact h
  | routes r => exact ⟨h.slot, h.uuid, h.holds, h.request⟩
  | clientMsg session header body =>
    unfold World.step
    dsimp only
    split_ifs with hc
    · refine ⟨h.slot, h.uuid, h.holds, fun r hr => ?_⟩
      rcases List.mem_append.mp hr with hr | hr
      · exact h.request r hr
      · rw [List.mem_singleton.mp hr]
        exact ⟨hc.1, rfl⟩
    · exact h
  | reply n server type body =>
    obtain ⟨replies, hstep⟩ := step_reply_eq k w n server type body
    rw [hstep]
    exact ⟨h.slot, h.uuid, h.holds, h.request⟩

/-! ## Replies -/

/-- **The slot of a request's `extraID`** holds the holder of this uuid. -/
theorem getSession_request {w : World} (h : Inv w) {req : Request} (hreq : req ∈ w.requests) :
    w.manager.getSession req.extraID = some (w.holder req.extraID) := by
  obtain ⟨hlt, huuid⟩ := h.request req hreq
  unfold TCPSessionManager.getSession
  rcases h.uuid _ hlt with hnone | hindex
  · have hneg : ¬ 0 ≤ req.extraID := by
      rw [huuid, hnone]
      decide
    unfold World.holder
    rw [if_neg hneg, if_neg hneg]
  · rw [← huuid] at hindex
    rw [if_pos (show 0 ≤ req.extraID from toInt32_nonneg hindex)]
    unfold ObjectIndexPool.getObject
    rw [if_pos hindex, h.slot _ hindex]
    rfl

section Receivers

variable {w : World} (body : List UInt8) (header : PacketHeader)

/-- A reply for the holder of a uuid reaches the holder. -/
theorem receivers_holder (h : Inv w) {uuid : Int32} {p : TCPSessionPtr} (hp : w.holder uuid = some p) :
    (((w.manager.sendMsg (some p) body header kDefaultStype).map Sent.session).filter fun p => !(w.manager.sessions p).isGone) =
      [p] := by
  obtain ⟨-, -, hgone⟩ := h.holds uuid p hp
  show [p].filter _ = [p]
  rw [List.filter_cons_of_pos (by rw [hgone]; rfl), List.filter_nil]

/-- A reply for a uuid that nobody holds reaches all clients listed. -/
theorem receivers_none :
    (((w.manager.sendMsg none body header kDefaultStype).map Sent.session).filter fun p => !(w.manager.sessions p).isGone) =
      w.listedClients := by
  rw [TCPSessionManager.sessions_sendMsg_none, List.filter_filter]
  show _ = w.manager.sessionMap_.objects_.filter _
  exact List.filter_congr fun p _ => Bool.and_comm _ _

end Receivers

/-- **One reply** is right exactly when its request is answerable. -/
theorem reply_right_iff {w : World} (h : Inv w) {req : Request} (body : List UInt8) (header : PacketHeader) :
    Reply.Right ⟨req.session, (w.manager.sessions req.session).isGone,
        ((w.manager.sendMsg (w.holder req.extraID) body header kDefaultStype).map Sent.session).filter
          fun p => !(w.manager.sessions p).isGone⟩ ↔ Answerable w req := by
  unfold Reply.Right Answerable
  dsimp only
  cases hholder : w.holder req.extraID with
  | none =>
    rw [receivers_none]
  | some p =>
    rw [receivers_holder body header h hholder]
    obtain ⟨-, -, hgone⟩ := h.holds _ p hholder
    constructor
    · intro hright
      by_cases hreq : (w.manager.sessions req.session).isGone = true
      · rw [if_pos hreq] at hright
        cases hright
      · rw [if_neg hreq] at hright
        exact (List.cons.inj hright).1
    · rintro rfl
      rw [hgone]
      rfl

/-- Only a reply adds to the replies. -/
theorem step_replies (k : Relay) (w : World) (e : Event) :
    (∃ n server type body, e = .reply n server type body) ∨ (w.step k e).replies = w.replies ∧ ReplyInTime k w e := by
  cases e with
  | reply n server type body => exact .inl ⟨n, server, type, body, rfl⟩
  | newSession => exact .inr ⟨rfl, trivial⟩
  | createConnector type => exact .inr ⟨rfl, trivial⟩
  | routes r => exact .inr ⟨rfl, trivial⟩
  | connectCallback session =>
    refine .inr ⟨?_, trivial⟩
    unfold World.step
    dsimp only
    split_ifs <;> rfl
  | handClose session =>
    refine .inr ⟨?_, trivial⟩
    unfold World.step
    dsimp only
    split_ifs <;> rfl
  | clientMsg session header body =>
    refine .inr ⟨?_, trivial⟩
    unfold World.step
    dsimp only
    split_ifs <;> rfl

/-- A reply to a request is sent to the holder of its `extraID`, or to all clients. -/
theorem step_reply (k : Relay) {w : World} (hinv : Inv w) {n : Nat} {req : Request} (hn : w.requests[n]? = some req)
    {server : ServerType} {type : Int32} (htrans : k.serverMsg server type = .transToClient) (body : List UInt8) :
    (w.step k (.reply n server type body)).replies = w.replies ++ [⟨req.session, (w.manager.sessions req.session).isGone,
      ((w.manager.sendMsg (w.holder req.extraID) body ⟨type, Int32.ofNat body.length, req.extraID⟩ kDefaultStype).map
        Sent.session).filter fun p => !(w.manager.sessions p).isGone⟩] := by
  have hsent : k.transToClient w.manager body ⟨type, Int32.ofNat body.length, req.extraID⟩ =
      some (w.manager.sendMsg (w.holder req.extraID) body ⟨type, Int32.ofNat body.length, req.extraID⟩ kDefaultStype) := by
    rw [Relay.transToClient_eq, TCPSessionManager.sendMsgTo, getSession_request hinv (List.mem_of_getElem? hn)]
    rfl
  unfold World.step
  dsimp only
  rw [hn]
  dsimp only
  rw [if_pos htrans, hsent]

/-- **One step** from a world whose replies have been right. -/
theorem repliesRight_step (k : Relay) {w : World} (hinv : Inv w) (h : RepliesRight w) (e : Event) :
    RepliesRight (w.step k e) ↔ ReplyInTime k w e := by
  rcases step_replies k w e with ⟨n, server, type, body, rfl⟩ | ⟨hsame, hok⟩
  · show (∀ r ∈ (w.step k (.reply n server type body)).replies, r.Right) ↔
      (k.serverMsg server type = .transToClient → ∀ req, w.requests[n]? = some req → Answerable w req)
    by_cases hsent : k.serverMsg server type = .transToClient ∧ ∃ req, w.requests[n]? = some req
    · obtain ⟨htrans, req, hn⟩ := hsent
      rw [step_reply k hinv hn htrans, List.forall_mem_append, List.forall_mem_singleton,
        and_iff_right (show ∀ r ∈ w.replies, r.Right from h), reply_right_iff hinv]
      constructor
      · intro hans _ req' hreq
        exact Option.some.inj (hn.symm.trans hreq) ▸ hans
      · intro hall
        exact hall htrans req hn
    · refine iff_of_true ?_ fun htrans req hreq => absurd ⟨htrans, req, hreq⟩ hsent
      have hsame : (w.step k (.reply n server type body)).replies = w.replies := by
        unfold World.step
        dsimp only
        rcases hn : w.requests[n]? with _ | req
        · rfl
        · dsimp only
          rw [if_neg fun htrans => hsent ⟨htrans, req, hn⟩]
      rw [hsame]
      exact h
  · refine iff_of_true ?_ hok
    unfold RepliesRight
    rw [hsame]
    exact h

/-- **Replies reach whoever sent the request**, in every state of a run, if and only if each reply is sent on while its
request is answerable. -/
theorem replies_right_iff (k : Relay) (es : List Event) :
    Always (World.step k) RepliesRight .init es ↔ Along (World.step k) (ReplyInTime k) .init es := by
  have hinv : Along (World.step k) (fun w _ => Inv w) .init es :=
    along_of_inv (fun _ e h => h.step k e) inv_init
  have hstep : ∀ w e, RepliesRight w → Inv w → (RepliesRight (World.step k w e) ↔ ReplyInTime k w e) :=
    fun _ e h hw => repliesRight_step k hw h e
  exact always_iff_along hstep (fun _ hr => absurd hr List.not_mem_nil) hinv

/-- A client asks the central server and goes before the reply; another client is there. -/
def goneRun : List Event :=
  [.createConnector 5, .routes { centralSession_ := some 0 }, .newSession, .newSession,
    .clientMsg 1 ⟨11001, 0, 0⟩ [], .handClose 1, .reply 0 .CentralServer 11001 []]

theorem goneRun_replies : (run (World.step .gateWay) .init goneRun).replies = [⟨1, true, [2]⟩] := by decide +kernel

/-- The slot is empty, `getSession` returns null, and `sendMsg` takes null for all sessions of type `0`, the type of
clients. -/
theorem goneRun_misdelivers : ¬ ∀ (k : Relay) (es : List Event), Always (World.step k) RepliesRight .init es := by
  intro h
  have hright : Reply.Right ⟨1, true, [2]⟩ :=
    (h .gateWay goneRun).last _ (goneRun_replies ▸ List.mem_singleton_self _)
  exact List.cons_ne_nil _ _ hright

end AsioUtils.GateWay
