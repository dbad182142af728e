import AsioUtils.CPG.Define
import AsioUtils.Net.NetPacket
import AsioUtils.Net.ObjectIndexPool
import AsioUtils.Net.TCPSession

/-!
# `TCPSessionManager`: the registry of sessions

Every session of a server, accepted or connecting, is in one `ObjectIndexPool`; the index of its slot is its uuid. A
session is a pointer into the heap `sessions`.

* `addSession`, `removeSession`, `getSession`, `sendMsg`, `handClose` : the member functions;
* `Adds`, `Closes` : what adding and closing a session does to the registry;
* `sessions_sendMsg_none` : a message for a null session goes to all sessions of a type.
-/

namespace AsioUtils.Net

open CPG

/-- A pointer to a session; pointers are never reused. -/
abbrev TCPSessionPtr := Nat

def INVALID_UUID : Int32 := -1

/-- What the registry reads of a session. `client_` marks a `ClientSession`, which connects to another server and has
a `retry_` flag. -/
structure Session where
  type_ : UInt16 := 0
  uuid_ : Int32 := INVALID_UUID
  client_ : Bool := false
  retry_ : Bool := true
  state_ : TCPSession.StateE := .kConnecting
  deriving DecidableEq

namespace Session

/-- `type()` cuts `type_` to eight bits. -/
def type (s : Session) : UInt8 := s.type_.toUInt8

def connected (s : Session) : Bool := s.state_ = .kConnected || s.state_ = .kConnecting

def canRetry (s : Session) : Bool := s.retry_

/-- Neither connected nor about to reconnect: what is sent to it goes nowhere. -/
def isGone (s : Session) : Bool := !s.connected && !(s.client_ && s.canRetry)

end Session

/-- One call of `addMore` with the header and of `send` with the body. -/
structure Sent where
  session : TCPSessionPtr
  header : PacketHeader
  body : List UInt8
  deriving DecidableEq

/-- The default of the parameter `stype` of `sendMsg`. -/
def kDefaultStype : UInt8 := 0

structure TCPSessionManager where
  sessions : TCPSessionPtr → Session
  sessionMap_ : ObjectIndexPool TCPSessionPtr OB_MAX

namespace TCPSessionManager

def empty : TCPSessionManager := ⟨fun _ => {}, .empty⟩

/-- Write to a session's members. -/
def modifySession (m : TCPSessionManager) (session : TCPSessionPtr) (f : Session → Session) : TCPSessionManager :=
  { m with sessions := fun p => if p = session then f (m.sessions p) else m.sessions p }

def addSession (m : TCPSessionManager) (session : TCPSessionPtr) : TCPSessionManager :=
  let (index, pool) := m.sessionMap_.addObject session
  { m with sessionMap_ := pool }.modifySession session fun s => { s with uuid_ := index.toInt32 }

def removeSession (m : TCPSessionManager) (uuid : Int32) : TCPSessionManager :=
  { m with sessionMap_ := m.sessionMap_.removeObject uuid.toUInt32 }

/-- The close callback; a session that reconnects stays where it is. -/
def removeSessionPtr (m : TCPSessionManager) (session : TCPSessionPtr) : TCPSessionManager :=
  if (m.sessions session).client_ && (m.sessions session).canRetry then m
  else m.removeSession (m.sessions session).uuid_

/-- The session of a uuid, or null; the outer `none` is a failed `assert`. -/
def getSession (m : TCPSessionManager) (uuid : Int32) : Option (Option TCPSessionPtr) :=
  if 0 ≤ uuid then m.sessionMap_.getObject uuid.toUInt32 else some none

/-- `session->addMore(&header, …); session->send(body, header.size)` -/
def sendTo (header : PacketHeader) (body : List UInt8) (session : TCPSessionPtr) : Sent :=
  ⟨session, header, body.take header.size.toInt.toNat⟩

/-- A null session stands for all sessions of type `stype`. -/
def sendMsg (m : TCPSessionManager) (session : Option TCPSessionPtr) (body : List UInt8) (header : PacketHeader)
    (stype : UInt8) : List Sent :=
  match session with
  | some session => [sendTo header body session]
  | none => m.sessionMap_.foreach fun session =>
      if (m.sessions session).type = stype then [sendTo header body session] else []

/-- The sessions `sendMsg` sends to. -/
def receivers (m : TCPSessionManager) (session : Option TCPSessionPtr) (stype : UInt8) : List TCPSessionPtr :=
  match session with
  | some session => [session]
  | none => m.sessionMap_.objects_.filter fun p => (m.sessions p).type = stype

/-- `sendMsg` to a uuid. -/
def sendMsgTo (m : TCPSessionManager) (uuid : Int32) (body : List UInt8) (header : PacketHeader) (stype : UInt8) :
    Option (List Sent) :=
  (m.getSession uuid).map fun session => m.sendMsg session body header stype

/-- `newSession`, for a session whose listener accepts sessions of type `type`; the listener then calls
`connectEstablished`. -/
def newSession (m : TCPSessionManager) (session : TCPSessionPtr) (type : UInt8) : TCPSessionManager :=
  ((m.modifySession session fun _ => { type_ := type.toUInt16 }).addSession session).modifySession session fun s =>
    { s with state_ := .kConnected }

def createConnector (m : TCPSessionManager) (session : TCPSessionPtr) (type : UInt8) : TCPSessionManager :=
  (m.modifySession session fun _ => { type_ := type.toUInt16, client_ := true }).addSession session

/-- `ClientSession::connectCallback` -/
def connectCallback (m : TCPSessionManager) (session : TCPSessionPtr) : TCPSessionManager :=
  m.modifySession session fun s => { s with state_ := .kConnected }

/-- `TCPSession::handClose`; what `onClose` does is up to the session's class. -/
def handClose (m : TCPSessionManager) (onClose : Session → Session) (session : TCPSessionPtr) : TCPSessionManager :=
  if (m.sessions session).connected then
    (m.modifySession session fun s => onClose { s with state_ := .kDisconnected }).removeSessionPtr session
  else m

/-! ## Lemmas -/

@[simp] theorem modifySession_self (m : TCPSessionManager) (session : TCPSessionPtr) (f : Session → Session) :
    (m.modifySession session f).sessions session = f (m.sessions session) := if_pos rfl

@[simp] theorem modifySession_other (m : TCPSessionManager) {session p : TCPSessionPtr} (h : p ≠ session)
    (f : Session → Session) : (m.modifySession session f).sessions p = m.sessions p := if_neg h

@[simp] theorem modifySession_sessionMap (m : TCPSessionManager) (session : TCPSessionPtr) (f : Session → Session) :
    (m.modifySession session f).sessionMap_ = m.sessionMap_ := rfl

/-- `m'` is `m` with one more session: in a slot of the pool, or refused by it and without a uuid. -/
structure Adds (m m' : TCPSessionManager) (session : TCPSessionPtr) : Prop where
  others : ∀ p, p ≠ session → m'.sessions p = m.sessions p
  notGone : (m'.sessions session).isGone = false
  slot : (m'.sessionMap_ = m.sessionMap_ ∧ (m'.sessions session).uuid_ = INVALID_UUID) ∨
    ∃ index, index.toNat ≤ OB_MAX ∧ (m'.sessions session).uuid_ = index.toInt32 ∧
      m'.sessionMap_.objectArray_ = fun j => if j = index then some session else m.sessionMap_.objectArray_ j

/-- What `addSession` does to a session that has not gone. -/
theorem addSession_adds (m : TCPSessionManager) {session : TCPSessionPtr} (h : (m.sessions session).isGone = false) :
    Adds m (m.addSession session) session := by
  unfold addSession
  rcases m.sessionMap_.addObject_cases session with hfull | ⟨index, pool, hadd, hindex, harray⟩
  · rw [hfull]
    refine ⟨fun p hp => modifySession_other _ hp _, ?_, .inl ⟨rfl, ?_⟩⟩
    · rw [modifySession_self]
      exact h
    · rw [modifySession_self]
      rfl
  · rw [hadd]
    refine ⟨fun p hp => modifySession_other _ hp _, ?_, .inr ⟨index, hindex, ?_, harray⟩⟩
    · rw [modifySession_self]
      exact h
    · rw [modifySession_self]

theorem newSession_adds (m : TCPSessionManager) (session : TCPSessionPtr) (type : UInt8) :
    Adds m (m.newSession session type) session := by
  unfold newSession
  set m₁ := m.modifySession session fun _ => { type_ := type.toUInt16 } with hm₁
  have hadds : Adds m₁ (m₁.addSession session) session := m₁.addSession_adds (by rw [hm₁, modifySession_self]; rfl)
  refine ⟨fun p hp => ?_, ?_, ?_⟩
  · rw [modifySession_other _ hp, hadds.others p hp, hm₁, modifySession_other _ hp]
  · rw [modifySession_self]
    rfl
  · rw [modifySession_self, modifySession_sessionMap]
    exact hadds.slot

theorem createConnector_adds (m : TCPSessionManager) (session : TCPSessionPtr) (type : UInt8) :
    Adds m (m.createConnector session type) session := by
  unfold createConnector
  set m₁ := m.modifySession session fun _ => { type_ := type.toUInt16, client_ := true } with hm₁
  have hadds : Adds m₁ (m₁.addSession session) session := m₁.addSession_adds (by rw [hm₁, modifySession_self]; rfl)
  refine ⟨fun p hp => ?_, hadds.notGone, hadds.slot⟩
  rw [hadds.others p hp, hm₁, modifySession_other _ hp]

/-- `m'` is `m` after a session has closed: it reconnects and keeps its slot, or it has gone and its slot is empty. -/
structure Closes (m m' : TCPSessionManager) (session : TCPSessionPtr) : Prop where
  others : ∀ p, p ≠ session → m'.sessions p = m.sessions p
  uuid : (m'.sessions session).uuid_ = (m.sessions session).uuid_
  slot : ((m'.sessions session).isGone = false ∧ m'.sessionMap_ = m.sessionMap_) ∨
    ((m'.sessions session).isGone = true ∧
      m'.sessionMap_ = m.sessionMap_.removeObject (m.sessions session).uuid_.toUInt32)

theorem handClose_closes (m : TCPSessionManager) {onClose : Session → Session}
    (hframe : ∀ s, (onClose s).uuid_ = s.uuid_ ∧ (onClose s).state_ = s.state_) {session : TCPSessionPtr}
    (h : (m.sessions session).connected = true) : Closes m (m.handClose onClose session) session := by
  unfold handClose
  rw [if_pos h]
  set m₁ := m.modifySession session fun s => onClose { s with state_ := .kDisconnected } with hm₁
  have hothers : ∀ p, p ≠ session → m₁.sessions p = m.sessions p := fun p hp => modifySession_other _ hp _
  have huuid : (m₁.sessions session).uuid_ = (m.sessions session).uuid_ := by
    rw [hm₁, modifySession_self, (hframe _).1]
  have hconnected : (m₁.sessions session).connected = false := by
    rw [hm₁, modifySession_self, Session.connected, (hframe _).2]
    rfl
  have hgone : (m₁.sessions session).isGone = !((m₁.sessions session).client_ && (m₁.sessions session).canRetry) := by
    rw [Session.isGone, hconnected]
    rfl
  unfold removeSessionPtr
  by_cases hretry : ((m₁.sessions session).client_ && (m₁.sessions session).canRetry) = true
  · rw [if_pos hretry]
    exact ⟨hothers, huuid, .inl ⟨by rw [hgone, hretry]; rfl, rfl⟩⟩
  · rw [if_neg hretry]
    refine ⟨hothers, huuid, .inr ⟨?_, ?_⟩⟩
    · show (m₁.sessions session).isGone = true
      rw [hgone, eq_false_of_ne_true hretry]
      rfl
    · show m₁.sessionMap_.removeObject (m₁.sessions session).uuid_.toUInt32 = _
      rw [huuid]
      rfl

theorem newSession_type (m : TCPSessionManager) (session : TCPSessionPtr) (type : UInt8) :
    ((m.newSession session type).sessions session).type = type := by
  simp [newSession, addSession, Session.type]

/-- A new session gets the index of a slot for its uuid. -/
theorem newSession_slot (m : TCPSessionManager) (session : TCPSessionPtr) (type : UInt8) :
    (m.newSession session type).sessionMap_ = (m.sessionMap_.addObject session).2 ∧
      ((m.newSession session type).sessions session).uuid_ = (m.sessionMap_.addObject session).1.toInt32 ∧
      ((m.newSession session type).sessions session).client_ = false := by
  simp [newSession, addSession]

/-- Closing writes the state of a session and, with this `onClose`, nothing else. -/
theorem handClose_frame (m : TCPSessionManager) (session p : TCPSessionPtr) :
    ((m.handClose (fun s => s) session).sessions p).type = (m.sessions p).type ∧
      ((m.handClose (fun s => s) session).sessions p).uuid_ = (m.sessions p).uuid_ ∧
      (p ≠ session → (m.handClose (fun s => s) session).sessions p = m.sessions p) := by
  have hmodify : ∀ p, (m.handClose (fun s => s) session).sessions p =
      if p = session ∧ (m.sessions session).connected then { m.sessions p with state_ := .kDisconnected }
      else m.sessions p := by
    intro p
    unfold handClose removeSessionPtr removeSession modifySession
    by_cases hp : p = session <;> split_ifs <;> simp_all
  rw [hmodify]
  split_ifs with h
  · exact ⟨rfl, rfl, fun hne => absurd h.1 hne⟩
  · exact ⟨rfl, rfl, fun _ => rfl⟩

/-- An accepted session that closes leaves its slot. -/
theorem handClose_slot (m : TCPSessionManager) {session : TCPSessionPtr} (h : (m.sessions session).connected = true)
    (hclient : (m.sessions session).client_ = false) :
    (m.handClose (fun s => s) session).sessionMap_ =
        m.sessionMap_.removeObject (m.sessions session).uuid_.toUInt32 ∧
      ((m.handClose (fun s => s) session).sessions session).connected = false ∧
      ((m.handClose (fun s => s) session).sessions session).client_ = false := by
  unfold handClose
  rw [if_pos h]
  simp [removeSessionPtr, hclient, removeSession, modifySession, Session.connected]

/-- The sessions a message for a null session is sent to: all of the type, in the order of the list. -/
theorem sessions_sendMsg_none (m : TCPSessionManager) (body : List UInt8) (header : PacketHeader) (stype : UInt8) :
    (m.sendMsg none body header stype).map Sent.session =
      m.sessionMap_.objects_.filter fun p => (m.sessions p).type = stype := by
  show (m.sessionMap_.objects_.flatMap _).map Sent.session = _
  induction m.sessionMap_.objects_ with
  | nil => rfl
  | cons p ps ih =>
    rw [List.flatMap_cons, List.map_append, ih, List.filter_cons]
    by_cases htype : (m.sessions p).type = stype
    · rw [if_pos htype, if_pos (decide_eq_true htype)]
      rfl
    · rw [if_neg htype, if_neg (by rw [decide_eq_true_eq]; exact htype)]
      rfl

theorem sessions_sendMsg (m : TCPSessionManager) (session : Option TCPSessionPtr) (body : List UInt8)
    (header : PacketHeader) (stype : UInt8) :
    (m.sendMsg session body header stype).map Sent.session = m.receivers session stype := by
  cases session with
  | some session => rfl
  | none => exact m.sessions_sendMsg_none body header stype

end TCPSessionManager

end AsioUtils.Net
