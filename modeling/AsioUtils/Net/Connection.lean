import AsioUtils.Net.TCPSession

/-!
# The connections of a `TCPSession`

A session is established, loses its connection, and, as a `ClientSession`, is established again with a new socket; its
buffers stay as they are.

* `Connection` : the session with its socket, its input buffer and what its closing calls;
* `handClose`, `shutdown`, `forceClose`, `connectEstablished`, `connectCallback`, … : the member functions;
* `Event`, `step` : what happens to a session, one handler or call at a time;
* `step_sending` : on calls and write completions this is the sending half of `Sending.step`.
-/

namespace AsioUtils.Net

/-- A pointer to a socket; pointers are never reused. -/
abbrev SocketPtr := Nat

/-- The `std::error_code` of a read, as `handRead` tells them apart; `other` is the end of the file too. -/
inductive ReadError
  | operation_aborted | interrupted | try_again | other
  deriving DecidableEq, Repr

structure Connection extends TCPSession where
  socket_ : Option SocketPtr
  inputBuffer_ : DataBuffer
  /-- whether a `closeCallback_` is set -/
  closeCallback_ : Bool
  /-- the sockets `close` has been called on -/
  closed : List SocketPtr
  /-- how often `onClose` and `closeCallback_` have run -/
  onCloses : Nat
  closeCallbacks : Nat

namespace TCPSession

/-- As the constructor leaves it. -/
def constructed : TCPSession := { TCPSession.connected with state_ := .kConnecting }

end TCPSession

namespace Connection

open TCPSession (Call)

/-- As the constructors leave it: an accepted session has its socket, a `ClientSession` has none yet. -/
def constructed (socket_ : Option SocketPtr) (closeCallback_ : Bool) : Connection where
  toTCPSession := .constructed
  socket_ := socket_
  inputBuffer_ := .ofSize DataBuffer.kInitialSize
  closeCallback_ := closeCallback_
  closed := []
  onCloses := 0
  closeCallbacks := 0

def connected (s : Connection) : Bool := s.state_ = .kConnected || s.state_ = .kConnecting

theorem ensureWritableBytes_isSome (b : DataBuffer) (len : Nat) : (b.ensureWritableBytes len).isSome = true := by
  obtain ⟨b', hb', -⟩ := b.ensureWritableBytes_spec len
  rw [hb']
  rfl

/-- What it does before `async_read_some`. -/
def startAsyncRead (s : Connection) : Connection :=
  if s.state_ = .kConnected then
    { s with inputBuffer_ := (s.inputBuffer_.ensureWritableBytes 1024).get (ensureWritableBytes_isSome _ _) }
  else s

/-- What `closeCallback_` does comes after all this, as events of their own. -/
def handClose (s : Connection) : Connection :=
  if s.connected then
    { s with
      state_ := .kDisconnected
      closed := s.closed ++ s.socket_.toList
      socket_ := none
      onCloses := s.onCloses + 1
      closeCallbacks := s.closeCallbacks + if s.closeCallback_ then 1 else 0 }
  else s

/-- `handRead` with an error. -/
def handReadError (s : Connection) : ReadError → Connection
  | .operation_aborted => s
  | .interrupted => s.startAsyncRead
  | .try_again => s.startAsyncRead
  | .other => s.handClose

def shutdown (s : Connection) : Connection :=
  if s.state_ = .kConnected then { s with state_ := .kDisconnecting } else s

def forceClose (s : Connection) : Connection :=
  if s.state_ = .kConnected ∨ s.state_ = .kDisconnecting then s.handClose else s

def connectDestroyed (s : Connection) : Connection := if s.state_ = .kConnected then s.forceClose else s

/-- A call, on a session with a connection. -/
def call (s : Connection) (c : Call) : Connection := { s with toTCPSession := s.toTCPSession.call c }

/-- `calls` are those `connectionCallback_` and `sendInitData` make. -/
def connectEstablished (s : Connection) (calls : List Call) : Connection :=
  let s := { s with state_ := .kConnected }
  let s := s.startAsyncRead
  calls.foldl call s

/-- `ClientSession::connectCallback` -/
def connectCallback (s : Connection) (sock : SocketPtr) (calls : List Call) : Connection :=
  { s with socket_ := some sock }.connectEstablished calls

/-- `ClientSession::reconnect`; the connector then restarts, and `connectCallback` is its answer. -/
def reconnect (s : Connection) : Connection := s.connectDestroyed

/-- What happens to a session: a call, the completion of the oldest `async_send`, a read that fails, a step towards
closing, and the ways it is established. -/
inductive Event
  | call (c : Call)
  | written (k : Nat) (calls : List Call)
  | failed
  | readError (ec : ReadError)
  | shutdown
  | forceClose
  | reconnect
  | connectEstablished (calls : List Call)
  | connectCallback (sock : SocketPtr) (calls : List Call)
  deriving DecidableEq, Repr

def step (s : Connection) : Event → Connection
  | .call c => s.call c
  | .written k calls =>
    match s.sending with
    | [] => s
    | _ :: later => { s with toTCPSession := TCPSession.handWrite { s.toTCPSession with sending := later } k calls }
  | .failed =>
    match s.sending with
    | [] => s
    | _ :: later => { s with sending := later }
  | .readError ec => s.handReadError ec
  | .shutdown => s.shutdown
  | .forceClose => s.forceClose
  | .reconnect => s.reconnect
  | .connectEstablished calls => s.connectEstablished calls
  | .connectCallback sock calls => s.connectCallback sock calls

/-- The calls an event makes. -/
def calls (s : Connection) : Event → List Call
  | .call c => [c]
  | .written _ calls => if s.sending = [] then [] else calls
  | .connectEstablished calls => calls
  | .connectCallback _ calls => calls
  | _ => []

/-! ## Lemmas -/

/-- Calls touch the sending half alone. -/
theorem calls_eq (s : Connection) (calls : List Call) :
    calls.foldl call s = { s with toTCPSession := calls.foldl TCPSession.call s.toTCPSession } := by
  induction calls generalizing s with
  | nil => rfl
  | cons c calls ih => exact ih (s.call c)

/-- Reading is no matter of the sending half. -/
theorem startAsyncRead_toTCPSession (s : Connection) : s.startAsyncRead.toTCPSession = s.toTCPSession := by
  unfold startAsyncRead
  split_ifs <;> rfl

theorem connectEstablished_toTCPSession (s : Connection) (calls : List Call) :
    (s.connectEstablished calls).toTCPSession =
      calls.foldl TCPSession.call { s.toTCPSession with state_ := .kConnected } := by
  unfold connectEstablished
  dsimp only
  rw [calls_eq]
  dsimp only
  rw [startAsyncRead_toTCPSession]

/-- An event of the sending half as one of the session. -/
def Event.ofSending : Sending.Event → Event
  | .call c => .call c
  | .written k calls => .written k calls
  | .failed => .failed

/-- On the events of the sending half a session with a connection does what the sending half does. -/
theorem step_sending (s : Connection) (transmitted passed : List UInt8) (e : Sending.Event) :
    (s.step (.ofSending e)).toTCPSession = (Sending.step ⟨s.toTCPSession, transmitted, passed⟩ e).session := by
  cases e with
  | call c => rfl
  | written k calls =>
    rcases hsending : s.sending with _ | ⟨op, later⟩ <;>
      simp only [step, Sending.step, Event.ofSending, hsending]
  | failed =>
    rcases hsending : s.sending with _ | ⟨op, later⟩ <;>
      simp only [step, Sending.step, Event.ofSending, hsending]

end Connection

end AsioUtils.Net
