import AsioUtils.Net.Connection
import AsioUtils.Net.TCPConnector

/-!
# A `ClientSession` and its connector

`TCPSessionManager` reconnects a client session that is closed, and `reconnect` closes a session that is connected: the
two call each other.

* `ClientSession` : the members that connecting reads;
* `reconnect`, `connectDestroyed`, `forceClose`, `handClose`, `removeSessionPtr` : the member functions, which end
  because a session is closed once;
* `Event`, `step` : a call of `reconnect`, the loss of a connection, or a completion of the connector;
* `Exclusive` : one resolve or connect at a time, and no connection while there is one;
* `exclusive_iff_orderly` : when it is so.
-/

namespace AsioUtils.Net

open TCPSession (StateE)

structure ClientSession where
  state_ : StateE := .kConnecting
  retry_ : Bool
  /-- whether the `onClose` of its class calls `unenableRetry` -/
  unenables : Bool
  connector_ : TCPConnector
  /-- in `sessionMap_` -/
  registered : Bool := true
  /-- a connection has been established while the session was connected; no member of the code -/
  doubled : Bool := false
  deriving DecidableEq, Repr

namespace ClientSession

open Runs

/-- As `createConnector` leaves it. -/
def created (retry_ unenables : Bool) : ClientSession where
  retry_ := retry_
  unenables := unenables
  connector_ := ({} : TCPConnector).start

def canRetry (s : ClientSession) : Bool := s.retry_

def unenableRetry (s : ClientSession) : ClientSession := { s with retry_ := false }

def onClose (s : ClientSession) : ClientSession := if s.unenables then s.unenableRetry else s

def connected (s : ClientSession) : Bool := s.state_ = .kConnected || s.state_ = .kConnecting

def removeSession (s : ClientSession) : ClientSession := { s with registered := false }

/-- What is left to be closed. -/
def toClose (s : ClientSession) : Nat := if s.connected then 1 else 0

theorem toClose_onClose (s : ClientSession) : { s with state_ := .kDisconnected }.onClose.toClose = 0 := by
  unfold onClose
  split_ifs <;> rfl

mutual

def reconnect (s : ClientSession) : ClientSession :=
  let s := s.connectDestroyed
  if s.retry_ then { s with connector_ := s.connector_.restart } else s
termination_by (s.toClose, 3)

def connectDestroyed (s : ClientSession) : ClientSession := if s.state_ = .kConnected then s.forceClose else s
termination_by (s.toClose, 2)

def forceClose (s : ClientSession) : ClientSession :=
  if s.state_ = .kConnected ∨ s.state_ = .kDisconnecting then s.handClose else s
termination_by (s.toClose, 1)

def handClose (s : ClientSession) : ClientSession :=
  if _h : s.connected then
    -- `closeCallback_` is `removeSessionPtr`
    { s with state_ := .kDisconnected }.onClose.removeSessionPtr
  else s
termination_by (s.toClose, 0)
decreasing_by
  rw [toClose_onClose, toClose, if_pos ‹_›]
  exact Prod.Lex.left _ _ Nat.zero_lt_one

/-- The session is a client. -/
def removeSessionPtr (s : ClientSession) : ClientSession :=
  if s.canRetry then s.reconnect else s.removeSession
termination_by (s.toClose, 4)

end

/-- `connectEstablished` is what it does with the connection. -/
def connectCallback (s : ClientSession) : ClientSession :=
  { s with state_ := .kConnected, doubled := s.doubled || s.state_ = .kConnected }

/-- A completion; the connector calls `connectCallback` when it has a new connection. -/
def complete (s : ClientSession) (e : TCPConnector.Event) : Option ClientSession :=
  (s.connector_.handle e).map fun c =>
    let s' := { s with connector_ := c }
    if c.newConnections = s.connector_.newConnections then s' else s'.connectCallback

inductive Event
  | reconnect
  | lost
  | resolved (results : List Endpoint)
  | connected (ec : Option ConnectError)
  | retryTimer
  deriving DecidableEq, Repr

def handle (s : ClientSession) : Event → Option ClientSession
  | .reconnect => some s.reconnect
  -- a read that fails; before the first connection there is none
  | .lost => some (if s.state_ = .kConnecting then s else s.handClose)
  | .resolved results => s.complete (.resolved results)
  | .connected ec => s.complete (.connected ec)
  | .retryTimer => s.complete .retryTimer

def step (s : Option ClientSession) (e : Event) : Option ClientSession := s.bind (·.handle e)

@[simp] theorem step_some (s : ClientSession) (e : Event) : step (some s) e = s.handle e := rfl

/-! ## Closing and reconnecting -/

section Closing

variable (s : ClientSession)

/-- A session that has been closed. -/
def closed : ClientSession := { s with state_ := .kDisconnected }.onClose

@[simp] theorem closed_state : s.closed.state_ = .kDisconnected := by
  unfold closed onClose
  split_ifs <;> rfl

@[simp] theorem closed_retry : s.closed.retry_ = (s.retry_ && !s.unenables) := by
  unfold closed onClose
  cases s.unenables <;> simp [unenableRetry]

@[simp] theorem closed_connector : s.closed.connector_ = s.connector_ := by
  unfold closed onClose
  split_ifs <;> rfl

@[simp] theorem closed_doubled : s.closed.doubled = s.doubled := by
  unfold closed onClose
  split_ifs <;> rfl

/-- A connector that restarts, if the session may. -/
def restarted : ClientSession := if s.retry_ then { s with connector_ := s.connector_.restart } else s

theorem restarted_of_not_retry (h : s.retry_ = false) : s.restarted = s := by
  unfold restarted
  simp [h]

@[simp] theorem restarted_retry : s.restarted.retry_ = s.retry_ := by
  unfold restarted
  split_ifs <;> rfl

theorem restarted_resolving (h : s.retry_ = true) : s.restarted.connector_.resolving = s.connector_.resolving + 1 := by
  rw [restarted, if_pos h, TCPConnector.restart_eq]

theorem restarted_connecting : s.restarted.connector_.connecting = s.connector_.connecting := by
  unfold restarted
  split_ifs
  · rw [TCPConnector.restart_eq]
  · rfl

theorem reconnect_eq : s.reconnect = s.connectDestroyed.restarted := by
  rw [reconnect]
  rfl

theorem connectDestroyed_of_ne (h : s.state_ ≠ .kConnected) : s.connectDestroyed = s := by
  rw [connectDestroyed, if_neg h]

theorem connectDestroyed_of_connected (h : s.state_ = .kConnected) : s.connectDestroyed = s.handClose := by
  rw [connectDestroyed, if_pos h, forceClose, if_pos (.inl h)]

theorem handClose_of_connected (h : s.connected = true) :
    s.handClose = if s.closed.retry_ then s.closed.restarted else s.closed.removeSession := by
  rw [handClose, dif_pos h, removeSessionPtr]
  show (if s.closed.retry_ then s.closed.reconnect else s.closed.removeSession) = _
  rw [reconnect_eq, connectDestroyed_of_ne s.closed (by simp)]

theorem handClose_retry (h : s.connected = true) : s.handClose.retry_ = (s.retry_ && !s.unenables) := by
  rw [handClose_of_connected s h, ← closed_retry]
  split_ifs
  · exact restarted_retry _
  · rfl

theorem handClose_of_not_connected (h : s.connected = false) : s.handClose = s := by
  rw [handClose, dif_neg (by simp [h])]

end Closing

/-! ## One connection at a time -/

/-- One resolve or connect at most is outstanding, and no connection has been established on a connected session. -/
def Single (s : ClientSession) : Prop := s.connector_.resolving + s.connector_.connecting ≤ 1 ∧ s.doubled = false

/-- Nothing undefined has happened, and the session is `Single`. -/
def Good (w : Option ClientSession) : Prop := ∃ s ∈ w, Single s

@[simp] theorem good_some (s : ClientSession) : Good (some s) ↔ s.Single := by simp [Good]

/-- The completion of a resolve that has found something, or of a connect. -/
def Event.completes : Event → Bool
  | .resolved results => results ≠ []
  | .connected _ => true
  | .reconnect | .lost | .retryTimer => false

/-- It stays so, however what is outstanding completes. -/
def Exclusive (w : Option ClientSession) : Prop :=
  ∀ later : List Event, (∀ e ∈ later, e.completes = true) → Always step Good w later

/-- `reconnect` is called on a session whose class does not retry, or that has neither a connection nor an attempt at
one; resolves find something; a wait of the retry timer does not end on a connected session. -/
def Orderly (s : ClientSession) : Event → Prop
  | .reconnect => s.retry_ = false ∨ s.state_ = .kConnected ∧ s.unenables = true ∨
      s.state_ ≠ .kConnected ∧ s.connector_.resolving = 0 ∧ s.connector_.connecting = 0
  | .resolved results => s.connector_.resolving = 0 ∨ results ≠ []
  | .retryTimer => s.connector_.waiting = 0 ∨ s.state_ ≠ .kConnected
  | .lost => True
  | .connected _ => True

/-- What the connector is doing, as the session's state tells it. -/
structure Tied (s : ClientSession) : Prop where
  single : s.Single
  endpoint : 0 < s.connector_.connecting → s.connector_.endpoint_iterator_ ≠ []
  busy : 0 < s.connector_.resolving + s.connector_.connecting → s.connector_.state_ = .kConnecting
  connected : s.state_ = .kConnected → s.connector_.state_ = .kConnected

section Tied

variable {s : ClientSession}

theorem tied_created (retry_ unenables : Bool) : Tied (created retry_ unenables) where
  single := ⟨Nat.le_refl 1, rfl⟩
  endpoint h := absurd h (Nat.lt_irrefl 0)
  busy _ := rfl
  connected h := by simp [created] at h

/-- A connected session has no attempt outstanding. -/
theorem Tied.idle (h : s.Tied) (hs : s.state_ = .kConnected) :
    s.connector_.resolving = 0 ∧ s.connector_.connecting = 0 := by
  by_contra hbusy
  have hconnecting := h.busy (by omega)
  rw [h.connected hs] at hconnecting
  cases hconnecting

/-- A session without an attempt and without a connection may begin one. -/
theorem Tied.restarted (h : s.Tied) (hs : s.state_ ≠ .kConnected)
    (hidle : s.connector_.resolving = 0 ∧ s.connector_.connecting = 0) : s.restarted.Tied := by
  unfold ClientSession.restarted
  split_ifs
  · rw [TCPConnector.restart_eq]
    refine ⟨⟨?_, h.single.2⟩, ?_, fun _ => rfl, fun h' => absurd h' hs⟩
    · simp [hidle]
    · intro hconnecting
      simp [hidle] at hconnecting
  · exact h

theorem Tied.closed (h : s.Tied) : s.closed.Tied where
  single := by
    unfold Single
    rw [closed_connector, closed_doubled]
    exact h.single
  endpoint := by
    rw [closed_connector]
    exact h.endpoint
  busy := by
    rw [closed_connector]
    exact h.busy
  connected h' := by simp at h'

/-- A connection is lost, or given up. -/
theorem Tied.handClose (h : s.Tied) (hs : s.state_ = .kConnected) : s.handClose.Tied := by
  rw [handClose_of_connected s (by simp [ClientSession.connected, hs])]
  split_ifs
  · refine h.closed.restarted (by simp) ?_
    rw [closed_connector]
    exact h.idle hs
  · exact ⟨h.closed.single, h.closed.endpoint, h.closed.busy, h.closed.connected⟩

/-! ### Steps -/

theorem complete_of_quiet {e : TCPConnector.Event} {c : TCPConnector} (hc : s.connector_.handle e = some c)
    (hquiet : c.newConnections = s.connector_.newConnections) : s.complete e = some { s with connector_ := c } := by
  simp [complete, hc, hquiet]

theorem complete_of_new {e : TCPConnector.Event} {c : TCPConnector} (hc : s.connector_.handle e = some c)
    (hnew : c.newConnections ≠ s.connector_.newConnections) :
    s.complete e = some { s with connector_ := c }.connectCallback := by
  simp [complete, hc, hnew]

/-- A completion of nothing. -/
theorem complete_of_same {e : TCPConnector.Event} (hc : s.connector_.handle e = some s.connector_) :
    s.complete e = some s := complete_of_quiet hc rfl

theorem Tied.resolved (h : s.Tied) {results : List Endpoint} (hresults : s.connector_.resolving = 0 ∨ results ≠ []) :
    ∃ s', s.complete (.resolved results) = some s' ∧ s'.Tied := by
  by_cases hidle : s.connector_.resolving = 0
  · exact ⟨s, complete_of_same (if_pos hidle), h⟩
  · have hone := h.single.1
    obtain ⟨e, rest, rfl⟩ := List.exists_cons_of_ne_nil (hresults.resolve_left hidle)
    refine ⟨_, complete_of_quiet (if_neg hidle) rfl, ?_⟩
    refine ⟨⟨?_, h.single.2⟩, fun _ => List.cons_ne_nil e rest, fun _ => h.busy (by omega), h.connected⟩
    show s.connector_.resolving - 1 + (s.connector_.connecting + 1) ≤ 1
    omega

/-- A session that is not connected, with a connector that has nothing outstanding. -/
theorem Tied.failed (h : s.Tied) (hs : s.state_ ≠ .kConnected) {c : TCPConnector}
    (hc : c.resolving + c.connecting = 0) : Tied { s with connector_ := c } where
  single := ⟨by show c.resolving + c.connecting ≤ 1; omega, h.single.2⟩
  endpoint hpos := absurd hpos (by show ¬ 0 < c.connecting; omega)
  busy hpos := absurd hpos (by show ¬ 0 < c.resolving + c.connecting; omega)
  connected hs' := absurd hs' hs

theorem Tied.connect (h : s.Tied) (ec : Option ConnectError) :
    ∃ s', s.complete (.connected ec) = some s' ∧ s'.Tied := by
  by_cases hidle : s.connector_.connecting = 0
  · exact ⟨s, complete_of_same (if_pos hidle), h⟩
  have hone := h.single.1
  have hconnecting := h.busy (by omega)
  have hsession : s.state_ ≠ .kConnected := fun hs => hidle (h.idle hs).2
  set c : TCPConnector := { s.connector_ with connecting := s.connector_.connecting - 1 } with hc
  have hhandle : s.connector_.handle (.connected ec) = c.handleConnect ec := if_neg hidle
  have hnone : c.resolving + c.connecting = 0 := by
    show s.connector_.resolving + (s.connector_.connecting - 1) = 0
    omega
  cases ec with
  | none =>
    refine ⟨_, complete_of_new hhandle (Nat.succ_ne_self _), ?_⟩
    refine ⟨⟨?_, ?_⟩, fun hpos => ?_, fun hpos => ?_, fun _ => rfl⟩
    · show c.resolving + c.connecting ≤ 1
      omega
    · show (s.doubled || decide (s.state_ = .kConnected)) = false
      rw [h.single.2, decide_eq_false hsession]
      rfl
    · exact absurd hpos (by show ¬ 0 < c.connecting; omega)
    · exact absurd hpos (by show ¬ 0 < c.resolving + c.connecting; omega)
  | some ec =>
    match hit : c.endpoint_iterator_ with
    | [] => exact absurd hit (h.endpoint (Nat.pos_of_ne_zero hidle))
    | [e] =>
      -- the last endpoint: nothing is outstanding any more
      rw [TCPConnector.handleConnect_last c ec hit] at hhandle
      split_ifs at hhandle
      · rw [TCPConnector.retry_eq] at hhandle
        exact ⟨_, complete_of_quiet hhandle rfl, h.failed hsession hnone⟩
      · exact ⟨_, complete_of_quiet hhandle rfl, h.failed hsession hnone⟩
    | e :: e' :: rest =>
      rw [TCPConnector.handleConnect_next c ec hit] at hhandle
      refine ⟨_, complete_of_quiet hhandle rfl, ?_⟩
      refine ⟨⟨?_, h.single.2⟩, fun _ => List.cons_ne_nil e' rest, fun _ => hconnecting, fun hs => absurd hs hsession⟩
      show c.resolving + (c.connecting + 1) ≤ 1
      omega

theorem Tied.retryTimer (h : s.Tied) (hwait : s.connector_.waiting = 0 ∨ s.state_ ≠ .kConnected) :
    ∃ s', s.complete .retryTimer = some s' ∧ s'.Tied := by
  by_cases hidle : s.connector_.waiting = 0
  · exact ⟨s, complete_of_same (if_pos hidle), h⟩
  have hs := hwait.resolve_left hidle
  set c : TCPConnector := { s.connector_ with waiting := s.connector_.waiting - 1 } with hc
  have hhandle : s.connector_.handle .retryTimer = some c.start := if_neg hidle
  by_cases hstate : c.state_ = .kConnecting
  · rw [TCPConnector.start_of_connecting c hstate] at hhandle
    exact ⟨_, complete_of_quiet hhandle rfl, h.single, h.endpoint, h.busy, h.connected⟩
  · rw [TCPConnector.start_of_ne c hstate] at hhandle
    have hnone : ¬ 0 < s.connector_.resolving + s.connector_.connecting := fun hpos => hstate (h.busy hpos)
    refine ⟨_, complete_of_quiet hhandle rfl, ⟨?_, h.single.2⟩, h.endpoint, fun _ => rfl, fun hs' => absurd hs' hs⟩
    show s.connector_.resolving + 1 + s.connector_.connecting ≤ 1
    omega

theorem Tied.reconnect (h : s.Tied) (hs : Orderly s .reconnect) : s.reconnect.Tied := by
  rw [reconnect_eq]
  by_cases hconnected : s.state_ = .kConnected
  · rw [connectDestroyed_of_connected s hconnected, restarted_of_not_retry]
    · exact h.handClose hconnected
    · rw [handClose_retry s (by simp [ClientSession.connected, hconnected])]
      rcases hs with hretry | ⟨-, hclass⟩ | ⟨hne, -⟩
      · rw [hretry, Bool.false_and]
      · rw [hclass, Bool.not_true, Bool.and_false]
      · exact absurd hconnected hne
  · rw [connectDestroyed_of_ne s hconnected]
    rcases hs with hretry | ⟨hs, -⟩ | ⟨-, hidle⟩
    · rw [restarted_of_not_retry s hretry]
      exact h
    · exact absurd hs hconnected
    · exact h.restarted hconnected hidle

theorem Tied.lost (h : s.Tied) : (if s.state_ = .kConnecting then s else s.handClose).Tied := by
  split_ifs with hstate
  · exact h
  · by_cases hconnected : s.state_ = .kConnected
    · exact h.handClose hconnected
    · rw [handClose_of_not_connected s (by simp [ClientSession.connected, hstate, hconnected])]
      exact h

/-- **One step** that is orderly. -/
theorem Tied.handle (h : s.Tied) {e : Event} (he : Orderly s e) : ∃ s', s.handle e = some s' ∧ s'.Tied := by
  cases e with
  | reconnect => exact ⟨_, rfl, h.reconnect he⟩
  | lost => exact ⟨_, rfl, h.lost⟩
  | resolved results => exact h.resolved he
  | connected ec => exact h.connect ec
  | retryTimer => exact h.retryTimer he

end Tied

/-- Nothing undefined has happened, and the session is `Tied`. -/
def StillTied (w : Option ClientSession) : Prop := ∃ s ∈ w, s.Tied

theorem tied_step {w : Option ClientSession} {e : Event} (h : StillTied w) (he : ∀ s ∈ w, Orderly s e) :
    StillTied (step w e) := by
  obtain ⟨s, rfl, hs⟩ := h
  exact hs.handle (he s rfl)

/-- Completions are orderly. -/
theorem exclusive_of_tied {w : Option ClientSession} (h : StillTied w) : Exclusive w := by
  intro later hlater
  have hkept : ∀ w e, StillTied w → e.completes = true → StillTied (step w e) := fun w e hw he => by
    refine tied_step hw fun s _ => ?_
    cases e with
    | resolved results => exact .inr (by simpa [Event.completes] using he)
    | connected ec => trivial
    | _ => simp [Event.completes] at he
  refine (inv_always hkept h (along_of_mem fun e he _ => hlater e he)).mono fun w hw => ?_
  obtain ⟨s, rfl, hs⟩ := hw
  exact (good_some s).mpr hs.single

theorem Exclusive.good {w : Option ClientSession} (h : Exclusive w) : Good w := h [] (by simp)

/-! ## What is not orderly -/

section NotOrderly

variable {s : ClientSession}

/-- Two restarts, or one beside an attempt. -/
theorem not_single_reconnect (h : ¬ Orderly s .reconnect) : ¬ s.reconnect.Single := by
  obtain ⟨hretry, hclass, hidle⟩ : s.retry_ = true ∧ (s.state_ = .kConnected → s.unenables = false) ∧
      (s.state_ ≠ .kConnected → 0 < s.connector_.resolving + s.connector_.connecting) := by
    simp only [Orderly, not_or, not_and, Bool.not_eq_false, Bool.not_eq_true] at h
    refine ⟨h.1, h.2.1, fun hne => ?_⟩
    have := h.2.2 hne
    omega
  rintro ⟨hone, -⟩
  rw [reconnect_eq] at hone
  by_cases hconnected : s.state_ = .kConnected
  · have hagain : s.closed.retry_ = true := by rw [closed_retry, hretry, hclass hconnected]; rfl
    have hclose : s.handClose = s.closed.restarted := by
      rw [handClose_of_connected s (by simp [ClientSession.connected, hconnected]), if_pos hagain]
    rw [connectDestroyed_of_connected s hconnected, hclose, restarted_resolving _ ((restarted_retry _).trans hagain),
      restarted_resolving _ hagain] at hone
    omega
  · have hbusy := hidle hconnected
    rw [connectDestroyed_of_ne s hconnected, restarted_resolving s hretry, restarted_connecting] at hone
    omega

/-- An attempt that a connected session has no use for may end in a connection. -/
theorem not_exclusive_retryTimer (h : s.Tied) (hwait : s.connector_.waiting ≠ 0) (hs : s.state_ = .kConnected) :
    ¬ Exclusive (s.complete .retryTimer) := by
  intro hexclusive
  have hstate : { s.connector_ with waiting := s.connector_.waiting - 1 }.state_ ≠ .kConnecting := by
    rw [h.connected hs]
    decide
  have hhandle : s.connector_.handle .retryTimer =
      some { s.connector_ with waiting := s.connector_.waiting - 1 }.start := if_neg hwait
  rw [TCPConnector.start_of_ne _ hstate] at hhandle
  rw [complete_of_quiet hhandle rfl] at hexclusive
  have hlast := (hexclusive [.resolved [("", 0)], .connected none] (by decide)).last
  simp [step, ClientSession.handle, complete, TCPConnector.handle, TCPConnector.handleResolve, TCPConnector.connect,
    TCPConnector.handleConnect, connectCallback, Single, hs] at hlast

end NotOrderly

theorem exclusive_step {w : Option ClientSession} (e : Event) (h : StillTied w) :
    Exclusive (step w e) ↔ ∀ s ∈ w, Orderly s e := by
  refine ⟨fun hexclusive => ?_, fun he => exclusive_of_tied (tied_step h he)⟩
  obtain ⟨s, rfl, hs⟩ := h
  simp only [Option.mem_def, Option.some.injEq, forall_eq']
  by_contra he
  cases e with
  | reconnect => exact not_single_reconnect he ((good_some _).mp hexclusive.good)
  | lost => exact he trivial
  | resolved results =>
    simp only [Orderly, not_or, ne_eq, not_not] at he
    obtain ⟨hresolving, rfl⟩ := he
    have hnone : step (some s) (.resolved []) = none := by
      simp [ClientSession.handle, complete, TCPConnector.handle, hresolving, TCPConnector.handleResolve,
        TCPConnector.connect]
    rw [hnone] at hexclusive
    obtain ⟨s', hs', -⟩ := hexclusive.good
    cases hs'
  | connected ec => exact he trivial
  | retryTimer =>
    simp only [Orderly, not_or, ne_eq, not_not] at he
    exact not_exclusive_retryTimer hs he.1 he.2 hexclusive

/-- **One connection at a time.** In every state of a run, and however what is outstanding completes, one resolve or
connect is in progress at most and no connection is established on a connected session, exactly when every step of the
run is orderly. -/
theorem exclusive_iff_orderly (retry_ unenables : Bool) (es : List Event) :
    Always step Exclusive (some (created retry_ unenables)) es ↔
      Along step (fun w e => ∀ s ∈ w, Orderly s e) (some (created retry_ unenables)) es := by
  have hvalid : Along step (fun _ _ => True) (some (created retry_ unenables)) es :=
    along_of_mem fun _ _ _ => trivial
  have hcreated : StillTied (some (created retry_ unenables)) := ⟨_, rfl, tied_created retry_ unenables⟩
  have hexclusive : ∀ w, StillTied w → Exclusive w := fun _ hw => exclusive_of_tied hw
  have hkept : ∀ w e, StillTied w → True → (∀ s ∈ w, Orderly s e) → StillTied (step w e) :=
    fun _ _ hw _ he => tied_step hw he
  exact always_iff_along_of_inv hexclusive (fun _ e hw _ => exclusive_step e hw) hkept hcreated hvalid

/-- `reconnect` on a session that is connected: two attempts, one in the other. -/
theorem reconnectRun_not_good :
    ¬ Always step Good (some (created true false)) [.resolved [("10.0.0.1", 8810)], .connected none, .reconnect] := by
  intro h
  have hconnected : run step (some (created true false)) [.resolved [("10.0.0.1", 8810)], .connected none] =
      some { created true false with
        state_ := .kConnected
        connector_ := { connect_ := true, state_ := .kConnected, endpoint_iterator_ := [("10.0.0.1", 8810)],
                        attempts := 2, newConnections := 1 } } := by decide
  have hlast := h.last
  rw [show ∀ a b c : Event, [a, b, c] = [a, b] ++ [c] from fun _ _ _ => rfl, run_append, hconnected] at hlast
  exact not_single_reconnect (by simp [Orderly, created]) ((good_some _).mp hlast)

end ClientSession

end AsioUtils.Net
