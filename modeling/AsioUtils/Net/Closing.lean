import AsioUtils.Net.Connection

/-!
# A connection is closed once

`forceClose` is for connected and disconnecting sessions, but `handClose`, which it calls, for connected and connecting
ones: after a `shutdown` nothing closes the connection any more.

* `Closing` : a session, what it was when it was established, and whether it is to have been closed since;
* `ClosedOnce` : disconnected, the socket released, `onClose` and `closeCallback_` run once;
* `right_iff_heard` : when every state of a run is as it is to be;
* `shutdown_forceClose_open` : a run that is not.
-/

namespace AsioUtils.Net

namespace Connection

open TCPSession (Call)

/-! ## What an event does to the connection -/

/-- What closing writes, apart from the state, is untouched. -/
structure SameLink (s s' : Connection) : Prop where
  socket_ : s'.socket_ = s.socket_
  closeCallback_ : s'.closeCallback_ = s.closeCallback_
  closed : s'.closed = s.closed
  onCloses : s'.onCloses = s.onCloses
  closeCallbacks : s'.closeCallbacks = s.closeCallbacks

theorem SameLink.refl (s : Connection) : SameLink s s := ⟨rfl, rfl, rfl, rfl, rfl⟩

theorem SameLink.trans {s s' s'' : Connection} (h : SameLink s s') (h' : SameLink s' s'') : SameLink s s'' :=
  ⟨h'.socket_.trans h.socket_, h'.closeCallback_.trans h.closeCallback_, h'.closed.trans h.closed,
    h'.onCloses.trans h.onCloses, h'.closeCallbacks.trans h.closeCallbacks⟩

/-- The events a connection does not survive: `forceClose`, which `reconnect` calls on a connected session, and reads
that fail for good. -/
def isClose (s : Connection) : Event → Bool
  | .forceClose => true
  | .reconnect => s.state_ = .kConnected
  | .readError .other => true
  | _ => false

def isEstablish : Event → Bool
  | .connectEstablished _ => true
  | .connectCallback _ _ => true
  | _ => false

theorem state_internalSend (s : TCPSession) : s.internalSend.state_ = s.state_ := by
  unfold TCPSession.internalSend
  split_ifs <;> rfl

theorem state_call (s : TCPSession) (c : Call) : (s.call c).state_ = s.state_ := by
  cases c with
  | addMore more => rfl
  | send message => exact state_internalSend (s.addMore message)

theorem state_calls (s : TCPSession) (calls : List Call) : (calls.foldl TCPSession.call s).state_ = s.state_ := by
  induction calls generalizing s with
  | nil => rfl
  | cons c calls ih => rw [List.foldl_cons, ih, state_call]

theorem state_handWrite (s : TCPSession) (k : Nat) (calls : List Call) :
    (TCPSession.handWrite s k calls).state_ = s.state_ := by
  unfold TCPSession.handWrite
  dsimp only
  rw [state_internalSend, state_calls]
  rfl

/-- A session that is established is connected. -/
theorem connectEstablished_state (s : Connection) (calls : List Call) :
    (s.connectEstablished calls).state_ = .kConnected := by
  show (s.connectEstablished calls).toTCPSession.state_ = _
  rw [connectEstablished_toTCPSession, state_calls]

theorem step_establish {s : Connection} {e : Event} (h : isEstablish e = true) : (s.step e).state_ = .kConnected := by
  cases e <;> simp only [isEstablish, Bool.false_eq_true] at h
  · exact s.connectEstablished_state _
  · exact connectEstablished_state _ _

/-- The other events leave the connection alone; a `shutdown` makes a connected session a disconnecting one. -/
theorem step_sameLink {s : Connection} {e : Event} (he : isEstablish e = false) (hc : s.isClose e = false) :
    SameLink s (s.step e) ∧
      ((s.step e).state_ = s.state_ ∨ s.state_ = .kConnected ∧ (s.step e).state_ = .kDisconnecting) := by
  cases e with
  | call c => exact ⟨⟨rfl, rfl, rfl, rfl, rfl⟩, .inl (state_call s.toTCPSession c)⟩
  | written k calls =>
    rcases hsending : s.sending with _ | ⟨op, later⟩ <;> simp only [step, hsending]
    · exact ⟨.refl s, by simp⟩
    · exact ⟨⟨rfl, rfl, rfl, rfl, rfl⟩, .inl (state_handWrite _ k calls)⟩
  | failed =>
    rcases hsending : s.sending with _ | ⟨op, later⟩ <;> simp only [step, hsending]
    · exact ⟨.refl s, by simp⟩
    · exact ⟨⟨rfl, rfl, rfl, rfl, rfl⟩, by simp⟩
  | readError ec =>
    have hread : SameLink s s.startAsyncRead ∧ s.startAsyncRead.state_ = s.state_ := by
      unfold startAsyncRead
      split_ifs
      · exact ⟨⟨rfl, rfl, rfl, rfl, rfl⟩, rfl⟩
      · exact ⟨.refl s, rfl⟩
    cases ec with
    | operation_aborted => exact ⟨.refl s, .inl rfl⟩
    | interrupted => exact ⟨hread.1, .inl hread.2⟩
    | try_again => exact ⟨hread.1, .inl hread.2⟩
    | other => simp [isClose] at hc
  | shutdown =>
    show SameLink s s.shutdown ∧ (s.shutdown.state_ = s.state_ ∨ _ ∧ s.shutdown.state_ = .kDisconnecting)
    unfold shutdown
    split_ifs with hconnected
    · exact ⟨⟨rfl, rfl, rfl, rfl, rfl⟩, .inr ⟨hconnected, rfl⟩⟩
    · exact ⟨.refl s, .inl rfl⟩
  | forceClose => simp [isClose] at hc
  | reconnect =>
    have hconnected : s.state_ ≠ .kConnected := by simpa [isClose] using hc
    have hsame : s.step .reconnect = s := if_neg hconnected
    rw [hsame]
    exact ⟨.refl s, .inl rfl⟩
  | connectEstablished calls => simp [isEstablish] at he
  | connectCallback sock calls => simp [isEstablish] at he

/-- A connected session is closed. -/
theorem step_close {s : Connection} {e : Event} (hc : s.isClose e = true) (h : s.state_ = .kConnected) :
    s.step e = s.handClose := by
  cases e with
  | forceClose => exact if_pos (.inl h)
  | reconnect => exact (if_pos h).trans (if_pos (.inl h))
  | readError ec =>
    cases ec <;> first | rfl | simp [isClose] at hc
  | _ => simp [isClose] at hc

/-- A disconnecting or disconnected session is not. -/
theorem step_close_refused {s : Connection} {e : Event} (hc : s.isClose e = true) (h : s.connected = false) :
    s.step e = s := by
  have hrefused : s.handClose = s := if_neg (by simp [h])
  have hne : s.state_ ≠ .kConnected := fun h' => by simp [connected, h'] at h
  cases e with
  | forceClose =>
    show s.forceClose = s
    unfold forceClose
    rw [hrefused, ite_self]
  | reconnect => exact if_neg hne
  | readError ec =>
    cases ec <;> first | exact hrefused | simp [isClose] at hc
  | _ => simp [isClose] at hc

/-! ## Closed once -/

/-- `s` is closed, and has been once since it was `s₀`. -/
structure ClosedOnce (s₀ s : Connection) : Prop where
  state : s.state_ = .kDisconnected
  released : s.socket_ = none
  closed : s.closed = s₀.closed ++ s₀.socket_.toList
  onClose : s.onCloses = s₀.onCloses + 1
  closeCallback : s.closeCallbacks = s₀.closeCallbacks + if s₀.closeCallback_ then 1 else 0

/-- `s` has not been closed since it was `s₀`. -/
def Open (s₀ s : Connection) : Prop := (s.state_ = .kConnected ∨ s.state_ = .kDisconnecting) ∧ SameLink s₀ s

theorem Open.close {s₀ s : Connection} (h : Open s₀ s) (hconnected : s.state_ = .kConnected) :
    ClosedOnce s₀ s.handClose := by
  obtain ⟨-, hsame⟩ := h
  have hclose : s.handClose = { s with
      state_ := .kDisconnected
      closed := s.closed ++ s.socket_.toList
      socket_ := none
      onCloses := s.onCloses + 1
      closeCallbacks := s.closeCallbacks + if s.closeCallback_ then 1 else 0 } :=
    if_pos (by simp [Connection.connected, hconnected])
  rw [hclose]
  refine ⟨rfl, rfl, ?_, ?_, ?_⟩
  · show s.closed ++ s.socket_.toList = _
    rw [hsame.closed, hsame.socket_]
  · show s.onCloses + 1 = _
    rw [hsame.onCloses]
  · show s.closeCallbacks + _ = _
    rw [hsame.closeCallbacks, hsame.closeCallback_]

/-- A closed session stays closed until it is established again. -/
theorem ClosedOnce.step {s₀ s : Connection} (h : ClosedOnce s₀ s) {e : Event} (he : isEstablish e = false) :
    ClosedOnce s₀ (s.step e) := by
  by_cases hc : s.isClose e = true
  · rw [step_close_refused hc (by simp [Connection.connected, h.state])]
    exact h
  · obtain ⟨hsame, hstate⟩ := step_sameLink he (by simpa using hc)
    have hdisconnected : (s.step e).state_ = .kDisconnected := by simpa [h.state] using hstate
    exact ⟨hdisconnected, hsame.socket_.trans h.released, hsame.closed.trans h.closed,
      hsame.onCloses.trans h.onClose, hsame.closeCallbacks.trans h.closeCallback⟩

end Connection

/-! ## Runs -/

open Connection

/-- A session, as it is and as it was when it was last established, and whether it is to have been closed since. -/
structure Closing where
  connection : Connection
  established : Connection
  handled : Bool

namespace Closing

/-- Any session, once `connectEstablished` has run. -/
def start (s : Connection) (calls : List TCPSession.Call) : Closing :=
  ⟨s.connectEstablished calls, s.connectEstablished calls, false⟩

def step (w : Closing) (e : Event) : Closing :=
  let connection := w.connection.step e
  if isEstablish e then ⟨connection, connection, false⟩
  else ⟨connection, w.established, w.handled || w.connection.isClose e⟩

/-- What is to have been closed has been closed once. -/
def Right (w : Closing) : Prop := w.handled = true → ClosedOnce w.established w.connection

/-- What closes a connection does not come while the session is disconnecting. -/
def Heard (w : Closing) (e : Event) : Prop := w.connection.isClose e = true → w.connection.state_ ≠ .kDisconnecting

/-- A connection that nothing has closed yet is open. -/
def Inv (w : Closing) : Prop := w.handled = false → Open w.established w.connection

theorem inv_start (s : Connection) (calls : List TCPSession.Call) : (start s calls).Inv := fun _ =>
  ⟨.inl (s.connectEstablished_state calls), .refl _⟩

theorem step_establish {w : Closing} {e : Event} (he : isEstablish e = true) :
    w.step e = ⟨w.connection.step e, w.connection.step e, false⟩ := if_pos he

theorem step_other {w : Closing} {e : Event} (he : isEstablish e = false) :
    w.step e = ⟨w.connection.step e, w.established, w.handled || w.connection.isClose e⟩ := if_neg (by simp [he])

theorem Inv.step {w : Closing} (h : w.Inv) (e : Event) : (w.step e).Inv := by
  by_cases he : isEstablish e = true
  · rw [step_establish he]
    exact fun _ => ⟨.inl (Connection.step_establish he), .refl _⟩
  · rw [step_other (by simpa using he)]
    intro hhandled
    obtain ⟨hbefore, hc⟩ : w.handled = false ∧ w.connection.isClose e = false := by simpa using hhandled
    obtain ⟨hstate, hopen⟩ := h hbefore
    obtain ⟨hsame, hnext⟩ := step_sameLink (by simpa using he) hc
    refine ⟨?_, hopen.trans hsame⟩
    rcases hnext with hnext | ⟨-, hnext⟩
    · show (w.connection.step e).state_ = _ ∨ (w.connection.step e).state_ = _
      rw [hnext]
      exact hstate
    · exact .inr hnext

/-- One event keeps all right exactly if it does not go unheard. -/
theorem right_step {w : Closing} (h : w.Right) (hinv : w.Inv) (e : Event) : (w.step e).Right ↔ w.Heard e := by
  by_cases he : isEstablish e = true
  · have hc : w.connection.isClose e = false := by
      cases e <;> simp [isEstablish, isClose] at he ⊢
    rw [step_establish he]
    exact iff_of_true nofun fun hc' => absurd hc' (by simp [hc])
  rw [step_other (by simpa using he)]
  by_cases hbefore : w.handled = true
  · have hclosed := h hbefore
    refine iff_of_true (fun _ => hclosed.step (by simpa using he)) fun _ hstate => ?_
    rw [hclosed.state] at hstate
    cases hstate
  · obtain ⟨hstate, hsame⟩ := hinv (by simpa using hbefore)
    by_cases hc : w.connection.isClose e = true
    · have hright : Right ⟨w.connection.step e, w.established, w.handled || w.connection.isClose e⟩ ↔
          ClosedOnce w.established (w.connection.step e) := by simp [Right, hc]
      rw [hright]
      rcases hstate with hconnected | hdisconnecting
      · rw [step_close hc hconnected]
        refine iff_of_true (Open.close ⟨.inl hconnected, hsame⟩ hconnected) fun _ hstate => ?_
        rw [hconnected] at hstate
        cases hstate
      · rw [step_close_refused hc (by simp [Connection.connected, hdisconnecting])]
        refine iff_of_false (fun hclosed => ?_) fun hheard => hheard hc hdisconnecting
        have := hclosed.state
        rw [hdisconnecting] at this
        cases this
    · exact iff_of_true (fun hhandled => by simp [hbefore, hc] at hhandled) fun hc' => absurd hc' hc

/-- **Closing, exactly**: in every state of a run what is to have been closed has been closed once, if and only if
nothing that closes a connection comes while the session is disconnecting. -/
theorem right_iff_heard (s : Connection) (calls : List TCPSession.Call) (es : List Event) :
    Runs.Always step Right (start s calls) es ↔ Runs.Along step Heard (start s calls) es := by
  have hstart : (start s calls).Right := nofun
  have hinv : Runs.Along step (fun w _ => w.Inv) (start s calls) es :=
    Runs.along_of_inv (fun _ e h => h.step e) (inv_start s calls)
  exact Runs.always_iff_along (fun _ e h hw => right_step h hw e) hstart hinv

/-- After a `shutdown`, `forceClose` closes nothing. -/
theorem shutdown_forceClose_open :
    ¬ ∀ s calls es, Runs.Always step Right (start s calls) es := by
  intro h
  have hlast := (h (.constructed (some 0) true) [] [.shutdown, .forceClose]).last
  have hstate : (Runs.run step (start (.constructed (some 0) true) []) [.shutdown, .forceClose]).connection.state_ =
      .kDisconnecting := by decide +kernel
  have := (hlast (by decide +kernel)).state
  rw [hstate] at this
  cases this

end Closing

end AsioUtils.Net
