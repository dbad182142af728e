import AsioUtils.Net.Connection

/-!
# One `async_send` at a time

The buffer of an outstanding `async_send` belongs to the network until it completes. Handlers and calls nest: a write
callback sends again before `handWrite` goes on. So a run is taken apart into `Action`s, the pieces of code between
which other code of the session can run, and the results are about every state between two actions.

* `Action`, `perform`, `trace` : the actions of a run, in order;
* `run_trace` : the actions of a run lead to where the run leads;
* `Wired` : the operating flag stands for the one `async_send`, of all that `sendBuffer_` holds;
* `exclusive_always` : one `async_send` at most, of a buffer nobody touches.
-/

namespace AsioUtils.Net

namespace Connection

open TCPSession (Call)

inductive Action
  | addMore (more : List UInt8)
  | internalSend
  | state (state_ : TCPSession.StateE)
  /-- an `async_send` succeeds, and `handWrite` runs up to its callback -/
  | written
  | failed
  deriving DecidableEq, Repr

def perform (s : TCPSession) : Action → TCPSession
  | .addMore more => s.addMore more
  | .internalSend => s.internalSend
  | .state state_ => { s with state_ := state_ }
  | .written =>
    match s.sending with
    | [] => s
    | _ :: later =>
      let s := { s with sending := later }
      let s := s.modifyBuffer s.sendBuffer_ DataBuffer.unoperate
      s.modifyBuffer s.sendBuffer_ DataBuffer.retrieveAll
  | .failed =>
    match s.sending with
    | [] => s
    | _ :: later => { s with sending := later }

def Action.ofCall : Call → List Action
  | .addMore more => [.addMore more]
  | .send message => [.addMore message, .internalSend]

/-- The actions of an event; of the sending half the closing functions write the state alone. -/
def actions (s : Connection) : Event → List Action
  | .call c => Action.ofCall c
  | .written _ calls => if s.sending = [] then [] else .written :: (calls.flatMap Action.ofCall ++ [.internalSend])
  | .failed => [.failed]
  | .readError ec => [.state (s.handReadError ec).state_]
  | .shutdown => [.state s.shutdown.state_]
  | .forceClose => [.state s.forceClose.state_]
  | .reconnect => [.state s.reconnect.state_]
  | .connectEstablished calls => .state .kConnected :: calls.flatMap Action.ofCall
  | .connectCallback _ calls => .state .kConnected :: calls.flatMap Action.ofCall

/-- The actions of a run. -/
def trace : Connection → List Event → List Action
  | _, [] => []
  | s, e :: es => s.actions e ++ trace (s.step e) es

/-! ## The actions make up the run -/

theorem run_ofCall (s : TCPSession) (c : Call) : Runs.run perform s (Action.ofCall c) = s.call c := by
  cases c <;> rfl

theorem run_ofCalls (s : TCPSession) (calls : List Call) :
    Runs.run perform s (calls.flatMap Action.ofCall) = calls.foldl TCPSession.call s := by
  induction calls generalizing s with
  | nil => rfl
  | cons c calls ih => rw [List.flatMap_cons, Runs.run_append, run_ofCall, ih, List.foldl_cons]

/-- Of the sending half the state alone is written, and no session becomes connected. -/
structure StateOnly (s s' : Connection) : Prop where
  eq : s'.toTCPSession = { s.toTCPSession with state_ := s'.state_ }
  state : s'.state_ = .kConnected → s.state_ = .kConnected

theorem StateOnly.refl (s : Connection) : StateOnly s s := ⟨rfl, id⟩

theorem handClose_stateOnly (s : Connection) : StateOnly s s.handClose := by
  unfold handClose
  split
  · exact ⟨rfl, nofun⟩
  · exact .refl s

theorem forceClose_stateOnly (s : Connection) : StateOnly s s.forceClose := by
  unfold forceClose
  split_ifs
  · exact s.handClose_stateOnly
  · exact .refl s

theorem shutdown_stateOnly (s : Connection) : StateOnly s s.shutdown := by
  unfold shutdown
  split_ifs
  · exact ⟨rfl, nofun⟩
  · exact .refl s

theorem reconnect_stateOnly (s : Connection) : StateOnly s s.reconnect := by
  unfold reconnect connectDestroyed
  split_ifs
  · exact s.forceClose_stateOnly
  · exact .refl s

theorem startAsyncRead_stateOnly (s : Connection) : StateOnly s s.startAsyncRead := by
  unfold startAsyncRead
  split_ifs
  · exact ⟨rfl, id⟩
  · exact .refl s

theorem handReadError_stateOnly (s : Connection) (ec : ReadError) : StateOnly s (s.handReadError ec) := by
  cases ec
  · exact .refl s
  · exact s.startAsyncRead_stateOnly
  · exact s.startAsyncRead_stateOnly
  · exact s.handClose_stateOnly

/-- The actions of one event lead to where the event leads. -/
theorem run_actions (s : Connection) (e : Event) :
    Runs.run perform s.toTCPSession (s.actions e) = (s.step e).toTCPSession := by
  cases e with
  | call c => exact run_ofCall s.toTCPSession c
  | written k calls =>
    rcases hsending : s.sending with _ | ⟨op, later⟩
    · simp only [actions, step, hsending, if_true, Runs.run_nil]
    · have hactions : s.actions (.written k calls) = .written :: (calls.flatMap Action.ofCall ++ [.internalSend]) := by
        rw [actions, hsending, if_neg (List.cons_ne_nil op later)]
      rw [hactions, Runs.run_cons, Runs.run_append, run_ofCalls]
      simp only [perform, step, hsending]
      rfl
  | failed =>
    rcases hsending : s.sending with _ | ⟨op, later⟩ <;>
      simp only [actions, step, perform, hsending, Runs.run_cons, Runs.run_nil]
  | readError ec => exact (s.handReadError_stateOnly ec).eq.symm
  | shutdown => exact s.shutdown_stateOnly.eq.symm
  | forceClose => exact s.forceClose_stateOnly.eq.symm
  | reconnect => exact s.reconnect_stateOnly.eq.symm
  | connectEstablished calls =>
    show Runs.run perform _ (.state .kConnected :: calls.flatMap Action.ofCall) = _
    rw [Runs.run_cons, run_ofCalls]
    exact (s.connectEstablished_toTCPSession calls).symm
  | connectCallback sock calls =>
    show Runs.run perform _ (.state .kConnected :: calls.flatMap Action.ofCall) = _
    rw [Runs.run_cons, run_ofCalls]
    exact (connectEstablished_toTCPSession { s with socket_ := some sock } calls).symm

/-- **The actions of a run** lead to where the run leads. -/
theorem run_trace (s : Connection) (es : List Event) :
    Runs.run perform s.toTCPSession (trace s es) = (Runs.run step s es).toTCPSession := by
  induction es generalizing s with
  | nil => rfl
  | cons e es ih => rw [trace, Runs.run_append, run_actions, ih, Runs.run_cons]

/-! ## The wiring of the two buffers -/

/-- The `async_send` of all that the buffer `i` holds. -/
def sendOf (s : TCPSession) (i : Bool) : AsyncSend := ⟨i, (s.buffers i).readerIndex_, (s.buffers i).readableBytes⟩

/-- What `internalSend` does when it starts an `async_send`. -/
structure Starts (s s' : TCPSession) : Prop where
  connected : s.state_ = .kConnected
  idle : (s.buffers s.sendBuffer_).isOperating_ = false
  queued : (s.buffers s.outputBuffer_).readableBytes ≠ 0
  state : s'.state_ = s.state_
  sendBuffer : s'.sendBuffer_ = s.outputBuffer_
  outputBuffer : s'.outputBuffer_ = s.sendBuffer_
  operating : (s'.buffers s'.sendBuffer_).isOperating_ = true
  sending : s'.sending = s.sending ++ [sendOf s' s'.sendBuffer_]

/-- `internalSend` starts an `async_send`, or is refused and does nothing. -/
theorem internalSend_cases (s : TCPSession) : Starts s s.internalSend ∨
    s.internalSend = s ∧ (s.state_ = .kConnected → (s.buffers s.sendBuffer_).isOperating_ = false →
      (s.buffers s.outputBuffer_).readableBytes = 0) := by
  unfold TCPSession.internalSend
  split_ifs with h
  · refine .inr ⟨rfl, fun hconnected hidle => ?_⟩
    simpa [hconnected, hidle] using h
  · simp only [not_or, not_not, Bool.not_eq_true] at h
    obtain ⟨hconnected, hidle, hqueued⟩ := h
    set s' := s.swap.asyncSend.modifyBuffer s.outputBuffer_ DataBuffer.operate with hs'
    have hnew : s'.buffers s.outputBuffer_ = (s.buffers s.outputBuffer_).operate := modifyBuffer_self _ _ _
    refine .inl ⟨hconnected, hidle, hqueued, rfl, rfl, rfl, congrArg DataBuffer.isOperating_ hnew, ?_⟩
    show s.sending ++ [sendOf s s.outputBuffer_] = s.sending ++ [sendOf s' s.outputBuffer_]
    unfold sendOf
    rw [hnew]
    rfl

/-- An outstanding `async_send` is of all that `sendBuffer_` holds, alone, and marked by the operating flag. -/
structure Wired (s : TCPSession) : Prop where
  distinct : s.sendBuffer_ ≠ s.outputBuffer_
  outstanding : s.sending ≠ [] →
    s.sending = [sendOf s s.sendBuffer_] ∧ (s.buffers s.sendBuffer_).isOperating_ = true

theorem wired_constructed : Wired .constructed := ⟨by decide, fun h => absurd rfl h⟩

theorem addMore_sendBuffer {s : TCPSession} (h : Wired s) (more : List UInt8) :
    (s.addMore more).buffers s.sendBuffer_ = s.buffers s.sendBuffer_ :=
  modifyBuffer_other _ _ _ h.distinct

theorem Wired.addMore {s : TCPSession} (h : Wired s) (more : List UInt8) : Wired (s.addMore more) := by
  have hsend := addMore_sendBuffer h more
  refine ⟨h.distinct, fun hne => ?_⟩
  obtain ⟨hsending, hoperating⟩ := h.outstanding hne
  constructor
  · show s.sending = [⟨s.sendBuffer_, ((s.addMore more).buffers s.sendBuffer_).readerIndex_,
      ((s.addMore more).buffers s.sendBuffer_).readableBytes⟩]
    rw [hsend]
    exact hsending
  · show ((s.addMore more).buffers s.sendBuffer_).isOperating_ = true
    rw [hsend]
    exact hoperating

/-- Nothing is outstanding while the flag is down. -/
theorem Wired.idle {s : TCPSession} (h : Wired s) (hidle : (s.buffers s.sendBuffer_).isOperating_ = false) :
    s.sending = [] := by
  by_contra hne
  simp [(h.outstanding hne).2] at hidle

theorem Wired.starts {s s' : TCPSession} (h : Wired s) (hs : Starts s s') :
    Wired s' ∧ s'.sending = [sendOf s' s'.sendBuffer_] := by
  have hsending : s'.sending = [sendOf s' s'.sendBuffer_] := by
    rw [hs.sending, h.idle hs.idle, List.nil_append]
  refine ⟨⟨?_, fun _ => ⟨hsending, hs.operating⟩⟩, hsending⟩
  rw [hs.sendBuffer, hs.outputBuffer]
  exact h.distinct.symm

theorem Wired.internalSend {s : TCPSession} (h : Wired s) : Wired s.internalSend := by
  rcases internalSend_cases s with hs | ⟨hs, -⟩
  · exact (h.starts hs).1
  · rw [hs]
    exact h

/-- The oldest `async_send` is the only one. -/
theorem Wired.tail {s : TCPSession} (h : Wired s) : s.sending.tail = [] := by
  by_cases hnil : s.sending = []
  · rw [hnil, List.tail_nil]
  · rw [(h.outstanding hnil).1, List.tail_cons]

theorem Wired.later {s : TCPSession} (h : Wired s) {op : AsyncSend} {later : List AsyncSend}
    (hsending : s.sending = op :: later) : later = [] := by simpa [hsending] using h.tail

/-- Nothing outstanding, the pointers are all there is to ask. -/
theorem wired_of_nil {s : TCPSession} (hdistinct : s.sendBuffer_ ≠ s.outputBuffer_) (hsending : s.sending = []) :
    Wired s := ⟨hdistinct, fun hne => absurd hsending hne⟩

theorem Wired.perform {s : TCPSession} (h : Wired s) (a : Action) : Wired (perform s a) := by
  cases a with
  | addMore more => exact h.addMore more
  | internalSend => exact h.internalSend
  | state state_ => exact ⟨h.distinct, h.outstanding⟩
  | written =>
    rcases hsending : s.sending with _ | ⟨op, later⟩ <;> simp only [Connection.perform, hsending]
    · exact h
    · exact wired_of_nil h.distinct (h.later hsending)
  | failed =>
    rcases hsending : s.sending with _ | ⟨op, later⟩ <;> simp only [Connection.perform, hsending]
    · exact h
    · exact wired_of_nil h.distinct (h.later hsending)

/-- **The wiring** lasts, whatever happens to the session. -/
theorem Wired.step {s : Connection} (h : Wired s.toTCPSession) (e : Event) : Wired (s.step e).toTCPSession := by
  rw [← run_actions]
  exact Runs.inv_run (q := Wired) (fun _ a h => h.perform a) h (s.actions e)

/-! ## What the network was given -/

/-- A session and, for each outstanding `async_send`, the buffer as it was when it was given. -/
structure Lending where
  session : TCPSession
  lent : List DataBuffer

namespace Lending

/-- The buffers of the `async_send`s started between `s` and `s'`. -/
def newlyLent (s s' : TCPSession) : List DataBuffer :=
  (s'.sending.drop s.sending.length).map fun op => s'.buffers op.buffer

/-- A completion gives the oldest buffer back. -/
def step (w : Lending) (a : Action) : Lending :=
  let session := perform w.session a
  match a with
  | .written | .failed => ⟨session, w.lent.tail⟩
  | _ => ⟨session, w.lent ++ newlyLent w.session session⟩

/-- One `async_send` at most; its buffer is as it was given, and the `async_send` is of its readable bytes; what is added
goes to the other buffer. -/
structure Exclusive (w : Lending) : Prop where
  single : w.session.sending.length ≤ 1
  intact : List.Forall₂ (fun op b => w.session.buffers op.buffer = b ∧ op.offset = b.readerIndex_ ∧
    op.length = b.readableBytes) w.session.sending w.lent
  elsewhere : ∀ op ∈ w.session.sending, ∀ more,
    (w.session.addMore more).buffers op.buffer = w.session.buffers op.buffer ∧
      ((w.session.addMore more).buffers !op.buffer).content = (w.session.buffers !op.buffer).content ++ more

/-- The wiring, and the buffers lent as they still are. -/
structure Inv (w : Lending) : Prop where
  wired : Wired w.session
  lent : w.lent = w.session.sending.map fun op => w.session.buffers op.buffer

theorem step_session (w : Lending) (a : Action) : (w.step a).session = perform w.session a := by cases a <;> rfl

theorem newlyLent_of_eq {s s' : TCPSession} (h : s'.sending = s.sending) : newlyLent s s' = [] := by
  rw [newlyLent, h, List.drop_length, List.map_nil]

theorem sending_written (s : TCPSession) : (perform s .written).sending = s.sending.tail := by
  rcases hsending : s.sending with _ | ⟨op, later⟩
  · simp only [perform, hsending, List.tail_nil]
  · simp only [perform, hsending, List.tail_cons]
    rfl

theorem sending_failed (s : TCPSession) : (perform s .failed).sending = s.sending.tail := by
  rcases hsending : s.sending with _ | ⟨op, later⟩ <;> simp only [perform, hsending, List.tail_nil, List.tail_cons]

theorem Inv.tail {w : Lending} (h : w.Inv) : w.lent.tail = [] := by
  rw [h.lent, ← List.map_tail, h.wired.tail, List.map_nil]

theorem Inv.step {w : Lending} (h : w.Inv) (a : Action) : (w.step a).Inv := by
  refine ⟨by rw [step_session]; exact h.wired.perform a, ?_⟩
  cases a with
  | addMore more =>
    show w.lent ++ newlyLent w.session (w.session.addMore more) =
      w.session.sending.map fun op => (w.session.addMore more).buffers op.buffer
    have hsame : (w.session.addMore more).sending = w.session.sending := rfl
    rw [newlyLent_of_eq hsame, List.append_nil, h.lent]
    apply List.map_congr_left
    intro op hop
    have hone := (h.wired.outstanding (List.ne_nil_of_mem hop)).1
    rw [hone, List.mem_singleton] at hop
    rw [hop]
    exact (addMore_sendBuffer h.wired more).symm
  | internalSend =>
    show w.lent ++ newlyLent w.session w.session.internalSend =
      w.session.internalSend.sending.map fun op => w.session.internalSend.buffers op.buffer
    rcases internalSend_cases w.session with hs | ⟨hs, -⟩
    · have hnil := h.wired.idle hs.idle
      rw [h.lent, hnil, List.map_nil, List.nil_append, newlyLent, hnil, List.length_nil, List.drop_zero]
    · rw [newlyLent_of_eq (by rw [hs]), List.append_nil, h.lent, hs]
  | state state_ =>
    have hsame : (perform w.session (.state state_)).sending = w.session.sending := rfl
    show w.lent ++ newlyLent w.session (perform w.session (.state state_)) = _
    rw [newlyLent_of_eq hsame, List.append_nil]
    exact h.lent
  | written =>
    show w.lent.tail = (perform w.session .written).sending.map fun op =>
      (perform w.session .written).buffers op.buffer
    rw [h.tail, sending_written, h.wired.tail, List.map_nil]
  | failed =>
    show w.lent.tail = (perform w.session .failed).sending.map fun op =>
      (perform w.session .failed).buffers op.buffer
    rw [h.tail, sending_failed, h.wired.tail, List.map_nil]

theorem Inv.exclusive {w : Lending} (h : w.Inv) : w.Exclusive := by
  by_cases hnil : w.session.sending = []
  · constructor
    · simp [hnil]
    · simp [h.lent, hnil]
    · simp [hnil]
  obtain ⟨hone, -⟩ := h.wired.outstanding hnil
  constructor
  · simp [hone]
  · rw [h.lent, hone]
    exact .cons ⟨rfl, rfl, rfl⟩ .nil
  · intro op hop more
    rw [hone, List.mem_singleton] at hop
    have hother : (!w.session.sendBuffer_) = w.session.outputBuffer_ := by
      have := h.wired.distinct
      revert this
      cases w.session.sendBuffer_ <;> cases w.session.outputBuffer_ <;> simp
    subst hop
    refine ⟨addMore_sendBuffer h.wired more, ?_⟩
    show ((w.session.addMore more).buffers !w.session.sendBuffer_).content =
      (w.session.buffers !w.session.sendBuffer_).content ++ more
    rw [hother, content_addMore]

/-- **Write exclusion**: the actions of every run make up the run, and in every state between two of them one
`async_send` at most is outstanding, of a buffer that is as it was given; data that is added goes to the other one. -/
theorem exclusive_always (socket_ : Option SocketPtr) (closeCallback_ : Bool) (es : List Event) :
    Runs.run perform .constructed (trace (.constructed socket_ closeCallback_) es) =
        (Runs.run Connection.step (.constructed socket_ closeCallback_) es).toTCPSession ∧
      Runs.Always step Exclusive ⟨.constructed, []⟩ (trace (.constructed socket_ closeCallback_) es) := by
  refine ⟨run_trace (.constructed socket_ closeCallback_) es, ?_⟩
  have hinv : Runs.Always step Inv ⟨.constructed, []⟩ (trace (.constructed socket_ closeCallback_) es) :=
    Runs.inv_always_all (fun _ a h => h.step a) ⟨wired_constructed, rfl⟩
  exact hinv.mono fun _ h => h.exclusive

end Lending

end Connection

end AsioUtils.Net
