import AsioUtils.Net.SendExclusion

/-!
# Where the send pipeline stalls

Bytes a caller has passed to `send` are to be on their way while the session is connected. `internalSend` is what starts
them, and it runs in `send` and after a successful write only; the operating flag goes down after a successful write
only.

* `Pipeline`, `Due` : a session and the bytes of its output buffer that are to be sent;
* `Flowing` : nothing due waits without an `async_send`, and the flag stands for one;
* `flowing_iff_restarts` : when every state of a run is flowing;
* `lostRun_stalls` : a write that fails, and a reconnect.
-/

namespace AsioUtils.Net

namespace Connection

open TCPSession (Call)

/-- Nothing due waits on a connected session without an `async_send`, and the operating flag stands for one; `added` is
the number of bytes at the end of the output buffer that no `send` has followed. -/
structure Flows (s : TCPSession) (added : Nat) : Prop where
  due : s.state_ = .kConnected → added < (s.buffers s.outputBuffer_).readableBytes → s.sending ≠ []
  operating : (s.buffers s.sendBuffer_).isOperating_ = true → s.sending ≠ []

/-- The bytes passed to `addMore` since the last `send`. -/
def addedAfter (added : Nat) : Call → Nat
  | .addMore more => added + more.length
  | .send _ => 0

/-! ## Calls -/

/-- The flag stands for an `async_send`. -/
def Flagged (s : TCPSession) : Prop := (s.buffers s.sendBuffer_).isOperating_ = true → s.sending ≠ []

section Calls

variable {s : TCPSession} {added : Nat}

theorem Flagged.addMore (h : Flagged s) (hw : Wired s) (more : List UInt8) : Flagged (s.addMore more) := by
  intro hop
  have hsend : (s.addMore more).buffers (s.addMore more).sendBuffer_ = s.buffers s.sendBuffer_ :=
    addMore_sendBuffer hw more
  rw [hsend] at hop
  exact h hop

/-- `internalSend` leaves nothing waiting. -/
theorem Flagged.internalSend (h : Flagged s) (added : Nat) : Flows s.internalSend added := by
  rcases internalSend_cases s with hs | ⟨hs, hrefused⟩
  · have hsending : s.internalSend.sending ≠ [] := by simp [hs.sending]
    exact ⟨fun _ _ => hsending, fun _ => hsending⟩
  · rw [hs]
    refine ⟨fun hconnected hdue => ?_, h⟩
    by_cases hop : (s.buffers s.sendBuffer_).isOperating_ = true
    · exact h hop
    · have := hrefused hconnected (by simpa using hop)
      omega

theorem Flagged.send (h : Flagged s) (hw : Wired s) (message : List UInt8) : Flows (s.send message) 0 :=
  (h.addMore hw message).internalSend 0

theorem readableBytes_addMore (s : TCPSession) (more : List UInt8) :
    ((s.addMore more).buffers s.outputBuffer_).readableBytes =
      (s.buffers s.outputBuffer_).readableBytes + more.length := by
  rw [← DataBuffer.length_content, content_addMore, List.length_append, DataBuffer.length_content]

/-- Adding bytes that no `send` follows changes nothing. -/
theorem flows_addMore (hw : Wired s) (more : List UInt8) :
    Flows (s.addMore more) (added + more.length) ↔ Flows s added := by
  have hsend : (s.addMore more).buffers (s.addMore more).sendBuffer_ = s.buffers s.sendBuffer_ :=
    addMore_sendBuffer hw more
  have hout : ((s.addMore more).buffers (s.addMore more).outputBuffer_).readableBytes =
      (s.buffers s.outputBuffer_).readableBytes + more.length := readableBytes_addMore s more
  constructor
  · rintro ⟨hdue, hop⟩
    rw [hout] at hdue
    rw [hsend] at hop
    exact ⟨fun hconnected hlt => hdue hconnected (by omega), hop⟩
  · rintro ⟨hdue, hop⟩
    refine ⟨fun hconnected hlt => hdue hconnected (by rw [hout] at hlt; omega), ?_⟩
    rw [hsend]
    exact hop

theorem Wired.call (hw : Wired s) (c : Call) : Wired (s.call c) := by
  cases c with
  | addMore more => exact hw.addMore more
  | send message => exact (hw.addMore message).internalSend

theorem Flagged.call (h : Flagged s) (hw : Wired s) (c : Call) : Flagged (s.call c) := by
  cases c with
  | addMore more => exact h.addMore hw more
  | send message => exact (h.send hw message).operating

theorem Flagged.calls {calls : List Call} (h : Flagged s) (hw : Wired s) : Flagged (calls.foldl TCPSession.call s) := by
  induction calls generalizing s with
  | nil => exact h
  | cons c calls ih => exact ih (h.call hw c) (hw.call c)

/-- **Calls**, from a session whose flag is right: all flows afterwards exactly if it did before or one is a `send`. -/
theorem flows_calls {calls : List Call} (h : Flagged s) (hw : Wired s) :
    Flows (calls.foldl TCPSession.call s) (calls.foldl addedAfter added) ↔
      Flows s added ∨ ∃ message, .send message ∈ calls := by
  induction calls generalizing s added with
  | nil => simp
  | cons c calls ih =>
    rw [List.foldl_cons, List.foldl_cons, ih (h.call hw c) (hw.call c)]
    cases c with
    | addMore more =>
      have hiff : Flows (s.call (.addMore more)) (addedAfter added (.addMore more)) ↔ Flows s added :=
        flows_addMore hw more
      simp [hiff]
    | send message =>
      have hflows : Flows (s.call (.send message)) (addedAfter added (.send message)) := h.send hw message
      simp [hflows]

end Calls

/-! ## Handlers -/

section Handlers

variable {s : TCPSession} {added : Nat}

/-- After a successful write everything flows. -/
theorem flows_handWrite (hw : Wired s) (k : Nat) (calls : List Call) :
    Flows (TCPSession.handWrite { s with sending := [] } k calls) added := by
  set s₁ : TCPSession := { s with sending := [] }
  set s₂ := (s₁.modifyBuffer s₁.sendBuffer_ DataBuffer.unoperate).modifyBuffer s₁.sendBuffer_ DataBuffer.retrieveAll
    with hs₂
  have hsend : s₂.buffers s.sendBuffer_ = (s.buffers s.sendBuffer_).unoperate.retrieveAll := by
    rw [hs₂, modifyBuffer_self, modifyBuffer_self]
  have hflagged : Flagged s₂ := by
    intro hop
    have : (s₂.buffers s.sendBuffer_).isOperating_ = true := hop
    rw [hsend] at this
    exact absurd this Bool.false_ne_true
  have hwired : Wired s₂ := wired_of_nil hw.distinct rfl
  exact (hflagged.calls hwired).internalSend added

/-- A write that fails leaves the flag up. -/
theorem not_flows_failed (hw : Wired s) (hsending : s.sending ≠ []) : ¬ Flows { s with sending := [] } added := by
  intro h
  exact h.operating (hw.outstanding hsending).2 rfl

/-- A session that is not connected has nothing due. -/
theorem Flows.stateOnly {s s' : Connection} (h : Flows s.toTCPSession added) (hs : StateOnly s s') :
    Flows s'.toTCPSession added := by
  rw [hs.eq]
  exact ⟨fun hconnected hlt => h.due (hs.state hconnected) hlt, h.operating⟩

/-- What is due flows again after `connectEstablished` if an `async_send` is still outstanding or a callback sends. -/
theorem flows_connectEstablished {s : Connection} (h : Flows s.toTCPSession added) (hw : Wired s.toTCPSession)
    (calls : List Call) : Flows (s.connectEstablished calls).toTCPSession (calls.foldl addedAfter added) ↔
      (added < (s.buffers s.outputBuffer_).readableBytes → s.sending = [] → ∃ message, .send message ∈ calls) := by
  have hflagged : Flagged { s.toTCPSession with state_ := .kConnected } := h.operating
  have hwired : Wired { s.toTCPSession with state_ := .kConnected } := ⟨hw.distinct, hw.outstanding⟩
  rw [connectEstablished_toTCPSession, flows_calls hflagged hwired]
  constructor
  · rintro (hflows | hsend) hdue hnil
    · exact absurd hnil (hflows.due rfl hdue)
    · exact hsend
  · intro hrestart
    by_cases hstuck : added < (s.buffers s.outputBuffer_).readableBytes ∧ s.sending = []
    · exact .inr (hrestart hstuck.1 hstuck.2)
    · exact .inl ⟨fun _ hdue hnil => hstuck ⟨hdue, hnil⟩, h.operating⟩

end Handlers

end Connection

/-! ## Runs -/

open Connection

/-- A session, and the bytes passed to `addMore` since the last `send`. -/
structure Pipeline where
  connection : Connection
  added : Nat

namespace Pipeline

/-- A new session. -/
def start (socket_ : Option SocketPtr) (closeCallback_ : Bool) : Pipeline := ⟨.constructed socket_ closeCallback_, 0⟩

def step (w : Pipeline) (e : Event) : Pipeline :=
  ⟨w.connection.step e, (w.connection.calls e).foldl addedAfter w.added⟩

/-- The output buffer holds bytes that were passed to or before a `send`: the bytes added since are the last ones. -/
def Due (w : Pipeline) : Prop := w.added < (w.connection.buffers w.connection.outputBuffer_).readableBytes

/-- On a connected session nothing due waits without an `async_send`, and `sendBuffer_` is marked operating only while
one is outstanding. -/
structure Flowing (w : Pipeline) : Prop where
  due : w.connection.state_ = .kConnected → w.Due → w.connection.sending ≠ []
  operating : (w.connection.buffers w.connection.sendBuffer_).isOperating_ = true → w.connection.sending ≠ []

/-- No `async_send` fails, and a session is established with nothing due, with an `async_send` outstanding, or with a
`send` from its callbacks. -/
def Restarts (w : Pipeline) : Event → Prop
  | .failed => w.connection.sending = []
  | .connectEstablished calls => w.Due → w.connection.sending = [] → ∃ message, .send message ∈ calls
  | .connectCallback _ calls => w.Due → w.connection.sending = [] → ∃ message, .send message ∈ calls
  | _ => True

theorem flowing_iff (w : Pipeline) : w.Flowing ↔ Flows w.connection.toTCPSession w.added :=
  ⟨fun h => ⟨h.due, h.operating⟩, fun h => ⟨h.due, h.operating⟩⟩

/-- One event keeps all flowing exactly if it restarts what it stops. -/
theorem flowing_step {w : Pipeline} (h : w.Flowing) (hw : Wired w.connection.toTCPSession) (e : Event) :
    (w.step e).Flowing ↔ w.Restarts e := by
  rw [flowing_iff] at h ⊢
  have hstate : ∀ s', StateOnly w.connection s' → (Flows s'.toTCPSession w.added ↔ True) := fun s' hs =>
    iff_true_intro (h.stateOnly hs)
  cases e with
  | call c =>
    have hcall : Flows ([c].foldl TCPSession.call w.connection.toTCPSession) ([c].foldl addedAfter w.added) :=
      (flows_calls h.operating hw).mpr (.inl h)
    exact iff_true_intro hcall
  | written k calls =>
    apply iff_true_intro
    rcases hsending : w.connection.sending with _ | ⟨op, later⟩
    · simp only [step, Connection.step, Connection.calls, hsending, if_true, List.foldl_nil]
      exact h
    · obtain rfl := hw.later hsending
      simp only [step, Connection.step, hsending]
      exact flows_handWrite hw k calls
  | failed =>
    rcases hsending : w.connection.sending with _ | ⟨op, later⟩
    · simp only [step, Connection.step, Connection.calls, Restarts, hsending, List.foldl_nil]
      exact iff_true_intro h
    · obtain rfl := hw.later hsending
      have hne : w.connection.sending ≠ [] := by simp [hsending]
      simp only [step, Connection.step, Connection.calls, Restarts, hsending, List.foldl_nil]
      exact iff_of_false (not_flows_failed hw hne) (by simp)
  | readError ec => exact hstate _ (w.connection.handReadError_stateOnly ec)
  | shutdown => exact hstate _ w.connection.shutdown_stateOnly
  | forceClose => exact hstate _ w.connection.forceClose_stateOnly
  | reconnect => exact hstate _ w.connection.reconnect_stateOnly
  | connectEstablished calls => exact flows_connectEstablished h hw calls
  | connectCallback sock calls =>
    exact flows_connectEstablished (s := { w.connection with socket_ := some sock }) h hw calls

/-- **The pipeline, exactly**: every state of a run is flowing if and only if no `async_send` of the run fails and
whatever is due when the session is established is restarted. -/
theorem flowing_iff_restarts (socket_ : Option SocketPtr) (closeCallback_ : Bool) (es : List Event) :
    Runs.Always step Flowing (start socket_ closeCallback_) es ↔
      Runs.Along step Restarts (start socket_ closeCallback_) es := by
  have hstart : (start socket_ closeCallback_).Flowing := ⟨nofun, nofun⟩
  have hwired : Runs.Along step (fun w _ => Wired w.connection.toTCPSession) (start socket_ closeCallback_) es :=
    Runs.along_of_inv (fun _ e h => h.step e) wired_constructed
  exact Runs.always_iff_along (fun _ e h hw => flowing_step h hw e) hstart hwired

/-- A write is under way when the connection is lost; it fails, the session reconnects and sends again. -/
def lostRun : List Event :=
  [.connectCallback 0 [], .call (.send [1]), .readError .other, .failed, .connectCallback 1 [.send [2]]]

/-- Bytes are queued while the session has no connection. -/
def queuedRun : List Event :=
  [.connectCallback 0 [], .readError .other, .call (.send [1]), .connectCallback 1 []]

/-- Connected, with a byte that is due, and no `async_send`. -/
def Stalled (w : Pipeline) : Prop :=
  w.connection.state_ = .kConnected ∧ w.Due ∧ w.connection.sending = []

instance (w : Pipeline) : Decidable w.Due := inferInstanceAs (Decidable (_ < _))

instance (w : Pipeline) : Decidable w.Stalled := inferInstanceAs (Decidable (_ ∧ _ ∧ _))

theorem Stalled.not_flowing {w : Pipeline} (h : w.Stalled) : ¬ w.Flowing := fun hf => hf.due h.1 h.2.1 h.2.2

example : (Runs.run step (start none true) queuedRun).Stalled := by decide +kernel

/-- The flag is still up from the write that failed, so nothing is sent on the new connection. -/
theorem lostRun_stalls : ¬ ∀ socket_ closeCallback_ es, Runs.Always step Flowing (start socket_ closeCallback_) es := by
  intro h
  have hstalled : (Runs.run step (start none true) lostRun).Stalled := by decide +kernel
  exact hstalled.not_flowing (h none true lostRun).last

end Pipeline

end AsioUtils.Net
