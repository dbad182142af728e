import AsioUtils.Net.DataBuffer
import AsioUtils.Lib.Runs

/-!
# `TCPSession`: the sending half

A session owns two buffers and swaps them: callers append to `outputBuffer_` while an `async_send` reads `sendBuffer_`,
whose operating flag says that one is outstanding. The pointers are the names of the two buffer objects, and an
outstanding `async_send` keeps the range of memory it was given.

* `addMore`, `send`, `internalSend`, `handWrite` : the member functions;
* `Sending`, `Sending.step` : a session, the bytes the network has taken, and the bytes callers have passed;
* `Represents` : the session as two byte queues, in flight and queued, with one lemma for each function.
-/

namespace AsioUtils.Net

inductive TCPSession.StateE
  | kDisconnected | kConnecting | kConnected | kDisconnecting
  deriving DecidableEq, Repr

/-- An outstanding `async_send`: the buffer object and the range of its memory that was passed. -/
structure AsyncSend where
  buffer : Bool
  offset : Nat
  length : Nat
  deriving DecidableEq, Repr

/-- The members the sending half reads; the receiving half is in `CPG.handRead`. -/
structure TCPSession where
  /-- the two buffer objects -/
  buffers : Bool → DataBuffer
  sendBuffer_ : Bool
  outputBuffer_ : Bool
  state_ : TCPSession.StateE
  /-- the `async_send`s that have not completed -/
  sending : List AsyncSend

namespace TCPSession

theorem append_isSome (b : DataBuffer) (data : List UInt8) : (b.append data).isSome = true := by
  obtain ⟨b', hb', -, -⟩ := b.append_spec data
  rw [hb']
  rfl

/-- A session as the constructor leaves it, once `connectEstablished` has run. -/
def connected : TCPSession where
  buffers := fun _ => .ofSize DataBuffer.kInitialSize
  sendBuffer_ := false
  outputBuffer_ := true
  state_ := .kConnected
  sending := []

def modifyBuffer (s : TCPSession) (i : Bool) (f : DataBuffer → DataBuffer) : TCPSession :=
  { s with buffers := fun j => if j = i then f (s.buffers j) else s.buffers j }

def addMore (s : TCPSession) (more : List UInt8) : TCPSession :=
  s.modifyBuffer s.outputBuffer_ fun b => (b.append more).get (append_isSome b more)

/-- `std::swap(sendBuffer_, outputBuffer_)` -/
def swap (s : TCPSession) : TCPSession := { s with sendBuffer_ := s.outputBuffer_, outputBuffer_ := s.sendBuffer_ }

/-- `socket_->async_send` of what `sendBuffer_` holds -/
def asyncSend (s : TCPSession) : TCPSession :=
  let op : AsyncSend := ⟨s.sendBuffer_, (s.buffers s.sendBuffer_).readerIndex_, (s.buffers s.sendBuffer_).readableBytes⟩
  { s with sending := s.sending ++ [op] }

def internalSend (s : TCPSession) : TCPSession :=
  if s.state_ ≠ .kConnected ∨ (s.buffers s.sendBuffer_).isOperating_ = true ∨
      (s.buffers s.outputBuffer_).readableBytes = 0 then s
  else
    let s := s.swap.asyncSend
    s.modifyBuffer s.sendBuffer_ DataBuffer.operate

def send (s : TCPSession) (message : List UInt8) : TCPSession := (s.addMore message).internalSend

/-- A call from outside or from the write callback. -/
inductive Call
  | addMore (more : List UInt8)
  | send (message : List UInt8)
  deriving DecidableEq, Repr

def Call.bytes : Call → List UInt8
  | addMore more => more
  | send message => message

def call (s : TCPSession) : Call → TCPSession
  | .addMore more => s.addMore more
  | .send message => s.send message

/-- `handWrite` without an error; `calls` are those `writeCompleteCallback_` makes. The number of bytes written is not
looked at. -/
def handWrite (s : TCPSession) (_bytesRead : Nat) (calls : List Call) : TCPSession :=
  let s := s.modifyBuffer s.sendBuffer_ DataBuffer.unoperate
  let s := s.modifyBuffer s.sendBuffer_ DataBuffer.retrieveAll
  let s := calls.foldl call s
  s.internalSend

end TCPSession

open TCPSession

/-- The bytes of an outstanding `async_send`. -/
def AsyncSend.bytes (op : AsyncSend) (s : TCPSession) : List UInt8 :=
  ((s.buffers op.buffer).buffer_.drop op.offset).take op.length

/-- A session, what the network has transmitted of it, and what has been passed to it. -/
structure Sending where
  session : TCPSession
  transmitted : List UInt8
  passed : List UInt8

namespace Sending

/-- What happens to a session: a call, or the completion of the oldest `async_send`, after `k` bytes or with an
error. -/
inductive Event
  | call (c : Call)
  | written (k : Nat) (calls : List Call)
  | failed
  deriving DecidableEq, Repr

/-- A new session, connected. -/
def start : Sending := ⟨.connected, [], []⟩

def step (w : Sending) : Event → Sending
  | .call c => { w with session := w.session.call c, passed := w.passed ++ c.bytes }
  | .written k calls =>
    match w.session.sending with
    | [] => w
    | op :: later =>
      { session := TCPSession.handWrite { w.session with sending := later } k calls
        transmitted := w.transmitted ++ (op.bytes w.session).take k
        passed := w.passed ++ calls.flatMap Call.bytes }
  | .failed =>
    -- `handWrite` does nothing when there is an error
    match w.session.sending with
    | [] => w
    | _ :: later => { w with session := { w.session with sending := later } }

/-- The bytes the oldest `async_send` was given. -/
def offered (w : Sending) : Nat :=
  match w.session.sending with
  | [] => 0
  | op :: _ => op.length

end Sending

/-! ## Two queues -/

/-- The session holds `inFlight` in an `async_send` and `queued` in the other buffer. -/
structure Represents (s : TCPSession) (inFlight queued : List UInt8) : Prop where
  state : s.state_ = .kConnected
  distinct : s.sendBuffer_ ≠ s.outputBuffer_
  output : (s.buffers s.outputBuffer_).content = queued
  send : (s.buffers s.sendBuffer_).content = inFlight
  operating : (s.buffers s.sendBuffer_).isOperating_ = true ↔ inFlight ≠ []
  sending : s.sending = if inFlight = [] then [] else
    [⟨s.sendBuffer_, (s.buffers s.sendBuffer_).readerIndex_, (s.buffers s.sendBuffer_).readableBytes⟩]

section Modify

variable (s : TCPSession) (i : Bool) (f : DataBuffer → DataBuffer)

@[simp] theorem modifyBuffer_self : (s.modifyBuffer i f).buffers i = f (s.buffers i) := if_pos rfl

@[simp] theorem modifyBuffer_other {j : Bool} (h : j ≠ i) : (s.modifyBuffer i f).buffers j = s.buffers j := if_neg h

/-- What is added goes to the end of the output buffer. -/
theorem content_addMore (more : List UInt8) :
    ((s.addMore more).buffers s.outputBuffer_).content = (s.buffers s.outputBuffer_).content ++ more := by
  obtain ⟨b', hb', hcontent, -⟩ := (s.buffers s.outputBuffer_).append_spec more
  unfold TCPSession.addMore
  rw [modifyBuffer_self, Option.get_of_eq_some _ hb', hcontent]

end Modify

section Represents

variable {s : TCPSession} {inFlight queued : List UInt8}

theorem represents_connected : Represents .connected [] [] where
  state := rfl
  distinct := by decide
  output := DataBuffer.content_ofSize _
  send := DataBuffer.content_ofSize _
  operating := ⟨fun h => absurd h (by decide), fun h => absurd rfl h⟩
  sending := rfl

theorem Represents.addMore (h : Represents s inFlight queued) (more : List UInt8) :
    Represents (s.addMore more) inFlight (queued ++ more) := by
  have hsend : (s.addMore more).buffers s.sendBuffer_ = s.buffers s.sendBuffer_ := modifyBuffer_other _ _ _ h.distinct
  constructor
  · exact h.state
  · exact h.distinct
  · show ((s.addMore more).buffers s.outputBuffer_).content = _
    rw [content_addMore, h.output]
  · show ((s.addMore more).buffers s.sendBuffer_).content = _
    rw [hsend, h.send]
  · show ((s.addMore more).buffers s.sendBuffer_).isOperating_ = true ↔ _
    rw [hsend]
    exact h.operating
  · show s.sending = if inFlight = [] then [] else [⟨s.sendBuffer_, ((s.addMore more).buffers s.sendBuffer_).readerIndex_,
      ((s.addMore more).buffers s.sendBuffer_).readableBytes⟩]
    rw [hsend]
    exact h.sending

/-- With the buffers swapped, all that was queued is in flight. -/
theorem Represents.start (h : Represents s [] queued) (hqueued : queued ≠ []) :
    Represents (s.swap.asyncSend.modifyBuffer s.outputBuffer_ DataBuffer.operate) queued [] := by
  set s' := s.swap.asyncSend.modifyBuffer s.outputBuffer_ DataBuffer.operate with hs'
  have hnew : s'.buffers s.outputBuffer_ = (s.buffers s.outputBuffer_).operate := modifyBuffer_self _ _ _
  have hold : s'.buffers s.sendBuffer_ = s.buffers s.sendBuffer_ := modifyBuffer_other _ _ _ h.distinct
  have hsending : s'.sending =
      [⟨s.outputBuffer_, (s.buffers s.outputBuffer_).readerIndex_, (s.buffers s.outputBuffer_).readableBytes⟩] := by
    show s.sending ++ [_] = _
    rw [h.sending]
    rfl
  constructor
  · exact h.state
  · exact h.distinct.symm
  · show (s'.buffers s.sendBuffer_).content = []
    rw [hold, h.send]
  · show (s'.buffers s.outputBuffer_).content = queued
    rw [hnew, DataBuffer.content_operate, h.output]
  · show (s'.buffers s.outputBuffer_).isOperating_ = true ↔ _
    rw [hnew]
    exact iff_of_true rfl hqueued
  · rw [if_neg hqueued, hsending]
    show _ = [AsyncSend.mk s.outputBuffer_ (s'.buffers s.outputBuffer_).readerIndex_
      (s'.buffers s.outputBuffer_).readableBytes]
    rw [hnew]
    rfl

/-- `internalSend` starts an `async_send` of all that is queued when nothing is in flight. -/
theorem Represents.internalSend (h : Represents s inFlight queued) :
    Represents s.internalSend (if inFlight = [] then queued else inFlight) (if inFlight = [] then [] else queued) := by
  unfold TCPSession.internalSend
  by_cases hbusy : inFlight = []
  · subst hbusy
    rw [if_pos rfl, if_pos rfl]
    have hidle : (s.buffers s.sendBuffer_).isOperating_ ≠ true := fun hop => h.operating.mp hop rfl
    by_cases hnone : (s.buffers s.outputBuffer_).readableBytes = 0
    · have hqueued : queued = [] := by rw [← h.output, DataBuffer.content_eq_nil, hnone]
      rw [if_pos (.inr (.inr hnone)), hqueued]
      exact hqueued ▸ h
    · have hqueued : queued ≠ [] := by
        rw [← h.output]
        exact mt DataBuffer.content_eq_nil.mp hnone
      rw [if_neg (by rw [h.state]; simp [hidle, hnone])]
      exact h.start hqueued
  · rw [if_neg hbusy, if_neg hbusy, if_pos (.inr (.inl (h.operating.mpr hbusy)))]
    exact h

theorem Represents.call (h : Represents s inFlight queued) (c : Call) :
    ∃ inFlight' queued', Represents (s.call c) inFlight' queued' ∧
      inFlight' ++ queued' = inFlight ++ (queued ++ c.bytes) := by
  cases c with
  | addMore more => exact ⟨_, _, h.addMore more, rfl⟩
  | send message =>
    refine ⟨_, _, (h.addMore message).internalSend, ?_⟩
    by_cases hbusy : inFlight = []
    · rw [if_pos hbusy, if_pos hbusy, hbusy, List.append_nil]
      rfl
    · rw [if_neg hbusy, if_neg hbusy]
      rfl

theorem Represents.calls (h : Represents s inFlight queued) (calls : List Call) :
    ∃ inFlight' queued', Represents (calls.foldl TCPSession.call s) inFlight' queued' ∧
      inFlight' ++ queued' = inFlight ++ (queued ++ calls.flatMap Call.bytes) := by
  induction calls generalizing s inFlight queued with
  | nil => exact ⟨inFlight, queued, h, by simp⟩
  | cons c calls ih =>
    obtain ⟨f, q, hc, hfq⟩ := h.call c
    obtain ⟨f', q', hcs, hfq'⟩ := ih hc
    refine ⟨f', q', hcs, ?_⟩
    rw [hfq', ← List.append_assoc, hfq, List.flatMap_cons]
    simp only [List.append_assoc]

/-- The memory of the outstanding `async_send` is what is in flight. -/
theorem Represents.bytes (h : Represents s inFlight queued) {op : AsyncSend} {later : List AsyncSend}
    (hop : s.sending = op :: later) : op.bytes s = inFlight ∧ op.length = inFlight.length ∧ later = [] := by
  rw [h.sending] at hop
  split_ifs at hop with hnil
  obtain ⟨rfl, rfl⟩ := List.cons.inj hop
  refine ⟨h.send, ?_, rfl⟩
  rw [← h.send, DataBuffer.length_content]

/-- A completion empties what was in flight, whatever the number of bytes written. -/
theorem Represents.handWrite (h : Represents s inFlight queued) (k : Nat) (calls : List Call) :
    ∃ inFlight' queued', Represents (TCPSession.handWrite { s with sending := [] } k calls) inFlight' queued' ∧
      inFlight' ++ queued' = queued ++ calls.flatMap Call.bytes := by
  set s₁ : TCPSession := { s with sending := [] }
  set s₂ := (s₁.modifyBuffer s₁.sendBuffer_ DataBuffer.unoperate).modifyBuffer s₁.sendBuffer_ DataBuffer.retrieveAll
    with hs₂
  have hsend : s₂.buffers s.sendBuffer_ = (s.buffers s.sendBuffer_).unoperate.retrieveAll := by
    rw [hs₂, modifyBuffer_self, modifyBuffer_self]
  have hout : s₂.buffers s.outputBuffer_ = s.buffers s.outputBuffer_ := by
    rw [hs₂, modifyBuffer_other _ _ _ h.distinct.symm, modifyBuffer_other _ _ _ h.distinct.symm]
  have hidle : Represents s₂ [] queued := by
    constructor
    · exact h.state
    · exact h.distinct
    · show (s₂.buffers s.outputBuffer_).content = queued
      rw [hout, h.output]
    · show (s₂.buffers s.sendBuffer_).content = []
      rw [hsend, DataBuffer.content_retrieveAll]
    · show (s₂.buffers s.sendBuffer_).isOperating_ = true ↔ _
      rw [hsend]
      exact iff_of_false Bool.false_ne_true fun hne => hne rfl
    · rfl
  obtain ⟨f, q, hcalls, hfq⟩ := hidle.calls calls
  refine ⟨_, _, hcalls.internalSend, ?_⟩
  rw [List.nil_append] at hfq
  by_cases hbusy : f = []
  · rw [if_pos hbusy, if_pos hbusy, List.append_nil, ← hfq, hbusy, List.nil_append]
  · rw [if_neg hbusy, if_neg hbusy, hfq]

end Represents

/-! ## Runs -/

namespace Sending

/-- What `async_send` promises of a success: some of the bytes it was given have been transmitted, at least one. -/
def Admissible (w : Sending) : Event → Prop
  | .call _ => True
  | .written k _ => 1 ≤ k ∧ k ≤ w.offered
  | .failed => False

instance (w : Sending) : (e : Event) → Decidable (w.Admissible e)
  | .call _ => inferInstanceAs (Decidable True)
  | .written k _ => inferInstanceAs (Decidable (1 ≤ k ∧ k ≤ w.offered))
  | .failed => inferInstanceAs (Decidable False)

/-- The completion reports all the bytes the `async_send` was given. -/
def WholeSends (w : Sending) : Event → Prop
  | .written k _ => k = w.offered
  | _ => True

instance (w : Sending) : (e : Event) → Decidable (w.WholeSends e)
  | .call _ => inferInstanceAs (Decidable True)
  | .written k _ => inferInstanceAs (Decidable (k = w.offered))
  | .failed => inferInstanceAs (Decidable True)

/-- What has been passed is what is transmitted, in flight and queued, in this order. -/
def InOrder (w : Sending) : Prop :=
  ∃ inFlight queued, Represents w.session inFlight queued ∧ w.transmitted ++ (inFlight ++ queued) = w.passed

theorem inOrder_start : start.InOrder := ⟨[], [], represents_connected, rfl⟩

theorem InOrder.step {w : Sending} (h : w.InOrder) {e : Event} (hadm : w.Admissible e) (hwhole : w.WholeSends e) :
    (step w e).InOrder := by
  obtain ⟨inFlight, queued, hrep, hpassed⟩ := h
  cases e with
  | call c =>
    obtain ⟨f, q, hcall, hfq⟩ := hrep.call c
    refine ⟨f, q, hcall, ?_⟩
    show w.transmitted ++ (f ++ q) = w.passed ++ c.bytes
    rw [hfq, ← hpassed]
    simp only [List.append_assoc]
  | written k calls =>
    obtain ⟨hk, hoffered⟩ := hadm
    have hall : k = w.offered := hwhole
    rcases hsending : w.session.sending with _ | ⟨op, later⟩
    · unfold offered at hoffered
      rw [hsending] at hoffered
      have : k ≤ 0 := hoffered
      omega
    obtain ⟨hbytes, hlength, rfl⟩ := hrep.bytes hsending
    have htaken : (op.bytes w.session).take k = inFlight := by
      rw [hbytes, hall, offered, hsending, List.take_of_length_le (Nat.le_of_eq hlength.symm)]
    obtain ⟨f, q, hdone, hfq⟩ := hrep.handWrite k calls
    have hnext : Sending.step w (.written k calls) = ⟨TCPSession.handWrite { w.session with sending := [] } k calls,
        w.transmitted ++ (op.bytes w.session).take k, w.passed ++ calls.flatMap Call.bytes⟩ := by
      unfold Sending.step
      rw [hsending]
    rw [hnext]
    refine ⟨f, q, hdone, ?_⟩
    show w.transmitted ++ (op.bytes w.session).take k ++ (f ++ q) = w.passed ++ calls.flatMap Call.bytes
    rw [htaken, hfq, ← hpassed]
    simp only [List.append_assoc]
  | failed => exact hadm.elim

theorem InOrder.prefix {w : Sending} (h : w.InOrder) : w.transmitted <+: w.passed := by
  obtain ⟨inFlight, queued, -, hpassed⟩ := h
  exact ⟨inFlight ++ queued, hpassed⟩

/-- **Stream integrity**: as long as every completion reports all the bytes its `async_send` was given, the network has
at every moment transmitted a prefix of what has been passed to the session. -/
theorem transmitted_prefix {es : List Event} (hadm : Runs.Along step Admissible start es)
    (hwhole : Runs.Along step WholeSends start es) :
    Runs.Always step (fun w => w.transmitted <+: w.passed) start es := by
  have hboth : Runs.Along step (fun w e => w.Admissible e ∧ w.WholeSends e) start es := hadm.and hwhole
  have horder : Runs.Always step InOrder start es :=
    Runs.inv_always (fun _ _ h hp => h.step hp.1 hp.2) inOrder_start hboth
  exact horder.mono fun _ h => h.prefix

/-- Two sends, the second while the first is in flight and the third from the write callback. -/
def wholeRun : List Event :=
  [.call (.send [1, 2, 3]), .call (.send [4]), .written 3 [.addMore [5]], .written 2 []]

theorem wholeRun_prefix : Runs.Along step Admissible start wholeRun ∧ Runs.Along step WholeSends start wholeRun ∧
    Runs.Always step (fun w => w.transmitted <+: w.passed) start wholeRun :=
  have hadm : Runs.Along step Admissible start wholeRun := by decide +kernel
  have hwhole : Runs.Along step WholeSends start wholeRun := by decide +kernel
  ⟨hadm, hwhole, transmitted_prefix hadm hwhole⟩

/-- The first of three bytes is transmitted, and `handWrite` empties the buffer; the next byte follows. -/
def partialRun : List Event := [.call (.send [1, 2, 3]), .written 1 [], .call (.send [4]), .written 1 []]

theorem partialRun_transmitted :
    (Runs.run step start partialRun).transmitted = [1, 4] ∧ (Runs.run step start partialRun).passed = [1, 2, 3, 4] := by
  decide +kernel

/-- A partial send loses the rest of the buffer: admissible runs need not keep the stream intact. -/
theorem partialRun_loses : ¬ ∀ es, Runs.Along step Admissible start es →
    Runs.Always step (fun w => w.transmitted <+: w.passed) start es := by
  intro h
  have hprefix := (h partialRun (by decide +kernel)).last
  rw [partialRun_transmitted.1, partialRun_transmitted.2] at hprefix
  exact absurd hprefix (by decide)

end Sending

end AsioUtils.Net
