import AsioUtils.Lib.Runs
import Mathlib.Data.Option.Basic

/-!
# `TCPConnector`

A connector resolves its address, tries the endpoints it gets one after the other, and when the last one fails for a
passing reason starts again after a delay. What it has asked for completes later, as an event of its own.

* `TCPConnector` : the members, and what is outstanding;
* `restart`, `stop`, `start`, `handleConnect`, `retry`, … : the member functions;
* `Event`, `step` : a call of a client or the completion of an operation; `none` is a connector that has read the end
  of its endpoints as one of them, after which nothing is defined;
* `honest_iff_keepsTrying` : when a connector that says it is connecting has an attempt outstanding;
* `stop_final_iff` : when a `stop` is the end of it.
-/

namespace AsioUtils.Net

/-- The codes that `handleConnect` tells apart. -/
inductive ConnectError
  | try_again | address_in_use | no_protocol_option | connection_refused | host_unreachable
  | no_permission | access_denied | address_family_not_supported | already_started | bad_descriptor | fault | not_socket
  | other
  deriving DecidableEq, Repr

/-- The codes that `handleConnect` retries on. -/
def ConnectError.retries : ConnectError → Bool
  | .try_again | .address_in_use | .no_protocol_option | .connection_refused | .host_unreachable => true
  | _ => false

inductive TCPConnector.States
  | kDisconnected | kConnecting | kConnected | kStopped
  deriving DecidableEq, Repr

/-- An address and a port. -/
abbrev Endpoint := String × Nat

def kMaxRetryDelayMs : Nat := 30000
def kInitRetryDelayMs : Nat := 500

/-- A connector whose `newConnectionCallback_` is set. The last two members are not the code's: they count the resolves
and connects that have begun, and the calls of `newConnectionCallback_`. -/
structure TCPConnector where
  connect_ : Bool := false
  state_ : TCPConnector.States := .kDisconnected
  retryDelayMs_ : Nat := kInitRetryDelayMs
  /-- the endpoints from `*endpoint_iterator_` on -/
  endpoint_iterator_ : List Endpoint := []
  /-- the `async_resolve`s, `async_connect`s and waits of `retryTimer_` whose handlers have not run -/
  resolving : Nat := 0
  connecting : Nat := 0
  waiting : Nat := 0
  attempts : Nat := 0
  newConnections : Nat := 0
  deriving DecidableEq, Repr

namespace TCPConnector

open Runs

def setState (c : TCPConnector) (s : States) : TCPConnector := { c with state_ := s }

def resolveAddress (c : TCPConnector) : TCPConnector :=
  { c with resolving := c.resolving + 1, attempts := c.attempts + 1 }

def start (c : TCPConnector) : TCPConnector :=
  if c.state_ = .kConnecting then c else ({ c with connect_ := true }.setState .kConnecting).resolveAddress

def restart (c : TCPConnector) : TCPConnector :=
  { c.setState .kDisconnected with retryDelayMs_ := kInitRetryDelayMs, connect_ := true }.start

def stop (c : TCPConnector) : TCPConnector := if c.state_ = .kConnecting then c.setState .kStopped else c

/-- `async_connect` to `*endpoint_iterator_` -/
def connect (c : TCPConnector) : Option TCPConnector :=
  match c.endpoint_iterator_ with
  | [] => none
  | _ :: _ => some { c with connecting := c.connecting + 1, attempts := c.attempts + 1 }

/-- `expires_after` lets the handler of a wait that is pending run too, and the handler starts whatever its code. -/
def retry (c : TCPConnector) : TCPConnector :=
  if c.state_ = .kStopped then c
  else
    let c := c.setState .kDisconnected
    if c.connect_ then
      { c with waiting := c.waiting + 1, retryDelayMs_ := min (c.retryDelayMs_ * 2) kMaxRetryDelayMs }
    else c

/-- `none` is no error. -/
def handleConnect (c : TCPConnector) (ec : Option ConnectError) : Option TCPConnector :=
  match ec, c.endpoint_iterator_ with
  | none, _ => some { c.setState .kConnected with newConnections := c.newConnections + 1 }
  | some _, [] => none
  | some _, _ :: e :: rest => { c with endpoint_iterator_ := e :: rest }.connect
  | some ec, [_] =>
    let c := { c with endpoint_iterator_ := [] }
    match ec with
    | .try_again | .address_in_use | .no_protocol_option | .connection_refused | .host_unreachable => some c.retry
    -- both close the socket, the first group prints the code too
    | .no_permission | .access_denied | .address_family_not_supported | .already_started | .bad_descriptor | .fault
    | .not_socket => some c
    | .other => some c

/-- What `resolveAddress` passes to `async_resolve`; it does not look at the code. -/
def handleResolve (c : TCPConnector) (results : List Endpoint) : Option TCPConnector :=
  { c with endpoint_iterator_ := results }.connect

/-- A call, or the completion of something that is outstanding. -/
inductive Event
  | start
  | restart
  | stop
  | resolved (results : List Endpoint)
  | connected (ec : Option ConnectError)
  | retryTimer
  deriving DecidableEq, Repr

/-- The calls of a client that ask for a connection. -/
def Event.asks : Event → Bool
  | .start | .restart => true
  | .stop | .resolved _ | .connected _ | .retryTimer => false

def handle (c : TCPConnector) : Event → Option TCPConnector
  | .start => some c.start
  | .restart => some c.restart
  | .stop => some c.stop
  | .resolved results =>
    if c.resolving = 0 then some c else { c with resolving := c.resolving - 1 }.handleResolve results
  | .connected ec =>
    if c.connecting = 0 then some c else { c with connecting := c.connecting - 1 }.handleConnect ec
  | .retryTimer => if c.waiting = 0 then some c else some { c with waiting := c.waiting - 1 }.start

def step (s : Option TCPConnector) (e : Event) : Option TCPConnector := s.bind (·.handle e)

@[simp] theorem step_some (c : TCPConnector) (e : Event) : step (some c) e = c.handle e := rfl

@[simp] theorem step_none (e : Event) : step none e = none := rfl


/-! ## What the member functions do -/

section Functions

variable (c : TCPConnector)

theorem start_of_connecting (h : c.state_ = .kConnecting) : c.start = c := if_pos h

theorem start_of_ne (h : c.state_ ≠ .kConnecting) :
    c.start = { c with
      connect_ := true, state_ := .kConnecting, resolving := c.resolving + 1, attempts := c.attempts + 1 } := if_neg h

/-- `restart` begins an attempt whatever the connector is doing. -/
theorem restart_eq : c.restart = { c with
    connect_ := true, state_ := .kConnecting, retryDelayMs_ := kInitRetryDelayMs
    resolving := c.resolving + 1, attempts := c.attempts + 1 } :=
  start_of_ne _ (by simp [setState])

theorem stop_state : c.stop.state_ ≠ .kConnecting := by
  unfold stop
  split_ifs with h
  · simp [setState]
  · exact h

/-- `stop` writes the state alone. -/
theorem stop_eq : c.stop = { c with state_ := c.stop.state_ } := by
  unfold stop
  split_ifs <;> rfl

/-- After a failure on the last endpoint the connector is not connecting, or it is as it was. -/
theorem retry_state : c.retry.state_ ≠ .kConnecting := by
  unfold retry
  split_ifs with h
  · simp [h]
  · dsimp only
    split_ifs <;> simp [setState]

/-- What `retry` writes. -/
theorem retry_eq : c.retry = { c with
    state_ := c.retry.state_, waiting := c.retry.waiting, retryDelayMs_ := c.retry.retryDelayMs_ } := by
  unfold retry
  split_ifs
  · rfl
  · dsimp only
    split_ifs <;> rfl

theorem handleConnect_last (ec : ConnectError) {e : Endpoint} (h : c.endpoint_iterator_ = [e]) :
    c.handleConnect (some ec) =
      some (if ec.retries then { c with endpoint_iterator_ := [] }.retry else { c with endpoint_iterator_ := [] }) := by
  cases ec <;> simp [handleConnect, h, ConnectError.retries]

theorem handleConnect_next (ec : ConnectError) {e e' : Endpoint} {rest : List Endpoint}
    (h : c.endpoint_iterator_ = e :: e' :: rest) :
    c.handleConnect (some ec) = some { c with
      endpoint_iterator_ := e' :: rest, connecting := c.connecting + 1, attempts := c.attempts + 1 } := by
  simp [handleConnect, h, connect]

theorem handleConnect_end (ec : ConnectError) (h : c.endpoint_iterator_ = []) : c.handleConnect (some ec) = none := by
  simp [handleConnect, h]

end Functions

/-! ## A connector that is connecting -/

/-- Where the state is `kConnecting`, a resolve or a connect is outstanding. A wait does not count: its `start` does
nothing in this state. -/
def Trying (c : TCPConnector) : Prop := c.state_ = .kConnecting → 0 < c.resolving ∨ 0 < c.connecting

instance (c : TCPConnector) : Decidable c.Trying := inferInstanceAs (Decidable (_ → _))

/-- Nothing undefined has happened, and what the state says is so. -/
def Honest (s : Option TCPConnector) : Prop := ∃ c ∈ s, Trying c

instance (s : Option TCPConnector) : Decidable (Honest s) := inferInstanceAs (Decidable (∃ c ∈ s, Trying c))

@[simp] theorem honest_some (c : TCPConnector) : Honest (some c) ↔ c.Trying := by simp [Honest]

@[simp] theorem not_honest_none : ¬ Honest none := by simp [Honest]

/-- Something is found by every resolve; and a connect that fails has an endpoint to go on with, or fails for a reason
that is retried, or is not what the connector is waiting for. -/
def KeepsTrying (c : TCPConnector) : Event → Prop
  | .resolved results => c.resolving = 0 ∨ results ≠ []
  | .connected (some ec) => c.connecting = 0 ∨ c.endpoint_iterator_ ≠ [] ∧
      (1 < c.endpoint_iterator_.length ∨ ec.retries = true ∨ c.state_ ≠ .kConnecting ∨ 0 < c.resolving ∨
        1 < c.connecting)
  | _ => True

theorem trying_of_state {c : TCPConnector} (h : c.state_ ≠ .kConnecting) : c.Trying := fun h' => absurd h' h

theorem trying_start {c : TCPConnector} (h : c.Trying) : c.start.Trying := by
  by_cases hstate : c.state_ = .kConnecting
  · rw [start_of_connecting c hstate]
    exact h
  · rw [start_of_ne c hstate]
    exact fun _ => .inl (Nat.succ_pos _)

theorem honest_handleResolve (c : TCPConnector) (results : List Endpoint) :
    Honest (c.handleResolve results) ↔ results ≠ [] := by
  cases results with
  | nil => simp [handleResolve, connect]
  | cons e rest => simp [handleResolve, connect, Trying]

theorem honest_handleConnect (c : TCPConnector) (ec : ConnectError) :
    Honest (c.handleConnect (some ec)) ↔ c.endpoint_iterator_ ≠ [] ∧
      (1 < c.endpoint_iterator_.length ∨ ec.retries = true ∨ c.state_ ≠ .kConnecting ∨ 0 < c.resolving ∨
        0 < c.connecting) := by
  match h : c.endpoint_iterator_ with
  | [] => simp [handleConnect_end c ec h]
  | [e] =>
    rw [handleConnect_last c ec h, honest_some]
    by_cases hretries : ec.retries = true
    · rw [if_pos hretries]
      exact iff_of_true (trying_of_state (retry_state _)) ⟨by simp, .inr (.inl hretries)⟩
    · rw [if_neg hretries]
      simp only [Trying, hretries, List.length_singleton]
      simp [imp_iff_not_or]
  | e :: e' :: rest => simp [handleConnect_next c ec h, Trying]

/-- **One step** of an honest connector leaves an honest one exactly when it keeps trying. -/
theorem step_honest (s : Option TCPConnector) (e : Event) (h : Honest s) :
    Honest (step s e) ↔ ∀ c ∈ s, KeepsTrying c e := by
  obtain ⟨c, rfl, hc⟩ := h
  rw [step_some]
  simp only [Option.mem_def, Option.some.injEq, forall_eq']
  cases e with
  | start => exact iff_of_true ((honest_some _).mpr (trying_start hc)) trivial
  | restart =>
    refine iff_of_true ((honest_some _).mpr ?_) trivial
    rw [restart_eq]
    exact fun _ => .inl (Nat.succ_pos _)
  | stop => exact iff_of_true ((honest_some _).mpr (trying_of_state c.stop_state)) trivial
  | resolved results =>
    by_cases hidle : c.resolving = 0
    · simp only [handle, hidle, if_pos, honest_some, KeepsTrying, true_or, iff_true]
      exact hc
    · simp only [handle, hidle, if_false, honest_handleResolve, KeepsTrying, false_or]
  | connected ec =>
    by_cases hidle : c.connecting = 0
    · have hsame : c.handle (.connected ec) = some c := if_pos hidle
      rw [hsame, honest_some]
      refine iff_of_true hc ?_
      cases ec with
      | none => trivial
      | some ec => exact .inl hidle
    · cases ec with
      | none => simp [handle, hidle, handleConnect, KeepsTrying, Trying, setState]
      | some ec =>
        simp only [handle, hidle, if_false, honest_handleConnect, KeepsTrying, false_or]
        have hlater : 0 < c.connecting - 1 ↔ 1 < c.connecting := by omega
        rw [hlater]
  | retryTimer =>
    refine iff_of_true ?_ trivial
    simp only [handle]
    split_ifs
    · exact (honest_some c).mpr hc
    · exact (honest_some _).mpr (trying_start hc)

/-- **Honest states.** A connector says that it is connecting in no state of its run but with an attempt outstanding
exactly when every step keeps trying. -/
theorem honest_iff_keepsTrying (es : List Event) :
    Always step Honest (some {}) es ↔ Along step (fun s e => ∀ c ∈ s, KeepsTrying c e) (some {}) es :=
  always_iff_along_all step_honest (by decide)

/-- A connection that times out: the connector says that it is connecting, and will never try again. -/
theorem timedOut_not_honest :
    ¬ Always step Honest (some {}) [.start, .resolved [("10.0.0.1", 8810)], .connected (some .other)] := by
  intro h
  exact absurd h.last (by decide)

/-! ## Stopping -/

/-- The attempts that have begun and the connections that have been handed over. -/
def activity (s : Option TCPConnector) : Option (Nat × Nat) := s.map fun c => (c.attempts, c.newConnections)

/-- Nothing is outstanding. -/
def Idle (c : TCPConnector) : Prop := c.resolving = 0 ∧ c.connecting = 0 ∧ c.waiting = 0

/-- What an idle connector is not asked for it does not do. -/
theorem handle_idle {c : TCPConnector} (h : c.Idle) {e : Event} (he : e.asks = false) :
    ∃ c', c.handle e = some c' ∧ c'.Idle ∧ c'.attempts = c.attempts ∧ c'.newConnections = c.newConnections := by
  cases e with
  | start => simp [Event.asks] at he
  | restart => simp [Event.asks] at he
  | stop =>
    refine ⟨c.stop, rfl, ?_⟩
    rw [stop_eq]
    exact ⟨h, rfl, rfl⟩
  | resolved results => exact ⟨c, if_pos h.1, h, rfl, rfl⟩
  | connected ec => exact ⟨c, if_pos h.2.1, h, rfl, rfl⟩
  | retryTimer => exact ⟨c, if_pos h.2.2, h, rfl, rfl⟩

theorem run_idle {c : TCPConnector} (h : c.Idle) {es : List Event} (hes : ∀ e ∈ es, e.asks = false) :
    activity (run step (some c) es) = activity (some c) := by
  induction es generalizing c with
  | nil => rfl
  | cons e es ih =>
    obtain ⟨c', hc', hidle, hattempts, hnew⟩ := handle_idle h (hes e List.mem_cons_self)
    rw [run_cons, step_some, hc', ih hidle fun e he => hes e (List.mem_cons_of_mem _ he)]
    simp [activity, hattempts, hnew]

/-- What is outstanding when a connector is stopped can be the beginning of an attempt, or a connection. -/
theorem exists_active {c : TCPConnector} (h : ¬ c.Idle) :
    ∃ e : Event, e.asks = false ∧ activity (run step (some c) [.stop, e]) ≠ activity (some c) := by
  have hstop : step (some c) .stop = some { c with state_ := c.stop.state_ } := congrArg some c.stop_eq
  simp only [run_cons, run_nil, hstop, step_some]
  by_cases hresolving : c.resolving = 0
  · by_cases hconnecting : c.connecting = 0
    · have hwaiting : c.waiting ≠ 0 := fun hw => h ⟨hresolving, hconnecting, hw⟩
      refine ⟨.retryTimer, rfl, ?_⟩
      simp only [handle, hwaiting, if_false]
      have hne : { c with state_ := c.stop.state_, waiting := c.waiting - 1 }.state_ ≠ .kConnecting := c.stop_state
      rw [start_of_ne _ hne]
      simp [activity]
    · refine ⟨.connected none, rfl, ?_⟩
      simp [handle, hconnecting, handleConnect, activity, setState]
  · refine ⟨.resolved [("", 0)], rfl, ?_⟩
    simp [handle, hresolving, handleResolve, connect, activity]

/-- **`stop` is final**, whatever completes after it and until a client asks for a connection again, exactly when it
comes while nothing is outstanding. -/
theorem stop_final_iff (before : List Event) :
    (∀ after : List Event, (∀ e ∈ after, e.asks = false) →
      activity (run step (some {}) (before ++ .stop :: after)) = activity (run step (some {}) before)) ↔
        ∀ c ∈ run step (some {}) before, c.Idle := by
  simp only [run_append]
  generalize run step (some {}) before = s
  cases s with
  | none =>
    have hnone : ∀ es, run step none es = none := fun es => by
      induction es with
      | nil => rfl
      | cons e es ih => rw [run_cons, step_none, ih]
    simp [hnone]
  | some c =>
    simp only [Option.mem_def, Option.some.injEq, forall_eq']
    constructor
    · intro hfinal
      by_contra hidle
      obtain ⟨e, he, hactive⟩ := exists_active hidle
      exact hactive (hfinal [e] (by simpa using he))
    · intro hidle after hafter
      refine run_idle hidle fun e he => ?_
      rcases List.mem_cons.mp he with rfl | he
      · rfl
      · exact hafter e he

/-- A connector that is stopped while it resolves: it connects all the same. -/
theorem resolving_stop_not_final :
    activity (run step (some {}) ([.start] ++ .stop :: [.resolved [("10.0.0.1", 8810)], .connected none])) ≠
      activity (run step (some {}) [.start]) := by decide

end TCPConnector

end AsioUtils.Net
