import AsioUtils.Net.TCPConnector

/-!
# One attempt of a `TCPConnector`

The endpoints a connector tries after one resolve, up to the first success.

* `Resolved` : how `async_resolve` completes;
* `attempt`, `Traced` : the resolve and the connects that follow, with the endpoints tried;
* `attempt_exact` : they are the resolved ones in order, unless there are none: `resolveAddress` looks neither at the
  code nor whether `results` is empty before `connect` reads `*endpoint_iterator_`.
-/

namespace AsioUtils.Net

namespace TCPConnector

open Runs

/-- A resolve that fails has no results. -/
inductive Resolved
  | error
  | success (results : List Endpoint)
  deriving DecidableEq, Repr

def Resolved.results : Resolved → List Endpoint
  | error => []
  | success results => results

/-- A connector and the endpoints it has tried. -/
structure Traced where
  connector : Option TCPConnector
  tried : List Endpoint := []
  deriving DecidableEq

/-- The endpoint of an `async_connect` that began; `connect` counts it in `attempts`. -/
def began : Option TCPConnector → Option TCPConnector → List Endpoint
  | some c, some c' => c'.endpoint_iterator_.take (c'.attempts - c.attempts)
  | _, _ => []

def Traced.step (t : Traced) (e : Event) : Traced where
  connector := TCPConnector.step t.connector e
  tried := t.tried ++ began t.connector (TCPConnector.step t.connector e)

/-- The resolve completes, and then one connect after the other. -/
def attempt (c : TCPConnector) (outcome : Resolved) (ecs : List (Option ConnectError)) : Traced :=
  run Traced.step { connector := some c } (.resolved outcome.results :: ecs.map .connected)

/-- Nothing undefined happens, and the endpoints are tried in order up to the first success. -/
def InOrder (t : Traced) (results : List Endpoint) (ecs : List (Option ConnectError)) : Prop :=
  t.connector ≠ none ∧ t.tried = results.take ((ecs.takeWhile Option.isSome).length + 1)

instance (t : Traced) (results : List Endpoint) (ecs : List (Option ConnectError)) : Decidable (InOrder t results ecs) :=
  inferInstanceAs (Decidable (_ ∧ _))

/-! ## The connects -/

/-- The connects that have failed one after the other. -/
def failures (ecs : List (Option ConnectError)) : Nat := (ecs.takeWhile Option.isSome).length

theorem failures_success (ecs : List (Option ConnectError)) : failures (none :: ecs) = 0 := rfl

theorem failures_failure (ec : ConnectError) (ecs : List (Option ConnectError)) :
    failures (some ec :: ecs) = failures ecs + 1 := rfl

/-- Without a connect outstanding nothing completes. -/
theorem run_connected_idle {c : TCPConnector} (h : c.connecting = 0) (ecs : List (Option ConnectError))
    (tried : List Endpoint) : run Traced.step ⟨some c, tried⟩ (ecs.map .connected) = ⟨some c, tried⟩ := by
  induction ecs with
  | nil => rfl
  | cons ec ecs ih =>
    have hsame : Traced.step ⟨some c, tried⟩ (.connected ec) = ⟨some c, tried⟩ := by
      have hstep : TCPConnector.step (some c) (.connected ec) = some c := if_pos h
      unfold Traced.step
      rw [hstep, began, Nat.sub_self, List.take_zero, List.append_nil]
    rw [List.map_cons, run_cons, hsame, ih]

/-- The one connect that is outstanding is to the first of the endpoints that are left: the next ones follow while
connects fail. -/
theorem run_connected {c : TCPConnector} (h : c.connecting = 1) {e : Endpoint} {rest : List Endpoint}
    (hleft : c.endpoint_iterator_ = e :: rest) (ecs : List (Option ConnectError)) (tried : List Endpoint) :
    ∃ c', run Traced.step ⟨some c, tried⟩ (ecs.map .connected) = ⟨some c', tried ++ rest.take (failures ecs)⟩ := by
  induction ecs generalizing c e rest tried with
  | nil => exact ⟨c, by simp [failures]⟩
  | cons ec ecs ih =>
    have hstep : TCPConnector.step (some c) (.connected ec) = { c with connecting := 0 }.handleConnect ec := by
      rw [step_some]
      simp [handle, h]
    rw [List.map_cons, run_cons, Traced.step, hstep]
    cases ec with
    | none =>
      rw [failures_success, List.take_zero, List.append_nil]
      have hsuccess : { c with connecting := 0 }.handleConnect none =
          some { c with connecting := 0, state_ := .kConnected, newConnections := c.newConnections + 1 } := rfl
      rw [hsuccess, began, Nat.sub_self, List.take_zero, List.append_nil]
      exact ⟨_, run_connected_idle rfl ecs tried⟩
    | some ec =>
      rw [failures_failure]
      cases rest with
      | nil =>
        rw [handleConnect_last { c with connecting := 0 } ec hleft, List.take_nil, List.append_nil]
        have hdone : ∀ b : Bool, (if b = true then { c with connecting := 0, endpoint_iterator_ := [] }.retry
            else { c with connecting := 0, endpoint_iterator_ := [] }).connecting = 0 ∧
            (if b = true then { c with connecting := 0, endpoint_iterator_ := [] }.retry
              else { c with connecting := 0, endpoint_iterator_ := [] }).endpoint_iterator_ = [] := by
          intro b
          cases b
          · exact ⟨rfl, rfl⟩
          · rw [if_pos rfl, retry_eq]
            exact ⟨rfl, rfl⟩
        obtain ⟨hidle, hempty⟩ := hdone ec.retries
        rw [began, hempty, List.take_nil, List.append_nil]
        exact ⟨_, run_connected_idle hidle ecs tried⟩
      | cons e' rest =>
        rw [handleConnect_next { c with connecting := 0 } ec hleft, began]
        dsimp only
        rw [Nat.add_sub_cancel_left, List.take_succ_cons, List.take_zero]
        obtain ⟨c', hc'⟩ := ih (c := { c with
          connecting := 0 + 1, endpoint_iterator_ := e' :: rest, attempts := c.attempts + 1 }) rfl rfl (tried ++ [e'])
        exact ⟨c', hc'.trans (by rw [List.append_assoc, List.singleton_append, List.take_succ_cons])⟩

/-- **One attempt, exactly**: while a resolve is outstanding and no connect is, the attempt it begins tries the endpoints
in order, each once, up to the first success, and reads no end of the iteration, if and only if the resolve finds some
endpoint. -/
theorem attempt_exact {c : TCPConnector} (hresolving : c.resolving ≠ 0) (hconnecting : c.connecting = 0)
    (outcome : Resolved) (ecs : List (Option ConnectError)) :
    InOrder (attempt c outcome ecs) outcome.results ecs ↔ outcome.results ≠ [] := by
  have hstep : TCPConnector.step (some c) (.resolved outcome.results) =
      { c with resolving := c.resolving - 1, endpoint_iterator_ := outcome.results }.connect := if_neg hresolving
  rw [attempt, run_cons, Traced.step, hstep]
  cases hresults : outcome.results with
  | nil =>
    refine iff_of_false (fun hin => ?_) (by simp)
    have hundefined : ∀ (es : List Event) (tried : List Endpoint),
        (run Traced.step ⟨none, tried⟩ es).connector = none := by
      intro es
      induction es with
      | nil => exact fun _ => rfl
      | cons e es ih => exact fun tried => ih _
    exact hin.1 (hundefined _ _)
  | cons e rest =>
    refine iff_of_true ?_ (by simp)
    set c₁ : TCPConnector := { c with
      resolving := c.resolving - 1, endpoint_iterator_ := e :: rest
      connecting := c.connecting + 1, attempts := c.attempts + 1 } with hc₁
    have hbegan : began (some c) (some c₁) = [e] := by
      show (e :: rest).take (c.attempts + 1 - c.attempts) = [e]
      rw [Nat.add_sub_cancel_left, List.take_succ_cons, List.take_zero]
    have hone : c₁.connecting = 1 := by rw [hc₁, hconnecting]
    obtain ⟨c', hc'⟩ := run_connected hone rfl ecs [e]
    show InOrder (run Traced.step ⟨some c₁, began (some c) (some c₁)⟩ _) _ _
    rw [hbegan, hc']
    exact ⟨Option.some_ne_none _, rfl⟩

theorem attempt_exact_started :
    InOrder (attempt (start {}) (.success [("10.0.0.1", 8810), ("10.0.0.2", 8810)]) [some .host_unreachable, none])
      [("10.0.0.1", 8810), ("10.0.0.2", 8810)] [some .host_unreachable, none] :=
  (attempt_exact (by decide) (by decide) _ _).mpr (by decide)

/-- A resolve that fails: `connect` reads the end of the results. -/
theorem failed_resolve_undefined : ¬ ∀ (c : TCPConnector) (outcome : Resolved) (ecs : List (Option ConnectError)),
    c.resolving ≠ 0 → c.connecting = 0 → InOrder (attempt c outcome ecs) outcome.results ecs := by
  intro h
  exact absurd (h (start {}) .error [] (by decide) (by decide)) (by decide)

end TCPConnector

end AsioUtils.Net
