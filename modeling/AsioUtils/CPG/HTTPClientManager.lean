import AsioUtils.Lib.Runs
import Mathlib.Data.List.Nodup
import Mathlib.Tactic.Tauto

/-!
# `HTTPClientManager`: requests, `stop` and the worker

Any thread gives requests and calls `stop`; the worker in `run` takes them one at a time. Callbacks run on the worker,
with the lock free, so all these steps come in any order. `stop_` is read as if it were atomic.

* `HTTPClientManager`, `step` : the queue, where the worker is, and one step of one thread;
* `Moves`, `step_moves` : what a step does to the requests that wait and to those that have begun;
* `Parts` : until `stop` each request waits or has begun, never both;
* `run_of_stopped` : after `stop` the worker's own steps end `run`;
* `answered_by_return` : who is answered by then.
-/

namespace AsioUtils.CPG

open Runs

/-- `callback` is the number of the request, which stands for its function object. -/
structure HTTPClientManager.Request where
  method : String
  path : String
  content : String
  header : List (String × String)
  callback : Nat
  deriving DecidableEq

/-- Where the worker is in `run`. -/
inductive HTTPClientManager.Stage
  /-- before `while (!stop_)` -/
  | looping
  /-- before the lock, or in `wait` -/
  | taking
  /-- the lock is free again -/
  | popped (req : Option Request)
  /-- in `baseClient_->request` -/
  | exchanging (req : Request)
  /-- in the callback, with the response -/
  | calling (req : Request)
  /-- has caught a `std::exception` -/
  | catching (req : Request) (what : String)
  /-- in the callback, with the failure -/
  | reporting
  | returned
  /-- left by an exception -/
  | thrown
  deriving DecidableEq

/-- A call of a callback. -/
structure HTTPClientManager.Call where
  callback : Nat
  code : Int
  error : String
  content : String
  deriving DecidableEq

/-- What an exchange comes to. -/
inductive HTTPClientManager.Answer
  | response (content : String)
  /-- a `std::exception` -/
  | exception (what : String)
  deriving DecidableEq

/-- `given` counts the requests, and `calls` lists the calls of their callbacks; the code keeps neither. -/
structure HTTPClientManager where
  requests_ : List HTTPClientManager.Request := []
  stop_ : Bool := false
  worker : HTTPClientManager.Stage := .looping
  given : Nat := 0
  calls : List HTTPClientManager.Call := []

namespace HTTPClientManager

/-- A step of one thread. -/
inductive Event
  | request (method path content : String) (header : List (String × String))
  | stop
  /-- `while (!stop_)` -/
  | loop
  /-- the block under the lock -/
  | take
  /-- `if (req && !stop_)` -/
  | test
  | answer (answer : Answer)
  /-- the handler calls the callback -/
  | report
  /-- a callback returns, or throws a `std::exception` -/
  | ends (threw : Option String)
  deriving DecidableEq

/-- A step that does not fit the worker's stage changes nothing. -/
def step (m : HTTPClientManager) : Event → HTTPClientManager
  | .request method path content header =>
    { m with requests_ := m.requests_ ++ [⟨method, path, content, header, m.given⟩], given := m.given + 1 }
  | .stop => { m with stop_ := true }
  | .loop =>
    match m.worker with
    | .looping => if m.stop_ then { m with worker := .returned } else { m with worker := .taking }
    | _ => m
  | .take =>
    match m.worker, m.requests_ with
    | .taking, req :: requests => { m with worker := .popped (some req), requests_ := requests }
    | .taking, [] => if m.stop_ then { m with worker := .popped none } else m
    | _, _ => m
  | .test =>
    match m.worker with
    | .popped (some req) => if m.stop_ then { m with worker := .looping } else { m with worker := .exchanging req }
    | .popped none => { m with worker := .looping }
    | _ => m
  | .answer answer =>
    match m.worker, answer with
    | .exchanging req, .response content =>
      { m with worker := .calling req, calls := m.calls ++ [⟨req.callback, 0, "", content⟩] }
    | .exchanging req, .exception what => { m with worker := .catching req what }
    | _, _ => m
  | .report =>
    match m.worker with
    | .catching req what => { m with worker := .reporting, calls := m.calls ++ [⟨req.callback, -1, what, ""⟩] }
    | _ => m
  | .ends threw =>
    match m.worker, threw with
    | .calling _, none | .reporting, none => { m with worker := .looping }
    | .calling req, some what => { m with worker := .catching req what }
    | .reporting, some _ => { m with worker := .thrown }
    | _, _ => m

/-! ## Who waits, who has begun -/

/-- Taken, and not tested yet. -/
@[simp] def Stage.untested : Stage → List Nat
  | .popped (some req) => [req.callback]
  | _ => []

/-- The callback that the worker is about to call. -/
@[simp] def Stage.owed : Stage → List Nat
  | .exchanging req | .catching req _ => [req.callback]
  | _ => []

/-- The callbacks called so far, in order. -/
def callbacks (m : HTTPClientManager) : List Nat := m.calls.map Call.callback

/-- The requests whose exchange has not begun. -/
def waiting (m : HTTPClientManager) : List Nat := m.worker.untested ++ m.requests_.map Request.callback

/-- The callbacks called so far, and the one to be called for an exchange that has begun. -/
def begun (m : HTTPClientManager) : List Nat := m.callbacks ++ m.worker.owed

/-- What a step from `m` to `m'` does to the requests. -/
inductive Moves (m : HTTPClientManager) (e : Event) (m' : HTTPClientManager) : Prop
  | stays (given : m'.given = m.given) (waiting : m'.waiting = m.waiting) (begun : m'.begun = m.begun)
  | gives (given : m'.given = m.given + 1) (waiting : m'.waiting = m.waiting ++ [m.given]) (begun : m'.begun = m.begun)
  | begins (id : Nat) (stop : m.stop_ = false) (given : m'.given = m.given) (waiting : m.waiting = id :: m'.waiting)
    (begun : m'.begun = m.begun ++ [id])
  | drops (id : Nat) (stop : m.stop_ = true) (given : m'.given = m.given) (waiting : m.waiting = id :: m'.waiting)
    (begun : m'.begun = m.begun)
  /-- the callback threw when it was called with the response -/
  | again (req : Request) (what : String) (event : e = .ends (some what)) (worker : m.worker = .calling req)
    (given : m'.given = m.given) (waiting : m'.waiting = m.waiting) (begun : m'.begun = m.begun ++ [req.callback])

section Moves

variable {m m' : HTTPClientManager} {e : Event}

attribute [local simp] step

theorem Moves.of_eq (h : m' = m) : Moves m e m' :=
  .stays (congrArg given h) (congrArg waiting h) (congrArg begun h)

/-- The worker goes on to a stage with the same request in hand. -/
theorem Moves.goes {w : Stage} (huntested : w.untested = m.worker.untested) (howed : w.owed = m.worker.owed) :
    Moves m e { m with worker := w } := by
  refine .stays rfl ?_ ?_
  · rw [waiting, waiting, huntested]
  · rw [begun, begun, callbacks, callbacks, howed]

theorem loop_moves (m : HTTPClientManager) : Moves m .loop (m.step .loop) := by
  cases hworker : m.worker with
  | looping =>
    simp only [step, hworker]
    split_ifs <;> exact .goes (by rw [hworker]; rfl) (by rw [hworker]; rfl)
  | _ => exact .of_eq (by simp only [step, hworker])

theorem take_moves (m : HTTPClientManager) : Moves m .take (m.step .take) := by
  cases hworker : m.worker with
  | taking =>
    cases hqueue : m.requests_ with
    | nil =>
      simp only [step, hworker, hqueue]
      split_ifs
      · exact .stays rfl (by simp [waiting, hqueue, hworker]) (by simp [begun, callbacks, hworker])
      · exact .of_eq rfl
    | cons req requests =>
      simp only [step, hworker, hqueue]
      exact .stays rfl (by simp [waiting, hqueue, hworker]) (by simp [begun, callbacks, hworker])
  | _ => exact .of_eq (by simp only [step, hworker])

theorem test_moves (m : HTTPClientManager) : Moves m .test (m.step .test) := by
  cases hworker : m.worker with
  | popped req =>
    cases req with
    | none =>
      simp only [step, hworker]
      exact .goes (by rw [hworker]; rfl) (by rw [hworker]; rfl)
    | some req =>
      cases hstop : m.stop_ with
      | true =>
        simp only [step, hworker, hstop]
        exact .drops req.callback hstop rfl (by simp [waiting, hworker]) (by simp [begun, callbacks, hworker])
      | false =>
        simp only [step, hworker, hstop]
        exact .begins req.callback hstop rfl (by simp [waiting, hworker]) (by simp [begun, callbacks, hworker])
  | _ => exact .of_eq (by simp only [step, hworker])

theorem answer_moves (m : HTTPClientManager) (answer : Answer) : Moves m (.answer answer) (m.step (.answer answer)) := by
  cases hworker : m.worker with
  | exchanging req =>
    cases answer with
    | response content =>
      simp only [step, hworker]
      exact .stays rfl (by simp [waiting, hworker]) (by simp [begun, callbacks, hworker])
    | exception what =>
      simp only [step, hworker]
      exact .goes (by rw [hworker]; rfl) (by rw [hworker]; rfl)
  | _ => exact .of_eq (by simp only [step, hworker])

theorem report_moves (m : HTTPClientManager) : Moves m .report (m.step .report) := by
  cases hworker : m.worker with
  | catching req what =>
    simp only [step, hworker]
    exact .stays rfl (by simp [waiting, hworker]) (by simp [begun, callbacks, hworker])
  | _ => exact .of_eq (by simp only [step, hworker])

theorem ends_moves (m : HTTPClientManager) (threw : Option String) : Moves m (.ends threw) (m.step (.ends threw)) := by
  cases hworker : m.worker with
  | calling req =>
    cases threw with
    | none =>
      simp only [step, hworker]
      exact .goes (by rw [hworker]; rfl) (by rw [hworker]; rfl)
    | some what =>
      simp only [step, hworker]
      exact .again req what rfl hworker rfl (by simp [waiting, hworker]) (by simp [begun, callbacks, hworker])
  | reporting =>
    cases threw <;> simp only [step, hworker] <;> exact .goes (by rw [hworker]; rfl) (by rw [hworker]; rfl)
  | _ => exact .of_eq (by simp only [step, hworker])

theorem step_moves (m : HTTPClientManager) (e : Event) : Moves m e (m.step e) := by
  cases e with
  | request method path content header => exact .gives rfl (by simp [step, waiting]) rfl
  | stop => exact .stays rfl rfl rfl
  | loop => exact loop_moves m
  | take => exact take_moves m
  | test => exact test_moves m
  | answer answer => exact answer_moves m answer
  | report => exact report_moves m
  | ends threw => exact ends_moves m threw

end Moves

/-! ## Whole runs -/

/-- Every request either waits or has begun. -/
structure Parts (m : HTTPClientManager) : Prop where
  nodup : m.waiting.Nodup
  apart : ∀ id ∈ m.waiting, id ∉ m.begun
  either : ∀ id, id < m.given ↔ id ∈ m.waiting ∨ id ∈ m.begun

structure Tracks (m : HTTPClientManager) : Prop where
  returned : m.worker = .returned → m.stop_ = true
  calling : ∀ req, m.worker = .calling req → req.callback ∈ m.begun
  parts : m.stop_ = false → m.Parts

/-- The callback of this request does not throw when it is called with the response. -/
def Quiet (id : Nat) (m : HTTPClientManager) : Event → Prop
  | .ends (some _) => ∀ req, m.worker = .calling req → req.callback ≠ id
  | _ => True

section Step

variable {m : HTTPClientManager} {id : Nat}

theorem stop_step (e : Event) : (m.step e).stop_ = (m.stop_ || e = .stop) := by
  fun_cases step m e <;> simp

theorem stop_mono (e : Event) (h : (m.step e).stop_ = false) : m.stop_ = false := by
  rw [stop_step, Bool.or_eq_false_iff] at h
  exact h.1

theorem returned_step (h : m.worker = .returned → m.stop_ = true) (e : Event) :
    (m.step e).worker = .returned → (m.step e).stop_ = true := by
  fun_cases step m e <;> simp_all

theorem calling_step (h : ∀ req, m.worker = .calling req → req.callback ∈ m.begun) (e : Event) :
    ∀ req, (m.step e).worker = .calling req → req.callback ∈ (m.step e).begun := by
  fun_cases step m e <;> simp_all [begun, callbacks]

/-- What has begun has begun for good. -/
theorem begun_step (h : id ∈ m.begun) (e : Event) : id ∈ (m.step e).begun := by
  cases step_moves m e with
  | stays _ _ hbegun | gives _ _ hbegun | drops _ _ _ _ hbegun => rwa [hbegun]
  | begins _ _ _ _ hbegun | again _ _ _ _ _ _ hbegun =>
    rw [hbegun]
    exact List.mem_append_left _ h

/-- Once stopped, nothing begins. -/
theorem not_begun_step (hm : m.Tracks) (hstop : m.stop_ = true) (h : id ∉ m.begun) (e : Event) :
    id ∉ (m.step e).begun := by
  cases step_moves m e with
  | stays _ _ hbegun | gives _ _ hbegun | drops _ _ _ _ hbegun => rwa [hbegun]
  | begins _ hrun => exact absurd (hstop.symm.trans hrun) (by decide)
  | again req _ _ hworker _ _ hbegun =>
    rw [hbegun, List.mem_append, List.mem_singleton, not_or]
    refine ⟨h, ?_⟩
    rintro rfl
    exact h (hm.calling req hworker)

theorem Parts.step (h : m.Parts) (hcalling : ∀ req, m.worker = .calling req → req.callback ∈ m.begun) (e : Event)
    (hrun : m.stop_ = false) : (m.step e).Parts := by
  obtain ⟨hnodup, hapart, heither⟩ := h
  cases step_moves m e with
  | stays hgiven hwaiting hbegun =>
    exact ⟨by rwa [hwaiting], by rwa [hwaiting, hbegun], by rwa [hgiven, hwaiting, hbegun]⟩
  | gives hgiven hwaiting hbegun =>
    have hwaits : m.given ∉ m.waiting := fun h => absurd ((heither _).mpr (.inl h)) (Nat.lt_irrefl _)
    have hbegins : m.given ∉ m.begun := fun h => absurd ((heither _).mpr (.inr h)) (Nat.lt_irrefl _)
    refine ⟨?_, ?_, fun id => ?_⟩
    · rw [hwaiting]
      rw [← List.concat_eq_append]
      exact hnodup.concat hwaits
    · rw [hwaiting, hbegun, List.forall_mem_append, List.forall_mem_singleton]
      exact ⟨hapart, hbegins⟩
    · rw [hgiven, hwaiting, hbegun, List.mem_append, List.mem_singleton, Nat.lt_succ_iff_lt_or_eq, heither]
      tauto
  | begins id' _ hgiven hwaiting hbegun =>
    rw [hwaiting] at hnodup hapart heither
    obtain ⟨hnot, hnodup⟩ := List.nodup_cons.mp hnodup
    obtain ⟨hfirst, hrest⟩ := List.forall_mem_cons.mp hapart
    refine ⟨hnodup, fun id hid => ?_, fun id => ?_⟩
    · rw [hbegun, List.mem_append, List.mem_singleton, not_or]
      exact ⟨hrest id hid, fun heq => hnot (heq ▸ hid)⟩
    · rw [hgiven, hbegun, heither, List.mem_cons, List.mem_append, List.mem_singleton]
      tauto
  | drops _ hstop => exact absurd (hrun.symm.trans hstop) (by decide)
  | again req _ _ hworker hgiven hwaiting hbegun =>
    have hsame : ∀ id, id ∈ (m.step e).begun ↔ id ∈ m.begun := fun id => by
      rw [hbegun, List.mem_append, List.mem_singleton]
      exact or_iff_left_of_imp fun heq => heq ▸ hcalling req hworker
    refine ⟨by rwa [hwaiting], fun id hid => ?_, fun id => ?_⟩
    · rw [hsame]
      exact hapart id (hwaiting ▸ hid)
    · rw [hgiven, hwaiting, hsame, heither]

theorem Tracks.step (h : m.Tracks) (e : Event) : (m.step e).Tracks where
  returned := returned_step h.returned e
  calling := calling_step h.calling e
  parts hstop := (h.parts (stop_mono e hstop)).step h.calling e (stop_mono e hstop)

/-- A request that has begun is called at most once. -/
theorem single_step (h : m.Tracks) (e : Event) (hquiet : Quiet id m e) (hsingle : m.begun.count id ≤ 1) :
    (m.step e).begun.count id ≤ 1 := by
  cases step_moves m e with
  | stays _ _ hbegun | gives _ _ hbegun | drops _ _ _ _ hbegun => rwa [hbegun]
  | begins id' hrun _ hwaiting hbegun =>
    have hnot : id' ∉ m.begun := (h.parts hrun).apart id' (by simp [hwaiting])
    rw [hbegun, List.count_append, List.count_singleton]
    by_cases hid : id' = id
    · rw [← hid, List.count_eq_zero.mpr hnot]
      simp
    · simpa [hid] using hsingle
  | again req what hevent hworker _ _ hbegun =>
    subst hevent
    have hne : req.callback ≠ id := hquiet req hworker
    rw [hbegun, List.count_append, List.count_singleton]
    simpa [hne] using hsingle

end Step

section Run

variable {m : HTTPClientManager} {es : List Event} {id : Nat}

theorem tracks_start : Tracks {} where
  returned := nofun
  calling := nofun
  parts _ := ⟨by simp [waiting], by simp [waiting], by simp [waiting, begun, callbacks]⟩

theorem tracks_run (h : m.Tracks) (es : List Event) : (run step m es).Tracks :=
  inv_run (q := Tracks) (fun _ e h => Tracks.step h e) h es

theorem stop_run (es : List Event) : (run step m es).stop_ = (m.stop_ || es.contains .stop) := by
  induction es generalizing m with
  | nil => simp
  | cons e es ih => simp [ih, stop_step, Bool.or_assoc, eq_comm]

theorem begun_run (h : id ∈ m.begun) (es : List Event) : id ∈ (run step m es).begun :=
  inv_run (q := fun m => id ∈ begun m) (fun _ e h => begun_step h e) h es

/-- What waits when the manager is stopped never begins. -/
theorem not_begun_run (hm : m.Tracks) (hstop : m.stop_ = true) (h : id ∉ m.begun) (es : List Event) :
    id ∉ (run step m es).begun := by
  have hinv : ∀ (m : HTTPClientManager) e, m.Tracks ∧ m.stop_ = true ∧ id ∉ m.begun →
      (m.step e).Tracks ∧ (m.step e).stop_ = true ∧ id ∉ (m.step e).begun := by
    rintro m e ⟨hm, hstop, h⟩
    refine ⟨hm.step e, ?_, not_begun_step hm hstop h e⟩
    rw [stop_step, hstop, Bool.true_or]
  exact (inv_run hinv ⟨hm, hstop, h⟩ es).2.2

/-- A request whose callback does not throw when it is called with the response. -/
theorem single_run (hquiet : Along step (Quiet id) {} es) : (run step {} es).begun.count id ≤ 1 := by
  have hinv : ∀ (m : HTTPClientManager) e, m.Tracks ∧ m.begun.count id ≤ 1 → Quiet id m e →
      (m.step e).Tracks ∧ (m.step e).begun.count id ≤ 1 := by
    rintro m e ⟨hm, hsingle⟩ hquiet
    exact ⟨hm.step e, single_step hm e hquiet hsingle⟩
  exact (inv_run_along hinv ⟨tracks_start, by simp [begun, callbacks]⟩ hquiet).2

/-- After `stop` the worker's own steps end `run`, whatever an exchange comes to. -/
theorem run_of_stopped (hstop : m.stop_ = true) (hworker : m.worker ≠ .thrown) (answer : Answer) :
    (run step m [.take, .test, .answer answer, .report, .ends none, .loop]).worker = .returned := by
  obtain ⟨requests, stopped, worker, given, calls⟩ := m
  obtain rfl : stopped = true := hstop
  cases worker with
  | taking => cases requests <;> rfl
  | popped req => cases req <;> rfl
  | exchanging req => cases answer <;> rfl
  | thrown => exact absurd rfl hworker
  | looping | calling | catching | reporting | returned => rfl

/-- **Who is answered by the time `run` returns**: of the requests given before `stop`, those that still wait then are
never answered; each other one is answered exactly once, if its callback does not throw when it is called with the
response. -/
theorem answered_by_return (hreturned : (run step {} es).worker = .returned) :
    ∃ pre post, es = pre ++ .stop :: post ∧ .stop ∉ pre ∧ ∀ id < (run step {} pre).given,
      (id ∈ (run step {} pre).waiting → (run step {} es).callbacks.count id = 0) ∧
        (id ∉ (run step {} pre).waiting → Along step (Quiet id) {} es → (run step {} es).callbacks.count id = 1) := by
  have hstopped := (tracks_run tracks_start es).returned hreturned
  rw [stop_run, Bool.false_or, List.contains_iff_mem] at hstopped
  obtain ⟨pre, post, rfl, hpre⟩ := List.eq_append_cons_of_mem hstopped
  refine ⟨pre, post, rfl, hpre, fun id hid => ?_⟩
  have hpost : run step {} (pre ++ .stop :: post) = run step ((run step {} pre).step .stop) post := by
    rw [run_append, run_cons]
  have hcalled : (run step {} (pre ++ .stop :: post)).callbacks = (run step {} (pre ++ .stop :: post)).begun := by
    simp [begun, hreturned]
  have hrun : (run step {} pre).stop_ = false := by
    rw [stop_run, Bool.false_or]
    simpa using hpre
  have htracks := tracks_run tracks_start pre
  have hparts := htracks.parts hrun
  rw [hcalled]
  constructor
  · intro hwaits
    rw [hpost, List.count_eq_zero]
    exact not_begun_run (htracks.step .stop) rfl (hparts.apart id hwaits) post
  · intro hwaits hquiet
    have hbegun : id ∈ (run step {} pre).begun := ((hparts.either id).mp hid).resolve_left hwaits
    have hstays : id ∈ (run step {} (pre ++ .stop :: post)).begun := by
      rw [run_append]
      exact begun_run hbegun _
    exact Nat.le_antisymm (single_run hquiet) (List.count_pos_iff.mpr hstays)

/-- One request, whose exchange fails before `stop`. -/
def oneFailed : List Event :=
  [.request "GET" "/" "" [], .loop, .take, .test, .answer (.exception "closed"), .report, .ends none, .stop, .loop]

theorem answered_by_return_one : ∃ pre post, oneFailed = pre ++ .stop :: post ∧ .stop ∉ pre ∧
    ∀ id < (run step {} pre).given,
      (id ∈ (run step {} pre).waiting → (run step {} oneFailed).callbacks.count id = 0) ∧
        (id ∉ (run step {} pre).waiting → Along step (Quiet id) {} oneFailed →
          (run step {} oneFailed).callbacks.count id = 1) :=
  answered_by_return rfl

/-- A request that waits when `stop` comes is not answered; one whose callback throws at the response is answered
twice. -/
theorem not_answered_once :
    (¬ ∀ pre post, .stop ∉ pre → (run step {} (pre ++ .stop :: post)).worker = .returned →
      ∀ id < (run step {} pre).given, (run step {} (pre ++ .stop :: post)).callbacks.count id = 1) ∧
    ¬ ∀ pre post, .stop ∉ pre → (run step {} (pre ++ .stop :: post)).worker = .returned →
      ∀ id < (run step {} pre).given, id ∉ (run step {} pre).waiting →
        (run step {} (pre ++ .stop :: post)).callbacks.count id = 1 := by
  constructor
  · intro h
    have hone := h [.request "GET" "/" "" []] [.loop] (by decide) rfl 0 (by decide)
    exact absurd hone (by decide)
  · intro h
    have hone := h [.request "GET" "/" "" [], .loop, .take, .test, .answer (.response "ok"), .ends (some "bad json"),
      .report, .ends none] [.loop] (by decide) rfl 0 (by decide) (by decide)
    exact absurd hone (by decide)

end Run

end HTTPClientManager

end AsioUtils.CPG
