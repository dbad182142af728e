import AsioUtils.Lib.Runs
import Mathlib.Data.List.Basic
import Mathlib.Tactic.Common

/-!
# `Active`: one worker thread and the events sent to it

Any thread may send. The worker takes all events that are there at once, outside of the lock, and gives them to the
callback one by one. A `send` is up to three steps: the push under the lock, the count and, if the list was empty, the
notify; between any two of them other threads run.

* `Active`, `step` : the members, where the worker and the senders are, and what each can do;
* `Inv` : nothing is left of a batch that was handled, a worker that waits for nothing will be notified, and what
  `pendingWorkNum_` counts;
* `all_run` : every event is handed over once, in the order of the pushes;
* `drains` : no wakeup is lost: the worker handles all that was sent;
* `stop_drops` : after `stop` only the batch at hand is handled;
* `ends_iff` : whether the worker ends after `stop`.
-/

namespace AsioUtils.Net

namespace Active

/-- Where the worker is. -/
inductive Stage
  /-- before `start` -/
  | starting
  /-- before `while (!stop_)` -/
  | test
  /-- before it gets the lock, for the first time or back from the wait -/
  | check
  /-- in `condition_.wait`, without the lock -/
  | waiting
  /-- before `while (!swapEvents_.empty())` -/
  | handling
  /-- behind the loop -/
  | done
  deriving DecidableEq

end Active

/-- The last three fields are the numbers of threads in `send`: behind the push of a first event, behind another push,
and before the notify. -/
structure Active (α : Type*) where
  events_ : List α := []
  swapEvents_ : List α := []
  stop_ : Bool := false
  pendingWorkNum_ : Int32 := 0
  stage : Active.Stage := .starting
  /-- what the callback was given -/
  handled : List α := []
  pushedFirst : Nat := 0
  pushedMore : Nat := 0
  notifying : Nat := 0

namespace Active

variable {α : Type*}

/-- The locked part of `send`. -/
def push (a : Active α) (t : α) : Active α :=
  if a.events_.isEmpty then { a with events_ := a.events_ ++ [t], pushedFirst := a.pushedFirst + 1 }
  else { a with events_ := a.events_ ++ [t], pushedMore := a.pushedMore + 1 }

/-- A notification, or a wakeup without one. -/
def wake (a : Active α) : Active α := if a.stage = .waiting then { a with stage := .check } else a

/-- `run`, up to the next point where other threads can come in. -/
def run (a : Active α) : Active α :=
  match a.stage with
  | .test => if a.stop_ then { a with stage := .done } else { a with stage := .check }
  | .check =>
    if a.events_.isEmpty then { a with stage := .waiting }
    else { a with swapEvents_ := a.events_, events_ := a.swapEvents_, stage := .handling }
  | .handling =>
    match a.swapEvents_ with
    | [] => { a with stage := .test }
    | event :: rest =>
      { a with swapEvents_ := rest, pendingWorkNum_ := a.pendingWorkNum_ - 1, handled := a.handled ++ [event] }
  | .starting | .waiting | .done => a

inductive Event (α : Type*)
  | start
  | push (t : α)
  /-- `++pendingWorkNum_`, in a `send` that will notify -/
  | countFirst
  /-- `++pendingWorkNum_`, in another -/
  | countMore
  /-- `condition_.notify_one()` of `send` -/
  | notify
  | run
  /-- `stop_ = true` -/
  | stop
  /-- the other notifications, of `stop` and of the destructor, and wakeups without any -/
  | wake

/-- An event that no thread is ready for changes nothing. A second `start` is one: it ends the program. -/
def step (a : Active α) : Event α → Active α
  | .start => if a.stage = .starting then { a with stage := .test } else a
  | .push t => a.push t
  | .countFirst =>
    if 0 < a.pushedFirst then
      { a with pendingWorkNum_ := a.pendingWorkNum_ + 1, pushedFirst := a.pushedFirst - 1, notifying := a.notifying + 1 }
    else a
  | .countMore =>
    if 0 < a.pushedMore then { a with pendingWorkNum_ := a.pendingWorkNum_ + 1, pushedMore := a.pushedMore - 1 } else a
  | .notify => if 0 < a.notifying then { a.wake with notifying := a.notifying - 1 } else a
  | .run => a.run
  | .stop => { a with stop_ := true }
  | .wake => a.wake

/-- What was pushed. -/
def pushes (es : List (Event α)) : List α :=
  es.filterMap fun e => match e with
    | .push t => some t
    | _ => none

/-- Where the events are, the first that was pushed first. -/
def all (a : Active α) : List α := a.handled ++ a.swapEvents_ ++ a.events_

/-- No thread is in `send`. -/
def Calm (a : Active α) : Prop := a.pushedFirst = 0 ∧ a.pushedMore = 0 ∧ a.notifying = 0

structure Inv (a : Active α) : Prop where
  swapped : a.stage ≠ .handling → a.swapEvents_ = []
  notified : a.stage = .waiting → a.events_ ≠ [] → 0 < a.pushedFirst + a.notifying
  stopped : a.stage = .done → a.stop_ = true
  pending : a.pendingWorkNum_ =
    Int32.ofInt (a.swapEvents_.length + a.events_.length - (a.pushedFirst + a.pushedMore))

/-! ## Steps -/

section Step

variable {a : Active α}

@[simp] theorem push_events (t : α) : (a.push t).events_ = a.events_ ++ [t] := by
  unfold push
  split_ifs <;> rfl

@[simp] theorem push_frame (t : α) : (a.push t).swapEvents_ = a.swapEvents_ ∧ (a.push t).stage = a.stage ∧
    (a.push t).handled = a.handled ∧ (a.push t).stop_ = a.stop_ := by
  unfold push
  split_ifs <;> exact ⟨rfl, rfl, rfl, rfl⟩

theorem wake_eq (a : Active α) : a.wake = { a with stage := a.wake.stage } := by
  unfold wake
  split_ifs <;> rfl

theorem wake_stage (a : Active α) : a.wake.stage ≠ .waiting := by
  unfold wake
  split_ifs with h
  · simp
  · exact h

theorem wake_stage_of_ne (h : a.stage ≠ .waiting) : a.wake.stage = a.stage := by rw [wake, if_neg h]

/-- What the worker does where it is. -/
theorem run_test (h : a.stage = .test) : a.run = { a with stage := if a.stop_ then .done else .check } := by
  rw [run, h]
  dsimp only
  split_ifs <;> rfl

theorem run_check_nil (h : a.stage = .check) (hnil : a.events_ = []) : a.run = { a with stage := .waiting } := by
  simp [run, h, hnil]

theorem run_check (h : a.stage = .check) (hne : a.events_ ≠ []) :
    a.run = { a with swapEvents_ := a.events_, events_ := a.swapEvents_, stage := .handling } := by
  simp [run, h, hne]

theorem run_handling_nil (h : a.stage = .handling) (hnil : a.swapEvents_ = []) : a.run = { a with stage := .test } := by
  simp [run, h, hnil]

theorem run_handling (h : a.stage = .handling) {event : α} {rest : List α} (hswap : a.swapEvents_ = event :: rest) :
    a.run = { a with swapEvents_ := rest, pendingWorkNum_ := a.pendingWorkNum_ - 1, handled := a.handled ++ [event] } := by
  simp [run, h, hswap]

theorem push_inv (h : Inv a) (t : α) : Inv (a.push t) := by
  obtain ⟨hswap, hstage, -, hstop⟩ := push_frame (a := a) t
  refine ⟨fun hne => ?_, fun hwait _ => ?_, ?_, ?_⟩
  · rw [hswap]
    exact h.swapped (hstage ▸ hne)
  · rw [hstage] at hwait
    unfold push
    split_ifs with hempty
    · show 0 < a.pushedFirst + 1 + a.notifying
      omega
    · exact h.notified hwait (by simpa using hempty)
  · rw [hstage, hstop]
    exact h.stopped
  · rw [hswap, push_events]
    have hsame : (a.push t).pendingWorkNum_ = a.pendingWorkNum_ := by
      unfold push
      split_ifs <;> rfl
    have hcounts : (a.push t).pushedFirst + (a.push t).pushedMore = a.pushedFirst + a.pushedMore + 1 := by
      unfold push
      split_ifs
      · show a.pushedFirst + 1 + a.pushedMore = _
        omega
      · show a.pushedFirst + (a.pushedMore + 1) = _
        omega
    rw [hsame, h.pending, List.length_append]
    congr 1
    simp only [List.length_singleton]
    omega

/-- The worker leaves the wait, if it is there. -/
theorem wake_swapped (h : Inv a) (hne : a.wake.stage ≠ .handling) : a.swapEvents_ = [] := by
  by_cases hwait : a.stage = .waiting
  · exact h.swapped (by simp [hwait])
  · exact h.swapped (wake_stage_of_ne hwait ▸ hne)

theorem wake_stopped (h : Inv a) (hdone : a.wake.stage = .done) : a.stop_ = true := by
  by_cases hwait : a.stage = .waiting
  · rw [wake, if_pos hwait] at hdone
    cases hdone
  · exact h.stopped (wake_stage_of_ne hwait ▸ hdone)

theorem wake_inv (h : Inv a) : Inv a.wake := by
  rw [wake_eq]
  exact ⟨wake_swapped h, fun hwait => absurd hwait (wake_stage a), wake_stopped h, h.pending⟩

theorem run_inv (h : Inv a) : Inv a.run := by
  cases hstage : a.stage with
  | test =>
    rw [run_test hstage]
    refine ⟨fun _ => h.swapped (by simp [hstage]), fun hwait => ?_, fun hdone => ?_, h.pending⟩
    · dsimp only at hwait
      split_ifs at hwait
    · dsimp only at hdone
      split_ifs at hdone with hstop
      exact hstop
  | check =>
    have hswap := h.swapped (by simp [hstage])
    by_cases hnil : a.events_ = []
    · rw [run_check_nil hstage hnil]
      exact ⟨fun _ => hswap, fun _ hne => absurd hnil hne, by simp, h.pending⟩
    · rw [run_check hstage hnil]
      refine ⟨fun hne => absurd rfl hne, by simp, by simp, ?_⟩
      show a.pendingWorkNum_ = Int32.ofInt (a.events_.length + a.swapEvents_.length - _)
      rw [h.pending, Int.add_comm a.events_.length]
  | handling =>
    cases hswap : a.swapEvents_ with
    | nil =>
      rw [run_handling_nil hstage hswap]
      exact ⟨fun _ => hswap, by simp, by simp, h.pending⟩
    | cons event rest =>
      rw [run_handling hstage hswap]
      refine ⟨fun hne => absurd hstage hne, by simp [hstage], by simp [hstage], ?_⟩
      show a.pendingWorkNum_ - 1 = _
      rw [h.pending, hswap, show (1 : Int32) = Int32.ofInt 1 from rfl, ← Int32.ofInt_sub]
      congr 1
      simp only [List.length_cons]
      omega
  | starting => simpa [run, hstage] using h
  | waiting => simpa [run, hstage] using h
  | done => simpa [run, hstage] using h

theorem step_inv (h : Inv a) (e : Event α) : Inv (step a e) := by
  cases e with
  | start =>
    show Inv (if a.stage = .starting then _ else a)
    split_ifs with hstage
    · exact ⟨fun _ => h.swapped (by simp [hstage]), by simp, by simp, h.pending⟩
    · exact h
  | push t => exact push_inv h t
  | countFirst =>
    show Inv (if 0 < a.pushedFirst then _ else a)
    split_ifs with hpos
    · refine ⟨h.swapped, fun hwait hne => ?_, h.stopped, ?_⟩
      · have := h.notified hwait hne
        show 0 < a.pushedFirst - 1 + (a.notifying + 1)
        omega
      · show a.pendingWorkNum_ + 1 = _
        rw [h.pending, show (1 : Int32) = Int32.ofInt 1 from rfl, ← Int32.ofInt_add]
        congr 1
        dsimp only
        omega
    · exact h
  | countMore =>
    show Inv (if 0 < a.pushedMore then _ else a)
    split_ifs with hpos
    · refine ⟨h.swapped, h.notified, h.stopped, ?_⟩
      show a.pendingWorkNum_ + 1 = _
      rw [h.pending, show (1 : Int32) = Int32.ofInt 1 from rfl, ← Int32.ofInt_add]
      congr 1
      dsimp only
      omega
    · exact h
  | notify =>
    show Inv (if 0 < a.notifying then { a.wake with notifying := a.notifying - 1 } else a)
    rw [wake_eq]
    split_ifs with hpos
    · exact ⟨wake_swapped h, fun hwait => absurd hwait (wake_stage a), wake_stopped h, h.pending⟩
    · exact h
  | run => exact run_inv h
  | stop => exact ⟨h.swapped, h.notified, fun _ => rfl, h.pending⟩
  | wake => exact wake_inv h

/-- What a step pushes comes last, nothing else moves. -/
theorem step_all (h : Inv a) (e : Event α) : (step a e).all = a.all ++ pushes [e] := by
  have hsame : ∀ a' : Active α, a'.handled = a.handled → a'.swapEvents_ = a.swapEvents_ → a'.events_ = a.events_ →
      a'.all = a.all ++ [] := fun a' hhandled hswap hevents => by simp [all, hhandled, hswap, hevents]
  have hwake := wake_eq a
  cases e with
  | push t =>
    simp [step, all, pushes]
  | run =>
    cases hstage : a.stage with
    | test => simp [step, run_test hstage, all, pushes]
    | check =>
      have hswap := h.swapped (by simp [hstage])
      by_cases hnil : a.events_ = []
      · simp [step, run_check_nil hstage hnil, all, pushes]
      · simp [step, run_check hstage hnil, all, hswap, pushes]
    | handling =>
      cases hswap : a.swapEvents_ with
      | nil => simp [step, run_handling_nil hstage hswap, all, pushes]
      | cons event rest => simp [step, run_handling hstage hswap, all, hswap, pushes]
    | starting => simp [step, run, hstage, all, pushes]
    | waiting => simp [step, run, hstage, all, pushes]
    | done => simp [step, run, hstage, all, pushes]
  | start => rw [step]; split_ifs <;> exact hsame _ rfl rfl rfl
  | countFirst => rw [step]; split_ifs <;> exact hsame _ rfl rfl rfl
  | countMore => rw [step]; split_ifs <;> exact hsame _ rfl rfl rfl
  | notify =>
    show (if 0 < a.notifying then { a.wake with notifying := a.notifying - 1 } else a).all = _
    rw [wake_eq]
    split_ifs <;> exact hsame _ rfl rfl rfl
  | stop => exact hsame _ rfl rfl rfl
  | wake =>
    show a.wake.all = _
    rw [wake_eq]
    exact hsame _ rfl rfl rfl

end Step

/-! ## Runs -/

section Run

variable {a : Active α}

theorem first_inv : Inv ({} : Active α) := ⟨fun _ => rfl, by simp, by simp, rfl⟩

theorem inv_run (h : Inv a) (es : List (Event α)) : Inv (Runs.run step a es) :=
  Runs.inv_run (q := Inv) (fun _ e h => step_inv h e) h es

theorem all_run (h : Inv a) (es : List (Event α)) : (Runs.run step a es).all = a.all ++ pushes es := by
  induction es generalizing a with
  | nil => simp [pushes]
  | cons e es ih =>
    have hpushes : pushes (e :: es) = pushes [e] ++ pushes es := by
      rw [pushes, ← List.singleton_append, List.filterMap_append]
      rfl
    rw [Runs.run_cons, ih (step_inv h e), step_all h, hpushes, List.append_assoc]

/-- **Every event once and in order**: at any moment of any run the events that were pushed are those handed over, then
those of the batch at hand, then those in the list; and `pendingWorkNum_` is the number of those not handed over, less the
threads that have pushed and not counted yet. -/
theorem handled_in_order (es : List (Event α)) :
    let a := Runs.run step {} es
    a.handled ++ a.swapEvents_ ++ a.events_ = pushes es ∧
      a.pendingWorkNum_ =
        Int32.ofInt ((pushes es).length - a.handled.length - (a.pushedFirst + a.pushedMore)) := by
  intro a
  have hall : a.handled ++ a.swapEvents_ ++ a.events_ = pushes es := all_run first_inv es
  refine ⟨hall, ?_⟩
  have hinv : Inv a := inv_run first_inv es
  rw [hinv.pending, ← hall]
  congr 1
  simp only [List.length_append]
  omega

/-! ## The worker alone -/

/-- The worker gets from `a` to `b` by itself. -/
def Drives (a b : Active α) : Prop := ∃ n, Runs.run step a (List.replicate n .run) = b

theorem Drives.refl (a : Active α) : Drives a a := ⟨0, rfl⟩

theorem Drives.head {b : Active α} (h : Drives a.run b) : Drives a b := by
  obtain ⟨n, hn⟩ := h
  exact ⟨n + 1, hn⟩

theorem Drives.trans {b c : Active α} (h : Drives a b) (h' : Drives b c) : Drives a c := by
  obtain ⟨n, rfl⟩ := h
  obtain ⟨m, rfl⟩ := h'
  refine ⟨n + m, ?_⟩
  rw [List.replicate_add, Runs.run_append]

/-- The batch at hand is handled. -/
theorem drives_batch (h : a.stage = .handling) : ∃ b, Drives a b ∧ b.stage = .test ∧ b.swapEvents_ = [] ∧
    b.events_ = a.events_ ∧ b.stop_ = a.stop_ ∧ b.handled = a.handled ++ a.swapEvents_ := by
  generalize hswap : a.swapEvents_ = batch
  induction batch generalizing a with
  | nil =>
    refine ⟨_, (Drives.refl _).head, ?_⟩
    rw [run_handling_nil h hswap]
    exact ⟨rfl, hswap, rfl, rfl, (List.append_nil _).symm⟩
  | cons event batch ih =>
    have hrun := run_handling h hswap
    obtain ⟨b, hdrives, hstage, hb, hevents, hstop, hhandled⟩ := @ih a.run (by rw [hrun]; exact h) (by rw [hrun])
    refine ⟨b, hdrives.head, hstage, hb, ?_, ?_, ?_⟩
    · rw [hevents, hrun]
    · rw [hstop, hrun]
    · rw [hhandled, hrun]
      simp

/-- What is in the list is handled, and then the worker waits. -/
theorem drives_check (h : a.stage = .check) (hstop : a.stop_ = false) (hswap : a.swapEvents_ = []) :
    ∃ b, Drives a b ∧ b.stage = .waiting ∧ b.handled = a.handled ++ a.events_ := by
  have hidle : ∀ c : Active α, c.stage = .check → c.events_ = [] →
      ∃ b, Drives c b ∧ b.stage = .waiting ∧ b.handled = c.handled := fun c hc hnil => by
    refine ⟨_, (Drives.refl _).head, ?_⟩
    rw [run_check_nil hc hnil]
    exact ⟨rfl, rfl⟩
  by_cases hnil : a.events_ = []
  · obtain ⟨b, hb⟩ := hidle a h hnil
    exact ⟨b, by rw [hnil, List.append_nil]; exact hb⟩
  · have hrun := run_check h hnil
    obtain ⟨b, hdrives, hstage, -, hevents, hbstop, hhandled⟩ := @drives_batch _ a.run (by rw [hrun])
    rw [hrun] at hevents hbstop hhandled
    have htest := run_test hstage
    rw [hbstop, hstop] at htest
    obtain ⟨c, hc, hwaits, hsame⟩ := hidle b.run (by simp [htest]) (by rw [htest]; exact hevents.trans hswap)
    refine ⟨c, (hdrives.trans hc.head).head, hwaits, ?_⟩
    rw [hsame, htest]
    exact hhandled

theorem drives_test (h : a.stage = .test) (hstop : a.stop_ = false) (hswap : a.swapEvents_ = []) :
    ∃ b, Drives a b ∧ b.stage = .waiting ∧ b.handled = a.handled ++ a.events_ := by
  have hrun := run_test h
  rw [hstop] at hrun
  obtain ⟨b, hdrives, hb⟩ := @drives_check _ a.run (by simp [hrun]) (by rw [hrun]) (by rw [hrun]; exact hswap)
  rw [hrun] at hb
  exact ⟨b, hdrives.head, hb⟩

/-- **No wakeup is lost**: whatever has happened, as long as the worker was started and nobody has called `stop`, once no
thread is in `send` the worker by itself hands over all that was pushed, and waits. -/
theorem drains (es : List (Event α)) (hstarted : (Runs.run step {} es).stage ≠ .starting)
    (hstop : (Runs.run step {} es).stop_ = false) (hcalm : Calm (Runs.run step {} es)) :
    ∃ b, Drives (Runs.run step {} es) b ∧ b.stage = .waiting ∧ b.handled = pushes es := by
  have hinv := inv_run first_inv es
  have hall : (Runs.run step {} es).all = pushes es := all_run first_inv es
  revert hstarted hstop hcalm hinv hall
  generalize Runs.run step {} es = a
  intro hstarted hstop hcalm hinv hall
  rw [← hall, all]
  cases hstage : a.stage with
  | starting => exact absurd hstage hstarted
  | test =>
    have hswap := hinv.swapped (by simp [hstage])
    rw [hswap, List.append_nil]
    exact drives_test hstage hstop hswap
  | check =>
    have hswap := hinv.swapped (by simp [hstage])
    rw [hswap, List.append_nil]
    exact drives_check hstage hstop hswap
  | waiting =>
    have hswap := hinv.swapped (by simp [hstage])
    have hnil : a.events_ = [] := by
      by_contra hne
      have hpos := hinv.notified hstage hne
      obtain ⟨hfirst, -, hnotifying⟩ := hcalm
      omega
    exact ⟨a, .refl a, hstage, by simp [hswap, hnil]⟩
  | handling =>
    obtain ⟨b, hdrives, hb, hswap, hevents, hbstop, hhandled⟩ := drives_batch hstage
    obtain ⟨c, hc, hwaits, hchandled⟩ := drives_test hb (hbstop.trans hstop) hswap
    exact ⟨c, hdrives.trans hc, hwaits, by rw [hchandled, hhandled, hevents]⟩
  | done => exact absurd (hinv.stopped hstage) (by simp [hstop])

/-- Two events are sent, the worker takes the first and is told to stop. -/
def stoppedEarly : List (Event Nat) :=
  [.push 1, .countFirst, .notify, .start, .run, .run, .push 2, .countFirst, .notify, .stop]

theorem drains_two : ∃ b, Drives (Runs.run step {} (stoppedEarly.take 9)) b ∧ b.stage = .waiting ∧ b.handled = [1, 2] :=
  drains (stoppedEarly.take 9) (by decide) rfl ⟨rfl, rfl, rfl⟩

/-! ## `stop` -/

/-- The worker will not take another batch. -/
def Ending (a : Active α) : Prop := a.stop_ = true ∧ (a.stage = .handling ∨ a.stage = .test ∨ a.stage = .done)

theorem step_ending (h : Ending a) (e : Event α) :
    Ending (step a e) ∧ (step a e).handled ++ (step a e).swapEvents_ = a.handled ++ a.swapEvents_ := by
  obtain ⟨hstop, hstage⟩ := h
  have hwake : a.wake = a := if_neg (by rcases hstage with h | h | h <;> simp [h])
  cases e with
  | start =>
    rw [step, if_neg (by rcases hstage with h | h | h <;> simp [h])]
    exact ⟨⟨hstop, hstage⟩, rfl⟩
  | push t =>
    obtain ⟨hswap, hsame, hhandled, hstop'⟩ := push_frame (a := a) t
    exact ⟨⟨hstop'.trans hstop, by rwa [step, hsame]⟩, by rw [step, hswap, hhandled]⟩
  | countFirst => rw [step]; split_ifs <;> exact ⟨⟨hstop, hstage⟩, rfl⟩
  | countMore => rw [step]; split_ifs <;> exact ⟨⟨hstop, hstage⟩, rfl⟩
  | notify =>
    rw [step, hwake]
    split_ifs <;> exact ⟨⟨hstop, hstage⟩, rfl⟩
  | run =>
    rw [step]
    rcases hstage with h | h | h
    · cases hswap : a.swapEvents_ with
      | nil =>
        rw [run_handling_nil h hswap]
        exact ⟨⟨hstop, .inr (.inl rfl)⟩, by rw [hswap]⟩
      | cons event rest =>
        rw [run_handling h hswap]
        exact ⟨⟨hstop, .inl h⟩, by simp⟩
    · rw [run_test h]
      exact ⟨⟨hstop, by simp [hstop]⟩, rfl⟩
    · have hrun : a.run = a := by rw [run, h]
      rw [hrun]
      exact ⟨⟨hstop, .inr (.inr h)⟩, rfl⟩
  | stop => exact ⟨⟨rfl, hstage⟩, rfl⟩
  | wake =>
    rw [step, hwake]
    exact ⟨⟨hstop, hstage⟩, rfl⟩

/-- **`stop` loses what is in the list**: once it is called, a worker that has its batch hands over the rest of it at most,
whatever happens; what is in the list then, or is pushed later, never gets to the callback. -/
theorem stop_drops (es : List (Event α)) (h : Ending (Runs.run step {} es)) (fs : List (Event α)) :
    (Runs.run step {} (es ++ fs)).handled <+: (Runs.run step {} es).handled ++ (Runs.run step {} es).swapEvents_ := by
  rw [Runs.run_append]
  revert h
  generalize Runs.run step {} es = a
  intro h
  obtain ⟨-, heq⟩ := Runs.inv_run (q := fun b => Ending b ∧ b.handled ++ b.swapEvents_ = a.handled ++ a.swapEvents_)
    (fun b e hb => ⟨(step_ending hb.1 e).1, (step_ending hb.1 e).2.trans hb.2⟩) ⟨h, rfl⟩ fs
  rw [← heq]
  exact List.prefix_append _ _

/-- The second event is lost. -/
theorem stop_drops_second : Ending (Runs.run step {} stoppedEarly) ∧
    ∀ fs, (Runs.run step {} (stoppedEarly ++ fs)).handled <+: [1] :=
  ⟨⟨rfl, .inl rfl⟩, stop_drops stoppedEarly ⟨rfl, .inl rfl⟩⟩

/-- A worker that waits for an event, or is about to, goes on to do so unless one is pushed. -/
theorem step_stuck (h : a.stage = .check ∨ a.stage = .waiting) (hnil : a.events_ = []) {e : Event α}
    (hpush : pushes [e] = []) :
    ((step a e).stage = .check ∨ (step a e).stage = .waiting) ∧ (step a e).events_ = [] := by
  have hwake : (a.wake.stage = .check ∨ a.wake.stage = .waiting) ∧ a.wake.events_ = [] := by
    unfold wake
    split_ifs <;> exact ⟨by simp [h], hnil⟩
  cases e with
  | push t => cases hpush
  | start =>
    rw [step, if_neg (by rcases h with h | h <;> simp [h])]
    exact ⟨h, hnil⟩
  | countFirst => rw [step]; split_ifs <;> exact ⟨h, hnil⟩
  | countMore => rw [step]; split_ifs <;> exact ⟨h, hnil⟩
  | notify =>
    rw [step]
    split_ifs
    · exact hwake
    · exact ⟨h, hnil⟩
  | run =>
    rw [step]
    rcases h with h | h
    · rw [run_check_nil h hnil]
      exact ⟨.inr rfl, hnil⟩
    · have hrun : a.run = a := by rw [run, h]
      rw [hrun]
      exact ⟨.inr h, hnil⟩
  | stop => exact ⟨h, hnil⟩
  | wake => exact hwake

theorem pushes_eq_nil_cons {e : Event α} {es : List (Event α)} (h : pushes (e :: es) = []) :
    pushes [e] = [] ∧ pushes es = [] := by
  rw [pushes, ← List.singleton_append, List.filterMap_append, List.append_eq_nil_iff] at h
  exact h

theorem run_stuck (h : a.stage = .check ∨ a.stage = .waiting) (hnil : a.events_ = []) {es : List (Event α)}
    (hpush : pushes es = []) : (Runs.run step a es).stage = .check ∨ (Runs.run step a es).stage = .waiting := by
  induction es generalizing a with
  | nil => exact h
  | cons e es ih =>
    obtain ⟨he, hes⟩ := pushes_eq_nil_cons hpush
    obtain ⟨hstep, hevents⟩ := step_stuck h hnil he
    exact ih hstep hevents hes

theorem pushes_replicate_run (n : Nat) : pushes (List.replicate n (.run : Event α)) = [] := by
  induction n with
  | zero => rfl
  | succ n ih => exact ih

/-- After `stop` the worker comes to its end by itself from anywhere behind the wait. -/
theorem drives_end (hstop : a.stop_ = true)
    (h : a.stage = .test ∨ a.stage = .handling ∨ a.stage = .done ∨ (a.stage = .check ∧ a.events_ ≠ [])) :
    ∃ b, Drives a b ∧ b.stage = .done := by
  have htest : ∀ c : Active α, c.stage = .test → c.stop_ = true → ∃ b, Drives c b ∧ b.stage = .done := fun c hc hstop =>
    ⟨_, (Drives.refl _).head, by simp [run_test hc, hstop]⟩
  have hhandling : ∀ c : Active α, c.stage = .handling → c.stop_ = true → ∃ b, Drives c b ∧ b.stage = .done :=
    fun c hc hstop => by
      obtain ⟨b, hdrives, hb, -, -, hbstop, -⟩ := drives_batch hc
      obtain ⟨d, hd, hdone⟩ := htest b hb (hbstop.trans hstop)
      exact ⟨d, hdrives.trans hd, hdone⟩
  rcases h with h | h | h | ⟨h, hne⟩
  · exact htest a h hstop
  · exact hhandling a h hstop
  · exact ⟨a, .refl a, h⟩
  · obtain ⟨b, hb, hdone⟩ := hhandling a.run (by rw [run_check h hne]) (by rw [run_check h hne]; exact hstop)
    exact ⟨b, hb.head, hdone⟩

/-- **Whether the worker ends**: after `stop`, when nobody pushes any more, it can come to its end exactly if it is not
before an empty list. The notifications of `stop` and of the destructor wake it there, but the loop around the wait asks
only for events, not for `stop_`: a `join` for such a worker never returns. -/
theorem ends_iff (es : List (Event α)) (hstop : (Runs.run step {} es).stop_ = true) :
    (∃ fs, pushes fs = [] ∧ (Runs.run step {} (es ++ fs)).stage = .done) ↔
      ((Runs.run step {} es).stage = .check ∨ (Runs.run step {} es).stage = .waiting →
        (Runs.run step {} es).events_ ≠ []) := by
  simp only [Runs.run_append]
  revert hstop
  generalize Runs.run step {} es = a
  intro hstop
  constructor
  · rintro ⟨fs, hpush, hdone⟩ hstage hnil
    have := run_stuck hstage hnil hpush
    simp [hdone] at this
  · intro hne
    have hends : ∀ b : Active α, b.stop_ = true → (b.stage = .test ∨ b.stage = .handling ∨ b.stage = .done ∨
        (b.stage = .check ∧ b.events_ ≠ [])) → ∃ fs, pushes fs = [] ∧ (Runs.run step b fs).stage = .done := by
      intro b hbstop hstage
      obtain ⟨_, ⟨n, rfl⟩, hdone⟩ := drives_end hbstop hstage
      exact ⟨List.replicate n .run, pushes_replicate_run n, hdone⟩
    cases hstage : a.stage with
    | starting =>
      have hstart : step a .start = { a with stage := .test } := if_pos hstage
      obtain ⟨fs, hpush, hdone⟩ := hends (step a .start) (by rw [hstart]; exact hstop)
        (.inl (by rw [hstart]))
      exact ⟨.start :: fs, hpush, hdone⟩
    | test => exact hends a hstop (.inl hstage)
    | check => exact hends a hstop (.inr (.inr (.inr ⟨hstage, hne (.inl hstage)⟩)))
    | waiting =>
      have hwake : step a .wake = { a with stage := .check } := if_pos hstage
      obtain ⟨fs, hpush, hdone⟩ := hends (step a .wake) (by rw [hwake]; exact hstop)
        (.inr (.inr (.inr (by rw [hwake]; exact ⟨rfl, hne (.inr hstage)⟩))))
      exact ⟨.wake :: fs, hpush, hdone⟩
    | handling => exact hends a hstop (.inr (.inl hstage))
    | done => exact hends a hstop (.inr (.inr (.inl hstage)))

/-- A worker that has nothing to do is told to stop. -/
def stoppedIdle : List (Event Nat) := [.start, .run, .run, .stop, .wake]

theorem ends_iff_idle : (Runs.run step {} stoppedIdle).stop_ = true ∧
    ((∃ fs, pushes fs = [] ∧ (Runs.run step {} (stoppedIdle ++ fs)).stage = .done) ↔
      ((Runs.run step {} stoppedIdle).stage = .check ∨ (Runs.run step {} stoppedIdle).stage = .waiting →
        (Runs.run step {} stoppedIdle).events_ ≠ [])) := ⟨rfl, ends_iff stoppedIdle rfl⟩

end Run

end Active

end AsioUtils.Net
