import AsioUtils.Lib.Runs
import Mathlib.Data.Int.Order.Basic

/-!
# `TimerManager`: timers that repeat

A timer waits, calls its handler and waits again, until it has made its number of calls. `cancel` ends a wait with an
error, after which there is no call. A wait that has ended by itself is queued with success, and `cancel` comes too late
for it; so it does while the handler runs, which waits again afterwards.

* `createTimer`, `step` : a timer, and what happens to it;
* `called_iff` : a timer that is gone has made all its calls exactly if it was not cancelled in a wait;
* `cancel_stops_iff` : when a cancelled timer makes no call any more.
-/

namespace AsioUtils.Net

open Runs

/-- Where the `RepeatHandler` is; `ok` is whether the wait has ended without an error. -/
inductive Timer.Stage
  | waiting
  | queued (ok : Bool)
  | running
  | destroyed
  deriving DecidableEq, Repr

/-- `called` is how often `handler_` was called. `count_` is an `int` in the source; it is counted down once after each
call, which stays within `int` for every count above `-2147483648`. -/
structure Timer where
  count_ : Int
  stage : Timer.Stage := .waiting
  called : Nat := 0
  deriving DecidableEq, Repr

namespace Timer

/-- After the delay comes the first wait. -/
def createTimer (count : Int) : Timer := { count_ := count }

inductive Event
  | expires
  | cancel
  /-- the `io_context` invokes the `RepeatHandler` -/
  | invoked
  /-- `handler_` returns -/
  | returns
  deriving DecidableEq, Repr

def step (t : Timer) : Event → Timer
  | .expires => if t.stage = .waiting then { t with stage := .queued true } else t
  | .cancel => if t.stage = .waiting then { t with stage := .queued false } else t
  | .invoked =>
    match t.stage with
    | .queued true => { t with stage := .running, called := t.called + 1 }
    | .queued false => { t with stage := .destroyed }
    | _ => t
  | .returns =>
    if t.stage = .running then
      { t with count_ := t.count_ - 1, stage := if 0 < t.count_ - 1 then .waiting else .destroyed }
    else t

/-- The event is no `cancel` that a wait is there for. -/
def Uncancelled (t : Timer) (e : Event) : Prop := e = .cancel → t.stage ≠ .waiting

/-- A timer of `count` calls that has not been cancelled in a wait. -/
structure Counts (count : Int) (t : Timer) : Prop where
  waiting : t.stage = .waiting ∨ t.stage = .queued true → t.called + t.count_ = count ∧ (t.called = 0 ∨ 0 < t.count_)
  running : t.stage = .running → t.called + t.count_ = count + 1 ∧ 1 ≤ t.called ∧ (t.called = 1 ∨ 0 < t.count_)
  destroyed : t.stage = .destroyed → (t.called : Int) = max 1 count
  uncancelled : t.stage ≠ .queued false

/-- The timer makes no more calls. -/
def Over (t : Timer) : Prop := t.stage = .queued false ∨ t.stage = .destroyed ∨ t.stage = .running ∧ t.count_ ≤ 1

/-- A timer that was cancelled in a wait: it has made fewer calls. -/
structure Ended (count : Int) (t : Timer) : Prop where
  final : t.Over
  called : (t.called : Int) < max 1 count

section Step

variable {count : Int} {t : Timer}

theorem counts_createTimer (count : Int) : Counts count (createTimer count) where
  waiting _ := ⟨by simp [createTimer], .inl rfl⟩
  running h := by cases h
  destroyed h := by cases h
  uncancelled h := by cases h

theorem returns_counts (h : Counts count t) (hstage : t.stage = .running) : Counts count (t.step .returns) := by
  obtain ⟨hsum, hcalled, hfirst⟩ := h.running hstage
  have hstep : t.step .returns =
      { t with count_ := t.count_ - 1, stage := if 0 < t.count_ - 1 then .waiting else .destroyed } := if_pos hstage
  rw [hstep]
  by_cases hmore : 0 < t.count_ - 1
  · rw [if_pos hmore]
    exact ⟨fun _ => ⟨by dsimp only; omega, .inr hmore⟩, by simp, by simp, by simp⟩
  · rw [if_neg hmore]
    refine ⟨by simp, by simp, fun _ => ?_, by simp⟩
    show (t.called : Int) = max 1 count
    omega

theorem step_counts (h : Counts count t) {e : Event} (he : t.Uncancelled e) : Counts count (t.step e) := by
  cases e with
  | expires =>
    by_cases hstage : t.stage = .waiting
    · rw [step, if_pos hstage]
      exact ⟨fun _ => h.waiting (.inl hstage), by simp, by simp, by simp⟩
    · rwa [step, if_neg hstage]
  | cancel => rwa [step, if_neg (he rfl)]
  | invoked =>
    rw [step]
    cases hstage : t.stage with
    | queued ok =>
      cases ok with
      | true =>
        obtain ⟨hsum, hfirst⟩ := h.waiting (.inr hstage)
        refine ⟨by simp, fun _ => ?_, by simp, by simp⟩
        dsimp only
        omega
      | false => exact absurd hstage h.uncancelled
    | _ => exact h
  | returns =>
    by_cases hstage : t.stage = .running
    · exact returns_counts h hstage
    · rwa [step, if_neg hstage]

/-- A cancel in a wait ends the calls before their number is reached. -/
theorem cancel_ended (h : Counts count t) (hstage : t.stage = .waiting) : Ended count (t.step .cancel) := by
  obtain ⟨hsum, hfirst⟩ := h.waiting (.inl hstage)
  rw [step, if_pos hstage]
  refine ⟨.inl rfl, ?_⟩
  show (t.called : Int) < max 1 count
  omega

theorem step_over (h : t.Over) (e : Event) : (t.step e).Over ∧ (t.step e).called = t.called := by
  rcases h with h | h | ⟨h, hcount⟩
  · cases e <;> simp [step, Over, h]
  · cases e <;> simp [step, Over, h]
  · have hlast : ¬ 0 < t.count_ - 1 := by omega
    cases e with
    | returns =>
      rw [step, if_pos h, if_neg hlast]
      exact ⟨.inr (.inl rfl), rfl⟩
    | _ => simp [step, Over, h, hcount]

theorem run_over (h : t.Over) (es : List Event) : (run step t es).Over ∧ (run step t es).called = t.called := by
  induction es generalizing t with
  | nil => exact ⟨h, rfl⟩
  | cons e es ih =>
    obtain ⟨hover, hcalled⟩ := step_over h e
    obtain ⟨hover', hcalled'⟩ := ih hover
    exact ⟨hover', hcalled'.trans hcalled⟩

/-- A run without such a cancel, or with a first one. -/
theorem run_cases (h : Counts count t) (es : List Event) :
    (Along step Uncancelled t es ∧ Counts count (run step t es)) ∨
      (¬ Along step Uncancelled t es ∧ Ended count (run step t es)) := by
  induction es generalizing t with
  | nil => exact .inl ⟨trivial, h⟩
  | cons e es ih =>
    by_cases he : t.Uncancelled e
    · rcases ih (step_counts h he) with ⟨halong, hcounts⟩ | ⟨halong, hended⟩
      · exact .inl ⟨⟨he, halong⟩, hcounts⟩
      · exact .inr ⟨fun hall => halong hall.2, hended⟩
    · obtain ⟨rfl, hstage⟩ := Classical.not_imp.mp he
      have hended := cancel_ended h (not_not.mp hstage)
      obtain ⟨hover, hcalled⟩ := run_over hended.final es
      exact .inr ⟨fun hall => he hall.1, hover, by rw [run_cons, hcalled]; exact hended.called⟩

end Step

/-- **How often a timer calls**: never more often than its number of calls, which counts as one if it is less; and once it
is gone it has made as many exactly if no cancel came during a wait. -/
theorem called_iff (count : Int) (es : List Event) :
    ((run step (createTimer count) es).called : Int) ≤ max 1 count ∧
      ((run step (createTimer count) es).stage = .destroyed →
        (((run step (createTimer count) es).called : Int) = max 1 count ↔
          Along step Uncancelled (createTimer count) es)) := by
  rcases run_cases (counts_createTimer count) es with ⟨halong, hcounts⟩ | ⟨halong, hended⟩
  · refine ⟨?_, fun hgone => iff_of_true (hcounts.destroyed hgone) halong⟩
    cases hstage : (run step (createTimer count) es).stage with
    | waiting =>
      have hsum := hcounts.waiting (.inl hstage)
      omega
    | queued ok =>
      cases ok with
      | true =>
        have hsum := hcounts.waiting (.inr hstage)
        omega
      | false => exact absurd hstage hcounts.uncancelled
    | running =>
      have hsum := hcounts.running hstage
      omega
    | destroyed => exact Int.le_of_eq (hcounts.destroyed hstage)
  · have hless := hended.called
    exact ⟨Int.le_of_lt hless, fun _ => iff_of_false (Int.ne_of_lt hless) halong⟩

/-- The timer is past its wait and will be called, or wait, once more. -/
def Late (t : Timer) : Prop := t.stage = .queued true ∨ t.stage = .running ∧ 1 < t.count_

/-- **When a cancel stops a timer**: it makes no further call, whatever comes, exactly if it was not about to be called and
not in a call that others were to follow. -/
theorem cancel_stops_iff (t : Timer) :
    (∀ es, (run step t (.cancel :: es)).called = t.called) ↔ ¬ t.Late := by
  constructor
  · rintro h (hstage | ⟨hstage, hcount⟩)
    · have hcall := h [.invoked]
      simp [run, step, hstage] at hcall
    · have hcall := h [.returns, .expires, .invoked]
      simp [run, step, hstage, hcount] at hcall
  · intro hlate es
    rw [run_cons]
    cases hstage : t.stage with
    | waiting =>
      have hcancelled : t.step .cancel = { t with stage := .queued false } := if_pos hstage
      rw [hcancelled]
      exact (run_over (.inl rfl) es).2
    | queued ok =>
      have hkept : t.step .cancel = t := if_neg (by simp [hstage])
      cases ok with
      | true => exact absurd (.inl hstage) hlate
      | false => rw [hkept, (run_over (.inl hstage) es).2]
    | running =>
      have hkept : t.step .cancel = t := if_neg (by simp [hstage])
      have hcount : t.count_ ≤ 1 := Int.not_lt.mp fun hcount => hlate (.inr ⟨hstage, hcount⟩)
      rw [hkept, (run_over (.inr (.inr ⟨hstage, hcount⟩)) es).2]
    | destroyed =>
      have hkept : t.step .cancel = t := if_neg (by simp [hstage])
      rw [hkept, (run_over (.inr (.inl hstage)) es).2]

/-- The timer of the heartbeats, cancelled between the end of its second wait and the call that this brings. -/
example : (run step (createTimer 2147483647)
    [.expires, .invoked, .returns, .expires, .cancel, .invoked, .returns, .expires, .invoked]).called = 3 := by decide

end Timer

end AsioUtils.Net
