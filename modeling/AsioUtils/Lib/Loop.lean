import Mathlib.Data.List.Basic

/-!
# Loops that may not end

A `while` loop given by its body: `body s` is `none` when the loop's test fails in `s`, and otherwise what the iteration
puts out and the state it leaves, or no state when it breaks off.

* `run body fuel s` : the loop with at most `fuel` tests;
* `after body n s` : the state `n` iterations later;
* `run_of_fixed` : an iteration that changes nothing is made for ever;
* `lt_length_of_after` : a loop that goes on after `n` iterations puts out more than `n` times;
* `ends_of_measure` : a loop whose iterations all do what they should and lower a measure ends.
-/

namespace Loop

variable {σ α : Type*}

/-- How a loop ends: by its test, by breaking off in an iteration, or not within its fuel. -/
inductive End (σ α : Type*)
  | ended (out : List α) (s : σ)
  | failed (out : List α)
  | running (out : List α) (s : σ)
  deriving DecidableEq

/-- What came out before the rest of the loop. -/
def End.prepend (as : List α) : End σ α → End σ α
  | .ended out s => .ended (as ++ out) s
  | .failed out => .failed (as ++ out)
  | .running out s => .running (as ++ out) s

variable (body : σ → Option (α × Option σ))

def run : Nat → σ → End σ α
  | 0, s => .running [] s
  | fuel + 1, s =>
    match body s with
    | none => .ended [] s
    | some (a, none) => .failed [a]
    | some (a, some s') => (run fuel s').prepend [a]

/-- The state after `n` iterations, when that many are made. -/
def after : Nat → σ → Option σ
  | 0, s => some s
  | n + 1, s =>
    match body s with
    | some (_, some s') => after n s'
    | _ => none

variable {body}

theorem run_none {s : σ} (h : body s = none) (fuel : Nat) : run body (fuel + 1) s = .ended [] s := by
  simp only [run, h]

theorem run_some {s s' : σ} {a : α} (h : body s = some (a, some s')) (fuel : Nat) :
    run body (fuel + 1) s = (run body fuel s').prepend [a] := by
  simp only [run, h]

theorem after_succ {s s' : σ} {a : α} (h : body s = some (a, some s')) (n : Nat) :
    after body (n + 1) s = after body n s' := by
  simp only [after, h]

theorem after_succ_eq_some {s s' : σ} {n : Nat} (h : after body (n + 1) s = some s') :
    ∃ a s₁, body s = some (a, some s₁) ∧ after body n s₁ = some s' := by
  unfold after at h
  split at h
  · exact ⟨_, _, by assumption, h⟩
  · cases h

/-- An iteration that leaves the state as it was is made for ever. -/
theorem run_of_fixed {s : σ} {a : α} (h : body s = some (a, some s)) (fuel : Nat) :
    ∃ out, run body fuel s = .running out s := by
  induction fuel with
  | zero => exact ⟨[], rfl⟩
  | succ fuel ih =>
    obtain ⟨out, hout⟩ := ih
    refine ⟨[a] ++ out, ?_⟩
    rw [run_some h, hout]
    rfl

theorem prepend_eq_ended {as out : List α} {e : End σ α} {s : σ} (h : e.prepend as = .ended out s) :
    ∃ out', e = .ended out' s ∧ out = as ++ out' := by
  cases e with
  | ended out' s' =>
    obtain ⟨rfl, rfl⟩ := End.ended.inj h
    exact ⟨out', rfl, rfl⟩
  | failed out' => cases h
  | running out' s' => cases h

/-- A loop that does not stop after `n` iterations puts out more than `n` times by its end. -/
theorem lt_length_of_after {n fuel : Nat} {s s' t : σ} {out : List α} (hafter : after body n s = some s')
    (hgoes : body s' ≠ none) (hrun : run body fuel s = .ended out t) : n < out.length := by
  induction n generalizing s fuel out with
  | zero =>
    obtain rfl := Option.some.inj hafter
    cases fuel with
    | zero => cases hrun
    | succ fuel =>
      unfold run at hrun
      split at hrun
      · exact absurd (by assumption) hgoes
      · cases hrun
      · obtain ⟨out', -, rfl⟩ := prepend_eq_ended hrun
        simp
  | succ n ih =>
    obtain ⟨a, s₁, hbody, hafter₁⟩ := after_succ_eq_some hafter
    cases fuel with
    | zero => cases hrun
    | succ fuel =>
      rw [run_some hbody] at hrun
      obtain ⟨out', hrun₁, rfl⟩ := prepend_eq_ended hrun
      have := ih hafter₁ hrun₁
      simp only [List.length_append, List.length_singleton]
      omega

/-- A loop ends when, from every state it reaches, an iteration leaves a state with a smaller measure. -/
theorem ends_of_measure (μ : σ → Nat) {s : σ}
    (h : ∀ n s', after body n s = some s' → body s' = none ∨ ∃ a s₁, body s' = some (a, some s₁) ∧ μ s₁ < μ s') :
    ∃ fuel out s', run body fuel s = .ended out s' := by
  have hbound : ∀ m s, μ s < m →
      (∀ n s', after body n s = some s' → body s' = none ∨ ∃ a s₁, body s' = some (a, some s₁) ∧ μ s₁ < μ s') →
      ∃ fuel out s', run body fuel s = .ended out s' := by
    intro m
    induction m with
    | zero => exact fun s hlt => absurd hlt (Nat.not_lt_zero _)
    | succ m ih =>
      intro s hlt h
      rcases h 0 s rfl with hnone | ⟨a, s₁, hsome, hless⟩
      · exact ⟨1, [], s, run_none hnone 0⟩
      · have hnext : ∀ n s', after body n s₁ = some s' →
            body s' = none ∨ ∃ a s₂, body s' = some (a, some s₂) ∧ μ s₂ < μ s' := by
          intro n s' hn
          exact h (n + 1) s' ((after_succ hsome n).trans hn)
        obtain ⟨fuel, out, s', hrun⟩ := ih s₁ (by omega) hnext
        refine ⟨fuel + 1, [a] ++ out, s', ?_⟩
        rw [run_some hsome, hrun]
        rfl
  exact hbound (μ s + 1) s (Nat.lt_succ_self _) h

end Loop
