import Mathlib.Data.List.Basic

/-!
# Runs of a step function

A system is a total step function `step : σ → ε → σ` over its states and events; a run is a list of events.

* `run step s es` : the state after the events `es`;
* `Along step p s es` : every step of the run meets `p`, which reads the state *before* the step;
* `Always step q s es` : every state the run reaches, the first and the last included, meets `q`;
* `inv_always` : an invariant kept by every step that meets `p` holds all along every run whose steps all do;
* `inv_along` : it holds before every step of such a run;
* `inv_run`, `inv_run_along` : it holds after the run;
* `along_iff_along` : when two demands on the steps of a run come to the same;
* `beside`, `refines_always` : a function that may fail beside the abstract one it refines;
* `always_iff_along` : when, from a state that meets `q`, a step keeps `q` exactly if it meets `ok`, a run stays in
  `q` exactly if all its steps meet `ok`; `always_iff_along_of_inv` : the same beside an invariant.
-/

namespace Runs

variable {σ ε : Type*} (step : σ → ε → σ)

/-- The state after the events `es`. -/
def run (s : σ) (es : List ε) : σ := es.foldl step s

@[simp] theorem run_nil (s : σ) : run step s [] = s := rfl

@[simp] theorem run_cons (s : σ) (e : ε) (es : List ε) : run step s (e :: es) = run step (step s e) es := rfl

theorem run_append (s : σ) (es fs : List ε) : run step s (es ++ fs) = run step (run step s es) fs :=
  List.foldl_append

/-- Every step of the run meets `p`, read at the state the step starts from. -/
def Along (p : σ → ε → Prop) : σ → List ε → Prop
  | _, [] => True
  | s, e :: es => p s e ∧ Along p (step s e) es

/-- Every state of the run, from the first to the last, meets `q`. -/
def Always (q : σ → Prop) : σ → List ε → Prop
  | s, [] => q s
  | s, e :: es => q s ∧ Always q (step s e) es

instance decidableAlong (p : σ → ε → Prop) [∀ s e, Decidable (p s e)] :
    ∀ s es, Decidable (Along step p s es)
  | _, [] => .isTrue trivial
  | s, e :: es => @instDecidableAnd _ _ _ (decidableAlong p (step s e) es)

variable {step}

theorem Along.mono {p p' : σ → ε → Prop} (h : ∀ s e, p s e → p' s e) {s : σ} {es : List ε}
    (ha : Along step p s es) : Along step p' s es := by
  induction es generalizing s with
  | nil => trivial
  | cons e es ih => exact ⟨h s e ha.1, ih ha.2⟩

theorem Along.and {p p' : σ → ε → Prop} {s : σ} {es : List ε} (h : Along step p s es) (h' : Along step p' s es) :
    Along step (fun s e => p s e ∧ p' s e) s es := by
  induction es generalizing s with
  | nil => trivial
  | cons e es ih => exact ⟨⟨h.1, h'.1⟩, ih h.2 h'.2⟩

theorem Always.mono {q q' : σ → Prop} (h : ∀ s, q s → q' s) {s : σ} {es : List ε} (ha : Always step q s es) :
    Always step q' s es := by
  induction es generalizing s with
  | nil => exact h s ha
  | cons e es ih => exact ⟨h s ha.1, ih ha.2⟩

theorem along_append {p : σ → ε → Prop} {s : σ} {es fs : List ε} :
    Along step p s (es ++ fs) ↔ Along step p s es ∧ Along step p (run step s es) fs := by
  induction es generalizing s with
  | nil => simp [Along]
  | cons e es ih => simp [Along, ih, and_assoc]

/-- `Always` reads every prefix of the run. -/
theorem always_iff_prefix {q : σ → Prop} {s : σ} {es : List ε} :
    Always step q s es ↔ ∀ pre, pre <+: es → q (run step s pre) := by
  induction es generalizing s with
  | nil => simp [Always]
  | cons e es ih =>
    constructor
    · rintro ⟨h0, h⟩ pre hpre
      rcases List.prefix_cons_iff.mp hpre with rfl | ⟨t, rfl, ht⟩
      · exact h0
      · exact ih.mp h t ht
    · intro h
      exact ⟨h [] List.nil_prefix, ih.mpr fun pre hpre => h (e :: pre) (List.cons_prefix_cons.mpr ⟨rfl, hpre⟩)⟩

theorem Always.last {q : σ → Prop} {s : σ} {es : List ε} (h : Always step q s es) : q (run step s es) :=
  always_iff_prefix.mp h es List.prefix_rfl

/-- **Invariant rule**: what holds first and is kept by every step that meets `p` holds all along a run of such steps. -/
theorem inv_always {inv : σ → Prop} {p : σ → ε → Prop} (hstep : ∀ s e, inv s → p s e → inv (step s e)) {s : σ}
    {es : List ε} (h0 : inv s) (hp : Along step p s es) : Always step inv s es := by
  induction es generalizing s with
  | nil => exact h0
  | cons e es ih => exact ⟨h0, ih (hstep s e h0 hp.1) hp.2⟩

/-- An invariant that every step keeps holds before every step. -/
theorem along_of_inv {inv : σ → Prop} (hstep : ∀ s e, inv s → inv (step s e)) {s : σ} {es : List ε} (h0 : inv s) :
    Along step (fun s _ => inv s) s es := by
  induction es generalizing s with
  | nil => trivial
  | cons e es ih => exact ⟨h0, ih (hstep s e h0)⟩

/-- The invariant rule, read at the steps. -/
theorem inv_along {inv : σ → Prop} {p : σ → ε → Prop} (hstep : ∀ s e, inv s → p s e → inv (step s e)) {s : σ}
    {es : List ε} (h0 : inv s) (hp : Along step p s es) : Along step (fun s e => inv s ∧ p s e) s es := by
  induction es generalizing s with
  | nil => trivial
  | cons e es ih => exact ⟨⟨h0, hp.1⟩, ih (hstep s e h0 hp.1) hp.2⟩

/-- A demand that the events meet in any state. -/
theorem along_of_mem {p : σ → ε → Prop} {s : σ} {es : List ε} (h : ∀ e ∈ es, ∀ s, p s e) : Along step p s es := by
  induction es generalizing s with
  | nil => trivial
  | cons e es ih => exact ⟨h e List.mem_cons_self s, ih fun e he => h e (List.mem_cons_of_mem _ he)⟩

/-- A demand on the events alone. -/
theorem along_iff_mem {p : ε → Prop} {s : σ} {es : List ε} : Along step (fun _ e => p e) s es ↔ ∀ e ∈ es, p e := by
  refine ⟨fun h => ?_, fun h => along_of_mem fun e he _ => h e he⟩
  induction es generalizing s with
  | nil => simp
  | cons e es ih => exact List.forall_mem_cons.mpr ⟨h.1, ih h.2⟩

/-- The invariant rule where every step keeps it. -/
theorem inv_always_all {inv : σ → Prop} (hstep : ∀ s e, inv s → inv (step s e)) {s : σ} {es : List ε} (h0 : inv s) :
    Always step inv s es := inv_always (fun s e h _ => hstep s e h) h0 (along_of_inv hstep h0)

/-- What every step keeps holds after a run. -/
theorem inv_run {q : σ → Prop} (hstep : ∀ s e, q s → q (step s e)) {s : σ} (h0 : q s) (es : List ε) : q (run step s es) :=
  (inv_always_all hstep h0).last

/-- What every step that meets `p` keeps holds after a run of such steps. -/
theorem inv_run_along {q : σ → Prop} {p : σ → ε → Prop} (hstep : ∀ s e, q s → p s e → q (step s e)) {s : σ} {es : List ε}
    (h0 : q s) (hp : Along step p s es) : q (run step s es) := (inv_always hstep h0 hp).last

/-- **Exact guards**: if a `valid` step from a good state leads to a good state exactly when it meets `ok`, then a run
of valid steps stays good exactly when all its steps meet `ok`. -/
theorem always_iff_along {q : σ → Prop} {valid ok : σ → ε → Prop}
    (hstep : ∀ s e, q s → valid s e → (q (step s e) ↔ ok s e)) {s : σ} {es : List ε} (h0 : q s)
    (hv : Along step valid s es) : Always step q s es ↔ Along step ok s es := by
  induction es generalizing s with
  | nil => simpa [Always, Along] using h0
  | cons e es ih =>
    have hq := hstep s e h0 hv.1
    constructor
    · rintro ⟨-, h⟩
      have hnext : q (step s e) := by
        cases es with
        | nil => exact h
        | cons => exact h.1
      exact ⟨hq.mp hnext, (ih hnext hv.2).mp h⟩
    · rintro ⟨hok, h⟩
      exact ⟨h0, (ih (hq.mpr hok) hv.2).mpr h⟩

/-- The same where every step is valid. -/
theorem always_iff_along_all {q : σ → Prop} {ok : σ → ε → Prop} (hstep : ∀ s e, q s → (q (step s e) ↔ ok s e)) {s : σ}
    {es : List ε} (h0 : q s) : Always step q s es ↔ Along step ok s es := by
  have hvalid : Along step (fun _ _ => True) s es := along_of_inv (fun _ _ _ => trivial) trivial
  exact always_iff_along (fun s e h _ => hstep s e h) h0 hvalid

/-- Exact guards beside an invariant: `q` follows from `inv`, a step from `inv` keeps `q` exactly when it meets `ok`, and
then it keeps `inv`. -/
theorem always_iff_along_of_inv {inv q : σ → Prop} {valid ok : σ → ε → Prop} (hq : ∀ s, inv s → q s)
    (hiff : ∀ s e, inv s → valid s e → (q (step s e) ↔ ok s e))
    (hstep : ∀ s e, inv s → valid s e → ok s e → inv (step s e)) {s : σ} {es : List ε} (h0 : inv s)
    (hv : Along step valid s es) : Always step q s es ↔ Along step ok s es := by
  induction es generalizing s with
  | nil => exact ⟨fun _ => trivial, fun _ => hq s h0⟩
  | cons e es ih =>
    have hfirst : Always step q (step s e) es → q (step s e) := fun h => by
      cases es with
      | nil => exact h
      | cons => exact h.1
    constructor
    · rintro ⟨-, h⟩
      have hok := (hiff s e h0 hv.1).mp (hfirst h)
      exact ⟨hok, (ih (hstep s e h0 hv.1 hok) hv.2).mp h⟩
    · rintro ⟨hok, h⟩
      exact ⟨hq s h0, (ih (hstep s e h0 hv.1 hok) hv.2).mpr h⟩

/-- Two demands on the steps come to the same when they do from every state of an invariant, and a step that meets them
keeps it. -/
theorem along_iff_along {inv : σ → Prop} {valid p ok : σ → ε → Prop}
    (hiff : ∀ s e, inv s → valid s e → (p s e ↔ ok s e)) (hstep : ∀ s e, inv s → valid s e → ok s e → inv (step s e))
    {s : σ} {es : List ε} (h0 : inv s) (hv : Along step valid s es) : Along step p s es ↔ Along step ok s es := by
  induction es generalizing s with
  | nil => exact Iff.rfl
  | cons e es ih =>
    refine (and_congr_left fun _ => hiff s e h0 hv.1).trans (and_congr_right fun hok => ?_)
    exact ih (hstep s e h0 hv.1 hok) hv.2

/-! ## Refinement -/

section Refinement

variable {τ : Type*} (op : σ → ε → Option σ) (spec : τ → ε → τ)

/-- Operations that may fail, beside what they are to do. -/
def beside (p : Option σ × τ) (e : ε) : Option σ × τ := (p.1.bind fun s => op s e, spec p.2 e)

variable {op spec}

/-- **Refinement rule**: if an operation that meets `pre` in a state that stands for `t` succeeds, and its result stands
for what `spec` makes of `t`, then a run of such operations never fails, and each of its states stands for what `spec`
has made. -/
theorem refines_always {R : σ → τ → Prop} {pre : σ → ε → Prop}
    (hop : ∀ s t e, R s t → pre s e → ∃ s', op s e = some s' ∧ R s' (spec t e)) {s : σ} {t : τ} {es : List ε}
    (h0 : R s t) (hpre : Along (beside op spec) (fun p e => ∀ s ∈ p.1, pre s e) (some s, t) es) :
    Always (beside op spec) (fun p => ∃ s, p.1 = some s ∧ R s p.2) (some s, t) es := by
  refine inv_always (fun p e hp hok => ?_) ⟨s, rfl, h0⟩ hpre
  obtain ⟨s₁, hs₁, hR⟩ := hp
  obtain ⟨s₂, hs₂, hR₂⟩ := hop s₁ p.2 e hR (hok s₁ hs₁)
  refine ⟨s₂, ?_, hR₂⟩
  show p.1.bind _ = some s₂
  rw [hs₁, Option.bind_some, hs₂]

end Refinement

end Runs
