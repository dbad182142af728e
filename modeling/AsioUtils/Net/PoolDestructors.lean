import AsioUtils.Net.ObjectPool
import Mathlib.Tactic.Common

/-!
# The destructors of pooled objects

None of the pools runs a destructor: not where an object is given back, and not where its slot is used again. So the
objects of a run are all destroyed in time exactly if no slot is used again at all. The list of slots is a queue, and a new
block is allocated when it is empty: the first slot that came back is taken when a block has just been used up.

* `DestroyedBetween` : what is asked of the log of a run;
* `Fresh` : the state while only new slots have been taken, the slots that came back being the rest of the queue;
* `Fresh.step`, `Fresh.take_used` : an event that keeps it, and the one that does not;
* `destroyed_iff` : the runs without a slot used again, by the number of objects created and released so far.
-/

namespace AsioUtils.Net.Util

open Runs

/-- Between an object's release and the next construction in its slot its destructor runs once. -/
def DestroyedBetween (log : List Effect) : Prop :=
  ∀ a b c m, log = a ++ .release m :: b ++ .construct m :: c → .construct m ∉ b → b.count (.destroy m) = 1

/-- In no slot something is constructed after a release. -/
def NoReuse (log : List Effect) : Prop := log.Pairwise fun x y => ∀ m, x = .release m → y ≠ .construct m

theorem destroyedBetween_iff {log : List Effect} (h : ∀ m, .destroy m ∉ log) : DestroyedBetween log ↔ NoReuse log := by
  constructor
  · intro hbetween
    refine List.pairwise_iff_forall_sublist.mpr fun hsub => ?_
    rintro m rfl rfl
    obtain ⟨r₁, r₂, hlog, hrelease, hconstruct⟩ := List.cons_sublist_iff.mp hsub
    obtain ⟨a, b, rfl⟩ := List.append_of_mem hrelease
    have hmem : Effect.construct m ∈ b ++ r₂ := List.mem_append_right _ (hconstruct.subset List.mem_cons_self)
    obtain ⟨b', c, hsplit, hnot⟩ := List.eq_append_cons_of_mem hmem
    have heq : log = a ++ .release m :: b' ++ .construct m :: c := by
      rw [hlog, List.append_assoc, List.cons_append, hsplit, List.append_assoc, List.cons_append]
    have hone := hbetween a b' c m heq hnot
    have hzero : b'.count (.destroy m) = 0 := List.count_eq_zero.mpr fun hm => h m (by rw [heq]; simp [hm])
    omega
  · rintro hno a b c m rfl -
    exact absurd rfl ((List.pairwise_append.mp hno).2.2 (.release m) (by simp) (.construct m) (by simp) m rfl)

/-- The objects created and released so far. -/
structure Tally where
  created : Nat := 0
  released : Nat := 0

def tally (v : Variant) (t : Tally) (e : Event) : Tally :=
  { created := if e = .take then t.created + 1 else t.created
    released := if (v.releases e).isSome then t.released + 1 else t.released }

/-- When a block has just been used up, nothing has been released; and a block can be filled at all. -/
def FirstUse (n : Nat) (t : Tally) (e : Event) : Prop :=
  e = .take → 0 < n ∧ n ≤ 2147483647 ∧ (n ∣ t.created → t.released = 0)

instance (n : Nat) (t : Tally) (e : Event) : Decidable (FirstUse n t e) := inferInstanceAs (Decidable (_ → _))

/-- Only new slots have been taken: `new` is left of the last block, `back` are the slots that were released. -/
structure Fresh (n : Nat) (w : World) (t : Tally) (new back : List Slot) : Prop where
  inv : Inv n w
  queue : w.pool.objects_ = new ++ back
  count : new.length + t.created = n * w.pool.blocks_.length
  short : new.length ≤ n - 1
  sized : t.created = 0 ∨ 0 < n ∧ n ≤ 2147483647
  released : back.length = t.released
  new_unused : ∀ m ∈ new, .construct m ∉ w.log
  back_used : ∀ m ∈ back, .release m ∈ w.log
  pending_unused : ∀ m ∈ w.pending, .construct m ∉ w.log
  used_once : ∀ m, .release m ∈ w.log → .construct m ∈ w.log
  live_used : ∀ m ∈ w.live, .construct m ∈ w.log
  owned : ∀ m, .construct m ∈ w.log → m.block ∈ w.pool.blocks_
  no_reuse : NoReuse w.log

theorem fresh_start (n : Nat) : Fresh n (start n) {} [] [] := by
  refine ⟨inv_start n, rfl, ?_, Nat.zero_le _, .inl rfl, rfl, ?_, ?_, ?_, ?_, ?_, ?_, List.Pairwise.nil⟩
  · simp [start]
  all_goals simp [start]

namespace Fresh

variable {n : Nat} {w : World} {t : Tally} {new back : List Slot}

theorem not_in_new (h : Fresh n w t new back) {m : Slot} (hm : m ∈ w.out) : m ∉ new := fun hnew =>
  (List.nodup_append.mp h.inv.nodup).2.2 m (by rw [h.queue]; exact List.mem_append_left _ hnew) m hm rfl

/-- A slot of the last block. -/
theorem take_cons {m : Slot} {rest : List Slot} (h : Fresh n w t (m :: rest) back) :
    Fresh n { w with pool := { w.pool with objects_ := rest ++ back }, pending := w.pending ++ [m] }
      { t with created := t.created + 1 } rest back := by
  have hcount := h.count
  have hshort := h.short
  rw [List.length_cons] at hcount hshort
  have hsized : 0 < n ∧ n ≤ 2147483647 := by
    refine h.sized.resolve_left fun hzero => ?_
    cases hk : w.pool.blocks_.length with
    | zero =>
      rw [hk] at hcount
      omega
    | succ k =>
      rw [hk, Nat.mul_succ] at hcount
      omega
  refine ⟨h.inv.take_cons h.queue, rfl, ?_, by omega, .inr hsized, h.released, ?_, h.back_used, fun x hx => ?_,
    h.used_once, h.live_used, h.owned, h.no_reuse⟩
  · show rest.length + (t.created + 1) = n * w.pool.blocks_.length
    omega
  · exact fun x hx => h.new_unused x (List.mem_cons_of_mem _ hx)
  · rcases List.mem_append.mp hx with hx | hx
    · exact h.pending_unused x hx
    · rw [List.mem_singleton.mp hx]
      exact h.new_unused m List.mem_cons_self

/-- The first slot of a new block. -/
theorem take_nil (h : Fresh n w t [] []) (hsized : 0 < n ∧ n ≤ 2147483647) {m : Slot} {rest : List Slot}
    (hslots : Pool.blockSlots w.pool.blockSize_ w.pool.blocks_.length = m :: rest) :
    Fresh n { w with
        pool := { w.pool with blocks_ := w.pool.blocks_ ++ [w.pool.blocks_.length], objects_ := rest }
        pending := w.pending ++ [m] }
      { t with created := t.created + 1 } rest [] := by
  have hlen := congrArg List.length hslots
  rw [Pool.blockSlots, List.length_map, List.length_range, h.inv.size, List.length_cons] at hlen
  have hcount := h.count
  rw [List.length_nil] at hcount
  have hunused : ∀ x ∈ m :: rest, Effect.construct x ∉ w.log := by
    intro x hx hlog
    rw [← hslots] at hx
    have hblock := h.owned x hlog
    rw [h.inv.blocks, (Pool.mem_blockSlots.mp hx).1, List.mem_range] at hblock
    omega
  refine ⟨h.inv.take_nil h.queue hslots, (List.append_nil rest).symm, ?_, by omega, .inr hsized, h.released, ?_,
    h.back_used, fun x hx => ?_, h.used_once, h.live_used, fun x hx => ?_, h.no_reuse⟩
  · show rest.length + (t.created + 1) = n * (w.pool.blocks_ ++ [w.pool.blocks_.length]).length
    rw [List.length_append, List.length_singleton, Nat.mul_succ]
    omega
  · exact fun x hx => hunused x (List.mem_cons_of_mem _ hx)
  · rcases List.mem_append.mp hx with hx | hx
    · exact h.pending_unused x hx
    · rw [List.mem_singleton.mp hx]
      exact hunused m List.mem_cons_self
  · exact List.mem_append_left _ (h.owned x hx)

theorem construct (h : Fresh n w t new back) {m : Slot} (hm : m ∈ w.pending) :
    Fresh n { w with pending := w.pending.erase m, live := w.live ++ [m], log := w.log ++ [.construct m] } t new
      back := by
  have hout : m ∈ w.out := List.mem_append_left _ hm
  have hnodup : w.pending.Nodup := (List.nodup_append.mp (List.nodup_append.mp h.inv.nodup).2.1).1
  have hlog : ∀ x, Effect.construct x ∈ w.log ++ [.construct m] ↔ .construct x ∈ w.log ∨ x = m := by simp
  refine ⟨h.inv.construct hm, h.queue, h.count, h.short, h.sized, h.released, fun x hx hin => ?_, fun x hx => ?_,
    fun x hx hin => ?_, fun x hx => ?_, fun x hx => ?_, fun x hx => ?_, ?_⟩
  · rcases (hlog x).mp hin with hin | rfl
    · exact h.new_unused x hx hin
    · exact h.not_in_new hout hx
  · exact List.mem_append_left _ (h.back_used x hx)
  · obtain ⟨hne, hx⟩ := hnodup.mem_erase_iff.mp hx
    exact h.pending_unused x hx (((hlog x).mp hin).resolve_right hne)
  · refine (hlog x).mpr (.inl (h.used_once x ?_))
    simpa using hx
  · rcases List.mem_append.mp hx with hx | hx
    · exact (hlog x).mpr (.inl (h.live_used x hx))
    · exact (hlog x).mpr (.inr (List.mem_singleton.mp hx))
  · rcases (hlog x).mp hx with hx | rfl
    · exact h.owned x hx
    · exact (Pool.mem_slots.mp (h.inv.slots.mem_iff.mp (List.mem_append_right _ hout))).1
  · -- nothing was released in a slot nothing was constructed in
    refine List.pairwise_append.mpr ⟨h.no_reuse, List.pairwise_singleton _ _, ?_⟩
    rintro x hx y hy z rfl rfl
    obtain rfl := Effect.construct.inj (List.mem_singleton.mp hy)
    exact h.pending_unused _ hm (h.used_once _ hx)

theorem givenBack (h : Fresh n w t new back) {m : Slot} (hm : m ∈ w.live) :
    Fresh n (w.givenBack (some m) (w.pool.pushBack (some m))) { t with released := t.released + 1 } new
      (back ++ [m]) := by
  have hconstruct : ∀ x, Effect.construct x ∈ w.log ++ [.release m] ↔ .construct x ∈ w.log := by simp
  refine ⟨h.inv.givenBack hm, ?_, h.count, h.short, h.sized, ?_, fun x hx hin => ?_, fun x hx => ?_, fun x hx hin => ?_,
    fun x hx => ?_, fun x hx => ?_, fun x hx => ?_, ?_⟩
  · show w.pool.objects_ ++ [m] = _
    rw [h.queue, List.append_assoc]
  · show (back ++ [m]).length = t.released + 1
    rw [List.length_append, h.released, List.length_singleton]
  · exact h.new_unused x hx ((hconstruct x).mp hin)
  · rcases List.mem_append.mp hx with hx | hx
    · exact List.mem_append_left _ (h.back_used x hx)
    · rw [List.mem_singleton.mp hx]
      exact List.mem_append_right _ (List.mem_singleton_self _)
  · exact h.pending_unused x hx ((hconstruct x).mp hin)
  · refine (hconstruct x).mpr ?_
    rcases List.mem_append.mp hx with hx | hx
    · exact h.used_once x hx
    · obtain rfl := Effect.release.inj (List.mem_singleton.mp hx)
      exact h.live_used _ hm
  · exact (hconstruct x).mpr (h.live_used x (List.mem_of_mem_erase hx))
  · exact h.owned x ((hconstruct x).mp hx)
  · refine List.pairwise_append.mpr ⟨h.no_reuse, List.pairwise_singleton _ _, ?_⟩
    rintro x - y hy z - rfl
    exact absurd (List.mem_singleton.mp hy) nofun

/-- **An event** after which still only new slots have been taken. -/
theorem step (h : Fresh n w t new back) {v : Variant} {e : Event} (hv : Valid v (some w) e) (hok : FirstUse n t e) :
    ∃ w' new' back', w.step v e = some w' ∧ Fresh n w' (tally v t e) new' back' := by
  rcases step_cases v w e with rfl | ⟨m, rfl⟩ | ⟨m, hm⟩ | ⟨htake, hnone, heq⟩
  · have htally : tally v t .take = { t with created := t.created + 1 } := by cases v <;> rfl
    obtain ⟨h0, hmax, hfirst⟩ := hok rfl
    rw [htally, step_take]
    cases new with
    | nil =>
      -- the last block has been used up, so nothing has been released
      have hcount := h.count
      rw [List.length_nil, Nat.zero_add] at hcount
      have hback : back = [] := List.eq_nil_of_length_eq_zero (h.released.trans (hfirst ⟨_, hcount⟩))
      subst hback
      have hsize := h.inv.size
      obtain ⟨m, rest, hslots, hsome⟩ := Pool.getFree_of_nil h.queue (by omega) (by omega)
      exact ⟨_, rest, [], by rw [hsome]; rfl, h.take_nil ⟨h0, hmax⟩ hslots⟩
    | cons m rest => exact ⟨_, rest, back, by rw [Pool.getFree_of_cons h.queue]; rfl, h.take_cons⟩
  · have htally : tally v t (.construct m) = t := by cases v <;> rfl
    rw [htally]
    exact ⟨_, new, back, rfl, h.construct ((hv w rfl).1 m rfl)⟩
  · have htally : tally v t e = { t with released := t.released + 1 } := by
      have he : e ≠ .take := by
        rintro rfl
        cases v <;> cases hm
      rw [tally, if_neg he, hm]
      rfl
    rw [htally]
    exact ⟨_, new, _, step_of_releases hm w, h.givenBack ((hv w rfl).2 m hm)⟩
  · have htally : tally v t e = t := by
      rw [tally, if_neg htake, hnone]
      rfl
    rw [htally]
    exact ⟨w, new, back, heq, h⟩

/-- A `take` from blocks that cannot be filled. -/
theorem take_unsized (h : Fresh n w t new back) (v : Variant) (hn : ¬ (0 < n ∧ n ≤ 2147483647)) :
    w.step v .take = none := by
  have hcount := h.count
  have hshort := h.short
  rw [h.sized.resolve_right hn, Nat.add_zero] at hcount
  by_cases h0 : n = 0
  · have hslots : w.pool.slots = [] := by
      simp [Pool.slots, Pool.blockSlots, h.inv.size, h0]
    obtain ⟨hfree, -⟩ := List.append_eq_nil_iff.mp ((hslots ▸ h.inv.slots).eq_nil)
    rw [step_take, Pool.getFreeObjectMem, Pool.enableEnoughObjects, if_pos (by simp [hfree]), hfree, h.inv.size, h0]
    rfl
  · refine h.inv.take_overflow v (by omega) (List.eq_nil_of_length_eq_zero ?_)
    cases hk : w.pool.blocks_.length with
    | zero => rfl
    | succ k =>
      rw [hk, Nat.mul_succ] at hcount
      omega

/-- A `take` when the last block has been used up and something has been released. -/
theorem take_used (h : Fresh n w t new back) (v : Variant) (hn : 0 < n) (hdvd : n ∣ t.created)
    (hreleased : t.released ≠ 0) :
    ∃ w' m, w.step v .take = some w' ∧ m ∈ w'.pending ∧ .release m ∈ w'.log := by
  have hnew : new = [] := by
    have hshort := h.short
    have hlen : n ∣ new.length := (Nat.dvd_add_left hdvd).mp (h.count ▸ Nat.dvd_mul_right _ _)
    exact List.eq_nil_of_length_eq_zero (Nat.eq_zero_of_dvd_of_lt hlen (by omega))
  cases back with
  | nil => exact absurd h.released.symm hreleased
  | cons m rest =>
    have hfree := h.queue
    rw [hnew, List.nil_append] at hfree
    rw [step_take, Pool.getFree_of_cons hfree]
    exact ⟨_, m, rfl, List.mem_append_right _ (List.mem_singleton_self m), h.back_used m List.mem_cons_self⟩

end Fresh

/-! ## Whole runs -/

/-- Events only add to the log, and nothing is ever destroyed. -/
theorem log_step {v : Variant} {w w' : World} {e : Event} (h : w.step v e = some w') :
    ∃ l, w'.log = w.log ++ l ∧ (∀ m, .destroy m ∉ l) ∧ ∀ m ∈ w.pending, m ∈ w'.pending ∨ .construct m ∈ l := by
  rcases step_cases v w e with rfl | ⟨m, rfl⟩ | ⟨m, hm⟩ | ⟨-, -, heq⟩
  · rw [step_take] at h
    obtain ⟨r, -, rfl⟩ := Option.map_eq_some_iff.mp h
    exact ⟨[], (List.append_nil _).symm, by simp, fun m hm => .inl (List.mem_append_left _ hm)⟩
  · obtain rfl := Option.some.inj h
    refine ⟨_, rfl, by simp, fun x hx => ?_⟩
    by_cases hxm : x = m
    · exact .inr (by rw [hxm]; exact List.mem_singleton_self _)
    · exact .inl ((List.mem_erase_of_ne hxm).mpr hx)
  · obtain rfl := Option.some.inj ((step_of_releases hm w).symm.trans h)
    exact ⟨_, rfl, by simp, fun x hx => .inl hx⟩
  · obtain rfl := Option.some.inj (heq.symm.trans h)
    exact ⟨[], (List.append_nil _).symm, by simp, fun m hm => .inl hm⟩

/-- A slot that was released is taken, or was even used again. -/
def Used (w : World) : Prop := (∃ m ∈ w.pending, .release m ∈ w.log) ∨ ¬ NoReuse w.log

theorem Used.step {v : Variant} {w w' : World} {e : Event} (h : Used w) (heq : w.step v e = some w') : Used w' := by
  obtain ⟨l, hlog, -, hpending⟩ := log_step heq
  rcases h with ⟨m, hm, hrelease⟩ | hreuse
  · rcases hpending m hm with hm | hconstruct
    · exact .inl ⟨m, hm, by rw [hlog]; exact List.mem_append_left _ hrelease⟩
    · refine .inr fun hno => ?_
      rw [hlog] at hno
      exact (List.pairwise_append.mp hno).2.2 _ hrelease _ hconstruct m rfl rfl
  · refine .inr fun hno => hreuse ?_
    rw [hlog] at hno
    exact (List.pairwise_append.mp hno).1

theorem run_none (v : Variant) (es : List Event) : run (step v) none es = none :=
  inv_run (q := fun s => s = none) (fun s e hs => by rw [hs]; rfl) rfl es

/-- Once a released slot is taken, it is used again by the end of a run that leaves no object half made. -/
theorem used_run {v : Variant} {w : World} (h : Used w) {es : List Event} {w' : World}
    (hrun : run (step v) (some w) es = some w') (hdone : w'.pending = []) : ¬ NoReuse w'.log := by
  have hused : ∀ u, run (step v) (some w) es = some u → Used u := by
    refine inv_run (q := fun s => ∀ u, s = some u → Used u) (fun s e hs u hu => ?_) (fun u hu => ?_) es
    · obtain ⟨w₀, rfl, hstep⟩ := Option.bind_eq_some_iff.mp hu
      exact (hs w₀ rfl).step hstep
    · exact Option.some.inj hu ▸ h
  refine (hused w' hrun).resolve_left ?_
  rintro ⟨m, hm, -⟩
  rw [hdone] at hm
  cases hm

/-- From a state in which only new slots have been taken. -/
theorem Fresh.run_iff {n : Nat} {w : World} {t : Tally} {new back : List Slot} (h : Fresh n w t new back) {v : Variant}
    {es : List Event} (hv : Along (Util.step v) (Valid v) (some w) es)
    (hdone : ∀ w', run (Util.step v) (some w) es = some w' → w'.pending = []) :
    (∃ w', run (Util.step v) (some w) es = some w' ∧ NoReuse w'.log) ↔ Along (tally v) (FirstUse n) t es := by
  induction es generalizing w t new back with
  | nil => exact iff_of_true ⟨w, rfl, h.no_reuse⟩ trivial
  | cons e es ih =>
    rw [run_cons] at hdone ⊢
    have hstep : Util.step v (some w) e = w.step v e := rfl
    by_cases hok : FirstUse n t e
    · obtain ⟨w', new', back', heq, h'⟩ := h.step hv.1 hok
      have hrest := hv.2
      rw [hstep, heq] at hdone hrest ⊢
      exact (ih h' hrest hdone).trans (and_iff_right hok).symm
    · refine iff_of_false (fun hgood => ?_) fun halong => hok halong.1
      obtain ⟨w', hrun, hno⟩ := hgood
      by_cases htake : e = .take
      · subst htake
        by_cases hn : 0 < n ∧ n ≤ 2147483647
        · have hlate : n ∣ t.created ∧ t.released ≠ 0 := by
            by_contra hcon
            exact hok fun _ => ⟨hn.1, hn.2, fun hdvd => by_contra fun hne => hcon ⟨hdvd, hne⟩⟩
          obtain ⟨w₁, m, heq, hm, hrelease⟩ := h.take_used v hn.1 hlate.1 hlate.2
          rw [hstep, heq] at hrun hdone
          exact used_run (.inl ⟨m, hm, hrelease⟩) hrun (hdone w' hrun) hno
        · rw [hstep, h.take_unsized v hn, run_none] at hrun
          cases hrun
      · exact hok fun he => absurd he htake

theorem destroy_not_mem {v : Variant} {n : Nat} {es : List Event} {w : World}
    (hrun : run (step v) (some (start n)) es = some w) (m : Slot) : .destroy m ∉ w.log := by
  have hnone : ∀ u, run (step v) (some (start n)) es = some u → ∀ m, .destroy m ∉ u.log := by
    refine inv_run (q := fun s : Option World => ∀ u, s = some u → ∀ m, Effect.destroy m ∉ u.log)
      (fun s e hs u hu m hm => ?_) ?_ es
    · obtain ⟨w₀, rfl, hstep⟩ := Option.bind_eq_some_iff.mp hu
      obtain ⟨l, hlog, hl, -⟩ := log_step hstep
      rw [hlog] at hm
      exact (List.mem_append.mp hm).elim (hs w₀ rfl m) (hl m)
    · rintro u hu m hm
      obtain rfl := Option.some.inj hu
      cases hm
  exact hnone w hrun m

/-- **Pooled objects are destroyed in time** in a run exactly if, at each `createObject` at which a whole number of blocks
has been used up, nothing has been released before: then no slot is used a second time. -/
theorem destroyed_iff (v : Variant) {n : Nat} {es : List Event} (hv : Along (step v) (Valid v) (some (start n)) es)
    (hdone : ∀ w, run (step v) (some (start n)) es = some w → w.pending = []) :
    (∃ w, run (step v) (some (start n)) es = some w ∧ DestroyedBetween w.log) ↔
      Along (tally v) (FirstUse n) {} es := by
  refine Iff.trans (exists_congr fun w => and_congr_right fun hrun => ?_) ((fresh_start n).run_iff hv hdone)
  exact destroyedBetween_iff (destroy_not_mem hrun)

/-- Two blocks of two slots, and no object released before the second one is begun. -/
theorem destroyed_of_two :
    ∃ w, run (step .objectPoolShared) (some (start 2)) [.take, .construct ⟨0, 0⟩, .take, .construct ⟨0, 1⟩, .take,
      .construct ⟨1, 0⟩, .lastReference ⟨0, 0⟩] = some w ∧ DestroyedBetween w.log := by
  refine (destroyed_iff .objectPoolShared (n := 2) ?_ ?_).mpr (by decide)
  · simp [Along, Valid, step, World.step, start, Variant.getFree, ObjectPoolShared.getFreeObject,
      Pool.getFreeObjectMem, Pool.enableEnoughObjects, Pool.pushSlots, Pool.takeFront, Variant.releases]
  · rintro _ ⟨⟩
    rfl

/-- The slot of the first object is used again when the block has been used up, and no destructor has run. -/
theorem released_not_destroyed :
    (run (step .threadSafe) (some (start 1)) [.take, .construct ⟨0, 0⟩, .releaseObject (some ⟨0, 0⟩), .take,
      .construct ⟨0, 0⟩]).map World.log = some [.construct ⟨0, 0⟩, .release ⟨0, 0⟩, .construct ⟨0, 0⟩] ∧
      ¬ DestroyedBetween [.construct ⟨0, 0⟩, .release ⟨0, 0⟩, .construct ⟨0, 0⟩] := by
  refine ⟨by decide, fun h => ?_⟩
  exact absurd (h [.construct ⟨0, 0⟩] [] [] ⟨0, 0⟩ rfl (by decide)) (by decide)

end AsioUtils.Net.Util
