import Mathlib.Data.List.Sort
import Mathlib.Data.List.Forall2
import Mathlib.Algebra.BigOperators.Group.List.Basic
import Mathlib.Tactic.Ring

/-!
# Levelling a list of levels

A supply is poured over levels so that the lowest rise to a mark `q` first (`fill`), and what stands above the mark is
taken off (`clip`). Both loops stop at the first level that needs nothing, so they are used on sorted lists.

* `need q ls`, `surplus q ls` : what is missing below the mark, what stands above it;
* `fill_left` : on ascending levels the supply shrinks by `need`;
* `fill_bounds` : a level never falls, and rises to the mark at most;
* `fill_pos_iff` : when no level is left at `0`;
* `clip_eq` : on descending levels everything above the mark is taken.
-/

namespace WaterFill

/-- Raise the levels to `q`, one after the other, out of the supply `u`; the rest of the supply is returned. -/
def fill (q : Nat) : List Nat → Nat → List Nat × Nat
  | [], u => ([], u)
  | l :: ls, u =>
    if u = 0 ∨ q ≤ l then (l :: ls, u)
    else ((l + min (q - l) u) :: (fill q ls (u - (q - l))).1, (fill q ls (u - (q - l))).2)

/-- Lower the levels to `q`, one after the other, into the supply `u`. -/
def clip (q : Nat) : List Nat → Nat → List Nat × Nat
  | [], u => ([], u)
  | l :: ls, u =>
    if l ≤ q then (l :: ls, u) else (q :: (clip q ls (u + (l - q))).1, (clip q ls (u + (l - q))).2)

/-- What the levels lack of the mark. -/
def need (q : Nat) (ls : List Nat) : Nat := (ls.map (q - ·)).sum

/-- What stands above the mark. -/
def surplus (q : Nat) (ls : List Nat) : Nat := (ls.map (· - q)).sum

@[simp] theorem need_cons (q l : Nat) (ls : List Nat) : need q (l :: ls) = (q - l) + need q ls := by simp [need]

@[simp] theorem surplus_cons (q l : Nat) (ls : List Nat) : surplus q (l :: ls) = (l - q) + surplus q ls := by
  simp [surplus]

theorem need_perm {q : Nat} {ls ls' : List Nat} (h : ls.Perm ls') : need q ls = need q ls' := (h.map _).sum_eq

theorem surplus_perm {q : Nat} {ls ls' : List Nat} (h : ls.Perm ls') : surplus q ls = surplus q ls' :=
  (h.map _).sum_eq

theorem need_eq_zero {q : Nat} {ls : List Nat} : need q ls = 0 ↔ ∀ l ∈ ls, q ≤ l := by
  induction ls with
  | nil => simp [need]
  | cons l ls ih =>
    rw [need_cons, List.forall_mem_cons, ← ih]
    omega

theorem surplus_eq_zero {q : Nat} {ls : List Nat} : surplus q ls = 0 ↔ ∀ l ∈ ls, l ≤ q := by
  induction ls with
  | nil => simp [surplus]
  | cons l ls ih =>
    rw [surplus_cons, List.forall_mem_cons, ← ih]
    omega

/-- Levels up to the mark lack what the sum lacks. -/
theorem need_add_sum {q : Nat} {ls : List Nat} (h : ∀ l ∈ ls, l ≤ q) : need q ls + ls.sum = q * ls.length := by
  induction ls with
  | nil => simp [need]
  | cons l ls ih =>
    obtain ⟨hl, hls⟩ := List.forall_mem_cons.mp h
    have := ih hls
    rw [need_cons, List.sum_cons, List.length_cons, Nat.mul_succ]
    omega

/-- Levels above the mark only add to the sum. -/
theorem le_need_add_sum (q : Nat) (ls : List Nat) : q * ls.length ≤ need q ls + ls.sum := by
  induction ls with
  | nil => simp
  | cons l ls ih =>
    rw [need_cons, List.sum_cons, List.length_cons, Nat.mul_succ]
    omega

/-! ## Filling -/

theorem fill_of_zero (q : Nat) (ls : List Nat) : fill q ls 0 = (ls, 0) := by
  cases ls with
  | nil => rfl
  | cons l ls => rw [fill, if_pos (.inl rfl)]

theorem fill_of_le {q l : Nat} (h : q ≤ l) (ls : List Nat) (u : Nat) : fill q (l :: ls) u = (l :: ls, u) := by
  rw [fill, if_pos (.inr h)]

/-- A level never falls, and it rises to the mark at most. -/
theorem fill_bounds (q : Nat) (ls : List Nat) (u : Nat) :
    List.Forall₂ (fun l l' => l ≤ l' ∧ l' ≤ max l q) ls (fill q ls u).1 := by
  have hrefl : ∀ ls : List Nat, List.Forall₂ (fun l l' => l ≤ l' ∧ l' ≤ max l q) ls ls :=
    fun ls => List.forall₂_same.mpr fun l _ => ⟨le_rfl, le_max_left l q⟩
  induction ls generalizing u with
  | nil => exact .nil
  | cons l ls ih =>
    rw [fill]
    split_ifs with h
    · exact hrefl _
    · exact .cons (by omega) (ih _)

theorem forall_of_forall₂ {α β : Type*} {r : α → β → Prop} {P : α → Prop} {Q : β → Prop} {as : List α} {bs : List β}
    (h : List.Forall₂ r as bs) (hr : ∀ a b, r a b → P a → Q b) (hP : ∀ a ∈ as, P a) : ∀ b ∈ bs, Q b := by
  induction h with
  | nil => simp
  | cons hab _ ih =>
    obtain ⟨ha, has⟩ := List.forall_mem_cons.mp hP
    exact List.forall_mem_cons.mpr ⟨hr _ _ hab ha, ih has⟩

/-- A bound on the levels from below stays. -/
theorem le_fill {c q : Nat} {ls : List Nat} (h : ∀ l ∈ ls, c ≤ l) (u : Nat) : ∀ l ∈ (fill q ls u).1, c ≤ l :=
  forall_of_forall₂ (fill_bounds q ls u) (fun _ _ hl hc => hc.trans hl.1) h

/-- A bound from above stays when the mark respects it. -/
theorem fill_lt {c q : Nat} (hq : q < c) {ls : List Nat} (h : ∀ l ∈ ls, l < c) (u : Nat) :
    ∀ l ∈ (fill q ls u).1, l < c :=
  forall_of_forall₂ (fill_bounds q ls u) (fun _ _ hl hc => hl.2.trans_lt (max_lt hc hq)) h

/-- A bound from above on the new levels was one on the old ones. -/
theorem lt_of_fill_lt {c q : Nat} {ls : List Nat} {u : Nat} (h : ∀ l ∈ (fill q ls u).1, l < c) : ∀ l ∈ ls, l < c :=
  forall_of_forall₂ (fill_bounds q ls u).flip (fun _ _ hl hc => hl.1.trans_lt hc) h

/-- On ascending levels the supply shrinks by what they lack. -/
theorem fill_left {q : Nat} {ls : List Nat} (h : ls.Pairwise (· ≤ ·)) (u : Nat) :
    (fill q ls u).2 = u - need q ls := by
  induction ls generalizing u with
  | nil => simp [fill, need]
  | cons l ls ih =>
    obtain ⟨hl, hls⟩ := List.pairwise_cons.mp h
    by_cases hq : q ≤ l
    · have hneed : need q (l :: ls) = 0 := need_eq_zero.mpr fun x hx => by
        rcases List.mem_cons.mp hx with rfl | hx
        · exact hq
        · exact hq.trans (hl x hx)
      rw [fill_of_le hq, hneed]
      rfl
    · rw [fill]
      split_ifs with hu
      · show u = _
        omega
      · show (fill q ls (u - (q - l))).2 = _
        rw [ih hls, need_cons]
        omega

/-- A supply that is large enough lifts every level to the mark. -/
theorem fill_full {q : Nat} {ls : List Nat} (h : ls.Pairwise (· ≤ ·)) {u : Nat} (hu : need q ls ≤ u) :
    (fill q ls u).1 = ls.map (max q) := by
  induction ls generalizing u with
  | nil => rfl
  | cons l ls ih =>
    obtain ⟨hl, hls⟩ := List.pairwise_cons.mp h
    by_cases hq : q ≤ l
    · have hsame : ∀ x ∈ l :: ls, max q x = id x := by
        intro x hx
        rcases List.mem_cons.mp hx with rfl | hx
        · exact max_eq_right hq
        · exact max_eq_right (hq.trans (hl x hx))
      rw [fill_of_le hq, List.map_congr_left hsame, List.map_id]
    · rw [need_cons] at hu
      rw [fill, if_neg (by omega), List.map_cons]
      show (l + min (q - l) u) :: (fill q ls (u - (q - l))).1 = _
      rw [ih hls (by omega)]
      congr 1
      omega

/-- No level is left at `0` exactly when the supply reaches the last of the empty ones. -/
theorem fill_pos_iff {q : Nat} (hq : 0 < q) {ls : List Nat} (h : ls.Pairwise (· ≤ ·)) (u : Nat) :
    (∀ l ∈ (fill q ls u).1, 0 < l) ↔ ls.count 0 = 0 ∨ (ls.count 0 - 1) * q < u := by
  induction ls generalizing u with
  | nil => simp [fill]
  | cons l ls ih =>
    obtain ⟨hl, hls⟩ := List.pairwise_cons.mp h
    by_cases hl0 : l = 0
    · subst hl0
      by_cases hu : u = 0
      · subst hu
        rw [fill_of_zero]
        simp
      · have hcount : (0 :: ls).count 0 = ls.count 0 + 1 := List.count_cons_self
        rw [fill, if_neg (by omega), hcount]
        show (∀ l ∈ (0 + min (q - 0) u) :: (fill q ls (u - q)).1, 0 < l) ↔ _
        rw [List.forall_mem_cons, ih hls (u - q), and_iff_right (by omega), Nat.add_sub_cancel]
        cases ls.count 0 with
        | zero => omega
        | succ c =>
          have hmul : (c + 1) * q = c * q + q := Nat.succ_mul c q
          have hsub : c + 1 - 1 = c := rfl
          rw [hsub, hmul]
          omega
    · have hpos : ∀ x ∈ l :: ls, 0 < x := by
        intro x hx
        rcases List.mem_cons.mp hx with rfl | hx
        · omega
        · have := hl x hx
          omega
      refine iff_of_true (le_fill hpos u) (.inl ?_)
      exact List.count_eq_zero.mpr fun h0 => absurd (hpos 0 h0) (lt_irrefl 0)

/-! ## Clipping -/

/-- On descending levels everything above the mark is taken. -/
theorem clip_eq {q : Nat} {ls : List Nat} (h : ls.Pairwise (· ≥ ·)) (u : Nat) :
    clip q ls u = (ls.map (min q), u + surplus q ls) := by
  induction ls generalizing u with
  | nil => simp [clip, surplus]
  | cons l ls ih =>
    obtain ⟨hl, hls⟩ := List.pairwise_cons.mp h
    rw [clip]
    split_ifs with hq
    · have hle : ∀ x ∈ l :: ls, x ≤ q := by
        intro x hx
        rcases List.mem_cons.mp hx with rfl | hx
        · exact hq
        · exact (hl x hx).trans hq
      have hsame : ∀ x ∈ l :: ls, min q x = id x := fun x hx => min_eq_right (hle x hx)
      rw [surplus_eq_zero.mpr hle, List.map_congr_left hsame, List.map_id, Nat.add_zero]
    · rw [ih hls, List.map_cons, surplus_cons]
      simp only [Prod.mk.injEq, List.cons.injEq, and_true]
      omega

end WaterFill
