import Mathlib.Data.List.Sort
import Mathlib.Data.List.Nodup

/-!
# `std::list` and range algorithms

The list operations of the C++ standard library, as their reference algorithms run, on any linear order. Stable sorting
is `List.insertionSort`, `std::list::remove` is a filter.

* `merge` : `std::list::merge`; a permutation of both lists whatever their order (`merge_perm`), ascending when both
  are (`merge_sorted`);
* `unique` : `std::list::unique`; no repetition is left in a sorted list (`unique_nodup`);
* `setInsert` : insertion into a `std::set`, kept as its ascending list of elements;
* `setDifference` : `std::set_difference`; on sorted ranges it subtracts multiplicities (`count_setDifference`).
-/

namespace StdList

variable {α : Type*} [LinearOrder α]

/-- `std::list::sort`. -/
abbrev sort (l : List α) : List α := l.insertionSort (· ≤ ·)

theorem sort_perm (l : List α) : (sort l).Perm l := List.perm_insertionSort _ l

theorem sort_sorted (l : List α) : (sort l).Pairwise (· ≤ ·) := List.pairwise_insertionSort _ l

/-- An element of a list, read in a list beside it. -/
theorem exists_mem_iff_of_forall₂ {β γ : Type*} {r : β → γ → Prop} {p : β → Prop} {q : γ → Prop} {l : List β} {l' : List γ}
    (h : List.Forall₂ r l l') (hiff : ∀ a b, r a b → (p a ↔ q b)) : (∃ a ∈ l, p a) ↔ ∃ b ∈ l', q b := by
  induction h with
  | nil => simp
  | cons hr _ ih => simp [hiff _ _ hr, ih]

/-- The first element of an ordered list decides whether some element has a property that goes against the order. -/
theorem any_head?_iff {β : Type*} {r : β → β → Prop} {p : β → Bool} (hp : ∀ a b, r a b → p b → p a) {l : List β}
    (h : l.Pairwise r) : l.head?.any p = true ↔ ∃ a ∈ l, p a = true := by
  cases l with
  | nil => simp
  | cons a l =>
    obtain ⟨ha, -⟩ := List.pairwise_cons.mp h
    show p a = true ↔ _
    constructor
    · intro hpa
      exact ⟨a, List.mem_cons_self, hpa⟩
    · rintro ⟨b, hb, hpb⟩
      rcases List.mem_cons.mp hb with rfl | hb
      · exact hpb
      · exact hp a b (ha b hb) hpb

/-- The last element decides for a property that goes with the order. -/
theorem any_getLast?_iff {β : Type*} {r : β → β → Prop} {p : β → Bool} (hp : ∀ a b, r a b → p a → p b) {l : List β}
    (h : l.Pairwise r) : l.getLast?.any p = true ↔ ∃ a ∈ l, p a = true := by
  rw [List.getLast?_eq_head?_reverse, any_head?_iff (fun a b hab => hp b a hab) (List.pairwise_reverse.mpr h)]
  simp only [List.mem_reverse]

/-- Merging `x :: xs` into a list; `rec` merges `xs`. -/
def mergeStep (x : α) (xs : List α) (rec : List α → List α) : List α → List α
  | [] => x :: xs
  | y :: ys => if y < x then y :: mergeStep x xs rec ys else x :: rec (y :: ys)

/-- `std::list::merge`: the first list's element goes first unless the second's is smaller. -/
def merge : List α → List α → List α
  | [], ys => ys
  | x :: xs, ys => mergeStep x xs (merge xs) ys

/-- The reference algorithm is that of `List.merge`. -/
theorem merge_eq (xs ys : List α) : merge xs ys = List.merge xs ys fun a b => decide (a ≤ b) := by
  induction xs generalizing ys with
  | nil => rw [List.nil_merge, merge]
  | cons x xs ih =>
    show mergeStep x xs (merge xs) ys = _
    induction ys with
    | nil => rw [mergeStep, List.merge_right]
    | cons y ys ihy =>
      rw [mergeStep, List.cons_merge_cons]
      by_cases hlt : y < x
      · rw [if_pos hlt, if_neg (by simpa using hlt), ihy]
      · rw [if_neg hlt, if_pos (by simpa using not_lt.mp hlt), ih]

/-- Merging keeps every element of both lists, sorted or not. -/
theorem merge_perm (xs ys : List α) : (merge xs ys).Perm (xs ++ ys) := by
  rw [merge_eq]
  exact List.merge_perm_append _

theorem mem_merge {xs ys : List α} {v : α} : v ∈ merge xs ys ↔ v ∈ xs ∨ v ∈ ys := by
  rw [(merge_perm xs ys).mem_iff, List.mem_append]

/-- Merging ascending lists gives an ascending one. -/
theorem merge_sorted {xs ys : List α} (hx : xs.Pairwise (· ≤ ·)) (hy : ys.Pairwise (· ≤ ·)) :
    (merge xs ys).Pairwise (· ≤ ·) := by
  rw [merge_eq]
  exact hx.merge hy

/-- `unique` of `x :: l`. -/
def uniqueFrom (x : α) : List α → List α
  | [] => [x]
  | y :: l => if x = y then uniqueFrom x l else x :: uniqueFrom y l

/-- `std::list::unique`: of a run of equal neighbours the first stays. -/
def unique : List α → List α
  | [] => []
  | x :: l => uniqueFrom x l

theorem mem_uniqueFrom {x : α} {l : List α} {v : α} : v ∈ uniqueFrom x l ↔ v = x ∨ v ∈ l := by
  induction l generalizing x with
  | nil => simp [uniqueFrom]
  | cons y l ih =>
    rw [uniqueFrom]
    split_ifs with h
    · subst h; simp [ih]
    · simp [ih]

theorem mem_unique {l : List α} {v : α} : v ∈ unique l ↔ v ∈ l := by
  cases l with
  | nil => exact Iff.rfl
  | cons x l => rw [unique, mem_uniqueFrom, List.mem_cons]

theorem uniqueFrom_sorted {x : α} {l : List α} (h : (x :: l).Pairwise (· ≤ ·)) :
    (uniqueFrom x l).Pairwise (· < ·) := by
  induction l generalizing x with
  | nil => simp [uniqueFrom]
  | cons y l ih =>
    obtain ⟨hx, hyl⟩ := List.pairwise_cons.mp h
    rw [uniqueFrom]
    split_ifs with hxy
    · subst hxy; exact ih hyl
    · refine List.pairwise_cons.mpr ⟨fun v hv => ?_, ih hyl⟩
      have hlt : x < y := lt_of_le_of_ne (hx y (by simp)) hxy
      rcases mem_uniqueFrom.mp hv with rfl | hv
      · exact hlt
      · exact hlt.trans_le ((List.pairwise_cons.mp hyl).1 v hv)

theorem unique_sorted {l : List α} (h : l.Pairwise (· ≤ ·)) : (unique l).Pairwise (· < ·) := by
  cases l with
  | nil => exact List.Pairwise.nil
  | cons x l => exact uniqueFrom_sorted h

theorem unique_nodup {l : List α} (h : l.Pairwise (· ≤ ·)) : (unique l).Nodup :=
  (unique_sorted h).imp fun hab heq => absurd (heq ▸ hab) (lt_irrefl _)

/-- `std::set::insert`, on the ascending list of the set's elements. -/
def setInsert (x : α) : List α → List α
  | [] => [x]
  | y :: l => if x < y then x :: y :: l else if y < x then y :: setInsert x l else y :: l

theorem mem_setInsert {x : α} {l : List α} {v : α} : v ∈ setInsert x l ↔ v = x ∨ v ∈ l := by
  induction l with
  | nil => simp [setInsert]
  | cons y l ih =>
    rw [setInsert]
    split_ifs with h1 h2
    · simp
    · simp only [List.mem_cons, ih]; tauto
    · obtain rfl : x = y := le_antisymm (not_lt.mp h2) (not_lt.mp h1)
      simp

/-- One element of the first range against the second; `rec` goes on with the rest of the first range. -/
def differenceStep (x : α) (xs : List α) (rec : List α → List α) : List α → List α
  | [] => x :: xs
  | y :: ys =>
    if x < y then x :: rec (y :: ys)
    else if y < x then differenceStep x xs rec ys
    else rec ys

/-- `std::set_difference`. -/
def setDifference : List α → List α → List α
  | [], _ => []
  | x :: xs, ys => differenceStep x xs (setDifference xs) ys

theorem count_eq_zero_of_lt {y : α} {ys : List α} {v : α} (h : (y :: ys).Pairwise (· ≤ ·)) (hv : v < y) :
    (y :: ys).count v = 0 := by
  refine List.count_eq_zero.mpr fun hmem => ?_
  rcases List.mem_cons.mp hmem with rfl | hmem
  · exact lt_irrefl _ hv
  · exact absurd ((List.pairwise_cons.mp h).1 v hmem) (not_le.mpr hv)

/-- On sorted ranges `set_difference` subtracts multiplicities. -/
theorem count_setDifference {xs ys : List α} (hx : xs.Pairwise (· ≤ ·)) (hy : ys.Pairwise (· ≤ ·)) (v : α) :
    (setDifference xs ys).count v = xs.count v - ys.count v := by
  induction xs generalizing ys with
  | nil => simp [setDifference]
  | cons x xs ih =>
    obtain ⟨hx0, hxs⟩ := List.pairwise_cons.mp hx
    show (differenceStep x xs (setDifference xs) ys).count v = _
    induction ys with
    | nil => simp [differenceStep]
    | cons y ys ihy =>
      obtain ⟨hy0, hys⟩ := List.pairwise_cons.mp hy
      rw [differenceStep]
      split_ifs with h1 h2
      · rw [List.count_cons, ih hxs hy, List.count_cons (l := xs)]
        by_cases hv : x = v
        · subst hv; simp [count_eq_zero_of_lt hy h1]
        · simp [hv]
      · rw [ihy hys, List.count_cons (a := v) (b := y)]
        by_cases hv : y = v
        · subst hv; simp [count_eq_zero_of_lt hx h2]
        · simp [hv]
      · obtain rfl : x = y := le_antisymm (not_lt.mp h2) (not_lt.mp h1)
        rw [ih hxs hys, List.count_cons, List.count_cons]
        by_cases hv : x = v <;> simp [hv]

/-- Nothing is left exactly when no element is oftener in the first range. -/
theorem setDifference_eq_nil {xs ys : List α} (hx : xs.Pairwise (· ≤ ·)) (hy : ys.Pairwise (· ≤ ·)) :
    setDifference xs ys = [] ↔ ∀ v, xs.count v ≤ ys.count v := by
  constructor
  · intro h v
    have := count_setDifference hx hy v
    rw [h, List.count_nil] at this
    omega
  · intro h
    refine List.eq_nil_iff_forall_not_mem.mpr fun v hv => ?_
    have hpos := List.count_pos_iff.mpr hv
    rw [count_setDifference hx hy v] at hpos
    have := h v
    omega

end StdList
