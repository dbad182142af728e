import Mathlib.Data.List.Induction
import Mathlib.Data.List.Basic

/-!
# Writing to an array

An array of `n` cells is a `Vector`; a write outside it is `none`.

* `put`, `copy` : one cell, and several from a place on (`std::copy`, or `*p++ = x` again and again);
* `swap`, `reverse` : `std::swap` of two cells, `std::reverse` of what lies between two places;
* `copy_spec`, `reverse_spec` : inside the array they go through, and what the array then holds;
* `copy_append` : what is written in two parts.
-/

namespace InPlace

variable {α : Type*} {n : Nat}

/-- `data[i] = x` -/
def put (data : Vector α n) (i : Nat) (x : α) : Option (Vector α n) := if h : i < n then some (data.set i x h) else none

def copy (data : Vector α n) (i : Nat) : List α → Option (Vector α n)
  | [] => some data
  | x :: xs => (put data i x).bind fun data => copy data (i + 1) xs

def swap (data : Vector α n) (i j : Nat) : Option (Vector α n) :=
  data[i]?.bind fun x => data[j]?.bind fun y => (put data i y).bind fun data => put data j x

/-- From both ends, until they meet. -/
def reverse (data : Vector α n) (first last : Nat) : Option (Vector α n) :=
  if first + 1 < last then (swap data first (last - 1)).bind fun data => reverse data (first + 1) (last - 1)
  else some data
termination_by last - first

theorem put_spec {data : Vector α n} {pre post : List α} {y : α} (h : data.toList = pre ++ y :: post) (x : α) :
    ∃ data', put data pre.length x = some data' ∧ data'.toList = pre ++ x :: post := by
  have hlt : pre.length < n := by
    have hlength := congrArg List.length h
    rw [Vector.length_toList, List.length_append, List.length_cons] at hlength
    omega
  refine ⟨_, dif_pos hlt, ?_⟩
  rw [Vector.toList_set, h, List.set_append_right _ _ (Nat.le_refl _), Nat.sub_self, List.set_cons_zero]

theorem copy_append (data : Vector α n) (i : Nat) (xs ys : List α) :
    copy data i (xs ++ ys) = (copy data i xs).bind fun data => copy data (i + xs.length) ys := by
  induction xs generalizing data i with
  | nil => rfl
  | cons x xs ih =>
    rw [List.cons_append, copy, copy, Option.bind_assoc, List.length_cons]
    refine Option.bind_congr fun data' _ => ?_
    rw [ih, Nat.add_assoc, Nat.add_comm 1]

/-- **Copying** replaces as much as it copies. -/
theorem copy_spec {data : Vector α n} {pre mid post : List α} (h : data.toList = pre ++ mid ++ post) {xs : List α}
    (hlength : mid.length = xs.length) :
    ∃ data', copy data pre.length xs = some data' ∧ data'.toList = pre ++ xs ++ post := by
  induction xs generalizing data pre mid with
  | nil =>
    obtain rfl := List.length_eq_zero_iff.mp hlength
    exact ⟨data, rfl, h⟩
  | cons x xs ih =>
    obtain ⟨y, mid, rfl⟩ := List.exists_cons_of_length_eq_add_one hlength
    obtain ⟨data₁, hput, hdata₁⟩ := put_spec (h.trans (List.append_assoc ..)) x
    have hsplit : data₁.toList = (pre ++ [x]) ++ mid ++ post := by simpa using hdata₁
    obtain ⟨data₂, hcopy, hdata₂⟩ := ih hsplit (Nat.succ.inj hlength)
    refine ⟨data₂, ?_, by simpa using hdata₂⟩
    rw [copy, hput, Option.bind_some, ← hcopy, List.length_append, List.length_singleton]

theorem swap_spec {data : Vector α n} {pre mid post : List α} {x y : α}
    (h : data.toList = pre ++ (x :: mid ++ [y]) ++ post) :
    ∃ data', swap data pre.length (pre.length + mid.length + 1) = some data' ∧
      data'.toList = (pre ++ [y]) ++ mid ++ (x :: post) := by
  have hfirst : data[pre.length]? = some x := by
    rw [← Vector.getElem?_toList, h]
    simp
  have hlast : data[pre.length + mid.length + 1]? = some y := by
    have hsplit : data.toList = (pre ++ x :: mid) ++ y :: post := by simpa using h
    have hlength : pre.length + mid.length + 1 = (pre ++ x :: mid).length := by
      rw [List.length_append, List.length_cons]
      omega
    rw [← Vector.getElem?_toList, hsplit, hlength, List.getElem?_append_right (Nat.le_refl _), Nat.sub_self,
      List.getElem?_cons_zero]
  have hfront : data.toList = pre ++ x :: (mid ++ [y] ++ post) := by simpa using h
  obtain ⟨data₁, hput₁, hdata₁⟩ := put_spec hfront y
  have hback : data₁.toList = (pre ++ y :: mid) ++ y :: post := by simpa using hdata₁
  obtain ⟨data₂, hput₂, hdata₂⟩ := put_spec hback x
  refine ⟨data₂, ?_, by simpa using hdata₂⟩
  rw [swap, hfirst, hlast, Option.bind_some, Option.bind_some, hput₁, Option.bind_some, ← hput₂]
  simp [Nat.add_assoc]

/-- **Reversing** what lies between two places. -/
theorem reverse_spec {data : Vector α n} {pre mid post : List α} (h : data.toList = pre ++ mid ++ post) :
    ∃ data', reverse data pre.length (pre.length + mid.length) = some data' ∧
      data'.toList = pre ++ mid.reverse ++ post := by
  induction mid using List.bidirectionalRec generalizing data pre post with
  | nil => exact ⟨data, by rw [reverse, if_neg (by simp)], h⟩
  | singleton x => exact ⟨data, by rw [reverse, if_neg (by simp)], h⟩
  | cons_append x mid y ih =>
    obtain ⟨data₁, hswap, hdata₁⟩ := swap_spec h
    obtain ⟨data₂, hreverse, hdata₂⟩ := ih hdata₁
    have hlast : pre.length + (x :: (mid ++ [y])).length - 1 = pre.length + mid.length + 1 := by
      simp
      omega
    refine ⟨data₂, ?_, by simpa using hdata₂⟩
    rw [reverse, if_pos (by simp), hlast, hswap, Option.bind_some, ← hreverse, List.length_append, List.length_singleton]
    congr 1
    omega

end InPlace
